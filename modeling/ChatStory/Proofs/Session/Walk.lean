import ChatStory.Proofs.Session.Speech
import Mathlib.Logic.Relation

/-!
The steps of which a story is made. Whatever is done in it, and every task that is fired, is a walk of
such steps, and each step that changes what a listener can keep of the story announces this.
-/
namespace ChatStory

namespace Play

/-- The play with a variable set, which is announced. -/
def setVariable (play : Play) (name : String) (value : Value) : Play :=
  (play.revise fun p => { p with values := play.progress.values.insert name value }).announce
    (.variableChanged name value)

/-- One step of a story. A thread is only put to a state that it may take. -/
inductive Step (may : ThreadState → Prop) : Play → Play → Prop where
  /-- Nothing is said, nothing is announced, and no thread, no unlock and no variable changes. -/
  | quiet {a b : Play} : b.program = a.program → b.events = a.events →
    b.progress.histories = a.progress.histories → b.progress.nextId = a.progress.nextId →
    b.progress.threads = a.progress.threads → b.progress.unlocked = a.progress.unlocked →
    b.progress.values = a.progress.values → Step may a b
  | said (a : Play) (contact : String) {saying : Saying} (time : Nat) :
    saying.kind ≠ .typing → Step may a (a.say contact saying time)
  | typed (a : Play) (contact : String) (time : Nat) : Step may a (a.announceTyping contact time)
  | put (a : Play) (contact : String) {thread : ThreadState} :
    may thread → Step may a (a.putThread contact thread)
  | unlocked (a : Play) (contact : String) : Step may a (a.setUnlocked contact)
  | assigned (a : Play) {name : String} {value : Value} :
    (a.progress.values.get? name).any (·.same value) = false → Step may a (a.setVariable name value)
  | told (a : Play) (contact : String) (action : Action) :
    Step may a (a.announce (.actionExecuted contact action))

/-- Any number of steps. -/
def Walks (may : ThreadState → Prop) : Play → Play → Prop := Relation.ReflTransGen (Step may)

variable {may : ThreadState → Prop} {a b c : Play}

theorem Step.walks (step : Step may a b) : Walks may a b := Relation.ReflTransGen.single step

namespace Walks

theorem refl (may : ThreadState → Prop) (a : Play) : Walks may a a := Relation.ReflTransGen.refl

theorem trans (first : Walks may a b) (second : Walks may b c) : Walks may a c :=
  Relation.ReflTransGen.trans first second

/- What changes nothing that is told of is a step. -/
theorem of_quiet (program : b.program = a.program) (events : b.events = a.events)
    (histories : b.progress.histories = a.progress.histories)
    (nextId : b.progress.nextId = a.progress.nextId)
    (threads : b.progress.threads = a.progress.threads)
    (unlocked : b.progress.unlocked = a.progress.unlocked)
    (values : b.progress.values = a.progress.values) : Walks may a b :=
  (Step.quiet program events histories nextId threads unlocked values).walks

end Walks

/- Nothing that stands in a thread is taken back or changed. -/
theorem history_step (step : Step may a b) (contact : String) :
    a.progress.history contact <+: b.progress.history contact := by
  cases step with
  | quiet _ _ histories =>
    exact ⟨[], by rw [List.append_nil, Progress.history, Progress.history, histories]⟩
  | said other time kept =>
    rw [Speaks.history_say]
    split
    · rename_i same
      rw [same]
      exact List.prefix_append _ _
    · exact List.prefix_rfl
  | put other allowed =>
    rw [putThread_eq]
    exact List.prefix_rfl
  | unlocked other =>
    rw [setUnlocked_eq]
    exact List.prefix_rfl
  | typed other time | assigned fresh | told other action => exact List.prefix_rfl

theorem Walks.history (walks : Walks may a b) (contact : String) :
    a.progress.history contact <+: b.progress.history contact := by
  induction walks with
  | refl => exact List.prefix_rfl
  | tail _ step ih => exact ih.trans (history_step step contact)

theorem program_step (step : Step may a b) : b.program = a.program := by
  cases step with
  | quiet program => exact program
  | put other allowed => rw [putThread_eq]
  | unlocked other => rw [setUnlocked_eq]
  | said other time kept | typed other time | assigned fresh | told other action => rfl

theorem Walks.program (walks : Walks may a b) : b.program = a.program := by
  induction walks with
  | refl => rfl
  | tail _ step ih => exact (program_step step).trans ih

/-- Threads may only be put to active. -/
abbrev onlyOpens (thread : ThreadState) : Prop := thread = .active

/-- A closed thread that is opened again, before its round is entered. -/
def reopened (play : Play) (contact : String) : Play :=
  ((play.revise fun p => { p with endings := p.endings.remove contact }).putThread contact
    .active).setUnlocked contact

theorem reopen_succ (depth : Nat) (play : Play) (contact : String) (key : RoundKey) (time : Nat) :
    reopen (depth + 1) play contact key time = if play.progress.isClosed contact then
      enterWith (reopen depth) (play.reopened contact) contact key time .typed none else play := rfl

/-- Reopening walks, and puts threads to active only. -/
def Strolls (again : Reopening) : Prop :=
  ∀ play contact key time, Walks onlyOpens play (again play contact key time)

theorem spans_walks (opens : may .active) (time : Nat) : Spans time (Walks may) where
  refl := .refl may
  trans := .trans
  noted _ _ histories nextId threads unlocked values :=
    .of_quiet rfl rfl histories nextId threads unlocked values
  scheduled _ _ _ _ _ _ := .of_quiet rfl rfl rfl rfl rfl rfl rfl
  said a contact _ kept := (Step.said a contact time kept).walks
  typed a contact := (Step.typed a contact time).walks
  opened a contact := (Step.put a contact opens).walks
  unlocked a contact := (Step.unlocked a contact).walks
  assigned a _ _ fresh := (Step.assigned a fresh).walks
  told a contact action := (Step.told a contact action).walks

/- Threads only open while no task comes up that ends them. -/
theorem spans_strolls (time : Nat) : Spans time (Walks onlyOpens) :=
  have opens : onlyOpens .active := rfl
  spans_walks opens time

theorem strolls_reopen (depth : Nat) : Strolls (reopen depth) :=
  fun play contact key time => (spans_strolls time).reopen depth play contact key

theorem walks_assignWith {again : Reopening} (strolls : Strolls again) (a : Play) (name : String)
    (value : Value) (time : Nat) : Walks onlyOpens a (a.assignWith again name value time) :=
  (spans_strolls time).assignWith (strolls · · · time) a name value

theorem walks_runWith {again : Reopening} (strolls : Strolls again) (a : Play) (contact : String)
    (action : Action) (time : Nat) : Walks onlyOpens a (a.runWith again contact action time) :=
  (spans_strolls time).runWith (strolls · · · time) a contact action

theorem walks_assign (a : Play) (name : String) (value : Value) (time : Nat) :
    Walks onlyOpens a (a.assign name value time) := (spans_strolls time).assign a name value

/-- No thread may be put to locked. -/
abbrev neverLocks (thread : ThreadState) : Prop := thread ≠ .locked

/- Whatever is done, it never locks a thread. -/
theorem spans_neverLocks (time : Nat) : SpansAll time (Walks neverLocks) where
  toSpans := spans_walks nofun time
  ended a contact := (Step.put a contact nofun).walks

theorem walks_fire (a : Play) (slot : Slot) : Walks neverLocks a (a.fire slot) :=
  (spans_neverLocks slot.time).fire a

theorem walks_dropFirst (may : ThreadState → Prop) (a : Play) : Walks may a a.dropFirst :=
  .of_quiet rfl rfl rfl rfl rfl rfl rfl

theorem walks_recordTimeline (may : ThreadState → Prop) (a : Play) : Walks may a a.recordTimeline :=
  .of_quiet rfl rfl rfl rfl rfl rfl rfl

theorem lasting_walks (a : Play) : Lasting (Walks neverLocks a) where
  fires {play slot} walked _ :=
    (walked.trans (walks_dropFirst neverLocks play)).trans (walks_fire play.dropFirst slot)
  notes walked := walked.trans (walks_recordTimeline _ _)

theorem walks_fireDue (a : Play) (now : Nat) : Walks neverLocks a (a.fireDue now).1 :=
  (lasting_walks a).fireDue (.refl _ _) now

/-- What the player says by picking a choice. -/
def Saying.ofChoice (choice : Choice) : Saying := { text := choice.text, fromPlayer := true }

/-- The end of a thread in which no round is left. -/
def strand (play : Play) (contact : String) (now : Nat) : Play :=
  (play.revise fun p => { p with rounds := p.rounds.erase contact }).finishThread contact now

/-- Follows a choice once the player has picked it. -/
def follow (said : Play) (contact : String) (choice : Choice) (now : Nat) : Play :=
  match said.target? contact choice with
  | some key => said.enter contact key now .typed choice.action
  | none => said.strand contact now

theorem choose?_eq (a : Play) (contact : String) (index now : Nat) :
    a.choose? contact index now = (a.choices contact)[index]?.map fun choice =>
      (a.say contact (.ofChoice choice) now).follow contact choice now := by
  unfold choose?
  cases (a.choices contact)[index]? <;> rfl

/- A choice that a thread offers is one that its current round shows. -/
theorem round_of_offer {contact : String} {choice : Choice} (offered : choice ∈ a.choices contact) :
    ∃ round, a.roundOf? contact = some round ∧ choice ∈ (a.evaluation round).choices := by
  unfold choices at offered
  split at offered
  · cases current : a.roundOf? contact with
    | none =>
      rw [current] at offered
      cases offered
    | some round =>
      rw [current] at offered
      exact ⟨round, rfl, offered⟩
  · cases offered

/- A choice leads only to rounds that exist and can be entered. -/
theorem round_of_target {contact : String} {choice : Choice} {key : RoundKey}
    (leads : a.target? contact choice = some key) :
    ∃ round, a.program.round? contact key = some round ∧
      round.canEnter a.progress.values = true := by
  obtain ⟨entry, known, leads⟩ := Option.bind_eq_some_iff.1 leads
  obtain ⟨named, _, leads⟩ := Option.bind_eq_some_iff.1 leads
  obtain ⟨round, found, leads⟩ := Option.bind_eq_some_iff.1 leads
  obtain ⟨_, allowed, same⟩ := Option.bind_eq_some_iff.1 leads
  cases same
  refine ⟨round, ?_, Classical.byContradiction fun closed => ?_⟩
  · rw [Program.round?, known]
    exact found
  · change (if round.canEnter a.progress.values = true then some () else none) = some _ at allowed
    rw [if_neg closed] at allowed
    cases allowed

theorem walks_follow (a : Play) (contact : String) (choice : Choice) (now : Nat) :
    Walks neverLocks a (a.follow contact choice now) := by
  unfold follow
  split
  · exact (spans_neverLocks now).enter a contact _ .typed choice.action
  · have dropped : Walks neverLocks a
        (a.revise fun p => { p with rounds := p.rounds.erase contact }) :=
      .of_quiet rfl rfl rfl rfl rfl rfl rfl
    exact dropped.trans ((spans_neverLocks now).finishThread _ contact)

theorem walks_choose {contact : String} {index now : Nat}
    (chosen : a.choose? contact index now = some b) : Walks neverLocks a b :=
  (spans_neverLocks now).choose chosen

end Play

/-- The story goes on by it: a choice is made, something is set or run, or time passes. -/
def Operation.plays : Operation → Bool
  | choose .. | setVariable .. | execute .. | tick | flush => true
  | _ => false

theorem Operation.ongoing_of_plays {operation : Operation} (plays : operation.plays = true) :
    operation.Ongoing := by
  cases operation with
  | switchProgram program | reset => cases plays
  | _ => rfl

namespace Session

open Play

/- An operation by which the story goes on is a walk, from what it does at once to the last task that it
   fires. -/
theorem walks_perform (s : Session) (now : Nat) {operation : Operation}
    (plays : operation.plays = true) : Walks neverLocks s.play (s.perform now operation).play := by
  have ongoing := Operation.ongoing_of_plays plays
  refine perform_keeps (lasting_walks s.play) (.refl _ _)
    (fun start => (spans_neverLocks now).acted ongoing) ?_ ?_
  · rintro program rfl
    cases plays
  -- What does nothing at once is an input that is refused.
  · intro _ unacted waits
    cases operation with
    | choose contact index =>
      rw [perform, choose_eq, show s.play.choose? contact index now = none from unacted]
      exact .refl _ _
    | execute contact actions =>
      rw [perform, execute_eq, show s.play.execute? contact actions now = none from unacted]
      exact .refl _ _
    | setVariable name value | tick => cases unacted
    | flush => exact absurd rfl waits
    | _ => cases plays

end Session
end ChatStory
