import ChatStory.Proofs.Scenario.Observed
import ChatStory.Proofs.Session.Pace

/-!
The pace of a test case. Whatever is queued is delivered before the next step of a case is taken, so the
typing delay seems to make no difference. It makes none where no round waits for a condition. Where one
does, a contact can be entered in the middle of what another one has to say, and how far that is put off
decides on the order.
-/
namespace ChatStory
namespace Scenario

open Session (AtRest)

/-- Every flush of a run leaves nothing on the timeline. -/
def Run.Drains (run : Run) (number : Nat) : List Step → Prop
  | [] => run.session.AtRest
  | step :: rest =>
    run.session.AtRest ∧ ∀ next, run.step number step = .ok next → next.Drains (number + 1) rest

/-- Every flush of a case that is run on a script leaves nothing on the timeline. -/
def Drains (source : String) (c : Case) : Prop := ∀ loaded,
  Session.create source { typingDelay := c.typingDelay } .empty 0 = .ok loaded →
    (Run.start loaded.session).Drains 0 c.steps

theorem Run.Drains.rests {run : Run} {number : Nat} {steps : List Step}
    (drains : run.Drains number steps) : run.session.AtRest := by
  cases steps with
  | nil => exact drains
  | cons step rest => exact drains.1

/-- A case at another pace. -/
def Case.paced (c : Case) (pace : Nat) : Case := { c with typingDelay := pace }

/-- A session of a run, where nothing waits and whoever can still be unlocked has had nothing to say. -/
structure Poised (s : Session) : Prop where
  lives : s.Lives
  rests : s.AtRest
  unused : s.play.Unused

theorem Poised.coherent {s : Session} (poised : Poised s) : s.play.Coherent := poised.lives.sound.coherent

theorem poised_observe {run : Run} {s : Session} (lives : s.Lives) (unused : s.play.Unused)
    (rests : (run.observe s).session.AtRest) : Poised (run.observe s).session := by
  have flushed : (s.perform 0 .flush).Lives := lives.perform 0 trivial
  have taken : (run.observe s).session.Lives :=
    flushed.perform 0 (show Operation.takeEvents.Compiled from trivial)
  obtain ⟨tasks, played⟩ := Session.play_flush s 0
  have fired : (s.perform 0 .flush).play.Unused := by
    rw [played]
    exact Play.lasting_unused.fireUpTo unused Play.fireLimit
  exact ⟨taken, rests, fired⟩

/-- Runs of which the same has been observed, and of which the same will be. -/
structure Run.Level (program : Program) (run other : Run) : Prop where
  first : Poised run.session
  second : Poised other.session
  level : Play.Level program none run.session.play other.session.play
  observed : run.observed = other.observed

/-- The same is rejected, or what is made of two runs is level. -/
inductive Both (program : Program) : Except CaseFault Run → Except CaseFault Run → Prop where
  | rejected (fault : CaseFault) : Both program (.error fault) (.error fault)
  | taken {run other : Run} : run.Level program other → Both program (.ok run) (.ok other)

section Runs

variable {program : Program} {run other : Run} {number : Nat} {step : Step}

/- What was taken comes to rest in both runs. -/
theorem level_observe (level : run.Level program other) (operation : Operation)
    (compiled : operation.Compiled) {start start' : Play}
    (acted : run.session.acted? 0 operation = some start)
    (acted' : other.session.acted? 0 operation = some start') (unused : start.Unused)
    (unused' : start'.Unused)
    (drained : (run.observe (run.session.perform 0 operation)).session.AtRest)
    (drained' : (other.observe (other.session.perform 0 operation)).session.AtRest)
    (goes : ∀ limit limit', (Play.fireUpTo limit start).1.queue.slots = [] →
      (Play.fireUpTo limit' start').1.queue.slots = [] →
        Play.Level program none (Play.fireUpTo limit start).1 (Play.fireUpTo limit' start').1) :
    (run.observe (run.session.perform 0 operation)).Level program
      (other.observe (other.session.perform 0 operation)) := by
  obtain ⟨⟨tasks, played⟩, _⟩ := Session.play_step acted
  obtain ⟨⟨tasks', played'⟩, _⟩ := Session.play_step acted'
  have rests : (run.session.step 0 operation).AtRest := drained
  have rests' : (other.session.step 0 operation).AtRest := drained'
  have reached : Play.Level program none (run.session.step 0 operation).play
      (other.session.step 0 operation).play := by
    rw [AtRest, played] at rests
    rw [AtRest, played'] at rests'
    rw [played, played']
    exact { goes _ _ rests rests' with }
  have performed := Session.keeps_of_acted Play.lasting_unused acted unused
  have performed' := Session.keeps_of_acted Play.lasting_unused acted' unused'
  refine ⟨poised_observe (level.first.lives.perform 0 compiled) performed drained,
    poised_observe (level.second.lives.perform 0 compiled) performed' drained',
    { reached with observed := rfl }, ?_⟩
  exact (congrArg (run.observed ++ ·) reached.observed).trans
    (congrArg (· ++ (other.session.step 0 operation).play.observed) level.observed)

/- A choice is there in both runs, or in none. -/
theorem level_choose (formed : program.WellFormed) (unconditional : program.Unconditional)
    (level : run.Level program other) (contact : String) (index : Nat)
    (drained : ∀ next, run.step number (.choose contact index) = .ok next → next.session.AtRest)
    (drained' : ∀ next, other.step number (.choose contact index) = .ok next → next.session.AtRest) :
    Both program (run.step number (.choose contact index)) (other.step number (.choose contact index)) := by
  have rejected : ∀ {r : Run}, r.session.play.choose? contact index 0 = none →
      r.step number (.choose contact index) = .error (.rejectedChoice number contact index) := by
    intro r none
    rw [Run.step, Session.choose_eq, none]
    rfl
  have taken : ∀ {r : Run} {start : Play}, r.session.play.choose? contact index 0 = some start →
      r.step number (.choose contact index) =
        .ok (r.observe (r.session.perform 0 (.choose contact index))) := by
    intro r start chosen
    rw [Run.step, Session.perform, Session.choose_eq, chosen]
    rfl
  have chosen : Option.Rel (Play.Level program none) (run.session.play.choose? contact index 0)
      (other.session.play.choose? contact index 0) :=
    (Play.parallel_level formed).choose? trivial level.level trivial index
  generalize first : run.session.play.choose? contact index 0 = start at chosen
  generalize second : other.session.play.choose? contact index 0 = start' at chosen
  cases chosen with
  | none =>
    rw [rejected first, rejected second]
    exact .rejected _
  | some _ =>
    have rests := drained _ (taken first)
    have rests' := drained' _ (taken second)
    rw [taken first, taken second]
    refine .taken (level_observe level (.choose contact index) trivial first second
      (Play.unused_choose level.first.unused level.first.lives.orderly first)
      (Play.unused_choose level.second.unused level.second.lives.orderly second) rests rests' ?_)
    intro limit limit' empty empty'
    exact level.level.chosen formed unconditional level.first.coherent level.second.coherent
      level.first.lives.orderly level.first.unused level.second.unused level.first.rests
      level.second.rests first second empty empty'

/- A step is taken in both runs, or rejected in both. -/
theorem level_step (formed : program.WellFormed) (unconditional : program.Unconditional)
    (level : run.Level program other)
    (drained : ∀ next, run.step number step = .ok next → next.session.AtRest)
    (drained' : ∀ next, other.step number step = .ok next → next.session.AtRest) :
    Both program (run.step number step) (other.step number step) := by
  cases step with
  | choose contact index => exact level_choose formed unconditional level contact index drained drained'
  | setVariable name value =>
    have rests := drained _ rfl
    have rests' := drained' _ rfl
    refine .taken (level_observe level (.setVariable name value) trivial rfl rfl
      (Play.unused_assign level.first.unused name value)
      (Play.unused_assign level.second.unused name value) rests rests' ?_)
    intro limit limit' _ _
    exact level.level.assigned formed unconditional level.first.rests level.second.rests name value _ _

/- By induction on the steps of a case. -/
theorem level_steps (formed : program.WellFormed) (unconditional : program.Unconditional)
    (level : run.Level program other) {steps : List Step} (drains : run.Drains number steps)
    (drains' : other.Drains number steps) : Both program (run.steps number steps) (other.steps number steps) := by
  induction steps generalizing run other number with
  | nil => exact .taken level
  | cons step rest ih =>
    obtain ⟨rests, goes⟩ := drains
    obtain ⟨rests', goes'⟩ := drains'
    have stepped := level_step formed unconditional level (fun next taken => (goes next taken).rests)
      fun next taken => (goes' next taken).rests
    unfold Run.steps
    generalize run.step number step = first at stepped goes
    generalize other.step number step = second at stepped goes'
    cases stepped with
    | rejected fault => exact .rejected fault
    | taken after => exact ih after (goes _ rfl) (goes' _ rfl)

end Runs

/-- The contact says something or is told something. -/
def Observation.isSaidBy (contact : String) : Observation → Bool
  | .message other .. => other = contact
  | _ => false

section Start

variable {program : Program} (formed : program.WellFormed)

include formed

/- What is put together from the histories of a new session is told by what has been observed of it. -/
theorem opening_of_observed (options : Options) :
    Run.opening (Session.start program options .empty 0) =
      (Session.start program options .empty 0).unlockedNames.flatMap fun contact =>
        (Session.start program options .empty 0).play.observed.filter (·.isSaidBy contact) := by
  unfold Run.opening
  congr 1
  funext contact
  rw [Session.history_start formed rfl, Play.observed, List.filter_filterMap, List.filter_filterMap,
    List.map_filterMap]
  refine List.filterMap_congr fun event _ => ?_
  cases event with
  | messageAdded m =>
    rw [Event.message?, Observation.ofEvent?]
    split
    · rfl
    · rw [Option.filter_some, Option.filter_some, Observation.isSaidBy]
      split
      · rfl
      · rfl
  | _ => rfl

theorem poised_start (compiled : program.Compiled) (options : Options)
    (rests : (Run.start (Session.start program options .empty 0)).session.AtRest) :
    Poised (Run.start (Session.start program options .empty 0)).session := by
  have begun : (Session.start program options .empty 0).Lives := .start options 0 compiled rfl
  have started : (Session.start program options .empty 0).play.Unused := by
    rw [Session.start_of_fresh rfl, Session.play_settle]
    exact Play.lasting_unused.fireDue (Play.unused_begun formed options) 0
  exact poised_observe (begun.perform 0 (show Operation.takeEvents.Compiled from trivial)) started rests

/- A new session at one pace, and one at another. -/
theorem level_start (compiled : program.Compiled) (unconditional : program.Unconditional) (g h : Nat)
    (rests : (Run.start (Session.start program { typingDelay := g } .empty 0)).session.AtRest)
    (rests' : (Run.start (Session.start program { typingDelay := h } .empty 0)).session.AtRest) :
    (Run.start (Session.start program { typingDelay := g } .empty 0)).Level program
      (Run.start (Session.start program { typingDelay := h } .empty 0)) := by
  have first := poised_start formed compiled _ rests
  have second := poised_start formed compiled _ rests'
  have opening := opening_of_observed formed { typingDelay := g }
  have opening' := opening_of_observed formed { typingDelay := h }
  have made : Play.Shifted program 0 0 (fun _ => True) none
      (Session.start program { typingDelay := g } .empty 0).play
      (Session.start program { typingDelay := h } .empty 0).play := by
    rw [Session.start_of_fresh rfl, Session.start_of_fresh rfl, Session.play_settle, Session.play_settle]
    exact { (Play.shifted_begun formed unconditional g h 400).fireDue formed unconditional 0 with }
  generalize Session.start program { typingDelay := g } .empty 0 = s at *
  generalize Session.start program { typingDelay := h } .empty 0 = r at *
  have opened : Run.opening s = Run.opening r := by
    rw [opening, opening', Session.unlockedNames, Session.unlockedNames, made.observed,
      made.program, made.symm.program, (Play.parallel_level formed).unlocked made.toLevel]
  obtain ⟨tasks, flushed⟩ := Session.play_flush s.takeEvents.2 0
  obtain ⟨tasks', flushed'⟩ := Session.play_flush r.takeEvents.2 0
  have cleared : Play.Shifted program 0 0 (fun _ => True) none s.takeEvents.2.play r.takeEvents.2.play :=
    { made with observed := rfl }
  have reached : Play.Level program none (s.takeEvents.2.perform 0 .flush).play
      (r.takeEvents.2.perform 0 .flush).play := by
    have empty : (s.takeEvents.2.perform 0 .flush).AtRest := rests
    have empty' : (r.takeEvents.2.perform 0 .flush).AtRest := rests'
    rw [AtRest, flushed] at empty
    rw [AtRest, flushed'] at empty'
    rw [flushed, flushed']
    exact { (cleared.drained formed unconditional empty empty').toLevel with }
  refine ⟨first, second, { reached with observed := rfl }, ?_⟩
  exact (congrArg (Run.opening s ++ ·) reached.observed).trans
    (congrArg (· ++ (r.takeEvents.2.perform 0 .flush).play.observed) opened)

end Start

theorem runSource_of_result {source : String} {program : Program}
    (result : (compile source).result = .ok program) (c : Case) : runSource source c =
      (Run.start (Session.start program { typingDelay := c.typingDelay } .empty 0)).steps 0 c.steps >>=
        fun run => .ok ⟨run.observed, c.steps.length, run.session.play.progress.threads⟩ := by
  rw [runSource, create_of_result result]
  rfl

/- Where no round waits for a condition, a case comes out the same at any pace at which all that is queued
is delivered before the next step: the same is observed, and the threads end in the same states, or the
same step is rejected. -/
theorem same_at_any_pace {source : String} (unconditional : (compile source).program.Unconditional)
    (c : Case) (g h : Nat) (drained : Drains source (c.paced g)) (drained' : Drains source (c.paced h)) :
    runSource source (c.paced g) = runSource source (c.paced h) := by
  cases result : (compile source).result with
  | error diagnostic =>
    have refused : ∀ pace, Session.create source { typingDelay := (c.paced pace).typingDelay } .empty 0 =
        .error (.script diagnostic) := by
      intro pace
      rw [Session.create, Session.programOf, result]
      rfl
    unfold runSource
    rw [refused g, refused h]
    rfl
  | ok program =>
    have drains : (Run.start (Session.start program { typingDelay := g } .empty 0)).Drains 0 c.steps :=
      drained ⟨_, (compile source).warnings⟩ (create_of_result result _ _ _)
    have drains' : (Run.start (Session.start program { typingDelay := h } .empty 0)).Drains 0 c.steps :=
      drained' ⟨_, (compile source).warnings⟩ (create_of_result result _ _ _)
    rw [Compilation.program_of_result result] at unconditional
    have compiled : program.Compiled := ⟨source, result⟩
    have level := level_start compiled.wellFormed compiled unconditional g h drains.rests drains'.rests
    have both := level_steps compiled.wellFormed unconditional level drains drains'
    have runs : ∀ pace, runSource source (c.paced pace) =
        (Run.start (Session.start program { typingDelay := pace } .empty 0)).steps 0 c.steps >>= fun run =>
          .ok ⟨run.observed, c.steps.length, run.session.play.progress.threads⟩ :=
      fun pace => runSource_of_result result (c.paced pace)
    rw [runs g, runs h]
    generalize Run.steps _ 0 c.steps = first at both ⊢
    generalize Run.steps _ 0 c.steps = second at both ⊢
    cases both with
    | rejected fault => rfl
    | @taken run other level =>
      have threads : run.session.play.progress.threads = other.session.play.progress.threads :=
        congrArg Play.Mind.threads level.level.mind
      change Except.ok _ = Except.ok _
      rw [level.observed, threads]

/-- Nothing waits when the session has been made and when the case has been run. -/
def drainsTwice : Session × Run → Bool
  | (session, run) => decide (Run.start session).session.AtRest && decide run.session.AtRest

theorem drains_picksFirst {source : String} {pace : Nat} {loaded : Loaded} {run : Run}
    (created : Session.create source { typingDelay := pace } .empty 0 = .ok loaded)
    (done : (Run.start loaded.session).steps 0 picksFirst.steps = .ok run)
    (drains : drainsTwice (loaded.session, run) = true) : Drains source (picksFirst.paced pace) := by
  obtain ⟨first, last⟩ := Bool.and_eq_true_iff.1 drains
  intro other again
  cases created.symm.trans again
  refine ⟨of_decide_eq_true first, fun next stepped => ?_⟩
  have same : (Run.start loaded.session).steps 0 picksFirst.steps = .ok next := by
    rw [picksFirst, Run.steps, stepped]
    rfl
  cases done.symm.trans same
  have rests : run.session.AtRest := of_decide_eq_true last
  exact rests

def meetsOther : Session × Run → Bool
  | (session, run) => drainsTwice (session, run) && run.observed.contains (.unlocked "B")

theorem ran_meetsOther :
    (ranWithin 9 Session.introducing (picksFirst.paced 0)).any meetsOther = true ∧
      (ranWithin 9 Session.introducing (picksFirst.paced 2000)).any drainsTwice = true := by
  decide +kernel

/- A reply is typed, another contact is unlocked with it, and both speak in the same order as at once. -/
theorem same_pace_introducing : (compile Session.introducing).program.Unconditional ∧
    Drains Session.introducing (picksFirst.paced 0) ∧ Drains Session.introducing (picksFirst.paced 2000) ∧
      ∃ report, .unlocked "B" ∈ report.observed ∧
        runSource Session.introducing (picksFirst.paced 0) = .ok report ∧
        runSource Session.introducing (picksFirst.paced 2000) = .ok report := by
  have unconditional : (compile Session.introducing).program.Unconditional := by decide +kernel
  obtain ⟨_, _, created, done, ran, shown⟩ := ran_of_any ran_meetsOther.1
  obtain ⟨_, _, created', done', _, shown'⟩ := ran_of_any ran_meetsOther.2
  obtain ⟨drains, unlocked⟩ := Bool.and_eq_true_iff.1 shown
  have drained := drains_picksFirst created done drains
  have drained' := drains_picksFirst created' done' shown'
  have same := same_at_any_pace unconditional picksFirst 0 2000 drained drained'
  exact ⟨unconditional, drained, drained', _, List.contains_iff_mem.1 unlocked, ran, same.symm.trans ran⟩

/-- A reply changes a variable and says something, each a little later. The change opens the other contact,
who says something too. -/
def overtakes : String :=
  ":: A-Round-1 [initial_contact]\nHi\n[[Go|A-Round-2]]\n\n:: A-Round-2 [chat]\nReply.\n" ++
    "[Action: set_variable: open to true, delay: 100]\n" ++
    "[Action: delayed_message: text: Psst, delay: 200]\n\n" ++
    ":: B-Round-1.0 [chat]\n(if: $open)Hello.(endif)\n"

/-- The case drains, and what it observes from the change on is that what is said comes in this order. -/
def observesInOrder (said : List (String × String)) : Session × Run → Bool
  | (session, run) => drainsTwice (session, run) &&
      decide (run.observed = [.message "A" "Hi" false, .message "A" "Go" true,
        .message "A" "Reply." false, .thread "B" .active, .unlocked "B"] ++
          said.map fun (contact, text) => .message contact text false)

theorem ran_at_once : (ranWithin 9 overtakes (picksFirst.paced 0)).any
    (observesInOrder [("B", "Hello."), ("A", "Psst")]) = true := by
  decide +kernel

theorem ran_typed : (ranWithin 9 overtakes (picksFirst.paced 2000)).any
    (observesInOrder [("A", "Psst"), ("B", "Hello.")]) = true := by
  decide +kernel

/- The message that a reply delays is overtaken by the contact whom it opens where there is no typing delay,
and is not where there is one. -/
theorem order_paced : ∃ atOnce typed : Report, runSource overtakes (picksFirst.paced 0) = .ok atOnce ∧
    runSource overtakes (picksFirst.paced 2000) = .ok typed ∧
      Drains overtakes (picksFirst.paced 0) ∧ Drains overtakes (picksFirst.paced 2000) ∧
        atOnce.observed = [.message "A" "Hi" false, .message "A" "Go" true,
          .message "A" "Reply." false, .thread "B" .active, .unlocked "B",
          .message "B" "Hello." false, .message "A" "Psst" false] ∧
        typed.observed = [.message "A" "Hi" false, .message "A" "Go" true,
          .message "A" "Reply." false, .thread "B" .active, .unlocked "B",
          .message "A" "Psst" false, .message "B" "Hello." false] := by
  obtain ⟨_, _, created, done, ran, shown⟩ := ran_of_any ran_at_once
  obtain ⟨_, _, created', done', ran', shown'⟩ := ran_of_any ran_typed
  obtain ⟨drains, observed⟩ := Bool.and_eq_true_iff.1 shown
  obtain ⟨drains', observed'⟩ := Bool.and_eq_true_iff.1 shown'
  exact ⟨_, _, ran, ran', drains_picksFirst created done drains, drains_picksFirst created' done' drains',
    of_decide_eq_true observed, of_decide_eq_true observed'⟩

end Scenario
end ChatStory
