import ChatStory.Proofs.Session.Firing
import ChatStory.Session.Queries

/-!
Runs of a session. Whoever holds a session performs operations on it, each at some reading of the
clock. Most of them do something at once and then fire what is due; the tasks that are
fired on the way are listed with the play in which each of them comes up.
-/
namespace ChatStory

inductive Operation where
  | choose (contact : String) (index : Nat)
  | setVariable (name : String) (value : Value)
  | setTypingDelay (delay : Nat)
  | execute (contact : String) (actions : List Action)
  | tick
  | flush
  | view (contact : String)
  | collectNotifications
  | takeEvents
  | switchProgram (program : Program)
  | reset

/-- Other programs come from scripts without errors too. -/
def Operation.Compiled : Operation → Prop
  | switchProgram program => program.Compiled
  | _ => True

/-- Other programs are those of scripts. -/
def Operation.Scripted : Operation → Prop
  | switchProgram program => program.Scripted
  | _ => True

theorem Operation.Compiled.scripted {operation : Operation} (compiled : operation.Compiled) :
    operation.Scripted := by
  cases operation with
  | switchProgram program => exact Program.Compiled.scripted compiled
  | _ => trivial

/-- The story begins anew, with the same program or with another one. -/
def Operation.restarts : Operation → Bool
  | switchProgram _ | reset => true
  | _ => false

/-- The story goes on. -/
abbrev Operation.Ongoing (operation : Operation) : Prop := operation.restarts = false

/-- A moment of a run: something has been done at once, or a task that was taken from the timeline
has been fired. -/
inductive Moment where
  | acted (play : Play)
  | fired (before : Play) (slot : Slot)

def Moment.play : Moment → Play
  | acted play => play
  | fired before slot => before.fire slot

def Moment.slot? : Moment → Option Slot
  | acted _ => none
  | fired _ slot => some slot

namespace Play

/-- The play after some moments. -/
def last (play : Play) : List Moment → Play
  | [] => play
  | moment :: rest => moment.play.last rest

/-- The tasks that are due, in the order in which they come up. -/
def firings (play : Play) (now : Nat) : List Moment :=
  match _h : play.queue.due? now with
  | none => []
  | some slot => .fired play.dropFirst slot :: (play.dropFirst.fire slot).firings now
termination_by play.rank now
decreasing_by exact rank_fire_lt ‹_›

def firingsUpTo : Nat → Play → List Moment
  | 0, _ => []
  | limit + 1, play =>
    match play.queue.next? with
    | none => []
    | some slot => .fired play.dropFirst slot :: firingsUpTo limit (play.dropFirst.fire slot)

/-- A choice that was picked and followed, before time is looked at. -/
def choose? (play : Play) (contact : String) (index now : Nat) : Option Play := do
  let choice ← (play.choices contact)[index]?
  let said := play.say contact { text := choice.text, fromPlayer := true } now
  return match said.target? contact choice with
    | some key => said.enter contact key now .typed choice.action
    | none =>
      (said.revise fun p => { p with rounds := p.rounds.erase contact }).finishThread contact now

/-- Actions that were run as if they came with a reply. -/
def execute? (play : Play) (contact : String) (actions : List Action) (now : Nat) : Option Play :=
  if play.program.has contact then
    some ((play.plan contact actions now).1.layOut contact "" (play.plan contact actions now).2 now
      .immediate)
  else none

/-- A story that begins. -/
def begun (program : Program) (options : Options) (now : Nat) : Play :=
  beginStory {
    program := program
    progress := .initial program options.typingDelay
    queue := ∅
    epoch := 0
    indicator := options.indicator
    events := #[] } now

/-- The play after its program was replaced, before a new story begins in it. -/
def switched (play : Play) (program : Program) : Play :=
  { play.nextEpoch with
    program := program
    progress := { play.progress.fitTo program with
      values := program.defaults.insertMany (Session.changedVariables play).toList
      unlocks := ∅
      endings := Table.empty
      deliveries := [] } }

/-- The play after the messages of a contact were looked at. -/
def viewed (play : Play) (contact : String) : Play :=
  play.revise fun p => { p with
    viewed := p.viewed.add contact
    histories := match p.histories.get? contact with
      | some history => p.histories.insert contact (history.map fun m => { m with read := true })
      | none => p.histories }

end Play

namespace Session

/-- The session after an operation. One that is refused changes nothing. -/
def perform (s : Session) (now : Nat) : Operation → Session
  | .choose contact index => (s.choose contact index now).getD s
  | .setVariable name value => s.setVariable name value now
  | .setTypingDelay delay => s.setTypingDelay delay
  | .execute contact actions => (s.execute contact actions now).getD s
  | .tick => (s.tick now).1
  | .flush => s.flush.1
  | .view contact => (s.view contact).getD s
  | .collectNotifications => s.collectNotifications.2
  | .takeEvents => s.takeEvents.2
  | .switchProgram program => s.switchProgram program now
  | .reset => s.reset now

/-- What an operation does at once, if it then fires what is due. -/
def acted? (s : Session) (now : Nat) : Operation → Option Play
  | .choose contact index => s.play.choose? contact index now
  | .setVariable name value => some (s.play.assign name value now)
  | .execute contact actions => s.play.execute? contact actions now
  | .tick => some s.play
  | .switchProgram program =>
    if (s.play.switched program).progress.histories.values.all (·.isEmpty) then
      some ((s.play.switched program).beginStory now)
    else none
  | .reset => some
    ((s.play.nextEpoch.revise fun _ => .initial s.play.program s.options.typingDelay).beginStory now)
  | _ => none

/-- The tasks that an operation fires. -/
def firings (s : Session) (now : Nat) (operation : Operation) : List Moment :=
  match operation, s.acted? now operation with
  | .flush, _ => s.play.firingsUpTo Play.fireLimit
  | _, some play => play.firings now
  | _, none => []

/-- The moments of an operation: what it does at once, the tasks that it fires, and the play that it
leaves to the session. -/
def moments (s : Session) (now : Nat) (operation : Operation) : List Moment :=
  (s.acted? now operation).toList.map .acted ++
    (s.firings now operation ++ [.acted (s.perform now operation).play])

def performAll (s : Session) : List (Nat × Operation) → Session
  | [] => s
  | (now, operation) :: rest => (s.perform now operation).performAll rest

def allMoments (s : Session) : List (Nat × Operation) → List Moment
  | [] => []
  | (now, operation) :: rest => s.moments now operation ++ (s.perform now operation).allMoments rest

/-- The moments of a new story under some operations, from its beginning on. -/
def storyMoments (program : Program) (options : Options) (store : Store) (now : Nat)
    (steps : List (Nat × Operation)) : List Moment :=
  .acted (.begun program options now) :: ((Play.begun program options now).firings now ++
    .acted (start program options store now).play ::
      (start program options store now).allMoments steps)

/-- What an operation leaves that does nothing at once: it is refused, or it is about how the story is
told and not about the story. -/
inductive Aside (a : Play) : Play → Prop where
  | refused : Aside a a
  | paced (delay : Nat) : Aside a (a.revise fun p => { p with typingDelay := delay }).recordTimeline
  | viewed {contact : String} :
    a.progress.unlocked.has contact = true → Aside a (a.viewed contact).recordTimeline
  | collected : Aside a (a.revise fun p => { p with notifications := [] }).recordTimeline
  | taken : Aside a { a with events := #[] }

/-- What may be done at once, if some operations are allowed. -/
inductive Acts (allowed : Operation → Prop) : Play → Play → Prop where
  | acted {s : Session} {now : Nat} {operation : Operation} {play : Play} :
    allowed operation → s.acted? now operation = some play → Acts allowed s.play play
  | unacted {s : Session} {now : Nat} {operation : Operation} :
    allowed operation → s.acted? now operation = none → operation ≠ .flush →
      Acts allowed s.play (s.perform now operation).play
  | noted (play : Play) : Acts allowed play play.recordTimeline
  | still (play : Play) : Acts allowed play play

/-- The moments follow a play, each of them the one before it. -/
inductive Follows (allowed : Operation → Prop) : Play → List Moment → Prop where
  | nil (play : Play) : Follows allowed play []
  | acted {a b : Play} {rest : List Moment} :
    Acts allowed a b → Follows allowed b rest → Follows allowed a (.acted b :: rest)
  | fired {a : Play} {slot : Slot} {rest : List Moment} :
    a.queue.next? = some slot → Follows allowed (a.dropFirst.fire slot) rest →
      Follows allowed a (.fired a.dropFirst slot :: rest)

/-- A session that can be reached from a new story by any operations. -/
inductive Reached : Session → Prop where
  | start {program : Program} (options : Options) {store : Store} (now : Nat) :
    program.Compiled → restored? store = none → Reached (start program options store now)
  | perform {s : Session} {operation : Operation} (now : Nat) :
    Reached s → operation.Compiled → Reached (s.perform now operation)

end Session

namespace Play

variable {play : Play} {now : Nat}

theorem fireDue_of_none (none : play.queue.due? now = none) : play.fireDue now = (play, 0) := by
  unfold fireDue
  split
  · rfl
  · rename_i some
    rw [none] at some
    cases some

theorem fireDue_of_some {slot : Slot} (some : play.queue.due? now = some slot) :
    play.fireDue now =
      (((play.dropFirst.fire slot).fireDue now).1, ((play.dropFirst.fire slot).fireDue now).2 + 1) := by
  rw [fireDue]
  split
  · rename_i none
    rw [some] at none
    cases none
  · rename_i same
    rw [some] at same
    cases same
    rfl

theorem firings_of_none (none : play.queue.due? now = none) : play.firings now = [] := by
  unfold firings
  split
  · rfl
  · rename_i some
    rw [none] at some
    cases some

theorem firings_of_some {slot : Slot} (some : play.queue.due? now = some slot) :
    play.firings now = .fired play.dropFirst slot :: (play.dropFirst.fire slot).firings now := by
  rw [firings]
  split
  · rename_i none
    rw [some] at none
    cases none
  · rename_i same
    rw [some] at same
    cases same
    rfl

theorem next_of_due {slot : Slot} (due : play.queue.due? now = some slot) :
    play.queue.next? = some slot ∧ slot.time ≤ now := by
  obtain ⟨next, early⟩ := Option.filter_eq_some_iff.1 due
  exact ⟨next, by simpa using early⟩

/- What every task keeps holds when none of them is due any more. -/
theorem fireDue_keeps {P : Play → Prop} {play : Play}
    (step : ∀ play slot, P play → play.queue.due? now = some slot → P (play.dropFirst.fire slot))
    (start : P play) : P (play.fireDue now).1 ∧ (play.fireDue now).1.queue.due? now = none := by
  cases due : play.queue.due? now with
  | none =>
    rw [fireDue_of_none due]
    exact ⟨start, due⟩
  | some slot =>
    rw [fireDue_of_some due]
    exact fireDue_keeps step (step play slot start due)
termination_by play.rank now
decreasing_by exact rank_fire_lt due

theorem fireUpTo_keeps {P : Play → Prop}
    (step : ∀ play slot, P play → play.queue.next? = some slot → P (play.dropFirst.fire slot))
    (limit : Nat) (start : P play) : P (fireUpTo limit play).1 := by
  induction limit generalizing play with
  | zero => exact start
  | succ limit ih =>
    unfold fireUpTo
    split
    · exact start
    · rename_i slot next
      exact ih (step play slot start next)

/-- Kept by every task that comes up, and where what is on the timeline is noted in a save. -/
structure Lasting (P : Play → Prop) : Prop where
  fires {play : Play} {slot : Slot} :
    P play → play.queue.next? = some slot → P (play.dropFirst.fire slot)
  notes {play : Play} : P play → P play.recordTimeline

theorem Lasting.fireDue {P : Play → Prop} (lasting : Lasting P) (holds : P play) (now : Nat) :
    P (play.fireDue now).1 :=
  (fireDue_keeps (fun _ _ kept due => lasting.fires kept (next_of_due due).1) holds).1

theorem Lasting.fireUpTo {P : Play → Prop} (lasting : Lasting P) (holds : P play) (limit : Nat) :
    P (fireUpTo limit play).1 :=
  fireUpTo_keeps (fun _ _ => lasting.fires) limit holds

theorem fireDue_untouched (unfired : (play.fireDue now).2 = 0) : (play.fireDue now).1 = play := by
  cases due : play.queue.due? now with
  | none => rw [fireDue_of_none due]
  | some slot =>
    rw [fireDue_of_some due] at unfired
    cases unfired

variable {R : Play → Play → Prop}

theorem SpansAll.choose (spans : SpansAll now R) {a b : Play} {contact : String} {index : Nat}
    (chosen : a.choose? contact index now = some b) : R a b := by
  unfold choose? at chosen
  obtain ⟨choice, _, rest⟩ := Option.bind_eq_some_iff.1 chosen
  cases rest
  let said := a.say contact { text := choice.text, fromPlayer := true } now
  have speaks : R a said := spans.said a contact nofun
  apply spans.trans speaks
  split
  · exact spans.enter said contact _ .typed choice.action
  · have erased : R said (said.revise fun p => { p with rounds := p.rounds.erase contact }) :=
      spans.noted said rfl rfl rfl rfl rfl
    exact spans.trans erased (spans.finishThread _ contact)

theorem Spans.execute (spans : Spans now R) {a b : Play} {contact : String} {actions : List Action}
    (executed : a.execute? contact actions now = some b) : R a b := by
  unfold execute? at executed
  split at executed
  · cases executed
    have planned : R a (a.plan contact actions now).1 := spans.plan a contact actions
    exact spans.trans planned (spans.layOut _ contact "" .immediate (delayed_planWith _ contact _))
  · cases executed

theorem Spans.beginStory (spans : Spans now R) (a : Play) : R a (a.beginStory now) := by
  unfold Play.beginStory
  split
  · exact spans.refl a
  · split
    · exact spans.enter a _ _ .immediate none
    · exact spans.refl a

/- While a story goes on, it is led by what is done at once. -/
theorem SpansAll.acted (spans : SpansAll now R) {s : Session} {operation : Operation} {start : Play}
    (ongoing : operation.Ongoing) (acted : s.acted? now operation = some start) : R s.play start := by
  cases operation with
  | choose contact index => exact spans.choose acted
  | setVariable name value =>
    cases acted
    exact spans.assign s.play name value
  | execute contact actions => exact spans.execute acted
  | tick =>
    cases acted
    exact spans.refl s.play
  | switchProgram program | reset => cases ongoing
  | setTypingDelay delay | flush | view contact | collectNotifications | takeEvents => cases acted

end Play

namespace Session

theorem choose_eq (s : Session) (contact : String) (index now : Nat) :
    s.choose contact index now = (s.play.choose? contact index now).map (s.settle · now) := by
  unfold choose Play.choose?
  cases (s.play.choices contact)[index]? <;> rfl

theorem execute_eq (s : Session) (contact : String) (actions : List Action) (now : Nat) :
    s.execute contact actions now = (s.play.execute? contact actions now).map (s.settle · now) := by
  unfold execute Play.execute?
  split <;> rfl

theorem switchProgram_eq (s : Session) (program : Program) (now : Nat) :
    s.switchProgram program now =
      if (s.play.switched program).progress.histories.values.all (·.isEmpty) then
        s.settle ((s.play.switched program).beginStory now) now
      else save { s with play := s.play.switched program } := rfl

/- A story of another program begins only if nobody has said anything in it. -/
theorem begun_of_switch {s : Session} {program : Program} {now : Nat} {start : Play}
    (acted : s.acted? now (.switchProgram program) = some start) :
    start = (s.play.switched program).beginStory now ∧
      (s.play.switched program).progress.histories.values.all (·.isEmpty) = true := by
  simp only [acted?] at acted
  split at acted
  · rename_i empty
    cases acted
    exact ⟨rfl, empty⟩
  · cases acted

theorem play_of_unbegun {s : Session} {program : Program} {now : Nat}
    (unacted : s.acted? now (.switchProgram program) = none) :
    (s.perform now (.switchProgram program)).play = (s.play.switched program).recordTimeline := by
  simp only [acted?] at unacted
  split at unacted
  · cases unacted
  · rename_i spoken
    rw [perform, switchProgram_eq, if_neg spoken]
    rfl

theorem start_of_fresh {program : Program} {options : Options} {store : Store} {now : Nat}
    (fresh : restored? store = none) : start program options store now =
      (Session.mk (Play.begun program options now) store options).settle
        (Play.begun program options now) now := by
  unfold start
  rw [fresh]
  rfl

/- What an operation does at once is what it fires from. -/
theorem play_perform_of_acted {s : Session} {now : Nat} {operation : Operation} {start : Play}
    (acted : s.acted? now operation = some start) :
    (s.perform now operation).play = (start.fireDue now).1 ∨
      (s.perform now operation).play = (start.fireDue now).1.recordTimeline := by
  cases operation with
  | choose contact index =>
    right
    rw [perform, choose_eq, show s.play.choose? contact index now = some start from acted]
    rfl
  | setVariable name value =>
    cases acted
    exact .inr rfl
  | execute contact actions =>
    right
    rw [perform, execute_eq, show s.play.execute? contact actions now = some start from acted]
    rfl
  | tick =>
    cases acted
    by_cases unfired : (s.play.fireDue now).2 = 0
    · left
      unfold perform tick
      simp only [unfired, if_true]
    · right
      unfold perform tick
      simp only [unfired, if_false]
      rfl
  | switchProgram program =>
    right
    obtain ⟨rfl, empty⟩ := begun_of_switch acted
    rw [perform, switchProgram_eq, if_pos empty]
    rfl
  | reset =>
    cases acted
    exact .inr rfl
  | setTypingDelay delay | flush | view contact | collectNotifications | takeEvents => cases acted

/- What lasts holds after an operation if it holds after what the operation does at once. -/
theorem keeps_of_acted {P : Play → Prop} (lasting : Play.Lasting P) {s : Session} {now : Nat}
    {operation : Operation} {start : Play} (acted : s.acted? now operation = some start)
    (holds : P start) : P (s.perform now operation).play := by
  have fired := lasting.fireDue holds now
  rcases play_perform_of_acted acted with same | same
  · rw [same]
    exact fired
  · rw [same]
    exact lasting.notes fired

/- What lasts is kept by an operation if it is kept by what the operation does at once, and where its
   program is replaced before a story begins, or nothing happens. -/
theorem perform_keeps {P : Play → Prop} (lasting : Play.Lasting P) {s : Session} {now : Nat}
    {operation : Operation} (holds : P s.play)
    (acts : ∀ start, s.acted? now operation = some start → P start)
    (switches : ∀ program, operation = .switchProgram program → P (s.play.switched program))
    (rests : operation.Ongoing → s.acted? now operation = none → operation ≠ .flush →
      P (s.perform now operation).play) : P (s.perform now operation).play := by
  cases acted : s.acted? now operation with
  | some start => exact keeps_of_acted lasting acted (acts start acted)
  | none =>
    cases operation with
    | flush =>
      have fired := lasting.fireUpTo holds Play.fireLimit
      unfold perform flush Play.fireAll
      dsimp only
      split
      · exact fired
      · exact lasting.notes fired
    | switchProgram program =>
      rw [play_of_unbegun acted]
      exact lasting.notes (switches program rfl)
    | reset => cases acted
    | _ => exact rests rfl acted nofun

theorem aside_of_unacted {s : Session} {now : Nat} {operation : Operation}
    (ongoing : operation.Ongoing) (unacted : s.acted? now operation = none)
    (waits : operation ≠ .flush) : Aside s.play (s.perform now operation).play := by
  cases operation with
  | choose contact index =>
    rw [perform, choose_eq, show s.play.choose? contact index now = none from unacted]
    exact .refused
  | execute contact actions =>
    rw [perform, execute_eq, show s.play.execute? contact actions now = none from unacted]
    exact .refused
  | setTypingDelay delay => exact .paced delay
  | view contact =>
    rw [perform, view]
    split
    · exact .viewed ‹_›
    · exact .refused
  | collectNotifications =>
    unfold perform collectNotifications
    dsimp only
    split
    · exact .refused
    · exact .collected
  | takeEvents => exact .taken
  | flush => exact absurd rfl waits
  | setVariable name value | tick => cases unacted
  | switchProgram program | reset => cases ongoing

theorem firings_of_acted {s : Session} {now : Nat} {operation : Operation} {start : Play}
    (acted : s.acted? now operation = some start) : s.firings now operation = start.firings now := by
  cases operation with
  | flush => cases acted
  | _ =>
    unfold firings
    rw [acted]

theorem play_settle (s : Session) (play : Play) (now : Nat) :
    (s.settle play now).play = (play.fireDue now).1.recordTimeline := rfl

theorem settle_keeps {P : Play → Prop} (lasting : Play.Lasting P) (s : Session) {play : Play}
    (holds : P play) (now : Nat) : P (s.settle play now).play :=
  lasting.notes (lasting.fireDue holds now)

end Session

namespace Play

theorem last_append (play : Play) (first second : List Moment) :
    play.last (first ++ second) = (play.last first).last second := by
  induction first generalizing play with
  | nil => rfl
  | cons moment rest ih => exact ih moment.play

theorem last_mem (play : Play) (moments : List Moment) :
    play.last moments = play ∨ ∃ m ∈ moments, m.play = play.last moments := by
  induction moments generalizing play with
  | nil => exact .inl rfl
  | cons moment rest ih =>
    right
    rcases ih moment.play with same | ⟨m, member, same⟩
    · exact ⟨moment, List.mem_cons_self, same.symm⟩
    · exact ⟨m, List.mem_cons_of_mem moment member, same⟩

end Play

namespace Session

open Play

variable {allowed : Operation → Prop}

theorem Follows.append {a : Play} {first second : List Moment} (leads : Follows allowed a first)
    (goes_on : Follows allowed (a.last first) second) : Follows allowed a (first ++ second) := by
  induction leads with
  | nil => exact goes_on
  | acted acts _ ih => exact .acted acts (ih goes_on)
  | fired next _ ih => exact .fired next (ih goes_on)

theorem Follows.split {a : Play} {first second : List Moment}
    (follows : Follows allowed a (first ++ second)) :
    Follows allowed a first ∧ Follows allowed (a.last first) second := by
  induction first generalizing a with
  | nil => exact ⟨.nil a, follows⟩
  | cons moment rest ih =>
    cases follows with
    | acted acts later =>
      obtain ⟨before, after⟩ := ih later
      exact ⟨.acted acts before, after⟩
    | fired next later =>
      obtain ⟨before, after⟩ := ih later
      exact ⟨.fired next before, after⟩

theorem follows_fireDue (allowed : Operation → Prop) (play : Play) (now : Nat) :
    Follows allowed play (play.firings now) ∧ play.last (play.firings now) = (play.fireDue now).1 := by
  cases due : play.queue.due? now with
  | none =>
    rw [Play.firings_of_none due, Play.fireDue_of_none due]
    exact ⟨.nil play, rfl⟩
  | some slot =>
    rw [Play.firings_of_some due, Play.fireDue_of_some due]
    obtain ⟨follows, last⟩ := follows_fireDue allowed (play.dropFirst.fire slot) now
    exact ⟨.fired (Play.next_of_due due).1 follows, last⟩
termination_by play.rank now
decreasing_by exact Play.rank_fire_lt due

theorem follows_fireUpTo (allowed : Operation → Prop) (limit : Nat) (play : Play) :
    Follows allowed play (play.firingsUpTo limit) ∧
      play.last (play.firingsUpTo limit) = (Play.fireUpTo limit play).1 := by
  induction limit generalizing play with
  | zero => exact ⟨.nil play, rfl⟩
  | succ limit ih =>
    unfold Play.firingsUpTo Play.fireUpTo
    cases next : play.queue.next? with
    | none => exact ⟨.nil play, rfl⟩
    | some slot =>
      obtain ⟨follows, last⟩ := ih (play.dropFirst.fire slot)
      exact ⟨.fired next follows, last⟩

theorem moments_of_acted {s : Session} {now : Nat} {operation : Operation} {start : Play}
    (acted : s.acted? now operation = some start) : s.moments now operation =
      .acted start :: (start.firings now ++ [.acted (s.perform now operation).play]) := by
  unfold moments
  rw [acted, firings_of_acted acted]
  rfl

/- What is done at once is followed by what is due then, whatever may be done later. -/
theorem follows_of_acted {s : Session} {now : Nat} {operation : Operation} {start : Play}
    (acted : s.acted? now operation = some start) (allowed : Operation → Prop) :
    Follows allowed start (start.firings now ++ [.acted (s.perform now operation).play]) := by
  obtain ⟨follows, last⟩ := follows_fireDue allowed start now
  have leaves : Acts allowed (start.last (start.firings now)) (s.perform now operation).play := by
    rw [last]
    rcases play_perform_of_acted acted with same | same
    · rw [same]
      exact .still _
    · rw [same]
      exact .noted _
  exact follows.append (.acted leaves (.nil _))

/- The moments of an operation lead to the play in which it leaves the session. -/
theorem follows_moments (s : Session) (now : Nat) {operation : Operation} (may : allowed operation) :
    Follows allowed s.play (s.moments now operation) ∧
      s.play.last (s.moments now operation) = (s.perform now operation).play := by
  have ends : ∀ (play : Play) before, play.last (before ++ [.acted (s.perform now operation).play]) =
      (s.perform now operation).play := fun play before => last_append play before _
  cases acted : s.acted? now operation with
  | some start =>
    rw [moments_of_acted acted]
    exact ⟨.acted (.acted may acted) (follows_of_acted acted allowed), ends start _⟩
  | none =>
    unfold moments
    rw [acted]
    by_cases flush : operation = .flush
    · subst flush
      obtain ⟨follows, last⟩ := follows_fireUpTo allowed Play.fireLimit s.play
      have leaves : Acts allowed (s.play.last (s.play.firingsUpTo Play.fireLimit))
          (s.perform now .flush).play := by
        rw [last]
        unfold perform Session.flush Play.fireAll
        dsimp only
        split
        · exact .still _
        · exact .noted _
      exact ⟨follows.append (.acted leaves (.nil _)), ends s.play _⟩
    · have idle : s.firings now operation = [] := by
        cases operation with
        | flush => exact absurd rfl flush
        | _ =>
          unfold firings
          rw [acted]
      rw [idle]
      exact ⟨.acted (.unacted may acted flush) (.nil _), rfl⟩

theorem follows_allMoments (allowed : Operation → Prop) (s : Session) {steps : List (Nat × Operation)}
    (may : ∀ step ∈ steps, allowed step.2) : Follows allowed s.play (s.allMoments steps) ∧
      s.play.last (s.allMoments steps) = (s.performAll steps).play := by
  induction steps generalizing s with
  | nil => exact ⟨.nil _, rfl⟩
  | cons step rest ih =>
    obtain ⟨now, operation⟩ := step
    obtain ⟨first, others⟩ := List.forall_mem_cons.1 may
    obtain ⟨follows, last⟩ := follows_moments s now first
    obtain ⟨later, ends⟩ := ih (s.perform now operation) others
    unfold allMoments performAll
    constructor
    · apply follows.append
      rw [last]
      exact later
    · rw [last_append, last]
      exact ends

theorem follows_story {program : Program} (options : Options) {store : Store}
    (fresh : restored? store = none) (now : Nat) {steps : List (Nat × Operation)}
    (may : ∀ step ∈ steps, allowed step.2) : ∃ rest,
      storyMoments program options store now steps = .acted (.begun program options now) :: rest ∧
      Follows allowed (.begun program options now) rest := by
  refine ⟨_, rfl, ?_⟩
  obtain ⟨follows, last⟩ := follows_fireDue allowed (.begun program options now) now
  apply follows.append
  have leaves : Acts allowed ((Play.begun program options now).last
      ((Play.begun program options now).firings now)) (start program options store now).play := by
    rw [last, start_of_fresh fresh]
    exact .noted _
  exact .acted leaves (follows_allMoments allowed _ may).1

/-- A story passes through the plays of all sessions that its operations leave. -/
theorem performAll_mem_storyMoments (program : Program) (options : Options) (store : Store) (now : Nat)
    (steps : List (Nat × Operation)) : ∃ m ∈ storyMoments program options store now steps,
      m.play = ((start program options store now).performAll steps).play := by
  have free : ∀ step ∈ steps, True := fun _ _ => trivial
  have ends := (follows_allMoments (fun _ => True) (start program options store now) free).2
  rw [← ends]
  rcases last_mem (start program options store now).play
    ((start program options store now).allMoments steps) with same | ⟨m, member, same⟩
  · refine ⟨.acted (start program options store now).play, ?_, same.symm⟩
    exact List.mem_cons_of_mem _ (List.mem_append_right _ List.mem_cons_self)
  · exact ⟨m, List.mem_cons_of_mem _ (List.mem_append_right _ (List.mem_cons_of_mem _ member)), same⟩

end Session
end ChatStory
