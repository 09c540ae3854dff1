import ChatStory.Compile
import ChatStory.Document.Save
import ChatStory.Session.Timeline
import ChatStory.Store

/-!
Sessions: a story in play together with the store that keeps its progress. Every operation is
given the reading of the clock. It settles what is due, and saves the progress with what is
still on the timeline, so that a session made from the store goes on where it was.
-/
namespace ChatStory

structure Options where
  /-- The typing delay with which a story starts. -/
  typingDelay : Nat := 2000
  /-- How long a typing bubble stays before the reply that it announces. -/
  indicator : Nat := 400
deriving DecidableEq

structure Session where
  play : Play
  store : Store
  options : Options

namespace Play

/-- The first contact that is open from the start opens the conversation. -/
def beginStory (play : Play) (now : Nat) : Play :=
  match play.program.opening? with
  | none => play
  | some contact => match contact.firstKey? with
    | some key => play.enter contact.name key now .immediate none
    | none => play

/-- The tasks on the timeline in the order in which they will be fired. -/
def savedTasks (play : Play) : List SavedTask :=
  play.queue.slots.map fun slot => ⟨slot.task.contact, slot.time, slot.task.delivery⟩

/-- Records what is on the timeline in the progress. -/
def recordTimeline (play : Play) : Play :=
  play.revise fun p => { p with deliveries := play.savedTasks }

/-- Drops all tasks and begins a new epoch. -/
def nextEpoch (play : Play) : Play := { play with queue := ∅, epoch := play.epoch + 1 }

/-- Puts saved tasks back on the timeline at their times. What is held back without a task
that would deliver it gets one now. -/
def resumeTimeline (play : Play) (now : Nat) : Play :=
  let saved := play.progress.deliveries
  let play := play.revise fun p => { p with deliveries := [] }
  let play := saved.foldl
    (fun play pending => play.schedule pending.contact pending.time pending.delivery) play
  let noticed (contact : String) : Bool :=
    saved.any fun pending => pending.delivery = .notices && pending.contact == contact
  let waiting := NameSet.ofNames (play.progress.unlocks.keys ++ play.progress.endings.keys)
  (waiting.keys.filter (!noticed ·)).foldl
    (fun play contact => play.schedule contact now .notices) play

end Play

namespace Session

/-- Saves the progress. A store that refuses keeps what it has. -/
def save (s : Session) : Session :=
  let play := s.play.recordTimeline
  { s with play := play, store := s.store.settle (s.store.write (Save.encode play.progress)) }

/-- The progress in a store, if there is any that can be read. -/
def restored? (store : Store) : Option Progress :=
  match store.read with
  | .ok (some document) => (Save.decode document).toOption
  | _ => none

/-- A session on a program that goes on from the store, or begins a new story. -/
def start (program : Program) (options : Options) (store : Store) (now : Nat) : Session :=
  let begin (progress : Progress) : Play := {
    program := program
    progress := progress
    queue := ∅
    epoch := 0
    indicator := options.indicator
    events := #[] }
  let play := match restored? store with
    | some progress => (begin (progress.fitTo program)).resumeTimeline now
    | none => (begin (.initial program options.typingDelay)).beginStory now
  save ⟨(play.fireDue now).1, store, options⟩

/-- The events since they were last taken, and the session without them. -/
def takeEvents (s : Session) : List Event × Session :=
  (s.play.events.toList, { s with play := { s.play with events := #[] } })

/-- Settles what is due and saves the progress. -/
def settle (s : Session) (play : Play) (now : Nat) : Session :=
  save { s with play := (play.fireDue now).1 }

/-- Fires what is due; the number of tasks comes with the session. -/
def tick (s : Session) (now : Nat) : Session × Nat :=
  let (play, fired) := s.play.fireDue now
  let after := { s with play := play }
  (if fired = 0 then after else after.save, fired)

/-- Fires what is on the timeline whatever the time is. -/
def flush (s : Session) : Session × Nat :=
  let (play, fired) := s.play.fireAll
  let after := { s with play := play }
  (if fired = 0 then after else after.save, fired)

def setVariable (s : Session) (name : String) (value : Value) (now : Nat) : Session :=
  s.settle (s.play.assign name value now) now

def setTypingDelay (s : Session) (delay : Nat) : Session :=
  save { s with play := s.play.revise fun p => { p with typingDelay := delay } }

/-- Runs actions as if they came with a reply sent now. -/
def execute (s : Session) (contact : String) (actions : List Action) (now : Nat) :
    Option Session :=
  if s.play.program.has contact then
    let (play, plan) := s.play.plan contact actions now
    some (s.settle (play.layOut contact "" plan now .immediate) now)
  else none

/-- Begins the story anew. -/
def reset (s : Session) (now : Nat) : Session :=
  let play := s.play.nextEpoch.revise fun _ => .initial s.play.program s.options.typingDelay
  { s with store := s.store.settle s.store.clear }.settle (play.beginStory now) now

/-- The variables that were changed away from the defaults. -/
def changedVariables (play : Play) : Variables :=
  play.progress.values.filter fun name value =>
    !(play.program.defaults.get? name).any (·.same value)

/-- Goes on with another program. Changed variables keep their values, and all others take
the new defaults. What was held back or on the timeline is dropped. -/
def switchProgram (s : Session) (program : Program) (now : Nat) : Session :=
  let values := program.defaults.insertMany (changedVariables s.play).toList
  let progress := { s.play.progress.fitTo program with
    values := values, unlocks := ∅, endings := Table.empty, deliveries := [] }
  let play := { s.play.nextEpoch with program := program, progress := progress }
  if progress.histories.values.all (·.isEmpty) then s.settle (play.beginStory now) now
  else save { s with play := play }

end Session
end ChatStory
