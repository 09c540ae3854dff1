import ChatStory.Event
import ChatStory.Progress

/-!
A story in play: a program, the progress in it, the tasks that wait, and what has been announced.
The functions here are the small steps from which all others are made; each of them says
what it announces.
-/
namespace ChatStory

structure Play where
  program : Program
  progress : Progress
  queue : Queue
  epoch : Nat
  /-- How long a typing bubble stays before the reply that it announces. -/
  indicator : Nat
  /-- What has been announced since the events were last taken. -/
  events : Array Event

namespace Play

/-- Changes the progress and nothing else. -/
def revise (play : Play) (change : Progress → Progress) : Play :=
  { play with progress := change play.progress }

def announce (play : Play) (event : Event) : Play :=
  { play with events := play.events.push event }

/-- The time at which a task asked for at `time` would come up. -/
def timeFor (play : Play) (contact : String) (time : Nat) : Nat :=
  play.queue.effectiveTime contact time

def schedule (play : Play) (contact : String) (time : Nat) (delivery : Delivery) : Play :=
  { play with queue := play.queue.schedule time ⟨contact, play.epoch, delivery⟩ }

/-- What a new message says; the rest of it follows from where and when it is added. -/
structure Saying where
  text : String
  kind : MessageKind := .text
  fromPlayer : Bool := false
  media : Option String := none
  location : Option Pin := none

/-- The notice that ends a thread. -/
def Saying.ofEnd : Saying := { text := Message.endText, kind := .endThread }

/-- The notice that a contact has been unlocked. -/
def Saying.ofUnlock (contact : String) : Saying :=
  { text := Message.unlockText contact, kind := .unlockContact }

/-- Adds a message to a contact's history. What the player says counts as read. -/
def say (play : Play) (contact : String) (saying : Saying) (time : Nat) : Play :=
  let message : Message := {
    id := contact ++ "-" ++ toString play.progress.nextId
    contact := contact
    text := saying.text
    timestamp := time
    fromPlayer := saying.fromPlayer
    kind := saying.kind
    media := saying.media
    location := saying.location
    read := saying.fromPlayer }
  (play.revise fun p => { p with
    nextId := p.nextId + 1
    histories := p.histories.insert contact (p.history contact ++ [message]) }).announce
      (.messageAdded message)

def announceTyping (play : Play) (contact : String) (time : Nat) : Play :=
  play.announce (.messageAdded (.typing contact time))

def putThread (play : Play) (contact : String) (thread : ThreadState) : Play :=
  let after := play.revise fun p => { p with threads := p.threads.insert contact thread }
  if play.progress.thread? contact = some thread then after
  else after.announce (.threadChanged contact thread)

def setUnlocked (play : Play) (contact : String) : Play :=
  if play.progress.unlocked.has contact then play
  else
    (play.revise fun p => { p with unlocked := p.unlocked.add contact }).announce
      (.contactUnlocked contact)

/-- Ends a thread with a notice, unless it has ended. -/
def finishThread (play : Play) (contact : String) (time : Nat) : Play :=
  if play.progress.thread? contact = some .ended then play
  else (play.say contact .ofEnd time).putThread contact .ended

/-- What a round shows under the variables as they are. -/
def evaluation (play : Play) (round : Round) : Evaluation :=
  round.evaluation play.progress.values

end Play
end ChatStory
