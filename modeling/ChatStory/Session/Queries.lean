import ChatStory.Session.Choosing
import ChatStory.Text.Quoted

/-!
Looking at a session, and what the player does by looking: a viewed thread is read, and
notifications are taken once.
-/
namespace ChatStory.Session

/-- Unlocked contacts in the order of the program. -/
def unlockedNames (s : Session) : List String :=
  s.play.program.order.filter s.play.progress.unlocked.has

def pendingTasks (s : Session) : Nat := s.play.queue.size

def nextTaskTime? (s : Session) : Option Nat := s.play.queue.nextTime?

/-- Marks an unlocked contact as viewed and all messages of the thread as read. -/
def view (s : Session) (contact : String) : Option Session :=
  if s.play.progress.unlocked.has contact then
    some (save { s with play := s.play.revise fun p => { p with
      viewed := p.viewed.add contact
      histories := match p.histories.get? contact with
        | some history => p.histories.insert contact (history.map fun m => { m with read := true })
        | none => p.histories } })
  else none

/-- The notifications, which are gone afterwards. -/
def collectNotifications (s : Session) : List Notification × Session :=
  let taken := s.play.progress.notifications
  if taken.isEmpty then (taken, s)
  else (taken, save { s with play := s.play.revise fun p => { p with notifications := [] } })

def display (s : Session) : String :=
  "Engine \x7b contacts: [" ++
    ", ".intercalate (s.play.program.order.map fun name => Text.Quoted.display name) ++
    "], epoch: " ++ toString s.play.epoch ++ ", pending_tasks: " ++ toString s.pendingTasks ++
    " \x7d"

end ChatStory.Session
