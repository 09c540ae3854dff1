import ChatStory.Action

/-!
What a thread holds: its state and its messages. Notifications stand beside the threads.
-/
namespace ChatStory

inductive ThreadState where
  | active
  | locked
  | ended
deriving DecidableEq, Inhabited

/-- A closed thread takes no choices, and only a satisfied condition or an unlock opens it. -/
def ThreadState.isClosed : ThreadState → Bool
  | active => false
  | locked | ended => true

def ThreadState.name : ThreadState → String
  | active => "active"
  | locked => "locked"
  | ended => "ended"

inductive MessageKind where
  | text
  | photo
  | video
  | location
  | typing
  | unlockContact
  | endThread
deriving DecidableEq, Inhabited

def MessageKind.name : MessageKind → String
  | text => "text"
  | photo => "photo"
  | video => "video"
  | location => "location"
  | typing => "typing"
  | unlockContact => "unlock_contact"
  | endThread => "end_thread"

structure Message where
  id : String
  contact : String
  text : String
  timestamp : Nat
  fromPlayer : Bool
  kind : MessageKind
  media : Option String
  location : Option Pin
  read : Bool
deriving DecidableEq

structure Notification where
  contact : String
  title : Option String
  text : String
  timestamp : Nat
deriving DecidableEq

namespace Message

/-- A typing bubble is announced and never kept. -/
def typing (contact : String) (time : Nat) : Message where
  id := contact ++ "-typing-" ++ toString time
  contact := contact
  text := ""
  timestamp := time
  fromPlayer := false
  kind := .typing
  media := none
  location := none
  read := true

def endText : String := "The Conversation Has Ended"

def unlockText (contact : String) : String := contact ++ " has been unlocked"

end Message
end ChatStory
