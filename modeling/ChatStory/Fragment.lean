import ChatStory.Action
import ChatStory.Condition
import ChatStory.RoundKey

/-!
The pieces of a passage body. A body keeps every piece, seen or unseen, so that it can be
evaluated again when variables have changed.
-/
namespace ChatStory

structure Choice where
  text : String
  target : String
  targetRound : Option RoundKey
  action : Option Action
deriving DecidableEq

inductive Fragment where
  | text (text : String)
  /-- A block whose condition could not be read is never seen. -/
  | ifBlock (condition : Option Condition)
  | elseBlock
  | endBlock
  | assign (name : String) (value : Value)
  | choice (choice : Choice)
  | action (action : Action)
  | lineBreak
deriving DecidableEq

def Fragment.isMarkup : Fragment → Bool
  | .text _ | .lineBreak => false
  | _ => true

end ChatStory
