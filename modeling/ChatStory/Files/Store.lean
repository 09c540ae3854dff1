import ChatStory.Fault
import ChatStory.Files.Basic
import ChatStory.Files.Path

/-!
A store in a file. A file that is not there is an empty store, and the directories in which it
lies are made when it is written.
-/
namespace ChatStory.Files.Store

variable {m : Type → Type} [Monad m] [Files m]

def read (path : String) : m (Except Fault (Option String)) := do
  match ← Files.read path with
  | .ok document => return .ok (some document)
  | .error .missing => return .ok none
  | .error .blocked => return .error .unreadableStore

def write (path document : String) : m (Except Fault Unit) := do
  let parent := (Path.parent? path).getD ""
  match ← Files.makeDirectories (if parent = "" then "." else parent) with
  | .error _ => return .error .unwritableStore
  | .ok () => return (← Files.write path document).mapError fun _ => .unwritableStore

def clear (path : String) : m (Except Fault Unit) := do
  match ← Files.remove path with
  | .error .blocked => return .error .unwritableStore
  | _ => return .ok ()

end ChatStory.Files.Store
