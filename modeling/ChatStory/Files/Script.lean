import ChatStory.Compile
import ChatStory.Fault
import ChatStory.Files.Basic

/-!
Compiling a script in a file.
-/
namespace ChatStory

def compileFile {m : Type → Type} [Monad m] [Files m] (path : String) :
    m (Except Fault Compilation) := do
  match ← Files.read path with
  | .ok source => return .ok (compile source)
  | .error _ => return .error (.unreadableSource path)

end ChatStory
