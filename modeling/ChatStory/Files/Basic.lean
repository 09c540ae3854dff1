/-!
What the command line and the test cases need of a file system. Operations that can fail tell
only whether the path leads nowhere or leads to something that does not serve.
-/
namespace ChatStory

inductive Obstacle where
  | missing
  | blocked
deriving DecidableEq

class Files (m : Type → Type) where
  /-- A path as seen from the working directory. -/
  absolute : String → m String
  isPresent : String → m Bool
  isDirectory : String → m Bool
  read : String → m (Except Obstacle String)
  /-- Writes a file in a directory that exists. -/
  write : String → String → m (Except Obstacle Unit)
  /-- Makes a directory and the directories in which it lies. -/
  makeDirectories : String → m (Except Obstacle Unit)
  /-- Gives a file another path; a file that was there is replaced. -/
  rename : String → String → m (Except Obstacle Unit)
  remove : String → m (Except Obstacle Unit)
  /-- The paths of the files at or below a path, in the order of a walk that takes the entries
  of each directory by name. -/
  filesBelow : String → m (List String)

/-- Reads files one after the other, up to the first that cannot be read, whose path is told. -/
def Files.readAll {m : Type → Type} [Monad m] [Files m] :
    List String → m (Except String (List String))
  | [] => return .ok []
  | path :: rest => do
    match ← Files.read path with
    | .error _ => return .error path
    | .ok content => return (← readAll rest).map (content :: ·)

end ChatStory
