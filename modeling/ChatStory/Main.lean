import ChatStory.Command.Run
import Std.Time.DateTime.Timestamp

/-!
The program itself: it runs a command line on the files of the machine, at the time of day.
-/
namespace ChatStory

def obstacleOf : IO.Error → Obstacle
  | .noFileOrDirectory .. => .missing
  | _ => .blocked

def attempt {α : Type} (action : IO α) : IO (Except Obstacle α) := do
  try return .ok (← action)
  catch error => return .error (obstacleOf error)

/-- What a path leads to. -/
def kindAt (path : String) : IO (Except Obstacle IO.FS.FileType) :=
  attempt do return (← (← IO.FS.realPath path).metadata).type

/-- The names in a directory, in order; none if it cannot be read. A link is named with the
kind of the link. -/
def entriesIn (path : String) : IO (List (String × IO.FS.FileType)) := do
  let found ← attempt do
    (← (← IO.FS.realPath path).readDir).toList.mapM fun entry => do
      return (entry.fileName, (← entry.path.symlinkMetadata).type)
  return (found.toOption.getD []).mergeSort fun a b => (compare a.1 b.1).isLE

/-- Walks down from a path without following links. -/
partial def walk (path : String) : IO.FS.FileType → IO (List String)
  | .file => return [path]
  | .dir => do
    let below ← (← entriesIn path).mapM fun (name, kind) => walk (Path.join path name) kind
    return below.flatten
  | _ => return []

instance : Files IO where
  absolute path := return Path.join (← IO.currentDir).toString path
  isPresent path := return (← kindAt path).isOk
  isDirectory path := return (← kindAt path).toOption.any fun
    | .dir => true
    | _ => false
  read path := attempt (IO.FS.readFile path)
  write path content := attempt (IO.FS.writeFile path content)
  makeDirectories path := attempt (IO.FS.createDirAll path)
  rename source target := attempt (IO.FS.rename source target)
  remove path := attempt (IO.FS.removeFile path)
  filesBelow path := do
    match ← kindAt path with
    | .ok kind => walk path kind
    | .error _ => return []

def usage : List String :=
  ["usage: threadscript compile --script PATH",
   "       threadscript agent start --script PATH --state-out PATH [--typing-delay MS]",
   "       threadscript agent choose --state-in PATH --state-out PATH --contact NAME --choice N",
   "       threadscript agent set-var --state-in PATH --state-out PATH --name NAME --value TEXT"]

end ChatStory

open ChatStory

def main (args : List String) : IO UInt32 := do
  let now ← Std.Time.Timestamp.now
  let outcome ← Command.execute args now.toMillisecondsSinceUnixEpoch.val.toNat
  match Command.read args with
  | .ok _ => outcome.lines.forM IO.println
  | .error .help => usage.forM IO.println
  | .error .wrong => usage.forM IO.eprintln
  return outcome.code.toUInt32
