import ChatStory.Fault
import ChatStory.Files.Basic
import ChatStory.Files.Path

/-!
The script that a command names: a file, or all files of a directory whose paths end in `.twee`,
in the order of their paths below it.
-/
namespace ChatStory.Command

variable {m : Type → Type} [Monad m] [Files m]

structure Script where
  /-- The path under which the script can be found again. -/
  path : String
  source : String

def scriptEnding : String := ".twee"

/-- The path of a file as seen from a directory, with slashes only. -/
def relativePath (directory file : String) : List Char :=
  let rest := (file.toList.drop directory.length).dropWhile (· == '/')
  rest.map fun c => if c == '\\' then '/' else c

/-- Files with their contents, in the order of their relative paths. -/
def inPathOrder (directory : String) (files : List (String × String)) : List (String × String) :=
  files.mergeSort fun a b =>
    (compare (String.ofList (relativePath directory a.1))
      (String.ofList (relativePath directory b.1))).isLE

def readDirectory (directory : String) : m (Except Fault String) := do
  let paths := (← Files.filesBelow directory).filter fun path =>
    scriptEnding.toList.isSuffixOf path.toList
  match ← Files.readAll paths with
  | .error path => return .error (.unreadableScript path)
  | .ok contents =>
    if contents.isEmpty then return .error (.emptyScript directory)
    else
      let files := inPathOrder directory (paths.zip contents)
      return .ok ("\n".intercalate (files.map (·.2)))

def readScript (script : String) : m (Except Fault Script) := do
  let path ← Files.absolute script
  if !(← Files.isPresent path) then return .error (.missingScript path)
  else if ← Files.isDirectory path then return (← readDirectory path).map (⟨path, ·⟩)
  else match ← Files.read path with
    | .ok source => return .ok ⟨path, source⟩
    | .error _ => return .error (.unreadableScript path)

end ChatStory.Command
