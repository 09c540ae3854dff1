import ChatStory.Files.Basic
import ChatStory.Files.Path
import ChatStory.Scenario.Fault

/-!
Where test cases are found: the scripts of a scenario are the files with the extension `twee`
below its directory, taken in the order of a walk by name.
-/
namespace ChatStory.Scenario

variable {m : Type → Type} [Monad m] [Files m]

def caseFile : String := "testcase.json"

/-- The script of a scenario: its files, joined. -/
def readSource (directory : String) : m (Except CaseFault String) := do
  let paths := (← Files.filesBelow directory).filter fun path =>
    Path.extension? path = some "twee"
  match ← Files.readAll paths with
  | .error path => return .error (.unreadableFile path)
  | .ok [] => return .error (.noScripts directory)
  | .ok contents => return .ok ("\n".intercalate contents)

def readCase (path : String) : m (Except CaseFault Case) := do
  match ← Files.read path with
  | .error _ => return .error (.unreadableFile path)
  | .ok content =>
    match (Json.parse? content).bind Case.read? with
    | none => return .error (.unreadableCase path)
    | some (schema, c) =>
      return if schema = Case.schema then .ok c else .error (.foreignCase schema)

/-- The components of a path, by which paths are ordered. -/
def components (path : String) : List String := (Text.splitAt '/' path.toList).map String.ofList

/-- The directories below a path that hold a case, in order. -/
def discover (path : String) : m (List String) := do
  let cases := (← Files.filesBelow path).filter fun file => Path.fileName file = caseFile
  return (cases.filterMap Path.parent?).mergeSort fun a b =>
    (compare (components a) (components b)).isLE

end ChatStory.Scenario
