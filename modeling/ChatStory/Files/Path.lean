import ChatStory.Text.Basic

/-!
Paths as texts. A path keeps its spelling, because messages show it.
-/
namespace ChatStory.Path

/-- A path as seen from another one. -/
def join (base path : String) : String :=
  if path.toList.head? = some '/' then path
  else if base = "" || base.toList.getLast? = some '/' then base ++ path
  else base ++ "/" ++ path

/-- A component that stands for the place itself. -/
def isStay (component : List Char) : Bool := component == [] || component == ['.']

def dropSlashes (cs : List Char) : List Char := cs.reverse.dropWhile (· == '/') |>.reverse

/-- Without what stands for the place itself at the end of a path, as far as something
stands before it. -/
def dropStays : Nat → List Char → List Char
  | 0, cs => cs
  | bound + 1, cs =>
    let cs := dropSlashes cs
    match Text.cutLast ['/'] cs with
    | some (before, ['.']) => dropStays bound before
    | _ => cs

/-- The path of the directory in which a path lies. A path of one component lies in the
place that the empty path names. -/
def parent? (path : String) : Option String :=
  let cs := dropStays path.length path.toList
  if cs.isEmpty then none
  else match Text.cutLast ['/'] cs with
    | some (before, _) =>
      let before := dropStays before.length before
      some (if before.isEmpty then "/" else String.ofList before)
    | none => some ""

/-- The last component of a path. -/
def fileName (path : String) : String :=
  let cs := dropStays path.length path.toList
  String.ofList (((Text.cutLast ['/'] cs).map (·.2)).getD cs)

/-- What follows the last point of a file name; a point at the start does not count. -/
def extension? (path : String) : Option String :=
  match Text.cutLast ['.'] (fileName path).toList with
  | some (_ :: _, after) => some (String.ofList after)
  | _ => none

end ChatStory.Path
