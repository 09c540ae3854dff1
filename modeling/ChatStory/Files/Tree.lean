import ChatStory.Files.Basic
import ChatStory.Files.Path
import ChatStory.Table

/-!
File trees in memory. A tree holds the nodes below its root, the working directory, each under
the names that lead to it; so the order of keys is the order of a walk by name.
-/
namespace ChatStory

inductive FileNode where
  | directory
  | text (content : String)
  /-- A file whose bytes are no text. -/
  | binary
deriving DecidableEq

structure FileTree where
  /-- The path under which the root is shown. -/
  root : String
  nodes : Table (List String) FileNode
deriving DecidableEq

namespace FileTree

/-- A place that can only be reached by going up from the root. Nothing is known of it but that
it is a directory. -/
def isAbove (place : List String) : Bool := place.all (· == "..")

def node? (t : FileTree) (place : List String) : Option FileNode :=
  if isAbove place then some .directory else t.nodes.get? place

def isDirectoryAt (t : FileTree) (place : List String) : Bool := t.node? place = some .directory

/-- The place in which a place lies. From the root on, the way up is part of the place. -/
def up (place : List String) : List String :=
  if isAbove place then place ++ [".."] else place.dropLast

/-- The most bytes that a path may have. -/
def pathLimit : Nat := 4095

/-- The most bytes that a name in a directory may have. -/
def nameLimit : Nat := 255

/-- Whether a text can be a path at all, wherever it may lead. -/
def isPath (path : String) : Bool := path.utf8ByteSize ≤ pathLimit && !path.toList.contains '\x00'

/-- Whether a step can be taken from a place: only from a directory, and only by a name that is
not too long. -/
def allows (t : FileTree) (place : List String) (step : String) : Bool :=
  t.isDirectoryAt place && step.utf8ByteSize ≤ nameLimit

/-- The steps of a path, as seen from the root, unless it lies outside. -/
def steps (t : FileTree) (path : String) : Except Obstacle (List String) :=
  let split (s : List Char) := (Text.splitAt '/' s).map String.ofList
  if !isPath path then .error .blocked
  else if path = "" then .error .missing
  else if t.root.toList.isPrefixOf path.toList then
    match path.toList.drop t.root.length with
    | [] => .ok []
    | '/' :: rest => .ok (split rest)
    | _ => .ok (split path.toList)
  else if path.toList.head? = some '/' then .error .missing
  else .ok (split path.toList)

/-- Goes from a place to where steps lead. -/
def follow (t : FileTree) (place : List String) : List String → Except Obstacle (List String)
  | [] => .ok place
  | step :: rest =>
    if !t.allows place step then .error .blocked
    else if Path.isStay step.toList then t.follow place rest
    else if step = ".." then t.follow (up place) rest
    else if (t.node? (place ++ [step])).isSome then t.follow (place ++ [step]) rest
    else .error .missing

/-- The place of something that exists. -/
def find (t : FileTree) (path : String) : Except Obstacle (List String) := do
  t.follow [] (← t.steps path)

/-- The place where a file of this path may be written. -/
def findFor (t : FileTree) (path : String) : Except Obstacle (List String) := do
  let steps ← t.steps path
  let directory ← t.follow [] steps.dropLast
  let name := steps.getLastD ""
  let place := directory ++ [name]
  if !t.allows directory name || Path.isStay name.toList || name = ".." ||
      t.isDirectoryAt place then .error .blocked
  else .ok place

def read (t : FileTree) (path : String) : Except Obstacle String := do
  match t.node? (← t.find path) with
  | some (.text content) => .ok content
  | _ => .error .blocked

def put (t : FileTree) (place : List String) (node : FileNode) : FileTree :=
  { t with nodes := t.nodes.insert place node }

def write (t : FileTree) (path content : String) : Except Obstacle FileTree := do
  return t.put (← t.findFor path) (.text content)

/-- Makes every directory that steps pass through. Those made before a step that fails stay. -/
def makeSteps (t : FileTree) (place : List String) :
    List String → Except Obstacle Unit × FileTree
  | [] => (if t.isDirectoryAt place then .ok () else .error .blocked, t)
  | step :: rest =>
    if !t.allows place step then (.error .blocked, t)
    else if Path.isStay step.toList then t.makeSteps place rest
    else if step = ".." then t.makeSteps (up place) rest
    else
      let next := place ++ [step]
      let t := if (t.node? next).isSome then t else t.put next .directory
      t.makeSteps next rest

def makeDirectories (t : FileTree) (path : String) : Except Obstacle Unit × FileTree :=
  match t.steps path with
  | .ok steps => t.makeSteps [] steps
  | .error obstacle => (.error obstacle, t)

/-- Removes a file. -/
def remove (t : FileTree) (path : String) : Except Obstacle FileTree := do
  let place ← t.find path
  if t.isDirectoryAt place then .error .blocked
  else .ok { t with nodes := t.nodes.erase place }

def rename (t : FileTree) (source target : String) : Except Obstacle FileTree := do
  let origin ← t.find source
  let goal ← t.findFor target
  match t.node? origin with
  | some node =>
    if node = .directory then .error .blocked
    else .ok ({ t with nodes := t.nodes.erase origin }.put goal node)
  | none => .error .missing

def filesBelow (t : FileTree) (path : String) : List String :=
  match t.find path with
  | .error _ => []
  | .ok place =>
    if t.isDirectoryAt place then
      t.nodes.toList.filterMap fun (key, node) =>
        if place.isPrefixOf key && node != .directory then
          some (Path.join path ("/".intercalate (key.drop place.length)))
        else none
    else [path]

/-- A node with the directories in which it lies. -/
def plant (t : FileTree) (path : String) : FileNode → FileTree
  | .directory => (t.makeDirectories path).2
  | node =>
    let t := (t.makeDirectories ((Path.parent? path).getD "")).2
    match t.findFor path with
    | .ok place => t.put place node
    | .error _ => t

def absolute (t : FileTree) (path : String) : String :=
  if t.root.toList.isPrefixOf path.toList then path else Path.join t.root path

/-- Keeps the tree when a change fails. -/
def change (f : FileTree → Except Obstacle FileTree) : StateM FileTree (Except Obstacle Unit) :=
  fun t => match f t with
    | .ok after => (.ok (), after)
    | .error obstacle => (.error obstacle, t)

instance : Files (StateM FileTree) where
  absolute path := fun t => (t.absolute path, t)
  isPresent path := fun t => ((t.find path).isOk, t)
  isDirectory path := fun t => ((t.find path).toOption.any t.isDirectoryAt, t)
  read path := fun t => (t.read path, t)
  write path content := change (·.write path content)
  makeDirectories path := fun t => t.makeDirectories path
  rename source target := change (·.rename source target)
  remove path := change (·.remove path)
  filesBelow path := fun t => (t.filesBelow path, t)

end FileTree
end ChatStory
