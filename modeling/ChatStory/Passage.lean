import ChatStory.Diagnostic
import ChatStory.Json.Reader

/-!
A script is a sequence of passages. A line that starts with two colons is the header of a
passage, with a title, an optional list of tags and optional metadata; the lines up to the
next header are its content, without the blank lines at both ends.
-/
namespace ChatStory

structure Passage where
  title : String
  /-- Passages without a tag list tell of the story itself. -/
  tags : Option (List String)
  content : String
  position : Option (Float × Float)
  size : Option (Float × Float)
  /-- The line of the header. -/
  line : Nat
  /-- The line of the first content line that is not blank. -/
  contentLine : Nat
  /-- The header could not be read, and the title is made up. -/
  placeholder : Bool

namespace Passage

def hasTag (passage : Passage) (tag : String) : Bool := (passage.tags.getD []).contains tag

def isAbout (passage : Passage) : Bool := passage.tags.isNone

def isBracket (c : Char) : Bool := c == '[' || c == ']' || c == '{' || c == '}'

/-- The parts of a header. -/
structure Header where
  title : List Char
  tags : Option (List Char)
  metadata : Option (List Char)

/-- Nothing but optional metadata may end a header. It reaches from the brace to the end. -/
def metadata? (cs : List Char) : Option (Option (List Char)) :=
  match Text.trim cs with
  | [] => some none
  | cs => if cs.head? = some '{' ∧ cs.getLast? = some '}' then some (some cs) else none

/-- Reads the header after the two colons. -/
def header? (cs : List Char) : Option Header :=
  let title := Text.trim (cs.takeWhile (!isBracket ·))
  match cs.dropWhile (!isBracket ·) with
  | '[' :: rest =>
    let isEdge (c : Char) : Bool := c == '[' || c == ']'
    match rest.dropWhile (!isEdge ·) with
    | ']' :: after =>
      (metadata? after).map fun found => ⟨title, some (rest.takeWhile (!isEdge ·)), found⟩
    | _ => none
  | rest => (metadata? rest).map fun found => ⟨title, none, found⟩

/-- Two numbers with a comma between them. -/
def pair? (source : String) : Option (Float × Float) := do
  let (a, b) ← Text.cutFirst [','] source.toList
  return (← Decimal.float? (Text.trim a), ← Decimal.float? (Text.trim b))

/-- A header, the line on which it stands, and the lines up to the next one. -/
structure Section where
  header : List Char
  line : Nat
  body : List (List Char)

def isHeader (line : List Char) : Bool := [':', ':'].isPrefixOf line

/-- The lines before the first header, and the sections, counting lines from `line`. -/
def sections (line : Nat) : List (List Char) → List (List Char) × List Section
  | [] => ([], [])
  | text :: rest =>
    let (before, found) := sections (line + 1) rest
    if isHeader text then ([], ⟨text, line, before⟩ :: found) else (text :: before, found)

/-- Without the blank lines at both ends. -/
def trimLines (lines : List (List Char)) : List (List Char) :=
  ((lines.dropWhile Text.isBlankText).reverse.dropWhile Text.isBlankText).reverse

/-- A passage, and what was found wrong with its header. -/
structure Outcome where
  passage : Passage
  error : Option Finding
  warning : Option Finding

def ofSection (part : Section) : Outcome :=
  let blankLines := (part.body.takeWhile Text.isBlankText).length
  let passage : Passage := {
    title := "Untitled Passage " ++ toString part.line
    tags := none
    content := String.ofList (['\n'].intercalate (trimLines part.body))
    position := none
    size := none
    line := part.line
    contentLine := part.line + 1 + blankLines
    placeholder := true }
  match header? (part.header.drop 2) with
  | none => ⟨passage, some (.malformedHeader (String.ofList (Text.trim part.header))), none⟩
  | some header =>
    if header.title.isEmpty then ⟨passage, some .untitledHeader, none⟩
    else
      let title := String.ofList header.title
      let passage := { passage with
        title := title
        tags := header.tags.map fun tags => ((Text.words tags).map String.ofList).eraseDups
        placeholder := false }
      match header.metadata with
      | none => ⟨passage, none, none⟩
      | some source =>
        match Json.parseKept? (String.ofList source) with
        | none => ⟨passage, none, some (.unreadableMetadata title)⟩
        | some json =>
          let read (name : String) := ((json.member? name).bind Json.asText?).bind pair?
          ⟨{ passage with position := read "position", size := read "size" }, none, none⟩

/-- The passages of a script. -/
structure Script where
  passages : List Passage
  errors : List Diagnostic
  warnings : List Diagnostic

def split (source : String) : Script :=
  let (before, parts) := sections 1 (Text.lines source.toList)
  let outcomes := parts.map ofSection
  let located (cause : Outcome → Option Finding) : List Diagnostic :=
    outcomes.filterMap fun outcome => (cause outcome).map (·.at outcome.passage.line)
  { passages := outcomes.map (·.passage)
    errors := located (·.error)
    warnings := located (·.warning) ++
      if before.all Text.isBlankText then [] else [Finding.strayPreamble.at 1] }

end Passage
end ChatStory
