import ChatStory.Assignment
import ChatStory.Markup.Link

/-!
A passage body is cut into spans, one after the other and without gaps. A span is a character of
text, a line break, or markup that gives one piece; an action or an assignment that
cannot be read gives none, and a finding instead.
-/
namespace ChatStory.Markup

inductive Piece where
  | letter (c : Char)
  | lineBreak
  | markup (fragment : Fragment)
  | droppedAction
  | droppedAssignment

structure Span where
  piece : Piece
  /-- The number of characters after the first one. -/
  more : Nat
  findings : List Finding

def letterSpan (c : Char) (findings : List Finding) : Span := ⟨.letter c, 0, findings⟩

/-- The name of a macro and what follows the colon. -/
def macroParts (inside : List Char) : List Char × List Char :=
  let (name, argument) := (Text.cutFirst [':'] inside).getD (inside, [])
  (Text.lower (Text.trim name), argument)

/-- The span of parentheses around `inside`. -/
def macroSpan (inside : List Char) : Span :=
  let (name, argument) := macroParts inside
  let shown := String.ofList (Text.trim argument)
  let markup (fragment : Fragment) (findings : List Finding) : Span :=
    ⟨.markup fragment, inside.length + 1, findings⟩
  match String.ofList name with
  | "if" =>
    match Condition.read? argument with
    | some condition => markup (.ifBlock (some condition)) []
    | none => markup (.ifBlock none) [.unreadableCondition shown]
  | "else" => if shown = "" then markup .elseBlock [] else letterSpan '(' []
  | "endif" | "end-if" => if shown = "" then markup .endBlock [] else letterSpan '(' []
  | "set" =>
    match Assignment.read? argument with
    | some a => markup (.assign a.name a.value) []
    | none => ⟨.droppedAssignment, inside.length + 1, [.unreadableAssignment shown]⟩
  | "else-if" | "elseif" | "unless" =>
    letterSpan '(' [.unsupportedMacro (String.ofList name)]
  | _ => letterSpan '(' []

/-- The span of two opening brackets and the text after them. -/
def linkSpan (cs : List Char) : Span :=
  match linkInside? cs with
  | some inside =>
    let (choice, findings) := Choice.read inside
    ⟨.markup (.choice choice), inside.length + 3, findings⟩
  | none => letterSpan '[' [.unterminatedLink]

/-- The span of an action whose bracket holds `inside`. -/
def actionSpan (inside : List Char) : Span :=
  let outcome := Action.read (inside.drop actionMark.length)
  match outcome.action with
  | some action => ⟨.markup (.action action), inside.length + 1, outcome.findings⟩
  | none => ⟨.droppedAction, inside.length + 1, outcome.findings⟩

/-- The span at the start of a text. -/
def firstSpan (c : Char) (cs : List Char) : Span :=
  match c, cs with
  | '\r', '\n' :: _ => ⟨.lineBreak, 1, []⟩
  | '\n', _ => ⟨.lineBreak, 0, []⟩
  | '[', '[' :: rest => linkSpan rest
  | '(', _ => ((round.inside? cs).map macroSpan).getD (letterSpan c [])
  | _, _ => ((actionInside? c cs).map actionSpan).getD (letterSpan c [])

def spans : List Char → List Span
  | [] => []
  | c :: cs =>
    let span := firstSpan c cs
    span :: spans (cs.drop span.more)
termination_by cs => cs.length
decreasing_by simp only [List.length_cons, List.length_drop]; omega

/-- A text fragment of the characters gathered, if there are any. -/
def gathered (letters : List Char) : List Fragment :=
  if letters.isEmpty then [] else [.text (String.ofList letters)]

/-- The fragments of spans after the characters of `letters`. A dropped action divides
the text around it, and a dropped assignment does not. -/
def fragmentsFrom (letters : List Char) : List Span → List Fragment
  | [] => gathered letters.reverse
  | span :: rest =>
    match span.piece with
    | .letter c => fragmentsFrom (c :: letters) rest
    | .droppedAssignment => fragmentsFrom letters rest
    | .lineBreak => gathered letters.reverse ++ .lineBreak :: fragmentsFrom [] rest
    | .markup fragment => gathered letters.reverse ++ fragment :: fragmentsFrom [] rest
    | .droppedAction => gathered letters.reverse ++ fragmentsFrom [] rest

/-- The findings of spans, the first of which starts on `line`. -/
def diagnosticsFrom (line : Nat) : List Span → List Diagnostic
  | [] => []
  | span :: rest =>
    let next := match span.piece with
      | .lineBreak => line + 1
      | _ => line
    span.findings.map (·.at line) ++ diagnosticsFrom next rest

/-- A passage body, taken apart. -/
structure Body where
  fragments : List Fragment
  warnings : List Diagnostic

def Body.read (content : String) (line : Nat) : Body :=
  let spans := spans content.toList
  ⟨fragmentsFrom [] spans, diagnosticsFrom line spans⟩

end ChatStory.Markup
