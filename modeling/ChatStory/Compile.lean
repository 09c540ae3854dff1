import ChatStory.Passage
import ChatStory.Program

/-!
From scripts to programs. Compilation always gives a program; structural problems are
errors, and everything else that was noticed is a warning.
-/
namespace ChatStory

/-- What came of compiling a script. -/
structure Compilation where
  program : Program
  errors : List Diagnostic
  warnings : List Diagnostic

namespace Compilation

def isOk (c : Compilation) : Bool := c.errors.isEmpty

/-- The program, unless there are errors; the first of them counts. -/
def result (c : Compilation) : Except Diagnostic Program :=
  match c.errors with
  | [] => .ok c.program
  | error :: _ => .error error

end Compilation

namespace Compile

def setsDefaults (passage : Passage) : Bool :=
  passage.hasTag "initial_variables" || passage.title == "Initial Variables"

/-- The survey of the whole script, overridden by the passages of initial variables. -/
def defaultsOf (source : String) (passages : List Passage) : Variables :=
  (passages.filter setsDefaults).foldl
    (fun values passage =>
      values.insertMany (Variables.surveyed passage.content).toList)
    (.surveyed source)

/-- A program in the making. The snapshot holds the variables as the bodies so far leave them. -/
structure Draft where
  snapshot : Variables
  contacts : Table String Contact
  order : List String
  about : About
  errors : List Diagnostic
  warnings : List Diagnostic

namespace Draft

def warn (draft : Draft) (found : List Diagnostic) : Draft :=
  { draft with warnings := draft.warnings ++ found }

/-- A passage that tells of the story. Only two titles have a meaning. -/
def readAbout (draft : Draft) (passage : Passage) : Draft :=
  if passage.title = "StoryTitle" then
    let title := Text.trimmed passage.content
    if title = "" then draft else { draft with about := { draft.about with title := some title } }
  else if passage.title = "StoryData" then
    match Json.parseKept? passage.content with
    | some json =>
      let field (name : String) := (json.member? name).bind Json.asText?
      { draft with about := { draft.about with
          start := field "start", format := field "format", ifid := field "ifid" } }
    | none => draft.warn [Finding.unreadableStoryData.at passage.contentLine]
  else draft

/-- Of several rounds under one key the first is kept. -/
def keepRound (draft : Draft) (name : String) (round : Round) (initial : Bool) (line : Nat) :
    Draft :=
  let known := draft.contacts.get? name
  let contact := known.getD ⟨name, false, ∅⟩
  let contact := { contact with initiallyUnlocked := contact.initiallyUnlocked || initial }
  let order := if known.isSome then draft.order else draft.order ++ [name]
  if contact.rounds.contains round.key then
    { draft with
      contacts := draft.contacts.insert name contact
      order := order
      errors := draft.errors ++ [(Finding.duplicateRound round.key name).at line] }
  else
    { draft with
      contacts := draft.contacts.insert name
        { contact with rounds := contact.rounds.insert round.key round }
      order := order }

def titleFinding (title : String) : Finding :=
  match RoundTitle.shape? title with
  | some (_, key) => .invalidRoundKey title (String.ofList key)
  | none => .notRoundTitle title

/-- A passage that holds a round. -/
def readRound (draft : Draft) (passage : Passage) : Draft :=
  match RoundTitle.read? passage.title with
  | none => draft.warn [(titleFinding passage.title).at passage.line]
  | some title =>
    let body := Markup.Body.read passage.content passage.contentLine
    let (evaluation, snapshot) := evaluate body.fragments draft.snapshot
    let round : Round := {
      key := title.key
      title := passage.title
      text := evaluation.text
      choices := evaluation.choices
      actions := evaluation.actions
      content := passage.content
      body := body.fragments
      condition := if title.key.isConditional then openingCondition? body.fragments else none }
    { draft.warn body.warnings with snapshot := snapshot }.keepRound title.contact round
      (passage.hasTag "initial_contact") passage.line

def readPassage (draft : Draft) (passage : Passage) : Draft :=
  if passage.placeholder || setsDefaults passage then draft
  else if passage.isAbout then draft.readAbout passage
  else draft.readRound passage

end Draft

/-- Every choice of a round, in whatever branch, that names a round its contact does not have. -/
def missingTargets (contact : Contact) (round : Round) : List Diagnostic :=
  round.body.filterMap fun fragment =>
    match fragment with
    | .choice choice => choice.targetRound.bind fun key =>
      if contact.rounds.contains key then none
      else some ⟨.missingTarget choice.text round.title choice.target contact.name key, none⟩
    | _ => none

/-- The title of the first round of the first contact. -/
def firstTitle? (program : Program) : Option String :=
  program.inOrder.findSome? fun contact => contact.rounds.first?.map (·.2.title)

end Compile

open Compile in
def compile (source : String) : Compilation :=
  let script := Passage.split source
  let defaults := defaultsOf source script.passages
  let draft := script.passages.foldl Draft.readPassage
    ⟨defaults, ∅, [], default, script.errors, script.warnings⟩
  let program : Program := ⟨draft.contacts, draft.order, defaults, draft.about⟩
  let missing := program.inOrder.flatMap fun contact =>
    contact.rounds.values.flatMap (missingTargets contact)
  let about := { program.about with start := program.about.start.or (firstTitle? program) }
  ⟨{ program with about := about }, draft.errors, draft.warnings ++ missing⟩

end ChatStory
