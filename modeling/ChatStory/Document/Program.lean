import ChatStory.Document.Action
import ChatStory.Program

/-!
Parts of programs in documents. They are written only; programs come from scripts.
-/
namespace ChatStory

def RoundKey.toJson (key : RoundKey) : Json := .text key.display

def RoundKey.ofJson? (j : Json) : Option RoundKey := do RoundKey.read? (← j.asText?).toList

def Condition.toJson (c : Condition) : Json :=
  .record [("variable", .text c.name), ("negated", .bool c.negated),
    ("expected", .ofOption Value.toJson c.expected)]

def Choice.toJson (c : Choice) : Json :=
  .record [("text", .text c.text), ("target", .text c.target),
    ("targetRound", .ofOption RoundKey.toJson c.targetRound),
    ("embeddedAction", .ofOption Action.toJson c.action)]

namespace Fragment

def kindName : Fragment → String
  | text _ => "text"
  | ifBlock _ => "if"
  | elseBlock => "else"
  | endBlock => "endIf"
  | assign .. => "set"
  | choice _ => "choice"
  | action _ => "action"
  | lineBreak => "lineBreak"

def fields : Fragment → List (String × Json)
  | text s => [("text", .text s)]
  | ifBlock condition => [("condition", .ofOption Condition.toJson condition)]
  | assign name value => [("name", .text name), ("value", value.toJson)]
  | choice c => [("choice", c.toJson)]
  | action a => [("action", a.toJson)]
  | elseBlock | endBlock | lineBreak => []

def toJson (f : Fragment) : Json := .record (("kind", .text f.kindName) :: f.fields)

end Fragment

def Round.toJson (round : Round) : Json :=
  .record [("key", round.key.toJson), ("title", .text round.title), ("text", .text round.text),
    ("choices", .list (round.choices.map Choice.toJson)),
    ("actions", .list (round.actions.map Action.toJson)),
    ("originalContent", .text round.content), ("body", .list (round.body.map Fragment.toJson)),
    ("condition", .ofOption Condition.toJson round.condition)]

def About.toJson (about : About) : Json :=
  .record [("title", .ofOption .text about.title), ("start", .ofOption .text about.start),
    ("format", .ofOption .text about.format), ("ifid", .ofOption .text about.ifid)]

end ChatStory
