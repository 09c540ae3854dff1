import ChatStory.Decimal.Layout
import ChatStory.Decimal.Reading
import ChatStory.Table

/-!
Values of story variables, and how a script writes them.
-/
namespace ChatStory

inductive Value where
  | bool (b : Bool)
  | number (x : Float)
  | text (s : String)
deriving DecidableEq, Inhabited

abbrev Variables := Table String Value

namespace Value

/-- The value that a literal stands for: a truth value, a finite number, a quoted text, or
else the text as it stands. -/
def ofLiteral (source : List Char) : Value :=
  let cs := Text.trim source
  if cs = "true".toList then bool true
  else if cs = "false".toList then bool false
  else match (Decimal.float? cs).filter Float.isFinite with
    | some x => number x
    | none => text (String.ofList ((Text.quoted? cs).getD cs))

/-- Equality as a script sees it: a zero equals a negative zero, and what is not a
number equals nothing. -/
def same : Value → Value → Bool
  | bool a, bool b => a == b
  | number a, number b => a == b
  | text a, text b => a == b
  | _, _ => false

def isTruthy : Value → Bool
  | bool b => b
  | number x => !(x == 0)
  | text s => s ≠ ""

def kindName : Value → String
  | bool _ => "boolean"
  | number _ => "number"
  | text _ => "string"

/-- The text of a value. Zero has no sign. -/
def display : Value → String
  | bool true => "true"
  | bool false => "false"
  | number x => if x == 0 then "0" else Decimal.plain.text x
  | text s => s

end Value
end ChatStory
