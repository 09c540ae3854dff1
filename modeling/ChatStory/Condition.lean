import ChatStory.Text.Word
import ChatStory.Value

/-!
Conditions on variables: `$name`, `$name is literal` and `$name is not literal`. A
condition is read from text, written as text, and holds or not for given variables.
-/
namespace ChatStory

structure Condition where
  name : String
  negated : Bool
  /-- Without an expected value the variable only has to be truthy. -/
  expected : Option Value
deriving DecidableEq

/-- Reads a variable after optional blanks. -/
def variableName? (cs : List Char) : Option (String × List Char) :=
  match Text.dropBlank cs with
  | '$' :: rest =>
    let name := rest.takeWhile Text.isWord
    if name.isEmpty then none else some (String.ofList name, rest.dropWhile Text.isWord)
  | _ => none

/-- Reads a literal that stands after blanks and reaches to the end. Where nothing but blanks is
left, one of them separates and another one has to be the literal. -/
def literal? : List Char → Option Value
  | [] => none
  | c :: cs =>
    if Text.isBlank c && !cs.isEmpty then some (.ofLiteral cs) else none

namespace Condition

def holdsFor (actual expected : Value) : Bool :=
  match actual, expected with
  | .bool a, .bool b => a == b
  | .number a, .number b => (a - b).abs < Float.ofBits 0x3CB0000000000000
  | .text a, .text b => a == b
  | _, _ => false

/-- A variable without a value reads as false. -/
def holds (c : Condition) (values : Variables) : Bool :=
  let actual := values.getD c.name (.bool false)
  let found := match c.expected with
    | none => actual.isTruthy
    | some expected => holdsFor actual expected
  found != c.negated

def read? (source : List Char) : Option Condition := do
  let (name, rest) ← variableName? source
  if Text.isBlankText rest then return ⟨name, false, none⟩
  let after ← Text.afterKeyword "is".toList (← Text.afterBlanks rest)
  let negation := do literal? (← Text.afterKeyword "not".toList (← Text.afterBlanks after))
  match negation with
  | some v => return ⟨name, true, some v⟩
  | none => return ⟨name, false, some (← literal? after)⟩

/-- The text of a condition. A negation without an expected value is not shown. -/
def display (c : Condition) : String :=
  "$" ++ c.name ++ match c.expected with
    | none => ""
    | some expected =>
      (if c.negated then " is not " else " is ") ++ match expected with
        | .text s => "\"" ++ s ++ "\""
        | v => v.display

end Condition
end ChatStory
