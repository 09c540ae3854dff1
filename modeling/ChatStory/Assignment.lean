import ChatStory.Condition

/-!
Assignments `$name to literal`, alone and in the `(set: ...)` macro. The survey of a
script finds the macros anywhere in it; the last one decides on a variable.
-/
namespace ChatStory

structure Assignment where
  name : String
  value : Value
deriving DecidableEq

namespace Assignment

/-- Reads `$name to` and gives what follows it. -/
def target? (cs : List Char) : Option (String × List Char) := do
  let (name, rest) ← variableName? cs
  return (name, ← Text.afterKeyword "to".toList (← Text.afterBlanks rest))

def read? (source : List Char) : Option Assignment := do
  let (name, rest) ← target? source
  return ⟨name, ← literal? rest⟩

/-- What follows blanks and a closing parenthesis. -/
def afterClose (cs : List Char) : Option (List Char) :=
  match Text.dropBlank cs with
  | ')' :: rest => some rest
  | _ => none

/-- Reads a text in the given quotes and the parenthesis that closes the macro. -/
def quotedOperand? (quote : Char) : List Char → Option (List Char × List Char)
  | [] => none
  | c :: cs =>
    if c != quote then none
    else match cs.dropWhile (· != quote) with
      | _ :: rest =>
        (afterClose rest).map fun rest => (c :: (cs.takeWhile (· != quote) ++ [quote]), rest)
      | [] => none

/-- Reads up to the next closing parenthesis. -/
def bareOperand? (cs : List Char) : Option (List Char × List Char) :=
  match cs.dropWhile (· != ')') with
  | _ :: rest => some (Text.dropBlankEnd (cs.takeWhile (· != ')')), rest)
  | [] => none

/-- Reads a set macro at its parenthesis. The macro ends even if it assigns nothing. -/
def macroAt? : List Char → Option (Option Assignment × List Char)
  | '(' :: cs => do
    let body ← Text.afterKeyword "set:".toList (Text.dropBlank cs)
    let (name, rest) ← target? body
    let operand ← Text.afterBlanks rest
    let (source, rest') ← (quotedOperand? '"' operand).or <|
      (quotedOperand? '\'' operand).or (bareOperand? operand)
    let blanks := rest.takeWhile Text.isBlank
    return ((literal? (blanks ++ source)).map (⟨name, ·⟩), rest')
  | _ => none

/-- All set macros of a script, in order. -/
def survey : List Char → List Assignment
  | [] => []
  | c :: cs =>
    match macroAt? (c :: cs) with
    | some (found, rest) =>
      if rest.length < (c :: cs).length then found.toList ++ survey rest else survey cs
    | none => survey cs
termination_by cs => cs.length
decreasing_by all_goals simp only [List.length_cons] at *; omega

end Assignment

/-- The values that the set macros of a script give to variables. -/
def Variables.surveyed (source : String) : Variables :=
  Table.ofList ((Assignment.survey source.toList).map fun a => (a.name, a.value))

end ChatStory
