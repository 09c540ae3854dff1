import ChatStory.Decimal.Layout
import ChatStory.Json.Basic

/-!
Writing documents: compact, or spread over lines with two spaces for each level.
-/
namespace ChatStory.Json

/-- Doubles in documents: positional from 1e-5 up to 1e16 and always recognisable
as doubles, otherwise with a signed exponent; without a finite value, null. -/
def numbers : Decimal.Layout where
  upward := false
  positional := some (-5, 16)
  pointZero := true
  nan := "null"
  infinity := "null"
  negativeInfinity := "null"

/-- The letter after a backslash that stands for a character. -/
def escapeLetter? : Char → Option Char
  | '"' => some '"'
  | '\\' => some '\\'
  | '\x08' => some 'b'
  | '\x0c' => some 'f'
  | '\n' => some 'n'
  | '\r' => some 'r'
  | '\t' => some 't'
  | _ => none

/-- Escapes a character where it may not stand for itself. -/
def escape (c : Char) : List Char :=
  match escapeLetter? c with
  | some letter => ['\\', letter]
  | none =>
    if c.toNat < 0x20 then
      ['\\', 'u', '0', '0', Nat.digitChar (c.toNat / 16), Nat.digitChar (c.toNat % 16)]
    else [c]

def quoted (s : String) : List Char := '"' :: (s.toList.flatMap escape ++ ['"'])

def scalar : Json → List Char
  | null => "null".toList
  | bool true => "true".toList
  | bool false => "false".toList
  | integer n => (if n < 0 then ['-'] else []) ++ Nat.toDigits 10 n.natAbs
  | real x => (numbers.text x).toList
  | text s => quoted s
  | _ => "null".toList

mutual
def compact : Json → List Char
  | list items => '[' :: (compactItems items ++ [']'])
  | record members => '{' :: (compactMembers members ++ ['}'])
  | j => j.scalar
def compactItems : List Json → List Char
  | [] => []
  | [j] => j.compact
  | j :: rest => j.compact ++ ',' :: compactItems rest
def compactMembers : List (String × Json) → List Char
  | [] => []
  | [(name, j)] => quoted name ++ ':' :: j.compact
  | (name, j) :: rest => quoted name ++ ':' :: (j.compact ++ ',' :: compactMembers rest)
end

/-- The start of a line at a level. -/
def margin (level : Nat) : List Char := '\n' :: List.replicate (2 * level) ' '

mutual
def spread (level : Nat) : Json → List Char
  | list [] => ['[', ']']
  | list items => '[' :: (spreadItems (level + 1) items ++ (margin level ++ [']']))
  | record [] => ['{', '}']
  | record members => '{' :: (spreadMembers (level + 1) members ++ (margin level ++ ['}']))
  | j => j.scalar
def spreadItems (level : Nat) : List Json → List Char
  | [] => []
  | [j] => margin level ++ j.spread level
  | j :: rest => margin level ++ (j.spread level ++ ',' :: spreadItems level rest)
def spreadMembers (level : Nat) : List (String × Json) → List Char
  | [] => []
  | [(name, j)] => margin level ++ (quoted name ++ ':' :: ' ' :: j.spread level)
  | (name, j) :: rest =>
    margin level ++
      (quoted name ++ ':' :: ' ' :: (j.spread level ++ ',' :: spreadMembers level rest))
end

def render (j : Json) : String := String.ofList j.compact

def pretty (j : Json) : String := String.ofList (j.spread 0)

end ChatStory.Json
