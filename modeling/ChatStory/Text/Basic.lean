import ChatStory.Text.Blank

/-!
Cutting and comparing text. Functions on lists of characters carry the rules;
the ones on strings read a list, apply a rule and write the result back.
Spacing always means blank characters, and letter case means ASCII case.
-/
namespace ChatStory.Text

def dropBlank (cs : List Char) : List Char := cs.dropWhile isBlank

def dropBlankEnd (cs : List Char) : List Char := (dropBlank cs.reverse).reverse

/-- Removes the blanks at both ends. -/
def trim (cs : List Char) : List Char := dropBlankEnd (dropBlank cs)

def isBlankText (cs : List Char) : Bool := cs.all isBlank

/-- Splits at every `sep`, which is dropped; there is one piece more than separators. -/
def splitAt (sep : Char) : List Char → List (List Char)
  | [] => [[]]
  | c :: rest =>
    if c == sep then [] :: splitAt sep rest
    else match splitAt sep rest with
      | [] => [[c]]
      | piece :: pieces => (c :: piece) :: pieces

/-- The maximal runs of characters that are not blank. -/
def words (cs : List Char) : List (List Char) :=
  (cs.foldr (fun c acc => if isBlank c then [] :: acc else match acc with
    | [] => [[c]]
    | w :: ws => (c :: w) :: ws) [[]]).filter (· ≠ [])

/-- Drops the carriage returns that end a line, at most `n` of them. -/
def dropReturns (n : Nat) (cs : List Char) : List Char :=
  let stripped := (cs.reverse.take n).takeWhile (· == '\r')
  cs.take (cs.length - stripped.length)

/-- The lines of a text. A line feed ends a line and may have up to two carriage
returns before it; a last line without one may end in a single carriage return. -/
def lines (cs : List Char) : List (List Char) :=
  let pieces := splitAt '\n' cs
  let ended := pieces.dropLast.map (dropReturns 2)
  match pieces.getLast? with
  | some (c :: rest) => ended ++ [dropReturns 1 (c :: rest)]
  | _ => ended

/-- The text before and after the first place where `sep` stands. -/
def cutFirst (sep : List Char) : List Char → Option (List Char × List Char)
  | [] => if sep.isEmpty then some ([], []) else none
  | c :: rest =>
    if sep.isPrefixOf (c :: rest) then some ([], (c :: rest).drop sep.length)
    else (cutFirst sep rest).map fun (before, after) => (c :: before, after)

/-- The text before and after the last place where `sep` stands. -/
def cutLast (sep : List Char) : List Char → Option (List Char × List Char)
  | [] => if sep.isEmpty then some ([], []) else none
  | c :: rest =>
    match cutLast sep rest with
    | some (before, after) => some (c :: before, after)
    | none =>
      if sep.isPrefixOf (c :: rest) then some ([], (c :: rest).drop sep.length) else none

def lower (cs : List Char) : List Char := cs.map Char.toLower

def sameLetters (a b : List Char) : Bool := lower a == lower b

/-- What follows `pattern` at the start of a text, in any letter case. -/
def afterLetters (pattern cs : List Char) : Option (List Char) :=
  if cs.length ≥ pattern.length ∧ sameLetters pattern (cs.take pattern.length) then
    some (cs.drop pattern.length)
  else none

/-- A keyword letter is met by either case and, for s, by the long s as well. -/
def isKeyLetter (letter c : Char) : Bool :=
  c.toLower == letter || (letter == 's' && c == 'ſ')

/-- What follows the lower-case keyword `key` at the start of a text. -/
def afterKeyword : List Char → List Char → Option (List Char)
  | [], cs => some cs
  | _ :: _, [] => none
  | k :: key, c :: cs => if isKeyLetter k c then afterKeyword key cs else none

/-- What follows one or more blanks. -/
def afterBlanks : List Char → Option (List Char)
  | [] => none
  | c :: cs => if isBlank c then some (dropBlank cs) else none

/-- The inside of a text that starts and ends with `quote`, two characters or longer. -/
def unwrap (quote : Char) : List Char → Option (List Char)
  | [] => none
  | c :: rest => if c == quote && rest.getLast? == some quote then some rest.dropLast else none

/-- The inside of a text in double or single quotes. -/
def quoted? (cs : List Char) : Option (List Char) := (unwrap '"' cs).or (unwrap '\'' cs)

def trimmed (s : String) : String := String.ofList (trim s.toList)

end ChatStory.Text
