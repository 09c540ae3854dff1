import ChatStory.Decimal.Reading
import ChatStory.Text.Digit
import ChatStory.Text.Word

/-!
Keys of rounds, `N` or `N.M`. They are ordered by number, and a bare `N` stands before
every `N.M`. A key has one spelling: its parts have no leading zeros.
-/
namespace ChatStory

structure RoundKey where
  major : UInt32
  minor : Option UInt32
deriving DecidableEq, Inhabited

namespace RoundKey

instance : Ord RoundKey := ⟨compareLex (compareOn major) (compareOn minor)⟩

instance : Std.TransOrd RoundKey :=
  inferInstanceAs (Std.TransCmp (compareLex (compareOn major) (compareOn minor)))

instance : Std.LawfulEqOrd RoundKey where
  eq_of_compare {a b} h := by
    have h : (compareOn major a b).then (compareOn minor a b) = .eq := h
    rw [Ordering.then_eq_eq] at h
    obtain ⟨a1, a2⟩ := a
    obtain ⟨b1, b2⟩ := b
    congr
    · exact Std.LawfulEqCmp.eq_of_compare h.1
    · exact Std.LawfulEqCmp.eq_of_compare h.2

/-- Rounds with a key `N.0` can only be reached while their condition holds. -/
def isConditional (key : RoundKey) : Bool := key.minor == some 0

/-- A part of a key: digits without leading zeros that fit a word of 32 bits. -/
def part? (cs : List Char) : Option UInt32 :=
  if cs.isEmpty || !cs.all Char.isDigit then none
  else if 1 < cs.length ∧ cs.head? = some '0' then none
  else
    let n := Decimal.natOf cs
    if n < Nat.pow 2 32 then some (.ofNat n) else none

def read? (cs : List Char) : Option RoundKey :=
  match Text.cutFirst ['.'] cs with
  | some (major, minor) => do return ⟨← part? major, some (← part? minor)⟩
  | none => do return ⟨← part? cs, none⟩

def display (key : RoundKey) : String :=
  match key.minor with
  | none => toString key.major.toNat
  | some minor => toString key.major.toNat ++ "." ++ toString minor.toNat

def keyMark : List Char := "Round-".toList

/-- The key at the end of a text, after `Round-`. -/
def endOf? : List Char → Option RoundKey
  | [] => none
  | c :: cs =>
    if keyMark.isPrefixOf (c :: cs) then
      (read? ((c :: cs).drop keyMark.length)).or (endOf? cs)
    else endOf? cs

/-- The key of the round that a passage reference names. -/
def ofReference? (reference : String) : Option RoundKey :=
  endOf? (Text.trim reference.toList)

end RoundKey

/-- The title of a round passage, taken apart. -/
structure RoundTitle where
  contact : String
  key : RoundKey
deriving DecidableEq

namespace RoundTitle

/-- Digits of any script, and after a point again digits. -/
def isNumbering (cs : List Char) : Bool :=
  match Text.cutFirst ['.'] cs with
  | some (major, minor) =>
    !major.isEmpty && major.all Text.isDigit && !minor.isEmpty && minor.all Text.isDigit
  | none => !cs.isEmpty && cs.all Text.isDigit

def isNameChar (c : Char) : Bool := Text.isWord c || c == ' '

/-- A title shaped `Contact-Round-N`: the contact and the text of the key. -/
def shape? (title : String) : Option (String × List Char) :=
  let cs := Text.trim title.toList
  let name := cs.takeWhile isNameChar
  let rest := cs.dropWhile isNameChar
  let mark := '-' :: RoundKey.keyMark
  if (name.head?.any Text.isWord) && mark.isPrefixOf rest then
    let numbering := rest.drop mark.length
    if isNumbering numbering then
      some (String.ofList (Text.trim name), numbering)
    else none
  else none

def read? (title : String) : Option RoundTitle := do
  let (contact, numbering) ← shape? title
  return ⟨contact, ← RoundKey.read? numbering⟩

end RoundTitle
end ChatStory
