import ChatStory.Text.Mark

/-!
Names in quotes, written so that each character can be told apart: a mark that would attach to
the character before it, and a character that shows nothing, is written by its number.
-/
namespace ChatStory.Text.Quoted

/-- The characters of names that show nothing: the joiners and the fillers of Hangul. -/
def isUnseen (c : Char) : Bool :=
  [0x115F, 0x1160, 0x200C, 0x200D, 0x3164, 0xFFA0].contains c.toNat

/-- The halfwidth voicing marks stand in a place of their own, so that they can be seen. -/
def isHalfwidthMark (c : Char) : Bool := c.toNat == 0xFF9E || c.toNat == 0xFF9F

/-- A character by its number in hexadecimal. -/
def byNumber (c : Char) : List Char :=
  '\\' :: 'u' :: '\x7b' :: (Nat.toDigits 16 c.toNat ++ ['\x7d'])

def escape (c : Char) : List Char :=
  if c == '"' || c == '\\' then ['\\', c]
  else if isUnseen c || (isMark c && !isHalfwidthMark c) then byNumber c
  else [c]

def display (s : String) : String :=
  String.ofList ('"' :: (s.toList.flatMap escape ++ ['"']))

end ChatStory.Text.Quoted
