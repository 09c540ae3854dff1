import ChatStory.Text.Basic

/-!
Numbers from text. A double is read from an optional sign and either a decimal
with an optional exponent or one of the words for infinity and not a number;
a whole number from digits that may have a plus sign before them.
-/
namespace ChatStory.Decimal

def natOf (digits : List Char) : Nat :=
  digits.foldl (fun n c => 10 * n + (c.toNat - '0'.toNat)) 0

def infinity : Float := Float.ofBits 0x7FF0000000000000

def notANumber : Float := Float.ofBits 0x7FF8000000000000

/-- The double nearest to `digits * 10 ^ exp`. Exponents far outside the range of
doubles are settled before the power is formed. -/
def nearest (digits : Nat) (exp : Int) : Float :=
  let point := ((Nat.toDigits 10 digits).length : Int) + exp
  if digits = 0 ∨ point < -330 then 0
  else if 320 < point then infinity
  else Float.ofScientific digits (exp < 0) exp.natAbs

def splitDigits (cs : List Char) : List Char × List Char :=
  (cs.takeWhile Char.isDigit, cs.dropWhile Char.isDigit)

def splitSign : List Char → Bool × List Char
  | '-' :: rest => (true, rest)
  | '+' :: rest => (false, rest)
  | cs => (false, cs)

/-- What may follow the digits: nothing, or an exponent. -/
def exponent? : List Char → Option Int
  | [] => some 0
  | c :: rest =>
    if c == 'e' || c == 'E' then
      let (negative, body) := splitSign rest
      let (digits, after) := splitDigits body
      if digits.isEmpty || !after.isEmpty then none
      else some (if negative then -(natOf digits : Int) else natOf digits)
    else none

def magnitude? (cs : List Char) : Option Float :=
  let word := Text.lower cs
  if word = "inf".toList ∨ word = "infinity".toList then some infinity
  else if word = "nan".toList then some notANumber
  else
    let (whole, rest) := splitDigits cs
    let (fraction, rest) := match rest with
      | '.' :: rest => splitDigits rest
      | _ => ([], rest)
    if whole.isEmpty && fraction.isEmpty then none
    else (exponent? rest).map fun e => nearest (natOf (whole ++ fraction)) (e - fraction.length)

def float? (cs : List Char) : Option Float :=
  let (negative, body) := splitSign cs
  (magnitude? body).map fun x => if negative then -x else x

/-- The largest whole number that times, delays and counts may have. -/
def wordLimit : Nat := Nat.pow 2 64

/-- A whole number below `wordLimit`. -/
def word? (cs : List Char) : Option Nat :=
  let digits := match cs with
    | '+' :: rest => rest
    | _ => cs
  if digits.isEmpty || !digits.all Char.isDigit then none
  else if natOf digits < wordLimit then some (natOf digits) else none

end ChatStory.Decimal
