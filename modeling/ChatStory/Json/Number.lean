import ChatStory.Decimal.Reading
import ChatStory.Json.Basic

/-!
Numbers in documents. The digits are gathered into a word until the next one would
no longer fit; the digits after that only count for their place. A number with
neither point nor exponent whose digits all fit is whole, unless it is a negative zero or its sign
does not fit. Any other is the gathered word, as a double, multiplied or divided by a power of
ten.
-/
namespace ChatStory.Json

open Decimal (natOf wordLimit splitDigits splitSign)

/-- Gathers digits into a word that starts as `word`; also counts the digits that
are left out. -/
def gather (word : Nat) : List Char → Nat × Nat
  | [] => (word, 0)
  | d :: ds =>
    let next := 10 * word + (d.toNat - '0'.toNat)
    if next < wordLimit then gather next ds else (word, ds.length + 1)

def powerOfTen (n : Nat) : Float := Float.ofScientific 1 false n

/-- Divides by a power of ten, by at most the 308th at a time. -/
def scaleDown (x : Float) (n : Nat) : Float :=
  if n ≤ 308 then x / powerOfTen n
  else if x == 0 then x
  else scaleDown (x / powerOfTen 308) (n - 308)
termination_by n
decreasing_by omega

/-- The double `word * 10 ^ exp`; none when it is beyond the range. -/
def scaled? (word : Nat) (exp : Int) : Option Float :=
  let x := Float.ofNat word
  if exp < 0 then some (scaleDown x exp.natAbs)
  else if exp ≤ 308 then
    let y := x * powerOfTen exp.natAbs
    if y.isInf then none else some y
  else if word = 0 then some x else none

/-- The parts of a number as written. -/
structure Numeral where
  negative : Bool
  whole : List Char
  fraction : Option (List Char)
  exponent : Option Int

def Numeral.value (n : Numeral) : Json :=
  let (word, left) := gather 0 n.whole
  let signed (x : Float) : Json := .real (if n.negative then -x else x)
  if n.fraction.isNone && n.exponent.isNone && left == 0 then
    if !n.negative then .natural word
    else if word = 0 ∨ wordLimit / 2 < word then signed (Float.ofNat word)
    else .integer (-word)
  else
    let fraction := n.fraction.getD []
    let (word, unused) := gather word fraction
    match scaled? word (left - ((fraction.length : Int) - unused) + n.exponent.getD 0) with
    | some x => signed x
    | none => .unreadable

/-- The digits before the point: no zero leads others. -/
def whole? (cs : List Char) : Option (List Char × List Char) :=
  match splitDigits cs with
  | ([], _) => none
  | ('0' :: _ :: _, _) => none
  | found => some found

/-- The digits after the point, of which there is at least one. -/
def fraction? : List Char → Option (Option (List Char) × List Char)
  | '.' :: cs =>
    match splitDigits cs with
    | ([], _) => none
    | (digits, rest) => some (some digits, rest)
  | cs => some (none, cs)

def exponent? : List Char → Option (Option Int × List Char)
  | [] => some (none, [])
  | c :: cs =>
    if c == 'e' || c == 'E' then
      let (negative, body) := splitSign cs
      match splitDigits body with
      | ([], _) => none
      | (digits, rest) =>
        some (some (if negative then -(natOf digits : Int) else natOf digits), rest)
    else some (none, c :: cs)

/-- Reads a number at the start of a text. -/
def number? (cs : List Char) : Option (Json × List Char) := do
  let (negative, body) := match cs with
    | '-' :: body => (true, body)
    | _ => (false, cs)
  let (whole, rest) ← whole? body
  let (fraction, rest) ← fraction? rest
  let (exponent, rest) ← exponent? rest
  return (Numeral.value ⟨negative, whole, fraction, exponent⟩, rest)

theorem length_splitDigits (cs : List Char) :
    (splitDigits cs).1.length + (splitDigits cs).2.length = cs.length := by
  rw [← List.length_append]
  simp [splitDigits]

theorem length_splitSign (cs : List Char) : (splitSign cs).2.length ≤ cs.length := by
  unfold splitSign
  split <;> grind

theorem length_whole {cs ds rest : List Char} (h : whole? cs = some (ds, rest)) :
    rest.length < cs.length := by
  unfold whole? at h
  have hs := length_splitDigits cs
  split at h <;> simp_all
  cases ds with
  | nil => simp_all
  | cons d ds => simp only [List.length_cons] at hs; omega

theorem length_fraction {cs rest : List Char} {f : Option (List Char)}
    (h : fraction? cs = some (f, rest)) : rest.length ≤ cs.length := by
  unfold fraction? at h
  split at h
  · rename_i body
    have hs := length_splitDigits body
    split at h <;> simp_all
    omega
  · simp_all

theorem length_exponent {cs rest : List Char} {e : Option Int}
    (h : exponent? cs = some (e, rest)) : rest.length ≤ cs.length := by
  unfold exponent? at h
  split at h
  · simp_all
  · rename_i c body
    split at h
    · have h1 := length_splitSign body
      have hs := length_splitDigits (splitSign body).2
      simp only at h
      split at h <;> simp_all
      omega
    · simp_all

theorem length_number {cs rest : List Char} {j : Json} (h : number? cs = some (j, rest)) :
    rest.length < cs.length := by
  unfold number? at h
  simp only [bind, Option.bind_eq_some_iff, pure] at h
  obtain ⟨⟨ds, r1⟩, h1, ⟨f, r2⟩, h2, ⟨e, r3⟩, h3, h4⟩ := h
  have a2 := length_fraction h2
  have a3 := length_exponent h3
  have a1 := length_whole h1
  simp only [Option.some.injEq, Prod.mk.injEq] at h4
  obtain ⟨_, rfl⟩ := h4
  dsimp only at a1 a2 a3
  split at a1 <;> simp only [List.length_cons] at * <;> omega

end ChatStory.Json
