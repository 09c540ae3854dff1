import ChatStory.Decimal.Shortest

/-!
How the digits of a double are laid out as text. The decisions are the fields
of one record; `plain` is the layout in which numbers are shown to people.
-/
namespace ChatStory.Decimal

structure Layout where
  /-- Of two equally near decimals the upper one is written. -/
  upward : Bool
  /-- Exponents of the leading digit from the first up to, not including, the
  second are written positionally; without a pair all of them are. -/
  positional : Option (Int × Int)
  /-- A number without a fraction is written with `.0`. -/
  pointZero : Bool
  nan : String
  infinity : String
  negativeInfinity : String

/-- Positional always, and no fraction where there is none. -/
def plain : Layout where
  upward := true
  positional := none
  pointZero := false
  nan := "NaN"
  infinity := "inf"
  negativeInfinity := "-inf"

def zeros (n : Nat) : List Char := List.replicate n '0'

/-- Writes digits positionally when the point stands after `point` of them. -/
def positionalText (pointZero : Bool) (ds : List Char) (point : Int) : List Char :=
  if point ≤ 0 then '0' :: '.' :: (zeros (-point).toNat ++ ds)
  else if point < ds.length then ds.take point.toNat ++ '.' :: ds.drop point.toNat
  else ds ++ zeros (point - ds.length).toNat ++ if pointZero then ['.', '0'] else []

/-- Writes digits with the exponent of the leading one, which always has a sign. -/
def exponentText (ds : List Char) (e : Int) : List Char :=
  let head := match ds with
    | d :: f :: rest => d :: '.' :: f :: rest
    | _ => ds
  head ++ 'e' :: (if e < 0 then '-' else '+') :: Nat.toDigits 10 e.natAbs

def Layout.magnitudeText (layout : Layout) (x : Magnitude) : List Char :=
  if x.m = 0 then if layout.pointZero then ['0', '.', '0'] else ['0']
  else
    let d := x.shortest layout.upward
    let ds := Nat.toDigits 10 d.digits
    let point := (ds.length : Int) + d.exp
    match layout.positional with
    | none => positionalText layout.pointZero ds point
    | some (lo, hi) =>
      if lo ≤ point - 1 ∧ point - 1 < hi then positionalText layout.pointZero ds point
      else exponentText ds (point - 1)

def Layout.text (layout : Layout) (x : Float) : String :=
  if x.isNaN then layout.nan
  else
    let negative := x.toBits >>> 63 == 1
    if x.isFinite then
      let body := layout.magnitudeText (.ofBits x.toBits)
      String.ofList (if negative then '-' :: body else body)
    else if negative then layout.negativeInfinity else layout.infinity

end ChatStory.Decimal
