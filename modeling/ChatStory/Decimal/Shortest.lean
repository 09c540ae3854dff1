/-!
The decimal that identifies a double. A double stands for the interval of reals
that round to it; the decimals with the fewest digits inside that interval
are the candidates, and the one nearest to the double itself is selected.
All comparisons are exact, on natural numbers.
-/
namespace ChatStory.Decimal

/-- The magnitude `m * 2 ^ q`. It is narrow when the next magnitude below lies at
half the distance of the next one above. -/
structure Magnitude where
  m : Nat
  q : Int
  narrow : Bool

/-- The magnitude of a finite double, from its bits. -/
def Magnitude.ofBits (b : UInt64) : Magnitude :=
  let exponent := ((b >>> 52) &&& 0x7FF).toNat
  let fraction := (b &&& 0xFFFFFFFFFFFFF).toNat
  if exponent = 0 then ⟨fraction, -1074, false⟩
  else ⟨0x10000000000000 + fraction, (exponent : Int) - 1075, fraction = 0 && 1 < exponent⟩

/-- The decimal `digits * 10 ^ exp`. -/
structure Scaled where
  digits : Nat
  exp : Int
deriving DecidableEq

/-- Compares `d * 10 ^ i` with `a * 2 ^ j`. -/
def compareScaled (d : Nat) (i : Int) (a : Nat) (j : Int) : Ordering :=
  compare (d * Nat.pow 10 i.toNat * Nat.pow 2 (-j).toNat)
    (a * Nat.pow 2 j.toNat * Nat.pow 10 (-i).toNat)

/-- The decimal lies among the reals that round to `x`. The ends of the interval
belong to it when the mantissa is even. -/
def Magnitude.reads (x : Magnitude) (d : Scaled) : Bool :=
  let low := compareScaled d.digits d.exp (4 * x.m - if x.narrow then 1 else 2) (x.q - 2)
  let high := compareScaled d.digits d.exp (4 * x.m + 2) (x.q - 2)
  let closed := x.m % 2 == 0
  (low == .gt || (closed && low == .eq)) && (high == .lt || (closed && high == .eq))

/-- The number of digits before the point: the least `k` with `x < 10 ^ k`. -/
def Magnitude.scale (x : Magnitude) : Int :=
  let guess := ((x.m.log2 : Int) + x.q) * 30103 / 100000
  let below (k : Int) : Bool := compareScaled 1 k x.m x.q == .gt
  ([guess - 1, guess, guess + 1].find? below).getD (guess + 2)

/-- The point of the grid `10 ^ e` at or below `x`, in units of the grid. -/
def Magnitude.floorOn (x : Magnitude) (e : Int) : Nat :=
  (x.m * Nat.pow 2 x.q.toNat * Nat.pow 10 (-e).toNat) /
    (Nat.pow 2 (-x.q).toNat * Nat.pow 10 e.toNat)

/-- The point of the grid `10 ^ e` that reads as `x` and is nearest to it, if any
does. Of two that are equally near, `upward` decides on the upper one; otherwise the
even one is taken. -/
def Magnitude.onGrid? (x : Magnitude) (upward : Bool) (e : Int) : Option Scaled :=
  let lo := x.floorOn e
  match x.reads ⟨lo, e⟩, x.reads ⟨lo + 1, e⟩ with
  | false, false => none
  | true, false => some ⟨lo, e⟩
  | false, true => some ⟨lo + 1, e⟩
  | true, true =>
    match compareScaled (2 * lo + 1) e (2 * x.m) x.q with
    | .lt => some ⟨lo + 1, e⟩
    | .gt => some ⟨lo, e⟩
    | .eq => some ⟨if upward || lo % 2 == 1 then lo + 1 else lo, e⟩

def Scaled.strip (d : Scaled) : Scaled :=
  if h : d.digits ≠ 0 ∧ d.digits % 10 = 0 then Scaled.strip ⟨d.digits / 10, d.exp + 1⟩ else d
termination_by d.digits
decreasing_by exact Nat.div_lt_self (Nat.pos_of_ne_zero h.1) (by decide)

/-- All digits of a magnitude. -/
def Magnitude.exact (x : Magnitude) : Scaled :=
  if x.q < 0 then ⟨x.m * Nat.pow 5 (-x.q).toNat, x.q⟩ else ⟨x.m * Nat.pow 2 x.q.toNat, 0⟩

/-- The fewest digits that read back, without trailing zeros. -/
def Magnitude.shortest (x : Magnitude) (upward : Bool) : Scaled :=
  let k := x.scale
  ((List.range 17).findSome? fun n => x.onGrid? upward (k - (n + 1 : Nat))).getD x.exact |>.strip

end ChatStory.Decimal
