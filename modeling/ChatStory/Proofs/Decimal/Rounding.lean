import Mathlib

/-!
What rounding to doubles does. It moves a value by at most half a unit, so what lies below the threshold half
a unit above the largest double stays finite and does not pass the multiple of the unit to which it is
nearest; a whole number fills the mantissa that it is rounded to.
-/
namespace ChatStory.Decimal

open Float.Model Float.Model.UnpackedFloat

/-- What an extended mantissa stands for is at least its mantissa, and half a unit more where the
round bit is set. -/
structure Below (em : ExtendedMantissa) (v : ℚ) : Prop where
  mantissa : (em.mantissa : ℚ) ≤ v
  half : em.roundBit = true → (em.mantissa : ℚ) + 1 / 2 ≤ v

theorem mantissa_ofMantissaAndAccuracy (m : Nat) (accuracy : Accuracy) :
    (ExtendedMantissa.ofMantissaAndAccuracy m accuracy).mantissa = m := by
  cases accuracy with
  | exact => rfl
  | inexact side => cases side <;> rfl

theorem mantissa_shiftRight (em : ExtendedMantissa) (n : Nat) :
    (em >>> n).mantissa = em.mantissa / 2 ^ n := by
  change (n.repeat ExtendedMantissa.shiftRightOne em).mantissa = _
  induction n with
  | zero => simp [Nat.repeat]
  | succ n ih =>
    rw [Nat.repeat, pow_succ, ← Nat.div_div_eq_div_mul, ← ih]
    rfl

theorem roundedMantissa_eq (em : ExtendedMantissa) :
    em.roundedMantissa = em.mantissa ∨ em.roundedMantissa = em.mantissa + 1 := by
  obtain ⟨m, round, sticky⟩ := em
  cases round with
  | false => exact .inl (by cases sticky <;> rfl)
  | true =>
    cases sticky with
    | true => exact .inr rfl
    | false =>
      change m + m % 2 = m ∨ m + m % 2 = m + 1
      omega

theorem below_exact (m : Nat) : Below (.ofMantissaAndAccuracy m .exact) m :=
  ⟨le_refl _, nofun⟩

namespace Below

variable {em : ExtendedMantissa} {v : ℚ}

theorem shiftRightOne (below : Below em v) : Below em.shiftRightOne (v / 2) := by
  have whole : ((em.mantissa / 2 : Nat) : ℚ) * 2 + ((em.mantissa % 2 : Nat) : ℚ) = em.mantissa := by
    exact_mod_cast Nat.div_add_mod' em.mantissa 2
  have lower := below.mantissa
  constructor
  · change ((em.mantissa / 2 : Nat) : ℚ) ≤ v / 2
    have : (0 : ℚ) ≤ ((em.mantissa % 2 : Nat) : ℚ) := Nat.cast_nonneg _
    linarith
  · intro odd
    change ((em.mantissa / 2 : Nat) : ℚ) + 1 / 2 ≤ v / 2
    have one : em.mantissa % 2 = 1 := by
      have : (em.mantissa % 2 != 0) = true := odd
      have : em.mantissa % 2 ≠ 0 := by simpa using this
      omega
    rw [one] at whole
    push_cast at whole
    linarith

theorem shiftRight (below : Below em v) (n : Nat) : Below (em >>> n) (v / 2 ^ n) := by
  change Below (n.repeat ExtendedMantissa.shiftRightOne em) _
  induction n with
  | zero => simpa [Nat.repeat] using below
  | succ n ih =>
    rw [Nat.repeat, pow_succ, ← div_div]
    exact ih.shiftRightOne

/- Rounding adds at most half a unit. -/
theorem roundedMantissa (below : Below em v) : (em.roundedMantissa : ℚ) ≤ v + 1 / 2 := by
  obtain ⟨m, round, sticky⟩ := em
  have lower := below.mantissa
  cases round with
  | false =>
    have kept : (ExtendedMantissa.mk m false sticky).roundedMantissa = m := by cases sticky <;> rfl
    rw [kept]
    dsimp only at lower
    linarith
  | true =>
    have half := below.half rfl
    have next : (ExtendedMantissa.mk m true sticky).roundedMantissa ≤ m + 1 := by
      cases sticky with
      | true => exact Nat.le_refl _
      | false =>
        change m + m % 2 ≤ m + 1
        omega
    have next : ((ExtendedMantissa.mk m true sticky).roundedMantissa : ℚ) ≤ m + 1 := by
      exact_mod_cast next
    dsimp only at half
    linarith

end Below

/-- Half a unit above the largest double: what lies below it is not rounded to an infinity. -/
def threshold : Nat := 2 ^ 1024 - 2 ^ 970

/-- The exponent of the unit to which `m * 2 ^ e` is rounded. -/
def unit (m : Nat) (e : Int) : Int := max e (max (m.log2 + e - 52) (-1074))

theorem shiftToTarget_eq (m : Nat) (e : Int) (accuracy : Accuracy) :
    ∃ n : Nat, e + n = unit m e ∧ shiftToTargetExponent Format.binary64 m e accuracy =
      (ExtendedMantissa.ofMantissaAndAccuracy m accuracy >>> n, e + n) := by
  refine ⟨_, ?_, rfl⟩
  simp only [Format.targetExponent, totalExponent, Format.mantissaBits, Format.minExponent, unit]
  omega

theorem log2_lt_of_worth {m : Nat} {e k : Int} (positive : m ≠ 0) (less : (m : ℚ) * 2 ^ e < 2 ^ k) :
    m.log2 + e < k := by
  by_contra more
  have lower : (2 : ℚ) ^ (m.log2 + e) ≤ m * 2 ^ e := by
    rw [zpow_add₀ two_ne_zero, zpow_natCast]
    have : ((2 ^ m.log2 : Nat) : ℚ) ≤ m := Nat.cast_le.2 (Nat.log2_self_le positive)
    push_cast at this
    exact mul_le_mul_of_nonneg_right this (zpow_nonneg zero_le_two e)
  have above : (2 : ℚ) ^ k ≤ 2 ^ (m.log2 + e) := zpow_le_zpow_right₀ one_le_two (not_lt.1 more)
  linarith

/- The threshold is half a unit below a power of two, and above the largest double. -/
theorem threshold_place : threshold + 2 ^ 970 = 2 ^ 1024 ∧ (2 ^ 53 - 1) * 2 ^ 971 < threshold ∧
    2 ^ 64 < threshold := by
  decide +kernel

theorem word_lt_threshold {n k : Nat} (less : n < 2 ^ k) (small : k ≤ 64) : n < threshold :=
  (less.trans_le (Nat.pow_le_pow_right (by decide) small)).trans threshold_place.2.2

theorem threshold_add : (threshold : ℚ) + 2 ^ (971 : Int) / 2 = 2 ^ (1024 : Int) := by
  rw [zpow_ofNat, zpow_ofNat, pow_succ (2 : ℚ) 970, mul_div_cancel_right₀ _ two_ne_zero]
  have cast := congrArg (Nat.cast (R := ℚ)) threshold_place.1
  rwa [Nat.cast_add, Nat.cast_pow, Nat.cast_pow] at cast

theorem threshold_lt : (threshold : ℚ) < 2 ^ (1024 : Int) := by
  rw [← threshold_add]
  exact lt_add_of_pos_right _ (by positivity)

/- A value with at most 53 digits before its unit is rounded to this unit or a smaller one. -/
theorem unit_le {m : Nat} {e k l : Int} (small : e ≤ k) (least : -1074 ≤ k)
    (less : (m : ℚ) * 2 ^ e < 2 ^ l) (digits : l ≤ k + 53) : unit m e ≤ k := by
  unfold unit
  by_cases zero : m = 0
  · rw [zero, Nat.log2_zero]
    omega
  · have := log2_lt_of_worth zero less
    omega

/-- The value is finite and its magnitude at most `k`. -/
def AtMost (k : ℚ) : UnpackedFloat → Prop
  | .zero _ => True
  | .finite _ m e _ => (m : ℚ) * 2 ^ e ≤ k ∧ -1074 ≤ e ∧ e ≤ 971
  | _ => False

/- It is a zero, or a mantissa and an exponent in range. -/
theorem AtMost.shape {k : ℚ} {u : UnpackedFloat} (most : AtMost k u) : (∃ s, u = .zero s) ∨
    ∃ s m e positive, u = .finite s m e positive ∧ (m : ℚ) * 2 ^ e ≤ k ∧ -1074 ≤ e ∧ e ≤ 971 := by
  cases u with
  | zero s => exact .inl ⟨s, rfl⟩
  | finite s m e positive => exact .inr ⟨s, m, e, positive, rfl, most⟩
  | infinity s => exact most.elim
  | notANumber => exact most.elim

theorem AtMost.mono {k l : ℚ} {u : UnpackedFloat} (most : AtMost k u) (less : k ≤ l) : AtMost l u := by
  rcases most.shape with ⟨s, rfl⟩ | ⟨s, m, e, positive, rfl, bound, range⟩
  · trivial
  · exact ⟨bound.trans less, range⟩

theorem AtMost.isFinite {k : ℚ} {u : UnpackedFloat} (most : AtMost k u) : u.isFinite = true := by
  rcases most.shape with ⟨s, rfl⟩ | ⟨s, m, e, positive, rfl, _⟩ <;> rfl

/- What is below the threshold, on a grid of at most `2 ^ 971`, becomes finite. It does not pass a multiple of
   its unit to which it is nearer than to the next one. -/
theorem atMost_round {m : Nat} {e : Int} {accuracy : Accuracy} {v : ℚ} (s : Sign)
    (below : Below (.ofMantissaAndAccuracy m accuracy) v) (small : e ≤ 971)
    (bounded : v * 2 ^ e < threshold) {k : Nat} (nearer : v * 2 ^ e < (k + 1 / 2) * 2 ^ unit m e) :
    AtMost (k * 2 ^ unit m e) (roundWithAccuracy Format.binary64 s m e accuracy) := by
  obtain ⟨n, exponent, first⟩ := shiftToTarget_eq m e accuracy
  unfold roundWithAccuracy
  rw [first]
  dsimp only
  rw [exponent]
  have rounded := (below.shiftRight n).roundedMantissa
  generalize (ExtendedMantissa.ofMantissaAndAccuracy m accuracy >>> n).roundedMantissa = r at rounded
  have unitPositive : (0 : ℚ) < 2 ^ unit m e := zpow_pos zero_lt_two _
  have same : v * 2 ^ e = v / 2 ^ n * 2 ^ unit m e := by
    rw [← exponent, zpow_add₀ two_ne_zero, zpow_natCast]
    field_simp
  have near : (r : ℚ) * 2 ^ unit m e ≤ v * 2 ^ e + 2 ^ unit m e / 2 := by
    have step := mul_le_mul_of_nonneg_right rounded unitPositive.le
    linarith
  have whole : r ≤ k := by
    rw [same] at nearer
    have := lt_of_mul_lt_mul_right nearer unitPositive.le
    have : (r : ℚ) < k + 1 := by linarith
    exact Nat.lt_succ_iff.1 (by exact_mod_cast this)
  have inside : unit m e ≤ 971 := by
    apply unit_le (l := 1024) small (by decide) _ (by decide)
    have lower := mul_le_mul_of_nonneg_right below.mantissa (zpow_nonneg (zero_le_two (α := ℚ)) e)
    rw [mantissa_ofMantissaAndAccuracy] at lower
    exact lower.trans_lt (bounded.trans threshold_lt)
  obtain ⟨more, exponent', second⟩ := shiftToTarget_eq r (unit m e) .exact
  rw [second]
  dsimp only
  have inside' : unit r (unit m e) ≤ 971 := by
    apply unit_le (l := 1024) inside (by decide) _ (by decide)
    have half : (2 : ℚ) ^ unit m e ≤ 2 ^ (971 : Int) := zpow_le_zpow_right₀ one_le_two inside
    linarith [threshold_add]
  have least : -1074 ≤ unit r (unit m e) := by
    unfold unit
    omega
  have cut := ((below_exact r).shiftRight more).mantissa
  generalize (ExtendedMantissa.ofMantissaAndAccuracy r .exact >>> more).mantissa = q at cut
  split
  · trivial
  · rw [exponent']
    refine ⟨?_, least, inside'⟩
    calc (q : ℚ) * 2 ^ unit r (unit m e)
        ≤ r / 2 ^ more * 2 ^ unit r (unit m e) :=
          mul_le_mul_of_nonneg_right cut (zpow_nonneg zero_le_two _)
      _ = r * 2 ^ unit m e := by
          rw [← exponent', zpow_add₀ two_ne_zero, zpow_natCast]
          field_simp
      _ ≤ k * 2 ^ unit m e :=
          mul_le_mul_of_nonneg_right (Nat.cast_le.2 whole) unitPositive.le

/- What is rounded below the threshold is bounded by something. -/
theorem exists_atMost_round {m : Nat} {e : Int} {accuracy : Accuracy} {v : ℚ} (s : Sign)
    (below : Below (.ofMantissaAndAccuracy m accuracy) v) (small : e ≤ 971)
    (bounded : v * 2 ^ e < threshold) :
    ∃ k, AtMost k (roundWithAccuracy Format.binary64 s m e accuracy) := by
  have unitPositive : (0 : ℚ) < 2 ^ unit m e := zpow_pos zero_lt_two _
  obtain ⟨k, more⟩ := exists_nat_gt (v * 2 ^ e / 2 ^ unit m e)
  refine ⟨_, atMost_round s below small bounded (k := k) ?_⟩
  rw [div_lt_iff₀ unitPositive] at more
  linarith

/- What is rounded to a unit of at most one does not pass a whole number. -/
theorem atMost_round_whole {m : Nat} {e : Int} {v : ℚ} (s : Sign) {accuracy : Accuracy}
    (below : Below (.ofMantissaAndAccuracy m accuracy) v) (small : unit m e ≤ 0) {n : Nat}
    (bounded : v * 2 ^ e ≤ n) (less : n < threshold) :
    AtMost n (roundWithAccuracy Format.binary64 s m e accuracy) := by
  have same : ((n * 2 ^ (-unit m e).toNat : Nat) : ℚ) * 2 ^ unit m e = n := by
    push_cast
    rw [← zpow_natCast, Int.toNat_of_nonneg (by omega), mul_assoc, ← zpow_add₀ two_ne_zero,
      neg_add_cancel, zpow_zero, mul_one]
  rw [← same]
  have inside : e ≤ unit m e := le_max_left _ _
  apply atMost_round s below (by omega) (bounded.trans_lt (Nat.cast_lt.2 less))
  have positive : (0 : ℚ) < 2 ^ unit m e := zpow_pos zero_lt_two _
  rw [add_mul, same]
  linarith

/-- The multiple of `2 ^ n` that is nearest to a number, the upper one of two. -/
def nearestMultiple (n x : Nat) : Nat := (2 * x + 2 ^ n) / 2 ^ (n + 1) * 2 ^ n

theorem nearestMultiple_mono (n : Nat) {x y : Nat} (less : x ≤ y) :
    nearestMultiple n x ≤ nearestMultiple n y :=
  Nat.mul_le_mul_right _ (Nat.div_le_div_right (by omega))

theorem nearestMultiple_zero (x : Nat) : nearestMultiple 0 x = x := by
  unfold nearestMultiple
  omega

theorem log2_mul_pow {x : Nat} (positive : x ≠ 0) (n : Nat) : (x * 2 ^ n).log2 = x.log2 + n := by
  have lower := Nat.log2_self_le positive
  have upper := Nat.lt_log2_self (n := x)
  rw [Nat.log2_eq_iff (by positivity), show x.log2 + n + 1 = x.log2 + 1 + n by omega, Nat.pow_add,
    Nat.pow_add _ (x.log2 + 1)]
  exact ⟨Nat.mul_le_mul_right _ lower, Nat.mul_lt_mul_of_pos_right upper (by positivity)⟩

/- A whole number below the threshold becomes at most the nearest multiple of its unit. -/
theorem atMost_round_natural (s : Sign) {x : Nat} (positive : x ≠ 0) (less : x < threshold) :
    AtMost (nearestMultiple (x.log2 - 52) x)
      (roundWithAccuracy Format.binary64 s (x * 2 ^ 53) (-53) .exact) := by
  have log := log2_mul_pow positive 53
  have same : ((x * 2 ^ 53 : Nat) : ℚ) * 2 ^ (-53 : Int) = x := by
    push_cast
    rw [mul_assoc]
    norm_num
  have unit_eq : unit (x * 2 ^ 53) (-53) = x.log2 - 52 := by
    unfold unit
    omega
  by_cases large : 52 ≤ x.log2
  · generalize grid : x.log2 - 52 = n
    have unit_eq : unit (x * 2 ^ 53) (-53) = n := by omega
    have nearer : 2 * x + 2 ^ n < 2 ^ (n + 1) * ((2 * x + 2 ^ n) / 2 ^ (n + 1) + 1) :=
      Nat.lt_mul_div_succ _ (by positivity)
    unfold nearestMultiple
    generalize (2 * x + 2 ^ n) / 2 ^ (n + 1) = k at nearer
    have most := atMost_round s (below_exact (x * 2 ^ 53)) (e := -53) (by decide) (k := k)
      (by rw [same]; exact Nat.cast_lt.2 less) (by
        rw [same, unit_eq, zpow_natCast]
        have := Nat.cast_lt (α := ℚ).2 nearer
        push_cast [pow_succ] at this
        linarith)
    rw [unit_eq, zpow_natCast] at most
    exact_mod_cast most
  · have zero : x.log2 - 52 = 0 := by omega
    rw [zero, nearestMultiple_zero]
    exact atMost_round_whole s (below_exact _) (by omega) same.le less

/- What fills a mantissa once it is rounded fills it once it has been shifted again. -/
theorem full_of_rounded {r : Nat} (lower : 2 ^ 52 ≤ r) (upper : r ≤ 2 ^ 53) :
    (r / 2 ^ (r.log2 - 52)).log2 = 52 := by
  have positive : r ≠ 0 := by omega
  rcases Nat.lt_or_eq_of_le upper with inside | rfl
  · have log : r.log2 = 52 := (Nat.log2_eq_iff positive).2 ⟨lower, inside⟩
    rw [log, Nat.sub_self, Nat.pow_zero, Nat.div_one, log]
  · rw [Nat.log2_two_pow, Nat.pow_div (by decide) (by decide), Nat.log2_two_pow]

/- A whole number that is not zero fills the mantissa that it is rounded to. -/
theorem full_round_natural (s : Sign) {x : Nat} (positive : x ≠ 0) :
    ∃ m e positive', roundWithAccuracy Format.binary64 s (x * 2 ^ 53) (-53) .exact =
      .finite s m e positive' ∧ m.log2 = 52 ∧ -52 ≤ e := by
  have lower := Nat.log2_self_le positive
  have upper := Nat.lt_log2_self (n := x)
  obtain ⟨n, exponent, first⟩ := shiftToTarget_eq (x * 2 ^ 53) (-53) .exact
  have unit_eq : unit (x * 2 ^ 53) (-53) = x.log2 - 52 := by
    unfold unit
    rw [log2_mul_pow positive]
    omega
  have shift : n = x.log2 + 1 := by omega
  have whole := mantissa_shiftRight (ExtendedMantissa.ofMantissaAndAccuracy (x * 2 ^ 53) .exact) n
  rw [mantissa_ofMantissaAndAccuracy] at whole
  have rounded := roundedMantissa_eq (ExtendedMantissa.ofMantissaAndAccuracy (x * 2 ^ 53) .exact >>> n)
  unfold roundWithAccuracy
  rw [first]
  dsimp only
  generalize (ExtendedMantissa.ofMantissaAndAccuracy (x * 2 ^ 53) .exact >>> n).roundedMantissa = r at *
  rw [whole] at rounded
  have filled : 2 ^ 52 ≤ x * 2 ^ 53 / 2 ^ n := by
    rw [Nat.le_div_iff_mul_le (by positivity), shift, ← Nat.pow_add,
      show 52 + (x.log2 + 1) = x.log2 + 53 by omega, Nat.pow_add]
    exact Nat.mul_le_mul_right _ lower
  have held : x * 2 ^ 53 / 2 ^ n < 2 ^ 53 := by
    rw [Nat.div_lt_iff_lt_mul (by positivity), shift, Nat.mul_comm (2 ^ 53)]
    exact Nat.mul_lt_mul_of_pos_right upper (by positivity)
  have lower : 2 ^ 52 ≤ r := by omega
  have upper : r ≤ 2 ^ 53 := by omega
  obtain ⟨more, exponent', second⟩ := shiftToTarget_eq r (-53 + n) .exact
  have whole := mantissa_shiftRight (ExtendedMantissa.ofMantissaAndAccuracy r .exact) more
  rw [mantissa_ofMantissaAndAccuracy] at whole
  have unit_eq : unit r (-53 + n) = -53 + n + (r.log2 - 52 : Nat) := by
    have := (Nat.le_log2 (by omega : r ≠ 0)).2 lower
    unfold unit
    omega
  have shift : more = r.log2 - 52 := by omega
  have full := full_of_rounded lower upper
  rw [← shift, ← whole] at full
  rw [second]
  dsimp only
  split
  · rename_i zero
    rw [zero] at full
    cases full
  · exact ⟨_, _, Nat.pos_of_ne_zero ‹_›, rfl, full, by omega⟩

end ChatStory.Decimal
