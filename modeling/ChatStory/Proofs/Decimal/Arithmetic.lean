import ChatStory.Proofs.Decimal.Packing

/-!
Which results of arithmetic on doubles are finite. Products, quotients and whole numbers are rounded once,
from their exact values, and so is every double that is read from digits.
-/
namespace ChatStory.Decimal

open Float.Model Float.Model.UnpackedFloat

/- A product is zero or rounded from the product of the mantissas, which fills a mantissa unless it lies
   far below one. -/
theorem mul_shape {x y : Float} {a b : ℚ} (first : AtMost a x.toModel.unpack)
    (second : AtMost b y.toModel.unpack) :
    (∃ s, UnpackedFloat.mul Format.binary64 x.toModel.unpack y.toModel.unpack = .zero s) ∨
      ∃ s m e, UnpackedFloat.mul Format.binary64 x.toModel.unpack y.toModel.unpack =
          roundWithAccuracy Format.binary64 s m e .exact ∧
        (m : ℚ) * 2 ^ e ≤ a * b ∧ (2 ^ 52 ≤ m ∨ e < 0) := by
  rcases first.shape with ⟨s, zero⟩ | ⟨s, m, e, positive, shape, boundX, leastX, smallX⟩
  · rw [zero]
    rcases second.shape with ⟨t, zero⟩ | ⟨t, q, f, positive', shape, _⟩
    · rw [zero]
      exact .inl ⟨_, rfl⟩
    · rw [shape]
      exact .inl ⟨_, rfl⟩
  · have full := full_unpack x shape
    rw [shape]
    rcases second.shape with ⟨t, zero⟩ | ⟨t, q, f, positive', shape', boundY, leastY, smallY⟩
    · rw [zero]
      exact .inl ⟨_, rfl⟩
    · rw [shape']
      refine .inr ⟨s * t, m * q, e + f, rfl, ?_, ?_⟩
      · calc ((m * q : Nat) : ℚ) * 2 ^ (e + f)
            = m * 2 ^ e * (q * 2 ^ f) := by
              rw [zpow_add₀ two_ne_zero]
              push_cast
              ring
          _ ≤ a * b := mul_le_mul boundX boundY (by positivity) (le_trans (by positivity) boundX)
      · rcases full with normal | least
        · exact .inl (normal.trans (Nat.le_mul_of_pos_right m positive'))
        · right
          omega

theorem small_of_full {m : Nat} {e k : Int} (full : 2 ^ 52 ≤ m ∨ e < 0)
    (less : (m : ℚ) * 2 ^ e < 2 ^ k) : e ≤ k - 53 ∨ e < 0 := by
  rcases full with normal | low
  · left
    have positive : m ≠ 0 := Nat.ne_of_gt (Nat.lt_of_lt_of_le (by decide) normal)
    have := log2_lt_of_worth positive less
    have := (Nat.le_log2 positive).2 normal
    omega
  · exact .inr low

/- A product is finite where the bounds of its factors say so. -/
theorem isFinite_mul {x y : Float} {a b : ℚ} (first : AtMost a x.toModel.unpack)
    (second : AtMost b y.toModel.unpack) (less : a * b < threshold) : (x * y).isFinite = true := by
  apply isFinite_pack (u := UnpackedFloat.mul Format.binary64 x.toModel.unpack y.toModel.unpack)
  rcases mul_shape first second with ⟨s, zero⟩ | ⟨s, m, e, rounded, bound, full⟩
  · rw [zero]
    exact ⟨0, trivial⟩
  · rw [rounded]
    have below := bound.trans_lt less
    have small := small_of_full (k := 1024) full (below.trans threshold_lt)
    exact exists_atMost_round s (below_exact m) (by omega) below

theorem atMost_mul_whole {x y : Float} {a b : ℚ} (first : AtMost a x.toModel.unpack)
    (second : AtMost b y.toModel.unpack) {n : Nat} (bounded : a * b ≤ n) (less : n < 2 ^ 53) :
    AtMost n (x * y).toModel.unpack := by
  apply atMost_pack (u := UnpackedFloat.mul Format.binary64 x.toModel.unpack y.toModel.unpack)
  rcases mul_shape first second with ⟨s, zero⟩ | ⟨s, m, e, rounded, bound, full⟩
  · rw [zero]
    trivial
  · rw [rounded]
    have below : (m : ℚ) * 2 ^ e < 2 ^ (53 : Int) := by
      refine (bound.trans bounded).trans_lt ?_
      exact_mod_cast less
    have small := small_of_full full below
    have inside : unit m e ≤ 0 := unit_le (by omega) (by decide) below (by decide)
    exact atMost_round_whole s (below_exact m) inside (bound.trans bounded)
      (word_lt_threshold less (by decide))

/- A quotient with its remainder is below the fraction, and half a unit more where it is so rounded. -/
theorem below_fraction (m : Nat) {k : Nat} (positive : 0 < k) :
    Below (.ofMantissaAndAccuracy (m / k) (accuracyOfFraction (m % k) k)) ((m : ℚ) / k) := by
  have parts : (k : ℚ) * (m / k : Nat) + (m % k : Nat) = m := by exact_mod_cast Nat.div_add_mod m k
  have divisor : (0 : ℚ) < k := Nat.cast_pos.2 positive
  constructor
  · rw [mantissa_ofMantissaAndAccuracy]
    exact Nat.cast_div_le
  · intro round
    rw [mantissa_ofMantissaAndAccuracy, le_div_iff₀ divisor]
    have half : k ≤ 2 * (m % k) := by
      unfold accuracyOfFraction at round
      split at round
      · cases round
      · cases compared : compare (2 * (m % k)) k with
        | lt =>
          rw [compared] at round
          cases round
        | eq => exact (Nat.compare_eq_eq.1 compared).ge
        | gt => exact (Nat.compare_eq_gt.1 compared).le
    have half : (k : ℚ) ≤ 2 * (m % k : Nat) := by exact_mod_cast half
    linarith

theorem total_of_atLeastOne {m : Nat} {e : Int} (large : (1 : ℚ) ≤ m * 2 ^ e) :
    0 < totalExponent m e := by
  by_contra low
  have digits : (m : ℚ) < 2 ^ (m.log2 + 1) := by exact_mod_cast Nat.lt_log2_self
  have below : (m : ℚ) * 2 ^ e < 2 ^ totalExponent m e := by
    unfold totalExponent
    rw [zpow_add₀ two_ne_zero]
    exact mul_lt_mul_of_pos_right (by exact_mod_cast digits) (zpow_pos zero_lt_two e)
  have one : (2 : ℚ) ^ totalExponent m e ≤ 2 ^ (0 : Int) :=
    zpow_le_zpow_right₀ one_le_two (not_lt.1 low)
  rw [zpow_zero] at one
  linarith

/- A quotient is finite where the divisor is not below one. -/
theorem isFinite_div {x y : Float} (finite : x.isFinite = true)
    (large : AtLeastOne y.toModel.unpack) : (x / y).isFinite = true := by
  obtain ⟨k, less, first⟩ := atMost_of_isFinite finite
  apply isFinite_pack (u := UnpackedFloat.div Format.binary64 x.toModel.unpack y.toModel.unpack)
  obtain ⟨t, q, f, positive', shape', large⟩ := large.shape
  rw [shape']
  rcases first.shape with ⟨s, zero⟩ | ⟨s, m, e, positive, shape, bound, least, small⟩
  · rw [zero]
    exact ⟨0, trivial⟩
  · rw [shape]
    unfold UnpackedFloat.div divCore
    dsimp only
    have total := log2_lt_of_worth (Nat.ne_of_gt positive) ((bound.trans_lt less).trans threshold_lt)
    have total' := total_of_atLeastOne large
    generalize target : min (e - f) (Format.binary64.targetExponent
      (totalExponent m e - totalExponent q f)) = k at *
    have inside : k ≤ 971 := by
      rw [← target]
      simp only [Format.targetExponent, Format.mantissaBits, Format.minExponent, totalExponent] at *
      omega
    have lower : k ≤ e - f := target ▸ min_le_left _ _
    obtain ⟨n, shift⟩ : ∃ n : Nat, e - f - k = n := ⟨(e - f - k).toNat, by omega⟩
    rw [shift, Int.toNat_natCast, Nat.shiftLeft_eq]
    apply exists_atMost_round _ (below_fraction (m * 2 ^ n) positive') inside
    have divisor : (0 : ℚ) < q := Nat.cast_pos.2 positive'
    have power : (2 : ℚ) ^ n * 2 ^ k = 2 ^ e / 2 ^ f := by
      rw [← zpow_natCast, ← zpow_add₀ two_ne_zero, ← zpow_sub₀ two_ne_zero]
      congr 1
      omega
    have same : ((m * 2 ^ n : Nat) : ℚ) / q * 2 ^ k = m * 2 ^ e / (q * 2 ^ f) := by
      push_cast
      rw [div_mul_eq_mul_div, mul_assoc, power, mul_div_assoc', div_div, mul_comm (2 ^ f)]
    rw [same]
    exact (div_le_self (by positivity) large).trans_lt (bound.trans_lt less)

theorem isFinite_neg {x : Float} (finite : x.isFinite = true) : (-x).isFinite = true := by
  obtain ⟨k, _, most⟩ := atMost_of_isFinite finite
  have negated : AtMost k x.toModel.unpack.neg := by
    cases shape : x.toModel.unpack <;> rw [shape] at most <;> exact most
  exact (atMost_pack negated).isFinite

/- A product of finite doubles is a number. -/
theorem isFinite_mul_of_isInf {x y : Float} (first : x.isFinite = true) (second : y.isFinite = true)
    (bounded : (x * y).isInf = false) : (x * y).isFinite = true := by
  obtain ⟨_, _, first⟩ := atMost_of_isFinite first
  obtain ⟨_, _, second⟩ := atMost_of_isFinite second
  have number :
      UnpackedFloat.mul Format.binary64 x.toModel.unpack y.toModel.unpack ≠ .notANumber := by
    rcases mul_shape first second with ⟨s, zero⟩ | ⟨s, m, e, rounded, _⟩
    · rw [zero]
      nofun
    · rw [rounded]
      unfold roundWithAccuracy
      dsimp only
      split <;> nofun
  have number := pack_ne_notANumber number
  change (Float.Model.pack _).unpack.isInf = false at bounded
  change (Float.Model.pack _).unpack.isFinite = true
  generalize (Float.Model.pack _).unpack = u at *
  cases u with
  | infinity s => cases bounded
  | notANumber => exact absurd rfl number
  | zero s => rfl
  | finite s m e positive => rfl

/- What is read from digits is a rounded product, unless there are few of them. -/
theorem ofScientific_eq {m e : Nat} (slow : ¬(m < 2 ^ 53 ∧ e ≤ 22)) (positive : m ≠ 0)
    (short : e ≤ 308) : (Float.ofScientific m false e).toModel = Float.Model.pack
      (roundWithAccuracy Format.binary64 (Sign.positive * Sign.positive) (m * 10 ^ e * 2 ^ 53) (-53)
        .exact) := by
  unfold Float.ofScientific
  rw [dif_neg slow]
  change Float.Model.pack (UnpackedFloat.ofScientific Format.binary64 m (Int.ofNat e)) = _
  unfold UnpackedFloat.ofScientific
  rw [dif_neg positive, if_neg (by change ¬(2 ^ 11 : Int) < (e : Int); omega),
    if_neg (by change ¬(e : Int) < -(2 ^ 11 + (m.log2 : Int)); omega),
    if_pos (by exact Int.natCast_nonneg e)]
  have same : m * 10 ^ e * 2 ^ 53 = m <<< Format.binary64.mantissaBits * 10 ^ (Int.ofNat e).toNat := by
    rw [Nat.shiftLeft_eq]
    change m * 10 ^ e * 2 ^ 53 = m * 2 ^ 53 * 10 ^ e
    ring
  rw [same]
  rfl

theorem mul_pow_ten_ne_zero {m : Nat} (positive : m ≠ 0) (e : Nat) : m * 10 ^ e ≠ 0 :=
  Nat.mul_ne_zero positive (Nat.ne_of_gt (Nat.pow_pos (by decide)))

theorem atMost_ofScientific {m e : Nat} (slow : ¬(m < 2 ^ 53 ∧ e ≤ 22)) (positive : m ≠ 0)
    (short : e ≤ 308) (less : m * 10 ^ e < threshold) :
    AtMost (nearestMultiple ((m * 10 ^ e).log2 - 52) (m * 10 ^ e))
      (Float.ofScientific m false e).toModel.unpack := by
  rw [ofScientific_eq slow positive short]
  exact atMost_pack (atMost_round_natural _ (mul_pow_ten_ne_zero positive e) less)

theorem atLeastOne_ofScientific {m e : Nat} (slow : ¬(m < 2 ^ 53 ∧ e ≤ 22)) (positive : m ≠ 0)
    (short : e ≤ 308) (less : m * 10 ^ e < threshold) :
    AtLeastOne (Float.ofScientific m false e).toModel.unpack := by
  have nonzero := mul_pow_ten_ne_zero positive e
  have most := atMost_round_natural (Sign.positive * Sign.positive) nonzero less
  obtain ⟨q, f, positive', shape, full, least⟩ :=
    full_round_natural (Sign.positive * Sign.positive) nonzero
  rw [ofScientific_eq slow positive short, shape]
  rw [shape] at most
  exact atLeastOne_pack positive' full least most.2.2

/- Small whole numbers are converted as they are. -/
theorem atMost_toFloat {w : Nat} (small : w < 2 ^ 53) : AtMost w w.toUInt64.toFloat.toModel.unpack := by
  apply atMost_pack
  have same : (w.toUInt64.toNat : Int) = w := by
    rw [Nat.toUInt64, UInt64.toNat_ofNat']
    omega
  change AtMost w (UnpackedFloat.normalize Format.binary64 (w.toUInt64.toNat : Int) 0 .positive)
  rw [same]
  unfold UnpackedFloat.normalize
  rcases Nat.eq_zero_or_pos w with rfl | positive
  · trivial
  · have compared : compare (w : Int) 0 = .gt := Int.compare_eq_gt.2 (by omega)
    rw [compared]
    dsimp only
    unfold UnpackedFloat.round decreaseExponent
    dsimp only
    rw [Int.toNat_natCast, zero_sub, Nat.shiftLeft_eq]
    generalize (-Format.binary64.targetExponent (totalExponent w 0)).toNat = n
    have whole : ((w * 2 ^ n : Nat) : ℚ) * 2 ^ (0 - (n : Int)) = w := by
      push_cast
      rw [zero_sub, zpow_neg, zpow_natCast]
      field_simp
    have log := log2_lt_of_worth (m := w * 2 ^ n) (e := 0 - n) (k := 53) (by positivity) (by
      rw [whole]
      exact_mod_cast small)
    apply atMost_round_whole .positive (below_exact _) ?_ whole.le (word_lt_threshold small (by decide))
    unfold unit
    omega

theorem atMost_one : AtMost 1 (Float.exactlyRepresentablePowersOfTen[0]).toModel.unpack := by
  change AtMost 1 (UnpackedFloat.finite .positive (2 ^ 52) (-52) (by decide))
  refine ⟨?_, by decide, by decide⟩
  norm_num

theorem atMost_word {w : Nat} (fits : w < 2 ^ 64) :
    AtMost (nearestMultiple (w.log2 - 52) w) (Float.ofNat w).toModel.unpack := by
  change AtMost _ (Float.ofScientific w false 0).toModel.unpack
  by_cases small : w < 2 ^ 53
  · have zero : w.log2 - 52 = 0 := by
      have : w = 0 ∨ w.log2 < 53 := by
        rcases Nat.eq_zero_or_pos w with zero | positive
        · exact .inl zero
        · exact .inr ((Nat.log2_lt (Nat.ne_of_gt positive)).2 small)
      rcases this with rfl | log
      · rfl
      · omega
    rw [zero, nearestMultiple_zero]
    unfold Float.ofScientific
    rw [dif_pos ⟨small, by decide⟩]
    exact atMost_mul_whole (atMost_toFloat small) atMost_one (by rw [mul_one]) small
  · have product := atMost_ofScientific (m := w) (e := 0) (by omega) (by omega) (by decide)
      (by rw [Nat.pow_zero, Nat.mul_one]; exact word_lt_threshold fits (Nat.le_refl _))
    rwa [Nat.pow_zero, Nat.mul_one] at product

end ChatStory.Decimal
