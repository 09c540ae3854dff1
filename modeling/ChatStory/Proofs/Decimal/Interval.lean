import ChatStory.Proofs.Decimal.Digits
import Mathlib

/-!
How far the decimal of a double lies from it. All decimals that read as a double lie in its interval,
and so does the one that is written; leaving out zeros at its end does not move it.
-/
namespace ChatStory.Decimal

/-- The number that a decimal stands for. -/
def Scaled.worth (d : Scaled) : ℚ := d.digits * 10 ^ d.exp

/-- The upper end of the interval of reals that round to a magnitude. -/
def Magnitude.top (x : Magnitude) : ℚ := (4 * x.m + 2 : Nat) * 2 ^ (x.q - 2)

theorem zpow_eq_div {b : ℚ} (nonzero : b ≠ 0) (i : Int) : b ^ i = b ^ i.toNat / b ^ (-i).toNat := by
  rw [eq_div_iff (pow_ne_zero _ nonzero), ← zpow_natCast, ← zpow_natCast, ← zpow_add₀ nonzero]
  congr 1
  omega

/- Comparing is exact. -/
theorem worth_le_of_compare {d a : Nat} {i j : Int} (less : compareScaled d i a j ≠ .gt) :
    (d : ℚ) * 10 ^ i ≤ a * 2 ^ j := by
  have whole : d * 10 ^ i.toNat * 2 ^ (-j).toNat ≤ a * 2 ^ j.toNat * 10 ^ (-i).toNat := by
    unfold compareScaled at less
    exact Nat.compare_ne_gt.1 less
  have whole := Nat.cast_le (α := ℚ).2 whole
  push_cast at whole
  rw [zpow_eq_div (by norm_num : (10 : ℚ) ≠ 0), zpow_eq_div (two_ne_zero (α := ℚ)), mul_div_assoc',
    mul_div_assoc', div_le_div_iff₀ (by positivity) (by positivity)]
  linarith

theorem worth_le_of_reads {x : Magnitude} {d : Scaled} (reads : x.reads d = true) : d.worth ≤ x.top := by
  apply worth_le_of_compare
  intro greater
  simp [Magnitude.reads, greater] at reads

theorem reads_of_onGrid {x : Magnitude} {upward : Bool} {e : Int} {d : Scaled}
    (found : x.onGrid? upward e = some d) : x.reads d = true := by
  unfold Magnitude.onGrid? at found
  dsimp only at found
  split at found
  · cases found
  · rename_i low _
    cases found
    exact low
  · rename_i _ high
    cases found
    exact high
  · rename_i low high
    split at found <;> cases found
    · exact high
    · exact low
    · split
      · exact high
      · exact low

theorem worth_exact (x : Magnitude) : x.exact.worth = x.m * 2 ^ x.q := by
  unfold Magnitude.exact Scaled.worth
  split
  · rename_i negative
    obtain ⟨n, same⟩ : ∃ n : Nat, x.q = -n := ⟨(-x.q).toNat, by omega⟩
    have parts : (10 : ℚ) ^ n = 5 ^ n * 2 ^ n := by
      rw [← mul_pow]
      norm_num
    rw [same, neg_neg, Int.toNat_natCast, zpow_neg, zpow_neg, zpow_natCast, zpow_natCast, parts]
    simp only [Nat.pow_eq]
    push_cast
    field_simp
  · rename_i nonnegative
    rw [zpow_zero, mul_one, ← Int.toNat_of_nonneg (not_lt.1 nonnegative), zpow_natCast,
      Int.toNat_natCast]
    simp only [Nat.pow_eq]
    push_cast
    rfl

theorem worth_strip (d : Scaled) : d.strip.worth = d.worth := by
  induction d using Scaled.strip.induct with
  | case1 d h ih =>
    rw [Scaled.strip, dif_pos h, ih]
    unfold Scaled.worth
    dsimp only
    have tens : ((d.digits / 10 : Nat) : ℚ) * 10 = d.digits := by
      exact_mod_cast Nat.div_mul_cancel (Nat.dvd_of_mod_eq_zero h.2)
    rw [zpow_add₀ (by norm_num), zpow_one, ← tens]
    ring
  | case2 d h => rw [Scaled.strip, dif_neg h]

/- The decimal that is written does not lie above the interval. -/
theorem worth_shortest_le (x : Magnitude) (upward : Bool) : (x.shortest upward).worth ≤ x.top := by
  unfold Magnitude.shortest
  dsimp only
  rw [worth_strip]
  cases found : (List.range 17).findSome? fun n => x.onGrid? upward (x.scale - (n + 1 : Nat)) with
  | none =>
    rw [Option.getD_none, worth_exact, Magnitude.top, zpow_sub₀ two_ne_zero]
    push_cast
    have : (0 : ℚ) < 2 ^ x.q := zpow_pos zero_lt_two _
    linarith
  | some d =>
    obtain ⟨n, _, grid⟩ := List.exists_of_findSome?_eq_some found
    exact worth_le_of_reads (reads_of_onGrid grid)

end ChatStory.Decimal
