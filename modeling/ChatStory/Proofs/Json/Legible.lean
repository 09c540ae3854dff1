import ChatStory.Proofs.Decimal.Arithmetic
import ChatStory.Proofs.Decimal.Interval
import ChatStory.Proofs.Json.Numeral

/-!
Doubles that can be read in documents. Every finite double is written as a numeral, and what this numeral
says lies so far below the largest number that can be read that neither the word of its digits nor the
power of ten, each rounded, lead beyond it.
-/
namespace ChatStory.Json

open Decimal Float.Model Float.Model.UnpackedFloat

/- Digits that are left out only make less of a number. -/
theorem gather_le (ds : List Char) {word : Nat} (fits : word < wordLimit) :
    (gather word ds).1 < wordLimit ∧ (gather word ds).2 ≤ ds.length ∧
      (gather word ds).1 * 10 ^ (gather word ds).2 ≤ Nat.ofDigitChars 10 ds word := by
  induction ds generalizing word with
  | nil => exact ⟨fits, Nat.le_refl _, Nat.le_of_eq (Nat.mul_one _)⟩
  | cons d ds ih =>
    rw [Nat.ofDigitChars_cons]
    unfold gather
    dsimp only
    split
    · rename_i next
      obtain ⟨small, few, less⟩ := ih next
      exact ⟨small, Nat.le_succ_of_le few, less⟩
    · refine ⟨fits, Nat.le_refl _, ?_⟩
      rw [Nat.ofDigitChars_eq_ofDigitChars_zero]
      have ten : 10 ^ (ds.length + 1) * word = 10 ^ ds.length * (10 * word) := by ring
      have : 10 ^ ds.length * (10 * word) ≤ 10 ^ ds.length * (10 * word + (d.toNat - '0'.toNat)) :=
        Nat.mul_le_mul_left _ (Nat.le_add_right _ _)
      dsimp only
      rw [Nat.mul_comm word]
      omega

/-- What is written for a double below the largest one is at most this. -/
def ceiling : Nat := 2 ^ 1024 - 3 * 2 ^ 970

/-- The largest word with a mantissa and `n` bits more whose product with a power of ten is below the
ceiling. -/
def largestWord (e n : Nat) : Nat := min (ceiling / 10 ^ e) (2 ^ (n + 53) - 1)

/-- Both rounded, the largest word and the power of ten stay below the threshold, unless the word has fewer
bits. -/
def staysBelow (e n : Nat) : Bool :=
  decide (n ≠ 0 ∧ largestWord e n < 2 ^ (n + 52)) ||
    decide (nearestMultiple n (largestWord e n) * nearestMultiple ((10 ^ e).log2 - 52) (10 ^ e) <
      threshold)

theorem staysBelow_all : (List.range 309).all (fun e => (List.range 12).all (staysBelow e)) = true := by
  decide +kernel

/-- A power of ten from the table is at most the nearest multiple of its unit. -/
def tableFits (e : Nat) : Bool :=
  match (powerOfTen e).toModel.unpack with
  | .finite _ m f _ => decide (-52 ≤ f ∧ f ≤ 971 ∧
      m * 2 ^ (f + 52).toNat ≤ nearestMultiple ((10 ^ e).log2 - 52) (10 ^ e) * 2 ^ 52)
  | _ => false

theorem tableFits_all : ∀ e < 23, tableFits e = true := by decide +kernel

/- Units down to that of one are scaled to whole numbers. -/
theorem scaled_by_unit {f : Int} (least : -52 ≤ f) : (2 : ℚ) ^ f * 2 ^ 52 = 2 ^ (f + 52).toNat := by
  rw [← zpow_natCast _ (f + 52).toNat, Int.toNat_of_nonneg (by omega), zpow_add₀ two_ne_zero]
  rfl

/- The ceiling is above all words and the tops of all doubles but the largest, and it is among the powers of
   ten where the threshold is. -/
theorem ceiling_place : 2 ^ 64 ≤ ceiling ∧ 10 ^ 308 < threshold ∧ ceiling < 10 ^ 309 ∧
    (4 * (2 ^ 53 - 1) + 2) * 2 ^ 968 ≤ ceiling ∧ (4 * (2 ^ 53 - 2) + 2) * 2 ^ 969 ≤ ceiling := by
  decide +kernel

theorem powerOfTen_lt {e : Nat} (small : e ≤ 308) : 1 * 10 ^ e < threshold := by
  rw [Nat.one_mul]
  exact (pow_le_pow_right₀ (by decide) small).trans_lt ceiling_place.2.1

theorem atMost_powerOfTen {e : Nat} (small : e ≤ 308) :
    AtMost (nearestMultiple ((10 ^ e).log2 - 52) (10 ^ e)) (powerOfTen e).toModel.unpack := by
  by_cases short : e < 23
  · have fits := tableFits_all e short
    unfold tableFits at fits
    split at fits
    · rename_i m f positive shape
      obtain ⟨least, small, less⟩ := of_decide_eq_true fits
      rw [shape]
      refine ⟨?_, by omega, small⟩
      have less := Nat.cast_le (α := ℚ).2 less
      push_cast at less
      rw [← scaled_by_unit least, ← mul_assoc] at less
      exact le_of_mul_le_mul_right less (by positivity)
    · cases fits
  · have product := atMost_ofScientific (m := 1) (e := e) (by omega) Nat.one_ne_zero small
      (powerOfTen_lt small)
    rwa [Nat.one_mul] at product

/- The product of a word and a power of ten below the ceiling is finite. -/
theorem isFinite_scaled {w e : Nat} (fits : w < wordLimit) (small : e ≤ 308)
    (below : w * 10 ^ e ≤ ceiling) : (Float.ofNat w * powerOfTen e).isFinite = true := by
  have word := atMost_word fits
  apply isFinite_mul word (atMost_powerOfTen small)
  have log : w ≠ 0 → w.log2 < 64 := fun nonzero => (Nat.log2_lt nonzero).2 fits
  have lower : w ≠ 0 → 2 ^ w.log2 ≤ w := Nat.log2_self_le
  have upper : w < 2 ^ (w.log2 + 1) := Nat.lt_log2_self
  generalize bits : w.log2 - 52 = n
  have few : n < 12 := by
    by_cases zero : w = 0
    · rw [zero, Nat.log2_zero] at bits
      omega
    · have := log zero
      omega
  have largest : w ≤ largestWord e n := by
    have : 2 ^ (w.log2 + 1) ≤ 2 ^ (n + 53) := Nat.pow_le_pow_right (by decide) (by omega)
    apply Nat.le_min.2 ⟨(Nat.le_div_iff_mul_le (by positivity)).2 below, ?_⟩
    omega
  have stays := List.all_eq_true.1 (List.all_eq_true.1 staysBelow_all e (List.mem_range.2 (by omega))) n
    (List.mem_range.2 few)
  rcases Bool.or_eq_true_iff.1 stays with fewer | less
  · obtain ⟨some_bits, fewer⟩ := of_decide_eq_true fewer
    have nonzero : w ≠ 0 := by
      rintro rfl
      rw [Nat.log2_zero] at bits
      omega
    have := lower nonzero
    rw [show w.log2 = n + 52 by omega] at this
    omega
  · refine lt_of_le_of_lt ?_ (Nat.cast_lt.2 (of_decide_eq_true less))
    exact_mod_cast Nat.mul_le_mul_right _ (nearestMultiple_mono n largest)

theorem isInf_of_isFinite {x : Float} (finite : x.isFinite = true) : x.isInf = false := by
  change x.toModel.unpack.isFinite = true at finite
  change x.toModel.unpack.isInf = false
  cases shape : x.toModel.unpack with
  | infinity s =>
    rw [shape] at finite
    cases finite
  | _ => rfl

theorem ceiling_lt {e : Nat} (large : 309 ≤ e) : ceiling < 10 ^ e :=
  ceiling_place.2.2.1.trans_le (pow_le_pow_right₀ (by decide) large)

/- A word can be scaled if what it says stays below the ceiling. -/
theorem scaled_isSome {w : Nat} {exp : Int} (fits : w < wordLimit)
    (below : ∀ e : Nat, exp = e → w * 10 ^ e ≤ ceiling) : (scaled? w exp).isSome = true := by
  unfold scaled?
  dsimp only
  split
  · rfl
  · rename_i positive
    obtain ⟨e, rfl⟩ := Int.eq_ofNat_of_zero_le (not_lt.1 positive)
    have below := below e rfl
    split
    · rename_i small
      have finite := isFinite_scaled fits (by omega) below
      rw [Int.natAbs_natCast, isInf_of_isFinite finite]
      rfl
    · rename_i large
      have large : 309 ≤ e := by omega
      have zero : w = 0 := by
        by_contra nonzero
        have product := Nat.le_mul_of_pos_left (10 ^ e) (Nat.pos_of_ne_zero nonzero)
        exact Nat.not_le.2 (ceiling_lt large) (product.trans below)
      rw [if_pos zero]
      rfl

theorem digits_lt {ds : List Char} (digits : ∀ c ∈ ds, c.isDigit = true) (word : Nat) :
    Nat.ofDigitChars 10 ds word < (word + 1) * 10 ^ ds.length := by
  induction ds generalizing word with
  | nil => simp
  | cons d ds ih =>
    obtain ⟨first, rest⟩ := List.forall_mem_cons.1 digits
    have digit : d.toNat - '0'.toNat < 10 := by
      obtain ⟨_, high⟩ := Char.isDigit_iff_toNat.1 first
      exact (Nat.sub_le_sub_right high _).trans_lt (by decide)
    rw [Nat.ofDigitChars_cons]
    have below := ih rest (10 * word + (d.toNat - '0'.toNat))
    have more := Nat.mul_le_mul_right (10 ^ ds.length)
      (show 10 * word + (d.toNat - '0'.toNat) + 1 ≤ (word + 1) * 10 by omega)
    rw [List.length_cons, Nat.pow_succ', ← mul_assoc]
    exact lt_of_lt_of_le below more

theorem natOf_short {ds : List Char} (digits : ∀ c ∈ ds, c.isDigit = true) (short : ds.length ≤ 16) :
    natOf ds < wordLimit := by
  have below : natOf ds < (0 + 1) * 10 ^ ds.length := digits_lt digits 0
  have power : 10 ^ ds.length ≤ 10 ^ 16 := Nat.pow_le_pow_right (by decide) short
  have limit : 10 ^ 16 < wordLimit := by decide
  omega

/- A numeral can be read if the word of its digits can be scaled. -/
theorem value_readable {n : Numeral} (digits : ∀ c ∈ n.whole, c.isDigit = true)
    (short : n.whole.length ≤ 16)
    (scales : let (word, unused) := gather (natOf n.whole) (n.fraction.getD [])
      (scaled? word (unused - (n.fraction.getD []).length + n.exponent.getD 0)).isSome = true) :
    (∃ x, n.value = .real x) ∨ ∃ i, n.value = .integer i := by
  rcases value_of_numeral n with unreadable | number
  · have gathered : gather 0 n.whole = (natOf n.whole, 0) :=
      gather_of_fits n.whole 0 (natOf_short digits short)
    unfold Numeral.value at unreadable
    rw [gathered] at unreadable
    dsimp only at unreadable scales
    split at unreadable
    · split at unreadable
      · cases unreadable
      · split at unreadable <;> cases unreadable
    · obtain ⟨x, scaled⟩ := Option.isSome_iff_exists.1 scales
      rw [Nat.cast_zero, zero_sub, neg_sub, scaled] at unreadable
      cases unreadable
  · exact number

/- Without an exponent the point stands so far in front that the power of ten does not count; with one, the
   word and its place do not say more than the decimal that is spelled. -/
theorem value_of_spells {n : Numeral} {d : Scaled} (spells : n.Spells d)
    (scales : ∀ word unused : Nat, word < wordLimit → word * 10 ^ unused ≤ d.digits →
      (d.digits < wordLimit → word = d.digits ∧ unused = 0) →
        (scaled? word (unused + d.exp)).isSome = true) :
    (∃ x, n.value = .real x) ∨ ∃ i, n.value = .integer i := by
  have digits := spells.proper.whole.digits
  obtain ⟨fits, few, less⟩ := gather_le (n.fraction.getD []) (natOf_short digits spells.short)
  have exact := gather_of_fits (n.fraction.getD []) (natOf n.whole)
  apply value_readable digits spells.short
  generalize gather (natOf n.whole) (n.fraction.getD []) = gathered at *
  obtain ⟨word, unused⟩ := gathered
  dsimp only at *
  cases written : n.exponent with
  | none =>
    apply scaled_isSome fits
    intro e place
    have whole : e = 0 := by
      rw [Option.getD_none] at place
      omega
    rw [whole, pow_zero, mul_one]
    exact fits.le.trans ceiling_place.1
  | some exponent =>
    obtain ⟨all, position⟩ := spells.exact exponent written
    have digits : Nat.ofDigitChars 10 (n.fraction.getD []) (natOf n.whole) = d.digits := by
      rw [← all]
      exact (Nat.ofDigitChars_append _).symm
    rw [digits] at less exact
    have place : (unused : Int) - (n.fraction.getD []).length + exponent = unused + d.exp := by omega
    rw [Option.getD_some, place]
    apply scales word unused fits less
    intro small
    exact Prod.mk.inj (exact small)

/- A decimal below the ceiling can be read. -/
theorem scaled_of_worth {d : Scaled} (below : d.worth ≤ ceiling) {word unused : Nat}
    (fits : word < wordLimit) (less : word * 10 ^ unused ≤ d.digits) :
    (scaled? word (unused + d.exp)).isSome = true := by
  apply scaled_isSome fits
  intro e place
  have less := Nat.cast_le (α := ℚ).2 less
  push_cast at less
  have power : (10 : ℚ) ^ e = 10 ^ unused * 10 ^ d.exp := by
    rw [← zpow_natCast, ← zpow_natCast, ← zpow_add₀ (by norm_num), place]
  apply Nat.cast_le (α := ℚ).1
  rw [Nat.cast_mul, Nat.cast_pow, Nat.cast_ofNat]
  calc (word : ℚ) * 10 ^ e = word * 10 ^ unused * 10 ^ d.exp := by rw [power, mul_assoc]
    _ ≤ d.worth := mul_le_mul_of_nonneg_right less (by positivity)
    _ ≤ ceiling := below

/-- The magnitude of the largest double. -/
def largest : Magnitude := ⟨2 ^ 53 - 1, 971, false⟩

theorem top_le_ceiling {x : Magnitude} {m q : Nat} (mantissa : x.m ≤ m) (exponent : x.q ≤ q + 2)
    (fits : (4 * m + 2) * 2 ^ q ≤ ceiling) : x.top ≤ ceiling := by
  have digits : ((4 * x.m + 2 : Nat) : ℚ) ≤ (4 * m + 2 : Nat) := Nat.cast_le.2 (by omega)
  have power : (2 : ℚ) ^ (x.q - 2) ≤ 2 ^ (q : Int) := zpow_le_zpow_right₀ one_le_two (by omega)
  rw [zpow_natCast] at power
  have fits := Nat.cast_le (α := ℚ).2 fits
  rw [Nat.cast_mul, Nat.cast_pow, Nat.cast_ofNat] at fits
  exact (mul_le_mul digits power (by positivity) (Nat.cast_nonneg _)).trans fits

theorem exponent_le_of_isFinite {x : Float} (finite : x.isFinite = true) :
    ((x.toBits >>> 52) &&& 0x7FF).toNat ≤ 2046 := by
  have field : ((x.toBits >>> 52) &&& 0x7FF).toNat =
      (@unpackExponent Format.binary64 x.toModel.toBits.toBitVec).toNat := by
    rw [UInt64.toNat_and, UInt64.toNat_shiftRight]
    exact Nat.and_two_pow_sub_one_eq_mod (x.toBits.toNat >>> 52) 11
  rw [field]
  exact toNat_le_of_ne (exponent_of_isFinite finite)

theorem top_le_of_isFinite {x : Float} (finite : x.isFinite = true) :
    Magnitude.ofBits x.toBits = largest ∨ (Magnitude.ofBits x.toBits).top ≤ ceiling := by
  obtain ⟨words, _, _, lower, last⟩ := ceiling_place
  have small := exponent_le_of_isFinite finite
  have fraction : (x.toBits &&& 0xFFFFFFFFFFFFF).toNat < 2 ^ 52 := by
    rw [UInt64.toNat_and]
    exact Nat.and_lt_two_pow _ (by decide)
  unfold Magnitude.ofBits
  dsimp only
  generalize ((x.toBits >>> 52) &&& 0x7FF).toNat = exponent at *
  generalize (x.toBits &&& 0xFFFFFFFFFFFFF).toNat = f at *
  split
  · right
    exact top_le_ceiling (m := 2 ^ 52) (q := 0) (by dsimp only; omega) (by dsimp only; omega)
      (le_trans (by decide) words)
  · by_cases below : exponent < 2046
    · right
      exact top_le_ceiling (m := 2 ^ 53 - 1) (q := 968) (by dsimp only; omega) (by dsimp only; omega)
        lower
    · by_cases full : f = 2 ^ 52 - 1
      · left
        have exponent : exponent = 2046 := by omega
        subst exponent full
        rfl
      · right
        exact top_le_ceiling (m := 2 ^ 53 - 2) (q := 969) (by dsimp only; omega)
          (by dsimp only; omega) last

/- The largest double is spelled with seventeen digits, and these are read. -/
theorem shortest_largest : largest.shortest numbers.upward = ⟨17976931348623157, 292⟩ ∧
    (scaled? 17976931348623157 292).isSome = true := by
  decide +kernel

/- A finite double is read as a number once it has been written. -/
theorem rereadReal_of_isFinite {x : Float} (finite : x.isFinite = true) :
    (∃ y, rereadReal x = .real y) ∨ ∃ i, rereadReal x = .integer i := by
  rcases real_spelled x with ⟨other, _⟩ | ⟨_, n, spells, written⟩
  · rw [finite] at other
    cases other
  · rw [rereadReal_of_text spells.proper written]
    apply value_of_spells spells
    intro word unused fits less exact
    rcases top_le_of_isFinite finite with edge | below
    · obtain ⟨spelled, read⟩ := shortest_largest
      rw [edge, spelled] at exact ⊢
      obtain ⟨same, all⟩ := exact (by decide)
      rw [same, all]
      exact read
    · exact scaled_of_worth ((worth_shortest_le _ _).trans below) fits less

end ChatStory.Json
