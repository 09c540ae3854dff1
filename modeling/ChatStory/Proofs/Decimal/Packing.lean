import ChatStory.Proofs.Decimal.Rounding

/-!
Doubles as bits. A finite double stands for what its fields say, which is below the threshold; a value with a
mantissa and an exponent in range is packed so that it is unpacked with no larger magnitude.
-/
namespace ChatStory.Decimal

open Float.Model Float.Model.UnpackedFloat

/-- What the fields of a finite double stand for. -/
def fieldsWorth (exponent : BitVec 11) (mantissa : BitVec 52) : ℚ :=
  if exponent = 0#11 then mantissa.toNat * 2 ^ (-1074 : Int)
  else (2 ^ 52 + mantissa.toNat : Nat) * 2 ^ ((exponent.toNat : Int) - 1075)

theorem toNat_le_of_ne {exponent : BitVec 11} (finite : exponent ≠ -1#11) : exponent.toNat ≤ 2046 := by
  by_contra more
  apply finite
  apply BitVec.eq_of_toNat_eq
  have := exponent.isLt
  change _ = 2047
  omega

theorem toNat_exponent {n : Nat} (small : n ≤ 2046) : (BitVec.ofNat 11 n).toNat = n := by
  rw [BitVec.toNat_ofNat]
  omega

theorem ofNat_ne_full {n : Nat} (small : n ≤ 2046) : BitVec.ofNat 11 n ≠ -1#11 := by
  intro full
  have full := congrArg BitVec.toNat full
  rw [toNat_exponent small] at full
  change n = 2047 at full
  omega

/- The exponent of a finite double is not full. -/
theorem exponent_of_isFinite {x : Float} (finite : x.isFinite = true) :
    @unpackExponent Format.binary64 x.toModel.toBits.toBitVec ≠ -1#11 := by
  intro full
  change (UnpackedFloat.unpack Format.binary64 x.toModel.toBits.toBitVec).isFinite = true at finite
  unfold UnpackedFloat.unpack at finite
  dsimp only at finite
  rw [if_pos full] at finite
  split at finite <;> cases finite

theorem bias_eq :
    (Format.binary64.exponentBias : Int) + Format.binary64.mantissaBitsWithoutImplicit = 1075 := rfl

theorem toNat_append_one (mantissa : BitVec 52) : (1#1 ++ mantissa).toNat = 2 ^ 52 + mantissa.toNat := by
  rw [BitVec.toNat_append, ← Nat.shiftLeft_add_eq_or_of_lt mantissa.isLt]
  rfl

theorem atMost_unpack {b : BitVec Format.binary64.numBits}
    (finite : @unpackExponent Format.binary64 b ≠ -1#11) :
    AtMost (fieldsWorth (@unpackExponent Format.binary64 b)
      (@unpackMantissa Format.binary64 b)) (UnpackedFloat.unpack Format.binary64 b) := by
  have bound := toNat_le_of_ne finite
  unfold UnpackedFloat.unpack
  dsimp only
  rw [if_neg finite]
  generalize @unpackExponent Format.binary64 b = exponent at *
  unfold fieldsWorth
  by_cases least : exponent = 0#11
  · rw [if_pos least, if_pos least]
    split
    · trivial
    · refine ⟨?_, ?_, ?_⟩
      · rw [least]
        exact le_refl _
      · rw [least]
        decide
      · rw [least]
        decide
  · rw [if_neg least, if_neg least]
    have positive : exponent.toNat ≠ 0 := fun zero => least (BitVec.eq_of_toNat_eq zero)
    rw [bias_eq]
    refine ⟨?_, ?_, ?_⟩
    · rw [toNat_append_one]
    · omega
    · omega

theorem atMost_unpack_packComponents {k : ℚ} (s : Sign) {exponent : BitVec 11} {mantissa : BitVec 52}
    (finite : exponent ≠ -1#11) (less : fieldsWorth exponent mantissa ≤ k) :
    AtMost k (UnpackedFloat.unpack Format.binary64
      (packComponents Format.binary64 s exponent mantissa)) := by
  have most := atMost_unpack (b := packComponents Format.binary64 s exponent mantissa)
    (by rw [unpackExponent_packComponents]; exact finite)
  rw [unpackExponent_packComponents, unpackMantissa_packComponents] at most
  exact most.mono less

/- A mantissa and an exponent in range fit their fields. -/
theorem pack_finite {s : Sign} {m : Nat} {e : Int} {positive : 0 < m} {biased : Nat}
    (bias : e + 1075 = biased) (small : biased ≤ 2046) :
    UnpackedFloat.pack Format.binary64 (.finite s m e positive) = packComponents Format.binary64 s
      (if m.log2 = 52 then BitVec.ofNat 11 biased else 0#11) (BitVec.ofNat 52 m) := by
  have field : (e + Format.binary64.exponentBias + Format.binary64.mantissaBitsWithoutImplicit).toNat =
      biased := by
    change (e + 1023 + 52).toNat = biased
    omega
  unfold UnpackedFloat.pack
  dsimp only
  rw [field, if_neg (by change ¬2048 ≤ biased + 1; omega)]
  by_cases full : m.log2 = 52
  · rw [if_pos full, if_pos (by rw [full]; rfl)]
  · rw [if_neg full, if_neg]
    change ¬m.log2 + 1 = 53
    omega

theorem atMost_pack {k : ℚ} {u : UnpackedFloat} (most : AtMost k u) :
    AtMost k (Float.Model.pack u).unpack := by
  change AtMost k (UnpackedFloat.unpack Format.binary64 (UnpackedFloat.pack Format.binary64 u))
  rcases most.shape with ⟨s, rfl⟩ | ⟨s, m, e, positive, rfl, less, least, small⟩
  · cases s <;> trivial
  · obtain ⟨biased, bias⟩ : ∃ biased : Nat, e + 1075 = biased := ⟨(e + 1075).toNat, by omega⟩
    have small : biased ≤ 2046 := by omega
    rw [pack_finite bias small]
    by_cases full : m.log2 = 52
    · obtain ⟨lower, upper⟩ := (Nat.log2_eq_iff (Nat.ne_of_gt positive)).1 full
      rw [if_pos full]
      apply atMost_unpack_packComponents s (ofNat_ne_full small)
      have nonzero : BitVec.ofNat 11 biased ≠ 0#11 := by
        intro same
        have same := congrArg BitVec.toNat same
        rw [toNat_exponent small] at same
        change biased = 0 at same
        omega
      have mantissa : 2 ^ 52 + (BitVec.ofNat 52 m).toNat = m := by
        rw [BitVec.toNat_ofNat]
        omega
      rw [fieldsWorth, if_neg nonzero, mantissa, toNat_exponent small, ← bias, add_sub_cancel_right]
      exact less
    · rw [if_neg full]
      apply atMost_unpack_packComponents s (by decide)
      rw [fieldsWorth, if_pos rfl]
      have cut : ((BitVec.ofNat 52 m).toNat : ℚ) ≤ m := by
        rw [BitVec.toNat_ofNat]
        exact Nat.cast_le.2 (Nat.mod_le _ _)
      have unit : (2 : ℚ) ^ (-1074 : Int) ≤ 2 ^ e := zpow_le_zpow_right₀ one_le_two least
      exact (mul_le_mul cut unit (by positivity) (Nat.cast_nonneg m)).trans less

theorem isFinite_pack {u : UnpackedFloat} (bounded : ∃ k, AtMost k u) :
    (Float.Model.pack u).unpack.isFinite = true := by
  obtain ⟨k, most⟩ := bounded
  exact (atMost_pack most).isFinite

/- But for those with the least exponent all doubles have a full mantissa. -/
theorem full_unpack (x : Float) {s : Sign} {m : Nat} {e : Int} {positive : 0 < m}
    (shape : x.toModel.unpack = .finite s m e positive) : 2 ^ 52 ≤ m ∨ e = -1074 := by
  change UnpackedFloat.unpack Format.binary64 x.toModel.toBits.toBitVec = _ at shape
  unfold UnpackedFloat.unpack at shape
  dsimp only at shape
  split at shape
  · split at shape <;> cases shape
  · split at shape
    · rename_i least
      split at shape
      · cases shape
      · cases shape
        right
        rw [least]
        rfl
    · cases shape
      left
      rw [toNat_append_one]
      exact Nat.le_add_right _ _

theorem fieldsWorth_lt {exponent : BitVec 11} (finite : exponent ≠ -1#11) (mantissa : BitVec 52) :
    fieldsWorth exponent mantissa < threshold := by
  have small := toNat_le_of_ne finite
  have digits := mantissa.isLt
  have less : fieldsWorth exponent mantissa ≤ (2 ^ 53 - 1 : Nat) * 2 ^ (971 : Int) := by
    unfold fieldsWorth
    split
    · refine mul_le_mul (Nat.cast_le.2 (by omega)) (zpow_le_zpow_right₀ one_le_two (by decide))
        (by positivity) (Nat.cast_nonneg _)
    · refine mul_le_mul (Nat.cast_le.2 (by omega)) (zpow_le_zpow_right₀ one_le_two (by omega))
        (by positivity) (Nat.cast_nonneg _)
  apply less.trans_lt
  have largest := Nat.cast_lt (α := ℚ).2 threshold_place.2.1
  rwa [Nat.cast_mul, Nat.cast_pow, Nat.cast_ofNat, ← zpow_natCast] at largest

theorem atMost_of_isFinite {x : Float} (finite : x.isFinite = true) :
    ∃ k : ℚ, k < threshold ∧ AtMost k x.toModel.unpack :=
  ⟨_, fieldsWorth_lt (exponent_of_isFinite finite) _, atMost_unpack (exponent_of_isFinite finite)⟩

theorem pack_ne_notANumber {u : UnpackedFloat} (number : u ≠ .notANumber) :
    (Float.Model.pack u).unpack ≠ .notANumber := by
  change UnpackedFloat.unpack Format.binary64 (UnpackedFloat.pack Format.binary64 u) ≠ _
  cases u with
  | infinity s => cases s <;> nofun
  | notANumber => exact absurd rfl number
  | zero s => cases s <;> nofun
  | finite s m e positive =>
    have inside : ∀ {exponent : BitVec 11} (mantissa : BitVec 52), exponent ≠ -1#11 →
        UnpackedFloat.unpack Format.binary64 (packComponents Format.binary64 s exponent mantissa) ≠
          .notANumber := by
      intro exponent mantissa finite other
      have most := atMost_unpack_packComponents s finite (le_refl (fieldsWorth exponent mantissa))
      rw [other] at most
      exact most
    unfold UnpackedFloat.pack
    dsimp only
    split
    · cases s <;> nofun
    · rename_i small
      split
      · apply inside _ (ofNat_ne_full _)
        change ¬2048 ≤ _ at small
        omega
      · exact inside _ (by decide)

/-- The value is finite and its magnitude at least one. -/
def AtLeastOne : UnpackedFloat → Prop
  | .finite _ m e _ => (1 : ℚ) ≤ m * 2 ^ e
  | _ => False

theorem AtLeastOne.shape {u : UnpackedFloat} (large : AtLeastOne u) :
    ∃ s m e positive, u = .finite s m e positive ∧ (1 : ℚ) ≤ m * 2 ^ e := by
  cases u with
  | finite s m e positive => exact ⟨s, m, e, positive, rfl, large⟩
  | zero s => exact large.elim
  | infinity s => exact large.elim
  | notANumber => exact large.elim

/- An exponent field of at least the bias makes a value of at least one. -/
theorem atLeastOne_unpack {b : BitVec Format.binary64.numBits}
    (finite : @unpackExponent Format.binary64 b ≠ -1#11)
    (large : 1023 ≤ (@unpackExponent Format.binary64 b).toNat) :
    AtLeastOne (UnpackedFloat.unpack Format.binary64 b) := by
  unfold UnpackedFloat.unpack
  dsimp only
  rw [if_neg finite]
  generalize @unpackExponent Format.binary64 b = exponent at *
  rw [if_neg (by rintro rfl; exact absurd large (by decide))]
  rw [bias_eq]
  change (1 : ℚ) ≤ (1#1 ++ @unpackMantissa Format.binary64 b).toNat * 2 ^ ((exponent.toNat : Int) - 1075)
  rw [toNat_append_one]
  have digits : ((2 ^ 52 : Nat) : ℚ) ≤ (2 ^ 52 + (@unpackMantissa Format.binary64 b).toNat : Nat) :=
    Nat.cast_le.2 (Nat.le_add_right _ _)
  have power : (2 : ℚ) ^ (-52 : Int) ≤ 2 ^ ((exponent.toNat : Int) - 1075) :=
    zpow_le_zpow_right₀ one_le_two (by omega)
  have product := mul_le_mul digits power (by positivity) (by positivity)
  have one : ((2 ^ 52 : Nat) : ℚ) * 2 ^ (-52 : Int) = 1 := by norm_num
  rwa [one] at product

theorem atLeastOne_pack {s : Sign} {m : Nat} {e : Int} (positive : 0 < m) (full : m.log2 = 52)
    (least : -52 ≤ e) (small : e ≤ 971) :
    AtLeastOne (Float.Model.pack (.finite s m e positive)).unpack := by
  change AtLeastOne (UnpackedFloat.unpack Format.binary64 (UnpackedFloat.pack Format.binary64 _))
  obtain ⟨biased, bias⟩ : ∃ biased : Nat, e + 1075 = biased := ⟨(e + 1075).toNat, by omega⟩
  have small : biased ≤ 2046 := by omega
  rw [pack_finite bias small, if_pos full]
  apply atLeastOne_unpack
  · rw [unpackExponent_packComponents]
    exact ofNat_ne_full small
  · rw [unpackExponent_packComponents]
    change 1023 ≤ (BitVec.ofNat 11 biased).toNat
    rw [toNat_exponent small]
    omega

end ChatStory.Decimal
