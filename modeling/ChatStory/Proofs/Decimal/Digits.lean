import ChatStory.Decimal.Layout
import ChatStory.Decimal.Reading

/-!
Digits as they are written and read. The digits of a number read back as that number, they stop
where no digit follows, and the decimal of a double that is not zero has a digit that is not zero.
-/
namespace ChatStory.Decimal

/-- No digit stands at the start of a text. -/
def NoDigitFirst (cs : List Char) : Prop := ∀ c rest, cs = c :: rest → c.isDigit = false

theorem noDigitFirst_cons {c : Char} (cs : List Char) (other : c.isDigit = false) :
    NoDigitFirst (c :: cs) := by
  intro d rest same
  cases same
  exact other

theorem natOf_toDigits (n : Nat) : natOf (Nat.toDigits 10 n) = n :=
  Nat.ofDigitChars_ten_toDigits

theorem digits_of_toDigits (n : Nat) : ∀ c ∈ Nat.toDigits 10 n, c.isDigit = true := by
  intro c member
  exact Nat.isDigit_of_mem_toDigits (by decide) (by decide) member

theorem splitDigits_append {ds rest : List Char} (digits : ∀ c ∈ ds, c.isDigit = true)
    (stop : NoDigitFirst rest) : splitDigits (ds ++ rest) = (ds, rest) := by
  induction ds with
  | nil =>
    cases rest with
    | nil => rfl
    | cons c rest =>
      have other := stop c rest rfl
      simp [splitDigits, other]
  | cons d ds ih =>
    have first := digits d List.mem_cons_self
    have tail := ih fun c member => digits c (List.mem_cons_of_mem d member)
    simp only [splitDigits, Prod.mk.injEq] at tail
    simp [splitDigits, first, tail.1, tail.2]

/-- Only zero is written with a leading zero. -/
theorem toDigits_head {n : Nat} (positive : n ≠ 0) (rest : List Char) :
    Nat.toDigits 10 n ≠ '0' :: rest := by
  induction n using Nat.strongRecOn generalizing rest with
  | ind n ih =>
    intro same
    by_cases small : n < 10
    · rw [Nat.toDigits_of_lt_base small] at same
      have zero : n.digitChar = '0' := (List.cons.inj same).1
      exact positive (Nat.digitChar_eq_zero.1 zero)
    · rw [Nat.toDigits_of_base_le (by decide) (by omega)] at same
      cases front : Nat.toDigits 10 (n / 10) with
      | nil => exact Nat.toDigits_ne_nil front
      | cons c cs =>
        rw [front, List.cons_append] at same
        have zero : c = '0' := (List.cons.inj same).1
        subst zero
        exact ih (n / 10) (by omega) (by omega) cs front

theorem digits_zeros (n : Nat) : ∀ c ∈ zeros n, c.isDigit = true := by
  intro c member
  rw [List.eq_of_mem_replicate member]
  decide

/- The interval of reals that round to a double reaches down to half the distance of its
   lower neighbour, so zero lies in it only if the double is zero. -/
theorem not_reads_zero (x : Magnitude) (nonzero : x.m ≠ 0) (e : Int) :
    x.reads ⟨0, e⟩ = false := by
  have below : compareScaled 0 e (4 * x.m - if x.narrow then 1 else 2) (x.q - 2) = .lt := by
    unfold compareScaled
    rw [Nat.zero_mul, Nat.zero_mul, Nat.compare_eq_lt]
    have : 0 < 4 * x.m - if x.narrow then 1 else 2 := by split <;> omega
    exact Nat.mul_pos (Nat.mul_pos this (Nat.pow_pos (by decide))) (Nat.pow_pos (by decide))
  simp [Magnitude.reads, below]

theorem onGrid_ne_zero {x : Magnitude} (nonzero : x.m ≠ 0) {upward : Bool} {e : Int} {d : Scaled}
    (found : x.onGrid? upward e = some d) : d.digits ≠ 0 := by
  have floor : x.reads ⟨x.floorOn e, e⟩ = true → x.floorOn e ≠ 0 := by
    intro reads zero
    rw [zero, not_reads_zero x nonzero e] at reads
    cases reads
  unfold Magnitude.onGrid? at found
  dsimp only at found
  split at found
  · cases found
  · rename_i low _
    cases found
    exact floor low
  · cases found
    exact Nat.succ_ne_zero _
  · rename_i low _
    have := floor low
    split at found <;> cases found
    · exact Nat.succ_ne_zero _
    · exact this
    · dsimp only
      split <;> omega

theorem exact_ne_zero {x : Magnitude} (nonzero : x.m ≠ 0) : x.exact.digits ≠ 0 := by
  unfold Magnitude.exact
  split
  · exact Nat.mul_ne_zero nonzero (Nat.pos_iff_ne_zero.1 (Nat.pow_pos (by decide)))
  · exact Nat.mul_ne_zero nonzero (Nat.pos_iff_ne_zero.1 (Nat.pow_pos (by decide)))

theorem strip_ne_zero (d : Scaled) (nonzero : d.digits ≠ 0) : d.strip.digits ≠ 0 := by
  induction d using Scaled.strip.induct with
  | case1 d h ih =>
    rw [Scaled.strip, dif_pos h]
    exact ih (by dsimp only; omega)
  | case2 d h =>
    rw [Scaled.strip, dif_neg h]
    exact nonzero

theorem shortest_ne_zero {x : Magnitude} (nonzero : x.m ≠ 0) (upward : Bool) :
    (x.shortest upward).digits ≠ 0 := by
  apply strip_ne_zero
  cases found : (List.range 17).findSome? fun n => x.onGrid? upward (x.scale - (n + 1 : Nat)) with
  | none => exact exact_ne_zero nonzero
  | some d =>
    obtain ⟨n, _, grid⟩ := List.exists_of_findSome?_eq_some found
    exact onGrid_ne_zero nonzero grid

end ChatStory.Decimal
