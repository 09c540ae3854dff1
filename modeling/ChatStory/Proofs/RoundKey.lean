import ChatStory.Proofs.Json.Numeral
import ChatStory.RoundKey

/-!
Keys of rounds in writing. A key is read back from its one spelling, and from the end of the title of
its round. No other text is read as a key, and keys stand in one line, in the order of their numbers.
-/
namespace ChatStory.RoundKey

open Decimal
open Json (WholeDigits)

theorem part_toDigits (n : UInt32) : part? (Nat.toDigits 10 n.toNat) = some n := by
  have some_digit : (Nat.toDigits 10 n.toNat).isEmpty = false := by
    rw [List.isEmpty_eq_false_iff]
    exact Nat.toDigits_ne_nil
  have digits : (Nat.toDigits 10 n.toNat).all Char.isDigit = true := by
    rw [List.all_eq_true]
    exact digits_of_toDigits n.toNat
  have plain : ¬(1 < (Nat.toDigits 10 n.toNat).length ∧
      (Nat.toDigits 10 n.toNat).head? = some '0') := by
    rintro ⟨long, zero⟩
    by_cases none : n.toNat = 0
    · rw [none] at long
      exact absurd long (by decide)
    · cases spelled : Nat.toDigits 10 n.toNat with
      | nil => exact Nat.toDigits_ne_nil spelled
      | cons c cs =>
        rw [spelled] at zero
        cases zero
        exact toDigits_head none cs spelled
  have small : n.toNat < Nat.pow 2 32 := n.toNat_lt
  unfold part?
  rw [some_digit, digits, natOf_toDigits, if_neg (by decide), if_neg plain]
  simp only [if_pos small]
  rw [UInt32.ofNat_toNat]

theorem cutFirst_digits {ds : List Char} (digits : ∀ c ∈ ds, c.isDigit = true) :
    Text.cutFirst ['.'] ds = none := by
  induction ds with
  | nil => rfl
  | cons d ds ih =>
    have other : d ≠ '.' := by
      rintro rfl
      exact absurd (digits '.' List.mem_cons_self) (by decide)
    have rest := ih fun c member => digits c (List.mem_cons_of_mem d member)
    simp [Text.cutFirst, other.symm, rest]

theorem cutFirst_point {ds : List Char} (digits : ∀ c ∈ ds, c.isDigit = true) (rest : List Char) :
    Text.cutFirst ['.'] (ds ++ '.' :: rest) = some (ds, rest) := by
  induction ds with
  | nil => simp [Text.cutFirst]
  | cons d ds ih =>
    have other : d ≠ '.' := by
      rintro rfl
      exact absurd (digits '.' List.mem_cons_self) (by decide)
    have after := ih fun c member => digits c (List.mem_cons_of_mem d member)
    simp [Text.cutFirst, other.symm, after]

theorem toString_digits (n : Nat) : (toString n).toList = Nat.toDigits 10 n := by
  simp [toString, Nat.repr]

theorem read_display (key : RoundKey) : read? key.display.toList = some key := by
  obtain ⟨major, minor⟩ := key
  cases minor with
  | none =>
    simp only [display, toString_digits, read?, cutFirst_digits (digits_of_toDigits _), part_toDigits]
    rfl
  | some minor =>
    have spelled : (toString major.toNat ++ "." ++ toString minor.toNat).toList =
        Nat.toDigits 10 major.toNat ++ '.' :: Nat.toDigits 10 minor.toNat := by
      simp [String.toList_append]
    simp only [display, spelled, read?, cutFirst_point (digits_of_toDigits _), part_toDigits]
    rfl

theorem digit_of_part {cs : List Char} {n : UInt32} (read : part? cs = some n) {c : Char}
    (member : c ∈ cs) : c.isDigit = true := by
  unfold part? at read
  split at read
  · cases read
  · rename_i plain
    simp only [Bool.or_eq_true, Bool.not_eq_true', not_or, Bool.not_eq_false] at plain
    exact List.all_eq_true.1 plain.2 c member

theorem eq_of_cutFirst {c : Char} {cs before after : List Char}
    (cut : Text.cutFirst [c] cs = some (before, after)) : cs = before ++ c :: after := by
  induction cs generalizing before with
  | nil => cases cut
  | cons d rest ih =>
    unfold Text.cutFirst at cut
    split at cut
    · rename_i found
      have same : c = d := by simpa using found
      cases cut
      rw [same]
      rfl
    · obtain ⟨⟨front, back⟩, found, same⟩ := Option.map_eq_some_iff.1 cut
      cases same
      exact congrArg (d :: ·) (ih found)

/- A key is written in digits and a point, so no mark of a key stands in one. -/
theorem no_hyphen_of_read {cs : List Char} {key : RoundKey} (read : read? cs = some key) :
    '-' ∉ cs := by
  intro member
  unfold read? at read
  split at read
  · rename_i major minor cut
    obtain ⟨_, first, read⟩ := Option.bind_eq_some_iff.1 read
    obtain ⟨_, second, _⟩ := Option.bind_eq_some_iff.1 read
    rw [eq_of_cutFirst cut, List.mem_append, List.mem_cons] at member
    rcases member with inMajor | point | inMinor
    · exact absurd (digit_of_part first inMajor) (by decide)
    · exact absurd point (by decide)
    · exact absurd (digit_of_part second inMinor) (by decide)
  · obtain ⟨_, only, _⟩ := Option.bind_eq_some_iff.1 read
    exact absurd (digit_of_part only member) (by decide)

/- The key at the end of a text is found whatever stands before its mark. By induction on what does: the
   hyphen of the mark itself keeps an earlier mark from being read. -/
theorem endOf_mark (front : List Char) {numbering : List Char} {key : RoundKey}
    (read : read? numbering = some key) : endOf? (front ++ (keyMark ++ numbering)) = some key := by
  induction front with
  | nil =>
    have marked : endOf? (keyMark ++ numbering) =
        (read? numbering).or (endOf? ("ound-".toList ++ numbering)) := rfl
    rw [List.nil_append, marked, read, Option.some_or]
  | cons c front ih =>
    have unread : read? ((c :: (front ++ (keyMark ++ numbering))).drop keyMark.length) = none := by
      have split : c :: (front ++ (keyMark ++ numbering)) =
          (c :: (front ++ "Round".toList)) ++ '-' :: numbering := by
        rw [List.cons_append, List.append_assoc]
        rfl
      have long : keyMark.length ≤ (c :: (front ++ "Round".toList)).length := by
        rw [List.length_cons, List.length_append]
        exact Nat.succ_le_succ (Nat.le_add_left 5 front.length)
      rw [split, List.drop_append_of_le_length long]
      cases found : read? ((c :: (front ++ "Round".toList)).drop keyMark.length ++ '-' :: numbering) with
      | none => rfl
      | some other =>
        exact absurd (List.mem_append_right _ List.mem_cons_self) (no_hyphen_of_read found)
    rw [List.cons_append, endOf?, unread, Option.none_or, ite_self]
    exact ih

/- A reference that is the title of a round names that round. -/
theorem ofReference_of_title {title contact : String} {key : RoundKey}
    (read : RoundTitle.read? title = some ⟨contact, key⟩) : ofReference? title = some key := by
  obtain ⟨⟨name, numbering⟩, shaped, read⟩ := Option.bind_eq_some_iff.1 read
  obtain ⟨key', numbered, same⟩ := Option.bind_eq_some_iff.1 read
  cases same
  unfold RoundTitle.shape? at shaped
  dsimp only at shaped
  split at shaped
  · rename_i marked
    split at shaped
    · obtain ⟨-, rfl⟩ := Prod.mk.inj (Option.some.inj shaped)
      obtain ⟨rest, split⟩ := List.isPrefixOf_iff_prefix.1 (Bool.and_eq_true_iff.1 marked).2
      have whole := List.takeWhile_append_dropWhile (p := RoundTitle.isNameChar)
        (l := Text.trim title.toList)
      rw [← split] at numbered whole
      rw [List.drop_left] at numbered
      have marks : ('-' :: keyMark) ++ rest = ['-'] ++ (keyMark ++ rest) := rfl
      rw [ofReference?, ← whole, marks, ← List.append_assoc]
      exact endOf_mark _ numbered
    · cases shaped
  · cases shaped

section Spelling

variable {cs ds : List Char} {n : Nat}

theorem digitChar_sub {c : Char} (digit : c.isDigit = true) :
    c.toNat - '0'.toNat < 10 ∧ Nat.digitChar (c.toNat - '0'.toNat) = c := by
  obtain ⟨low, high⟩ := Char.isDigit_iff_toNat.1 digit
  have zero : '0'.toNat = 48 := rfl
  have nine : '9'.toNat = 57 := rfl
  rw [zero] at low ⊢
  rw [nine] at high
  have small : c.toNat - 48 < 10 := by omega
  refine ⟨small, Char.toNat_inj.1 ?_⟩
  rw [Nat.toNat_digitChar_of_lt_ten small]
  omega

/- Digits behind those of a number that is not zero make the digits of a greater one. -/
theorem toDigits_append (positive : 0 < n) (digits : ∀ c ∈ cs, c.isDigit = true) :
    Nat.toDigits 10 n ++ cs = Nat.toDigits 10 (Nat.ofDigitChars 10 cs n) := by
  induction cs generalizing n with
  | nil => exact List.append_nil _
  | cons c rest ih =>
    obtain ⟨first, later⟩ := List.forall_mem_cons.1 digits
    obtain ⟨small, same⟩ := digitChar_sub first
    have grown : Nat.toDigits 10 n ++ [c] = Nat.toDigits 10 (10 * n + (c.toNat - '0'.toNat)) := by
      rw [← Nat.toDigits_append_toDigits (by decide) positive small, Nat.toDigits_of_lt_base small, same]
    rw [List.append_cons, grown, ih (by omega) later, Nat.ofDigitChars_cons]

/- Digits without leading zeros are those of the number that they stand for. -/
theorem toDigits_natOf (whole : WholeDigits cs) : Nat.toDigits 10 (natOf cs) = cs := by
  obtain ⟨c, rest, rfl⟩ := List.exists_cons_of_ne_nil whole.some_digit
  obtain ⟨first, later⟩ := List.forall_mem_cons.1 whole.digits
  by_cases zero : c = '0'
  · subst zero
    rw [whole.no_leading_zero rest rfl]
    rfl
  · obtain ⟨small, same⟩ := digitChar_sub first
    have positive : 0 < c.toNat - '0'.toNat := by
      refine Nat.pos_of_ne_zero fun nothing => zero ?_
      rw [← same, nothing]
      rfl
    have single : Nat.toDigits 10 (c.toNat - '0'.toNat) = [c] := by rw [Nat.toDigits_of_lt_base small, same]
    have grown := toDigits_append positive later
    have begun : natOf (c :: rest) = Nat.ofDigitChars 10 rest (c.toNat - '0'.toNat) := by
      rw [natOf, List.foldl_cons, Nat.mul_zero, Nat.zero_add]
      rfl
    rw [begun, ← grown, single]
    rfl

/-- A part of a key in writing: zero, or digits that do not start with a zero, for a word of 32 bits. -/
structure Part (cs : List Char) : Prop where
  whole : WholeDigits cs
  small : natOf cs ≤ Nat.pow 2 32 - 1

theorem part?_eq_some_iff {n : UInt32} : part? cs = some n ↔ Part cs ∧ natOf cs = n.toNat := by
  constructor
  · intro read
    have digits : ∀ c ∈ cs, c.isDigit = true := fun c member => digit_of_part read member
    unfold part? at read
    split at read
    · cases read
    · rename_i plain
      split at read
      · cases read
      · rename_i leading
        dsimp only at read
        split at read
        · rename_i small
          cases read
          have some_digit : cs ≠ [] := by
            rintro rfl
            exact plain rfl
          have no_leading_zero : ∀ rest, cs = '0' :: rest → rest = [] := by
            rintro rest rfl
            cases rest with
            | nil => rfl
            | cons d more => exact absurd ⟨Nat.succ_lt_succ (Nat.succ_pos more.length), rfl⟩ leading
          refine ⟨⟨⟨some_digit, digits, no_leading_zero⟩, Nat.le_sub_one_of_lt small⟩, ?_⟩
          exact (UInt32.toNat_ofNat_of_lt' small).symm
        · cases read
  · rintro ⟨⟨whole, -⟩, same⟩
    rw [← toDigits_natOf whole, same]
    exact part_toDigits n

/-- The spellings of keys: `N` and `N.M`. -/
def Spelled (cs : List Char) : Prop :=
  Part cs ∨ ∃ major minor, cs = major ++ '.' :: minor ∧ Part major ∧ Part minor

theorem exists_part (part : Part cs) : ∃ n : UInt32, part? cs = some n :=
  ⟨.ofNat (natOf cs), part?_eq_some_iff.2
    ⟨part, (UInt32.toNat_ofNat_of_lt' (Nat.lt_of_le_sub_one (by decide) part.small)).symm⟩⟩

theorem toDigits_of_part {n : UInt32} (read : part? cs = some n) : cs = Nat.toDigits 10 n.toNat := by
  obtain ⟨part, same⟩ := part?_eq_some_iff.1 read
  rw [← same, toDigits_natOf part.whole]

/- A key is read from its own spelling and from no other text. -/
theorem display_of_read {key : RoundKey} (read : read? cs = some key) : key.display.toList = cs := by
  unfold read? at read
  split at read
  · rename_i major minor cut
    obtain ⟨m, first, read⟩ := Option.bind_eq_some_iff.1 read
    obtain ⟨n, second, same⟩ := Option.bind_eq_some_iff.1 read
    cases same
    rw [eq_of_cutFirst cut, toDigits_of_part first, toDigits_of_part second, display]
    simp
  · obtain ⟨n, only, same⟩ := Option.bind_eq_some_iff.1 read
    cases same
    rw [toDigits_of_part only]
    exact toString_digits _

theorem isSome_read_iff : (read? cs).isSome = true ↔ Spelled cs := by
  constructor
  · intro read
    obtain ⟨key, read⟩ := Option.isSome_iff_exists.1 read
    unfold read? at read
    split at read
    · rename_i major minor cut
      obtain ⟨m, first, read⟩ := Option.bind_eq_some_iff.1 read
      obtain ⟨n, second, -⟩ := Option.bind_eq_some_iff.1 read
      exact .inr ⟨major, minor, eq_of_cutFirst cut, (part?_eq_some_iff.1 first).1, (part?_eq_some_iff.1 second).1⟩
    · obtain ⟨n, only, -⟩ := Option.bind_eq_some_iff.1 read
      exact .inl (part?_eq_some_iff.1 only).1
  · rintro (only | ⟨major, minor, rfl, first, second⟩)
    · obtain ⟨n, read⟩ := exists_part only
      rw [read?, cutFirst_digits only.whole.digits, read]
      rfl
    · obtain ⟨m, read⟩ := exists_part first
      obtain ⟨n, read'⟩ := exists_part second
      rw [read?, cutFirst_point first.whole.digits]
      simp [read, read']

end Spelling

section Order

variable {a b c : RoundKey}

/-- The order of keys: by the first number, and of those with one first number the bare one first and the others by
the second. -/
inductive Before : RoundKey → RoundKey → Prop
  | major {a b : RoundKey} : a.major.toNat < b.major.toNat → Before a b
  | bare {n k : UInt32} : Before ⟨n, none⟩ ⟨n, some k⟩
  | minor {n j k : UInt32} : j.toNat < k.toNat → Before ⟨n, some j⟩ ⟨n, some k⟩

theorem compare_eq_lt_iff : compare a b = .lt ↔ Before a b := by
  obtain ⟨m, j⟩ := a
  obtain ⟨n, k⟩ := b
  have parts : compare (RoundKey.mk m j) ⟨n, k⟩ = (compare m n).then (compare j k) := rfl
  rw [parts, Ordering.then_eq_lt, Std.compare_eq_lt, Std.compare_eq_iff_eq, UInt32.lt_iff_toNat_lt]
  constructor
  · rintro (less | ⟨rfl, less⟩)
    · exact .major less
    · cases j with
      | none =>
        cases k with
        | none => cases less
        | some k => exact .bare
      | some j =>
        cases k with
        | none => cases less
        | some k => exact .minor (UInt32.lt_iff_toNat_lt.1 (Std.compare_eq_lt.1 less))
  · rintro (less | _ | less)
    · exact .inl less
    · exact .inr ⟨rfl, rfl⟩
    · have less := Std.compare_eq_lt.2 (UInt32.lt_iff_toNat_lt.2 less)
      exact .inr ⟨rfl, less⟩

theorem compare_eq_gt_iff : compare a b = .gt ↔ Before b a :=
  Std.OrientedCmp.gt_iff_lt.trans compare_eq_lt_iff

end Order

/-- Keys and their spellings stand for each other one to one, and keys are in one line. -/
structure Canonical : Prop where
  accepted : ∀ cs, (read? cs).isSome = true ↔ Spelled cs
  printed : ∀ cs key, read? cs = some key → key.display.toList = cs
  reread : ∀ key, read? key.display.toList = some key
  apart : ∀ cs ds key, read? cs = some key → read? ds = some key → cs = ds
  ordered : ∀ a b : RoundKey, (compare a b = .lt ↔ Before a b) ∧ (compare a b = .eq ↔ a = b) ∧
    (compare a b = .gt ↔ Before b a)
  irreflexive : ∀ a, ¬Before a a
  transitive : ∀ a b c, Before a b → Before b c → Before a c
  total : ∀ a b, Before a b ∨ a = b ∨ Before b a

theorem keys_canonical : Canonical where
  accepted _ := isSome_read_iff
  printed _ _ := display_of_read
  reread := read_display
  apart cs ds key read read' := by rw [← display_of_read read, ← display_of_read read']
  ordered a b := ⟨compare_eq_lt_iff, Std.compare_eq_iff_eq, compare_eq_gt_iff⟩
  irreflexive a less := by
    have before : compare a a = .lt := compare_eq_lt_iff.2 less
    rw [Std.compare_self] at before
    cases before
  transitive a b c first second :=
    compare_eq_lt_iff.1 (Std.TransCmp.lt_trans (compare_eq_lt_iff.2 first) (compare_eq_lt_iff.2 second))
  total a b := by
    cases order : compare a b with
    | lt => exact .inl (compare_eq_lt_iff.1 order)
    | eq => exact .inr (.inl (Std.LawfulEqCmp.eq_of_compare order))
    | gt => exact .inr (.inr (compare_eq_gt_iff.1 order))

end ChatStory.RoundKey
