import ChatStory.Json.Number
import ChatStory.Json.Writer
import ChatStory.Proofs.Decimal.Digits

/-!
Numbers in documents, written and read. Every finite double is written as a proper numeral, and a
proper numeral is read to its end whatever text ends it.
-/
namespace ChatStory.Json

open Decimal

/-- A text that ends the number before it. -/
def EndsNumber (cs : List Char) : Prop :=
  ∀ c rest, cs = c :: rest → c.isDigit = false ∧ c ≠ '.' ∧ c ≠ 'e' ∧ c ≠ 'E'

theorem endsNumber_nil : EndsNumber [] := by
  intro c rest same
  cases same

theorem endsNumber_cons {c : Char} (cs : List Char)
    (mark : c.isDigit = false ∧ c ≠ '.' ∧ c ≠ 'e' ∧ c ≠ 'E') : EndsNumber (c :: cs) := by
  intro d rest same
  cases same
  exact mark

theorem EndsNumber.noDigitFirst {cs : List Char} (ends : EndsNumber cs) : NoDigitFirst cs := by
  intro c rest same
  exact (ends c rest same).1

/-- Digits that may stand before the point. -/
structure WholeDigits (ds : List Char) : Prop where
  some_digit : ds ≠ []
  digits : ∀ c ∈ ds, c.isDigit = true
  no_leading_zero : ∀ rest, ds = '0' :: rest → rest = []

structure Numeral.Proper (n : Numeral) : Prop where
  whole : WholeDigits n.whole
  fraction : ∀ ds, n.fraction = some ds → ds ≠ [] ∧ ∀ c ∈ ds, c.isDigit = true

def fractionText : Option (List Char) → List Char
  | none => []
  | some ds => '.' :: ds

def exponentText : Option Int → List Char
  | none => []
  | some e => 'e' :: (if e < 0 then '-' else '+') :: Nat.toDigits 10 e.natAbs

def Numeral.magnitude (n : Numeral) : List Char :=
  n.whole ++ (fractionText n.fraction ++ exponentText n.exponent)

def Numeral.text (n : Numeral) : List Char :=
  if n.negative then '-' :: n.magnitude else n.magnitude

theorem whole_append {ds rest : List Char} (whole : WholeDigits ds) (stop : NoDigitFirst rest) :
    whole? (ds ++ rest) = some (ds, rest) := by
  unfold whole?
  rw [splitDigits_append whole.digits stop]
  split
  · rename_i same
    cases same
    exact absurd rfl whole.some_digit
  · rename_i c cs _ same
    cases same
    have := whole.no_leading_zero _ rfl
    cases this
  · rfl

theorem exponentText_endsFraction (e : Option Int) {rest : List Char} (ends : EndsNumber rest) :
    NoDigitFirst (exponentText e ++ rest) ∧ ∀ tail, exponentText e ++ rest ≠ '.' :: tail := by
  cases e with
  | none =>
    refine ⟨ends.noDigitFirst, ?_⟩
    intro tail same
    exact (ends '.' tail same).2.1 rfl
  | some e =>
    refine ⟨noDigitFirst_cons _ (by decide), ?_⟩
    intro tail same
    cases same

theorem fraction_append {f : Option (List Char)}
    (proper : ∀ ds, f = some ds → ds ≠ [] ∧ ∀ c ∈ ds, c.isDigit = true) {rest : List Char}
    (stop : NoDigitFirst rest) (noPoint : ∀ tail, rest ≠ '.' :: tail) :
    fraction? (fractionText f ++ rest) = some (f, rest) := by
  cases f with
  | none =>
    unfold fraction?
    split
    · rename_i tail same
      exact absurd same (noPoint tail)
    · rfl
  | some ds =>
    obtain ⟨nonempty, digits⟩ := proper ds rfl
    simp only [fractionText, List.cons_append, fraction?, splitDigits_append digits stop]

theorem exponent_append (e : Option Int) {rest : List Char} (ends : EndsNumber rest) :
    Json.exponent? (exponentText e ++ rest) = some (e, rest) := by
  cases e with
  | none =>
    cases rest with
    | nil => rfl
    | cons c rest =>
      obtain ⟨_, _, lower, upper⟩ := ends c rest rfl
      simp [exponentText, Json.exponent?, lower, upper]
  | some e =>
    have read := splitDigits_append (digits_of_toDigits e.natAbs) ends.noDigitFirst
    have back := natOf_toDigits e.natAbs
    cases digits : Nat.toDigits 10 e.natAbs with
    | nil => exact absurd digits Nat.toDigits_ne_nil
    | cons d ds =>
      rw [digits] at read back
      rw [List.cons_append] at read
      by_cases negative : e < 0
      · have below : -(e.natAbs : Int) = e := by omega
        simpa [exponentText, Json.exponent?, splitSign, digits, negative, read, back] using below
      · have above : (e.natAbs : Int) = e := by omega
        simpa [exponentText, Json.exponent?, splitSign, digits, negative, read, back] using above

theorem magnitude_first {n : Numeral} (proper : n.Proper) :
    ∃ d rest, n.magnitude = d :: rest ∧ d.isDigit = true := by
  cases whole : n.whole with
  | nil => exact absurd whole proper.whole.some_digit
  | cons d rest =>
    refine ⟨d, rest ++ (fractionText n.fraction ++ exponentText n.exponent), ?_, ?_⟩
    · rw [Numeral.magnitude, whole, List.cons_append]
    · exact proper.whole.digits d (by rw [whole]; exact List.mem_cons_self)

theorem magnitude_append {n : Numeral} (proper : n.Proper) {rest : List Char}
    (ends : EndsNumber rest) :
    ∃ afterWhole afterFraction, whole? (n.magnitude ++ rest) = some (n.whole, afterWhole) ∧
      fraction? afterWhole = some (n.fraction, afterFraction) ∧
      Json.exponent? afterFraction = some (n.exponent, rest) := by
  obtain ⟨stop, noPoint⟩ := exponentText_endsFraction n.exponent ends
  have fraction := fraction_append proper.fraction stop noPoint
  have stopWhole : NoDigitFirst (fractionText n.fraction ++ (exponentText n.exponent ++ rest)) := by
    cases n.fraction with
    | none => exact stop
    | some ds => exact noDigitFirst_cons _ (by decide)
  refine ⟨_, _, ?_, fraction, exponent_append n.exponent ends⟩
  rw [Numeral.magnitude, List.append_assoc, List.append_assoc]
  exact whole_append proper.whole stopWhole

/-- Reads a number behind its sign. -/
def unsigned? (negative : Bool) (body : List Char) : Option (Json × List Char) := do
  let (whole, rest) ← whole? body
  let (fraction, rest) ← fraction? rest
  let (exponent, rest) ← Json.exponent? rest
  return (Numeral.value ⟨negative, whole, fraction, exponent⟩, rest)

theorem number_signed (body : List Char) : number? ('-' :: body) = unsigned? true body := rfl

theorem number_unsigned {c : Char} (rest : List Char) (digit : c.isDigit = true) :
    number? (c :: rest) = unsigned? false (c :: rest) := by
  have unsigned : c ≠ '-' := by
    rintro rfl
    revert digit
    decide
  unfold number?
  split
  rename_i negative body same
  split at same
  · rename_i first
    exact absurd (List.cons.inj first).1 unsigned
  · cases same
    rfl

theorem unsigned_magnitude {n : Numeral} (proper : n.Proper) {rest : List Char}
    (ends : EndsNumber rest) :
    unsigned? n.negative (n.magnitude ++ rest) = some (n.value, rest) := by
  obtain ⟨afterWhole, afterFraction, whole, fraction, exponent⟩ := magnitude_append proper ends
  simp [unsigned?, whole, fraction, exponent]

/-- A numeral is read to its end. -/
theorem number_text {n : Numeral} (proper : n.Proper) {rest : List Char} (ends : EndsNumber rest) :
    number? (n.text ++ rest) = some (n.value, rest) := by
  have read := unsigned_magnitude proper ends
  cases sign : n.negative with
  | true =>
    rw [sign] at read
    rw [Numeral.text, sign, if_pos rfl, List.cons_append, number_signed, read]
  | false =>
    obtain ⟨d, tail, first, digit⟩ := magnitude_first proper
    rw [sign, first, List.cons_append] at read
    rw [Numeral.text, sign, if_neg (by decide), first, List.cons_append,
      number_unsigned _ digit, read]

/-- What a number is read as is a number, unless it lies beyond the doubles. -/
theorem value_of_numeral (n : Numeral) :
    n.value = .unreadable ∨ (∃ x, n.value = .real x) ∨ ∃ i, n.value = .integer i := by
  unfold Numeral.value
  dsimp only
  split
  · split
    · exact .inr (.inr ⟨_, rfl⟩)
    · split
      · exact .inr (.inl ⟨_, rfl⟩)
      · exact .inr (.inr ⟨_, rfl⟩)
  · split
    · exact .inr (.inl ⟨_, rfl⟩)
    · exact .inl rfl

/- Digits are gathered as long as the number they make fits a word. -/
theorem gather_of_fits (ds : List Char) (word : Nat)
    (fits : Nat.ofDigitChars 10 ds word < wordLimit) :
    gather word ds = (Nat.ofDigitChars 10 ds word, 0) := by
  induction ds generalizing word with
  | nil => rfl
  | cons d ds ih =>
    rw [Nat.ofDigitChars_cons] at fits ⊢
    have next : 10 * word + (d.toNat - '0'.toNat) < wordLimit := by
      rw [Nat.ofDigitChars_eq_ofDigitChars_zero] at fits
      have scale : 1 ≤ 10 ^ ds.length := Nat.pow_pos (by decide)
      have := Nat.le_mul_of_pos_left (10 * word + (d.toNat - '0'.toNat)) scale
      omega
    simp only [gather]
    rw [if_pos next]
    exact ih _ fits

def Numeral.ofNatural (n : Nat) : Numeral := ⟨false, Nat.toDigits 10 n, none, none⟩

theorem wholeDigits_toDigits (n : Nat) : WholeDigits (Nat.toDigits 10 n) := by
  refine ⟨Nat.toDigits_ne_nil, digits_of_toDigits n, ?_⟩
  intro rest same
  by_cases zero : n = 0
  · subst zero
    rw [Nat.toDigits_zero] at same
    exact (List.cons.inj same).2.symm
  · exact absurd same (toDigits_head zero rest)

theorem ofNatural_proper (n : Nat) : (Numeral.ofNatural n).Proper := by
  refine ⟨wholeDigits_toDigits n, ?_⟩
  intro ds same
  cases same

theorem value_ofNatural {n : Nat} (fits : n < wordLimit) :
    (Numeral.ofNatural n).value = .natural n := by
  have read : gather 0 (Nat.toDigits 10 n) = (n, 0) := by
    have same := Nat.ofDigitChars_ten_toDigits (n := n)
    rw [gather_of_fits _ 0 (by rw [same]; exact fits), same]
  simp [Numeral.value, Numeral.ofNatural, read]

theorem number_natural {n : Nat} (fits : n < wordLimit) {rest : List Char}
    (ends : EndsNumber rest) : number? (Nat.toDigits 10 n ++ rest) = some (.natural n, rest) := by
  have read := number_text (ofNatural_proper n) ends
  rw [value_ofNatural fits] at read
  simpa [Numeral.text, Numeral.magnitude, Numeral.ofNatural, fractionText, exponentText] using read

/-- A numeral for a decimal. It does not have many digits before the point, and where it has an exponent, all
its digits are those of the decimal. -/
structure Numeral.Spells (n : Numeral) (d : Scaled) : Prop where
  proper : n.Proper
  short : n.whole.length ≤ 16
  exact : ∀ e, n.exponent = some e → natOf (n.whole ++ n.fraction.getD []) = d.digits ∧
    e - (n.fraction.getD []).length = d.exp

/- The digits of a double that is not zero do not start with a zero, so zeros behind them never
   make a numeral with a leading zero. -/
theorem positional_spelled {ds : List Char} (whole : WholeDigits ds) (nonzero : ds ≠ ['0'])
    {point : Int} (inside : point ≤ 16) (d : Scaled) :
    ∃ n : Numeral, n.Spells d ∧ n.negative = false ∧ positionalText true ds point = n.magnitude := by
  have leads : ∀ rest, ds ≠ '0' :: rest := by
    intro rest same
    have := whole.no_leading_zero rest same
    subst this
    exact nonzero same
  unfold positionalText
  split
  · refine ⟨⟨false, ['0'], some (zeros (-point).toNat ++ ds), none⟩,
      ⟨⟨⟨by simp, by simp, ?_⟩, ?_⟩, by simp, nofun⟩, rfl, ?_⟩
    · intro rest same
      exact (List.cons.inj same).2.symm
    · intro fs same
      cases same
      refine ⟨by simp [whole.some_digit], ?_⟩
      intro c member
      rcases List.mem_append.1 member with zero | digit
      · exact digits_zeros _ c zero
      · exact whole.digits c digit
    · simp [Numeral.magnitude, fractionText, exponentText]
  · split
    · rename_i positive inside
      have some_front : 0 < (ds.take point.toNat).length := by
        rw [List.length_take]
        omega
      refine ⟨⟨false, ds.take point.toNat, some (ds.drop point.toNat), none⟩,
        ⟨⟨⟨List.ne_nil_of_length_pos some_front, ?_, ?_⟩, ?_⟩, ?_, nofun⟩, rfl, ?_⟩
      · intro c member
        exact whole.digits c (List.mem_of_mem_take member)
      · intro rest same
        refine absurd ?_ (leads (rest ++ ds.drop point.toNat))
        rw [← List.cons_append, ← same, List.take_append_drop]
      · intro fs same
        cases same
        refine ⟨?_, fun c member => whole.digits c (List.mem_of_mem_drop member)⟩
        intro empty
        have := List.drop_eq_nil_iff.1 empty
        omega
      · dsimp only
        rw [List.length_take]
        omega
      · simp [Numeral.magnitude, fractionText, exponentText]
    · refine ⟨⟨false, ds ++ zeros (point - ds.length).toNat, some ['0'], none⟩,
        ⟨⟨⟨by simp [whole.some_digit], ?_, ?_⟩, ?_⟩, ?_, nofun⟩, rfl, ?_⟩
      · intro c member
        rcases List.mem_append.1 member with digit | zero
        · exact whole.digits c digit
        · exact digits_zeros _ c zero
      · intro rest same
        cases start : ds with
        | nil => exact absurd start whole.some_digit
        | cons d tail =>
          rw [start, List.cons_append] at same
          have zero := (List.cons.inj same).1
          subst zero
          exact absurd start (leads tail)
      · intro fs same
        cases same
        simp
      · simp only [zeros, List.length_append, List.length_replicate]
        omega
      · simp [Numeral.magnitude, fractionText, exponentText]

theorem exponent_spelled {d : Scaled} {e : Int} (leading : e = (Nat.toDigits 10 d.digits).length + d.exp - 1) :
    ∃ n : Numeral, n.Spells d ∧ n.negative = false ∧
      Decimal.exponentText (Nat.toDigits 10 d.digits) e = n.magnitude := by
  have whole := wholeDigits_toDigits d.digits
  have value := natOf_toDigits d.digits
  have alone : ∀ c, c ∈ Nat.toDigits 10 d.digits → WholeDigits [c] := by
    intro c member
    refine ⟨by simp, ?_, ?_⟩
    · intro other same
      rw [List.mem_singleton.1 same]
      exact whole.digits c member
    · intro rest same
      exact (List.cons.inj same).2.symm
  match Nat.toDigits 10 d.digits, whole, value, alone, leading with
  | [], whole, _, _, _ => exact absurd rfl whole.some_digit
  | [c], _, value, alone, leading =>
    refine ⟨⟨false, [c], none, some e⟩, ⟨⟨alone c (by simp), nofun⟩, by simp, ?_⟩, rfl, ?_⟩
    · intro other same
      cases same
      refine ⟨value, ?_⟩
      simp only [Option.getD_none, List.length_nil, List.length_singleton] at *
      omega
    · simp [Decimal.exponentText, Numeral.magnitude, fractionText, exponentText]
  | c :: f :: rest, whole, value, alone, leading =>
    refine ⟨⟨false, [c], some (f :: rest), some e⟩,
      ⟨⟨alone c (by simp), ?_⟩, by simp, ?_⟩, rfl, ?_⟩
    · intro fs same
      cases same
      exact ⟨by simp, fun other member => whole.digits other (List.mem_cons_of_mem c member)⟩
    · intro other same
      cases same
      refine ⟨value, ?_⟩
      simp only [Option.getD_some, List.length_cons] at *
      omega
    · simp [Decimal.exponentText, Numeral.magnitude, fractionText, exponentText]

theorem magnitude_spelled (x : Magnitude) : ∃ n : Numeral, n.Spells (x.shortest numbers.upward) ∧
    n.negative = false ∧ numbers.magnitudeText x = n.magnitude := by
  unfold Layout.magnitudeText
  split
  · refine ⟨⟨false, ['0'], some ['0'], none⟩, ⟨⟨⟨by simp, by simp, ?_⟩, ?_⟩, by simp, nofun⟩, rfl, ?_⟩
    · intro rest same
      exact (List.cons.inj same).2.symm
    · intro fs same
      cases same
      simp
    · simp [Numeral.magnitude, fractionText, exponentText, numbers]
  · rename_i nonzero
    have digits := shortest_ne_zero nonzero numbers.upward
    have whole := wholeDigits_toDigits (x.shortest numbers.upward).digits
    have leads : Nat.toDigits 10 (x.shortest numbers.upward).digits ≠ ['0'] := toDigits_head digits []
    dsimp only [numbers] at *
    split
    · rename_i inside
      exact positional_spelled whole leads (by omega) _
    · exact exponent_spelled rfl

theorem isFinite_of_isNaN {x : Float} (unordered : x.isNaN = true) : x.isFinite = false := by
  change x.toModel.unpack.isNaN = true at unordered
  change x.toModel.unpack.isFinite = false
  cases shape : x.toModel.unpack with
  | notANumber => rfl
  | infinity s => rfl
  | zero s =>
    rw [shape] at unordered
    cases unordered
  | finite s m e positive =>
    rw [shape] at unordered
    cases unordered

/-- A finite double is written as a numeral, and what is not finite is written as null. -/
theorem real_spelled (x : Float) : (x.isFinite = false ∧ numbers.text x = "null") ∨
    x.isFinite = true ∧ ∃ n : Numeral,
      n.Spells ((Magnitude.ofBits x.toBits).shortest numbers.upward) ∧
        (numbers.text x).toList = n.text := by
  unfold Layout.text
  split
  · rename_i unordered
    exact .inl ⟨isFinite_of_isNaN unordered, rfl⟩
  · dsimp only
    split
    · rename_i finite
      obtain ⟨⟨negative, w, f, e⟩, ⟨proper, short, exact⟩, positive, same⟩ :=
        magnitude_spelled (.ofBits x.toBits)
      cases positive
      refine .inr ⟨finite, ⟨x.toBits >>> 63 == 1, w, f, e⟩,
        ⟨⟨proper.whole, proper.fraction⟩, short, exact⟩, ?_⟩
      rw [String.toList_ofList, same]
      cases x.toBits >>> 63 == 1 <;> rfl
    · rename_i infinite
      refine .inl ⟨Bool.not_eq_true _ ▸ infinite, ?_⟩
      split <;> rfl

/-- What a double reads as once it has been written. -/
def rereadReal (x : Float) : Json :=
  match number? (numbers.text x).toList with
  | some (j, _) => j
  | none => .null

theorem rereadReal_of_null {x : Float} (written : numbers.text x = "null") :
    rereadReal x = .null := by
  simp only [rereadReal, written]
  rfl

theorem rereadReal_of_text {x : Float} {n : Numeral} (proper : n.Proper)
    (written : (numbers.text x).toList = n.text) : rereadReal x = n.value := by
  have read := number_text proper endsNumber_nil
  rw [List.append_nil] at read
  simp only [rereadReal, written, read]

theorem rereadReal_cases (x : Float) : rereadReal x = .null ∨ rereadReal x = .unreadable ∨
    (∃ y, rereadReal x = .real y) ∨ ∃ i, rereadReal x = .integer i := by
  rcases real_spelled x with ⟨_, written⟩ | ⟨_, n, spells, written⟩
  · exact .inl (rereadReal_of_null written)
  · rw [rereadReal_of_text spells.proper written]
    exact .inr (value_of_numeral n)

end ChatStory.Json
