import ChatStory.Json.Reader
import ChatStory.Proofs.Json.Numeral

/-!
Documents read back. Whatever is written compactly is read to its end and gives the same value,
except that each double gives what its text reads as.
-/
namespace ChatStory.Json

theorem hexDigit_digitChar {n : Nat} (small : n < 16) : hexDigit? (Nat.digitChar n) = some n := by
  revert n
  decide

theorem unescape_of_escapeLetter {c letter : Char} (escaped : escapeLetter? c = some letter) :
    letter ≠ 'u' ∧ unescape? letter = some c := by
  unfold escapeLetter? at escaped
  split at escaped <;> cases escaped <;> decide

theorem escaped_control {c : Char} (control : c.toNat < 0x20) (rest : List Char) :
    escaped? ('u' :: '0' :: '0' :: Nat.digitChar (c.toNat / 16) :: Nat.digitChar (c.toNat % 16) ::
      rest) = some (some c, rest) := by
  have high := hexDigit_digitChar (n := c.toNat / 16) (by omega)
  have low := hexDigit_digitChar (n := c.toNat % 16) (by omega)
  have whole : c.toNat / 16 * 16 + c.toNat % 16 = c.toNat := by omega
  have unit : unit? '0' '0' (Nat.digitChar (c.toNat / 16)) (Nat.digitChar (c.toNat % 16)) =
      some c.toNat := by
    have zero : hexDigit? '0' = some 0 := by decide
    simp [unit?, high, low, zero, whole]
  have noHigh : isHighUnit c.toNat = false := by simp [isHighUnit]; omega
  have noLow : isLowUnit c.toNat = false := by simp [isLowUnit]; omega
  simp [escaped?, unit, noHigh, noLow, Char.ofNat_toNat]

theorem literal_escaped {c : Char} {cs rest : List Char}
    (found : escaped? cs = some (some c, rest)) :
    literal? ('\\' :: cs) = (literal? rest).map (Literal.cons (some c)) := by
  rw [literal?]
  split
  · rename_i none
    rw [found] at none
    cases none
  · rename_i d after same
    rw [found] at same
    cases same
    rfl

theorem literal_escape (c : Char) (cs : List Char) :
    literal? (escape c ++ cs) = (literal? cs).map (Literal.cons (some c)) := by
  unfold escape
  split
  · rename_i letter found
    obtain ⟨other, back⟩ := unescape_of_escapeLetter found
    apply literal_escaped
    unfold escaped?
    split
    · rename_i same
      exact absurd (List.cons.inj same).1 other
    · rename_i same
      cases same
      rw [back]
      rfl
    · rename_i same
      cases same
  · rename_i plain
    split
    · rename_i control
      exact literal_escaped (escaped_control control cs)
    · rename_i shown
      have quote : c ≠ '"' := by
        rintro rfl
        cases plain
      have slash : c ≠ '\\' := by
        rintro rfl
        cases plain
      rw [List.cons_append, List.nil_append, literal?]
      · rw [if_neg shown]
      · intro same
        exact absurd same quote
      · intro same
        exact absurd same slash

theorem literal_flatMap (cs rest : List Char) :
    literal? (cs.flatMap escape ++ '"' :: rest) = some (some cs, rest) := by
  induction cs with
  | nil => simp [literal?]
  | cons c cs ih =>
    rw [List.flatMap_cons, List.append_assoc, literal_escape, ih]
    rfl

theorem quoted_append (s : String) (rest : List Char) :
    quoted s ++ rest = '"' :: (s.toList.flatMap escape ++ '"' :: rest) := by
  simp [quoted]

theorem scalar_quoted (s : String) (rest : List Char) :
    scalar? (quoted s ++ rest) = some (.text s, rest) := by
  rw [quoted_append]
  simp [scalar?, literal_flatMap, textOf]

/-- A reading that gives a value and leaves a rest. -/
def Gives {cs : List Char} (result : Option (α × Rest cs)) (a : α) (rest : List Char) : Prop :=
  ∃ shorter, result = some (a, ⟨rest, shorter⟩)

theorem skip_of_mark {c : Char} (cs : List Char) (mark : isSpace c = false) :
    skip (c :: cs) = c :: cs := by
  simp [skip, mark]

theorem value_of_scalar {cs rest : List Char} {j : Json} (noList : ∀ tail, skip cs ≠ '[' :: tail)
    (noRecord : ∀ tail, skip cs ≠ '{' :: tail) (found : scalar? (skip cs) = some (j, rest)) :
    Gives (value? cs) j rest := by
  unfold value?
  split
  · rename_i same
    exact absurd same (noList _)
  · rename_i same
    exact absurd same (noRecord _)
  · split
    · rename_i read
      rw [found] at read
      cases read
      exact ⟨_, rfl⟩
    · rename_i read
      rw [found] at read
      cases read

theorem value_of_empty_list {cs body rest : List Char} (opens : skip cs = '[' :: body)
    (closes : skip body = ']' :: rest) : Gives (value? cs) (.list []) rest := by
  unfold value?
  split
  · rename_i same
    rw [opens] at same
    cases same
    split
    · rename_i same
      rw [closes] at same
      cases same
      exact ⟨_, rfl⟩
    · rename_i other
      exact absurd closes (other _)
  · rename_i same
    rw [opens] at same
    cases same
  · rename_i other _
    exact absurd opens (other _)

theorem value_of_list {cs body rest : List Char} {items : List Json}
    (opens : skip cs = '[' :: body) (some_item : ∀ tail, skip body ≠ ']' :: tail)
    (found : Gives (items? body) items rest) : Gives (value? cs) (.list items) rest := by
  obtain ⟨shorter, found⟩ := found
  unfold value?
  split
  · rename_i same
    rw [opens] at same
    cases same
    split
    · rename_i same
      exact absurd same (some_item _)
    · rw [found]
      exact ⟨_, rfl⟩
  · rename_i same
    rw [opens] at same
    cases same
  · rename_i other _
    exact absurd opens (other _)

theorem value_of_empty_record {cs body rest : List Char} (opens : skip cs = '{' :: body)
    (closes : skip body = '}' :: rest) : Gives (value? cs) (.record []) rest := by
  unfold value?
  split
  · rename_i same
    rw [opens] at same
    cases same
  · rename_i same
    rw [opens] at same
    cases same
    split
    · rename_i same
      rw [closes] at same
      cases same
      exact ⟨_, rfl⟩
    · rename_i other
      exact absurd closes (other _)
  · rename_i other
    exact absurd opens (other _)

theorem value_of_record {cs body rest : List Char} {members : List (String × Json)}
    (opens : skip cs = '{' :: body) (some_member : ∀ tail, skip body ≠ '}' :: tail)
    (found : Gives (members? body) (some members) rest) :
    Gives (value? cs) (.record members) rest := by
  obtain ⟨shorter, found⟩ := found
  unfold value?
  split
  · rename_i same
    rw [opens] at same
    cases same
  · rename_i same
    rw [opens] at same
    cases same
    split
    · rename_i same
      exact absurd same (some_member _)
    · rw [found]
      exact ⟨_, rfl⟩
  · rename_i other
    exact absurd opens (other _)

theorem items_of_last {cs after rest : List Char} {j : Json} (found : Gives (value? cs) j after)
    (closes : skip after = ']' :: rest) : Gives (items? cs) [j] rest := by
  obtain ⟨shorter, found⟩ := found
  unfold items?
  rw [found]
  simp only [bind, Option.bind]
  split
  · rename_i same
    rw [closes] at same
    cases same
    exact ⟨_, rfl⟩
  · rename_i same
    rw [closes] at same
    cases same
  · rename_i other _
    exact absurd closes (other _)

theorem items_of_more {cs after next rest : List Char} {j : Json} {items : List Json}
    (found : Gives (value? cs) j after) (goes_on : skip after = ',' :: next)
    (others : Gives (items? next) items rest) : Gives (items? cs) (j :: items) rest := by
  obtain ⟨shorter, found⟩ := found
  obtain ⟨_, others⟩ := others
  unfold items?
  rw [found]
  simp only [bind, Option.bind]
  split
  · rename_i same
    rw [goes_on] at same
    cases same
  · rename_i same
    rw [goes_on] at same
    cases same
    rw [others]
    exact ⟨_, rfl⟩
  · rename_i other
    exact absurd goes_on (other _)

theorem name_quoted (name : String) (rest : List Char) :
    Gives (name? (quoted name ++ ':' :: rest)) (some name.toList) rest := by
  have opens : skip (quoted name ++ ':' :: rest) =
      '"' :: (name.toList.flatMap escape ++ '"' :: ':' :: rest) := by
    rw [quoted_append]
    exact skip_of_mark _ (by decide)
  have read := literal_flatMap name.toList (':' :: rest)
  have colon : skip (':' :: rest) = ':' :: rest := skip_of_mark _ (by decide)
  unfold name?
  split
  · rename_i same
    rw [opens] at same
    cases same
    split
    · rename_i none
      rw [read] at none
      cases none
    · rename_i found
      rw [read] at found
      cases found
      split
      · rename_i same
        rw [colon] at same
        cases same
        exact ⟨_, rfl⟩
      · rename_i other
        exact absurd colon (other _)
  · rename_i other
    exact absurd opens (other _)

theorem consMember_text (name : String) (j : Json) (members : List (String × Json)) :
    consMember (some name.toList) j (some members) = some ((name, j) :: members) := by
  simp [consMember]

theorem members_of_last {cs value after rest : List Char} {name : String} {j : Json}
    (named : Gives (name? cs) (some name.toList) value) (found : Gives (value? value) j after)
    (closes : skip after = '}' :: rest) : Gives (members? cs) (some [(name, j)]) rest := by
  obtain ⟨behind_name, named⟩ := named
  obtain ⟨behind_value, found⟩ := found
  have shorter := Nat.lt_trans (length_of_skip closes) (Nat.lt_trans behind_value behind_name)
  refine ⟨shorter, ?_⟩
  unfold members?
  rw [named]
  simp only [bind, Option.bind]
  rw [found]
  simp only
  split
  · rename_i same
    rw [closes] at same
    cases same
    rw [consMember_text]
  · rename_i same
    rw [closes] at same
    cases same
  · rename_i other _
    exact absurd closes (other _)

theorem members_of_more {cs value after next rest : List Char} {name : String} {j : Json}
    {members : List (String × Json)} (named : Gives (name? cs) (some name.toList) value)
    (found : Gives (value? value) j after) (goes_on : skip after = ',' :: next)
    (others : Gives (members? next) (some members) rest) :
    Gives (members? cs) (some ((name, j) :: members)) rest := by
  obtain ⟨behind_name, named⟩ := named
  obtain ⟨behind_value, found⟩ := found
  obtain ⟨behind_others, others⟩ := others
  have shorter := Nat.lt_trans (length_of_skip goes_on) (Nat.lt_trans behind_value behind_name)
  refine ⟨Nat.lt_trans behind_others shorter, ?_⟩
  unfold members?
  rw [named]
  simp only [bind, Option.bind]
  rw [found]
  simp only
  split
  · rename_i same
    rw [goes_on] at same
    cases same
  · rename_i same
    rw [goes_on] at same
    cases same
    rw [others]
    simp [consMember_text, Rest.widen]
  · rename_i other
    exact absurd goes_on (other _)

/-- A text that starts with a scalar. -/
def StartsScalar (cs : List Char) : Prop :=
  ∃ c rest, cs = c :: rest ∧ isSpace c = false ∧ c ≠ '[' ∧ c ≠ ']' ∧ c ≠ '{'

theorem StartsScalar.append {cs : List Char} (starts : StartsScalar cs) (rest : List Char) :
    StartsScalar (cs ++ rest) := by
  obtain ⟨c, tail, rfl, mark⟩ := starts
  exact ⟨c, tail ++ rest, rfl, mark⟩

theorem startsScalar_cons {c : Char} (rest : List Char)
    (mark : isSpace c = false ∧ c ≠ '[' ∧ c ≠ ']' ∧ c ≠ '{') : StartsScalar (c :: rest) :=
  ⟨c, rest, rfl, mark⟩

theorem not_mark_of_isDigit {c : Char} (digit : c.isDigit = true) :
    isSpace c = false ∧ c ≠ '[' ∧ c ≠ ']' ∧ c ≠ '{' := by
  refine ⟨?_, ?_, ?_, ?_⟩
  · rw [Bool.eq_false_iff]
    intro space
    simp only [isSpace, Bool.or_eq_true, beq_iff_eq] at space
    rcases space with ((rfl | rfl) | rfl) | rfl <;> cases digit
  all_goals
    rintro rfl
    cases digit

theorem startsScalar_text {n : Numeral} (proper : n.Proper) : StartsScalar n.text := by
  obtain ⟨d, rest, spelled, digit⟩ := magnitude_first proper
  unfold Numeral.text
  split
  · exact startsScalar_cons _ (by decide)
  · rw [spelled]
    exact startsScalar_cons _ (not_mark_of_isDigit digit)

theorem startsScalar_real (x : Float) : StartsScalar (real x).scalar := by
  rcases real_spelled x with ⟨_, written⟩ | ⟨_, n, spells, written⟩
  · rw [scalar, written]
    exact startsScalar_cons _ (by decide)
  · rw [scalar, written]
    exact startsScalar_text spells.proper

theorem startsScalar_integer (n : Int) : StartsScalar (integer n).scalar := by
  by_cases negative : n < 0
  · have written : (integer n).scalar = '-' :: Nat.toDigits 10 n.natAbs := by
      simp [scalar, negative]
    rw [written]
    exact startsScalar_cons _ (by decide)
  · have written : (integer n).scalar = Nat.toDigits 10 n.natAbs := by
      simp [scalar, negative]
    rw [written]
    cases digits : Nat.toDigits 10 n.natAbs with
    | nil => exact absurd digits Nat.toDigits_ne_nil
    | cons d ds =>
      have digit := Decimal.digits_of_toDigits n.natAbs d (by simp [digits])
      exact startsScalar_cons _ (not_mark_of_isDigit digit)

theorem startsScalar_scalar (j : Json) : StartsScalar j.scalar := by
  cases j with
  | integer n => exact startsScalar_integer n
  | real x => exact startsScalar_real x
  | bool b => cases b <;> exact startsScalar_cons _ (by decide)
  | _ => exact startsScalar_cons _ (by decide)

theorem scalar_null (rest : List Char) : scalar? ("null".toList ++ rest) = some (null, rest) := by
  simp [scalar?, word?, afterWord?]

theorem scalar_bool (b : Bool) (rest : List Char) :
    scalar? ((bool b).scalar ++ rest) = some (bool b, rest) := by
  cases b <;> simp [scalar, scalar?, word?, afterWord?]

/- A numeral starts with a digit or a minus, and so does none of the words. -/
theorem scalar_of_numeral {c : Char} {cs : List Char} (numeral : c.isDigit = true ∨ c = '-') :
    scalar? (c :: cs) = number? (c :: cs) := by
  have quote : c ≠ '"' := by
    rintro rfl
    rcases numeral with numeral | numeral <;> cases numeral
  have none : word? (c :: cs) = none := by
    have n : c ≠ 'n' := by
      rintro rfl
      rcases numeral with numeral | numeral <;> cases numeral
    have t : c ≠ 't' := by
      rintro rfl
      rcases numeral with numeral | numeral <;> cases numeral
    have f : c ≠ 'f' := by
      rintro rfl
      rcases numeral with numeral | numeral <;> cases numeral
    simp [word?, afterWord?, n.symm, t.symm, f.symm]
  unfold scalar?
  split
  · rename_i same
    cases same
    exact absurd rfl quote
  · rw [none]
    rfl

theorem scalar_text {n : Numeral} (proper : n.Proper) {rest : List Char} (ends : EndsNumber rest) :
    scalar? (n.text ++ rest) = some (n.value, rest) := by
  have read := number_text proper ends
  obtain ⟨d, tail, spelled, digit⟩ := magnitude_first proper
  rw [← read]
  unfold Numeral.text
  split
  · exact scalar_of_numeral (.inr rfl)
  · rw [spelled]
    exact scalar_of_numeral (.inl digit)

theorem scalar_real (x : Float) {rest : List Char} (ends : EndsNumber rest) :
    scalar? ((real x).scalar ++ rest) = some (rereadReal x, rest) := by
  rcases real_spelled x with ⟨_, written⟩ | ⟨_, n, spells, written⟩
  · rw [scalar, written, rereadReal_of_null written]
    exact scalar_null rest
  · rw [scalar, written, rereadReal_of_text spells.proper written]
    exact scalar_text spells.proper ends

theorem scalar_natural {n : Nat} (fits : n < Decimal.wordLimit) {rest : List Char}
    (ends : EndsNumber rest) : scalar? ((natural n).scalar ++ rest) = some (natural n, rest) := by
  have read := number_natural fits ends
  have written : (natural n).scalar = Nat.toDigits 10 n := by
    have positive : ¬(n : Int) < 0 := by omega
    simp [natural, scalar, positive]
  rw [written]
  cases digits : Nat.toDigits 10 n with
  | nil => exact absurd digits Nat.toDigits_ne_nil
  | cons d ds =>
    rw [digits] at read
    rw [← read]
    exact scalar_of_numeral (.inl (Decimal.digits_of_toDigits n d (by simp [digits])))

mutual
/-- What a document gives when it is written and read back. -/
def reread : Json → Json
  | real x => rereadReal x
  | list items => .list (rereadItems items)
  | record members => .record (rereadMembers members)
  | unreadable => null
  | j => j
def rereadItems : List Json → List Json
  | [] => []
  | j :: rest => j.reread :: rereadItems rest
def rereadMembers : List (String × Json) → List (String × Json)
  | [] => []
  | (name, j) :: rest => (name, j.reread) :: rereadMembers rest
end

mutual
/-- Every whole number in it is a word. -/
def fitsWords : Json → Bool
  | integer n => 0 ≤ n && n < Decimal.wordLimit
  | list items => itemsFitWords items
  | record members => membersFitWords members
  | _ => true
def itemsFitWords : List Json → Bool
  | [] => true
  | j :: rest => j.fitsWords && itemsFitWords rest
def membersFitWords : List (String × Json) → Bool
  | [] => true
  | (_, j) :: rest => j.fitsWords && membersFitWords rest
end

/-- Neither a list nor a record. -/
def IsScalar : Json → Prop
  | list _ | record _ => False
  | _ => True

theorem compact_of_isScalar {j : Json} (isScalar : j.IsScalar) : j.compact = j.scalar := by
  cases j with
  | list items => cases isScalar
  | record members => cases isScalar
  | _ => rfl

theorem scalar_scalar {j : Json} (isScalar : j.IsScalar) (fits : j.fitsWords = true) {rest : List Char}
    (ends : EndsNumber rest) : scalar? (j.scalar ++ rest) = some (j.reread, rest) := by
  cases j with
  | null => exact scalar_null rest
  | bool b => exact scalar_bool b rest
  | integer n =>
    simp only [fitsWords, Bool.and_eq_true, decide_eq_true_eq] at fits
    obtain ⟨positive, small⟩ := fits
    obtain ⟨k, rfl⟩ := Int.eq_ofNat_of_zero_le positive
    exact scalar_natural (Int.ofNat_lt.1 small) ends
  | real x => exact scalar_real x ends
  | text s => exact scalar_quoted s rest
  | list items => cases isScalar
  | record members => cases isScalar
  | unreadable => exact scalar_null rest

theorem value_of_isScalar {j : Json} (isScalar : j.IsScalar) (fits : j.fitsWords = true)
    {rest : List Char} (ends : EndsNumber rest) :
    Gives (value? (j.compact ++ rest)) j.reread rest := by
  rw [compact_of_isScalar isScalar]
  have read := scalar_scalar isScalar fits ends
  obtain ⟨c, tail, starts, space, square, _, curly⟩ := (startsScalar_scalar j).append rest
  rw [starts] at read ⊢
  have stays : skip (c :: tail) = c :: tail := skip_of_mark tail space
  apply value_of_scalar
  · intro after same
    rw [stays] at same
    exact square (List.cons.inj same).1
  · intro after same
    rw [stays] at same
    exact curly (List.cons.inj same).1
  · rw [stays]
    exact read

theorem not_closed_of_compact (j : Json) (rest : List Char) :
    ∀ tail, skip (j.compact ++ rest) ≠ ']' :: tail := by
  intro tail same
  cases j with
  | list items => cases same
  | record members => cases same
  | _ =>
    rw [compact_of_isScalar (by trivial)] at same
    obtain ⟨c, after, starts, space, _, square, _⟩ := (startsScalar_scalar _).append rest
    rw [starts, skip_of_mark after space] at same
    exact square (List.cons.inj same).1

theorem compactItems_cons (j : Json) {others : List Json} (more : others ≠ []) :
    compactItems (j :: others) = j.compact ++ ',' :: compactItems others := by
  cases others with
  | nil => exact absurd rfl more
  | cons k others => rfl

theorem compactMembers_cons (name : String) (j : Json) {others : List (String × Json)}
    (more : others ≠ []) : compactMembers ((name, j) :: others) =
      quoted name ++ ':' :: (j.compact ++ ',' :: compactMembers others) := by
  cases others with
  | nil => exact absurd rfl more
  | cons k others => rfl

/- The three readings follow the three writings: what ends an item or a member never continues the
   number before it. -/
mutual
theorem value_compact (j : Json) (fits : j.fitsWords = true) {rest : List Char}
    (ends : EndsNumber rest) :
    Gives (value? (j.compact ++ rest)) j.reread rest := by
  cases j with
  | list items =>
    have opens : skip ((list items).compact ++ rest) = '[' :: (compactItems items ++ ']' :: rest) := by
      simp [compact, skip_of_mark, isSpace]
    cases items with
    | nil => exact value_of_empty_list opens (skip_of_mark rest (by decide))
    | cons first others =>
      apply value_of_list opens
      · cases others with
        | nil => exact not_closed_of_compact first _
        | cons second others =>
          rw [compactItems_cons first (by simp), List.append_assoc]
          exact not_closed_of_compact first _
      · exact items_compact (first :: others) (by simp) fits rest
  | record members =>
    have opens : skip ((record members).compact ++ rest) =
        '{' :: (compactMembers members ++ '}' :: rest) := by
      simp [compact, skip_of_mark, isSpace]
    cases members with
    | nil => exact value_of_empty_record opens (skip_of_mark rest (by decide))
    | cons first others =>
      apply value_of_record opens
      · intro tail same
        cases others with
        | nil => cases same
        | cons second others => cases same
      · exact members_compact (first :: others) (by simp) fits rest
  | _ => exact value_of_isScalar (by trivial) fits ends

theorem items_compact (items : List Json) (some_item : items ≠ []) (fits : itemsFitWords items = true)
    (rest : List Char) :
    Gives (items? (compactItems items ++ ']' :: rest)) (rereadItems items) rest := by
  cases items with
  | nil => exact absurd rfl some_item
  | cons first others =>
    obtain ⟨fit, fits⟩ := Bool.and_eq_true_iff.1 fits
    by_cases last : others = []
    · subst last
      exact items_of_last (value_compact first fit (endsNumber_cons rest (by decide)))
        (skip_of_mark rest (by decide))
    · rw [compactItems_cons first last, List.append_assoc]
      exact items_of_more (value_compact first fit (endsNumber_cons _ (by decide)))
        (skip_of_mark _ (by decide)) (items_compact others last fits rest)

theorem members_compact (members : List (String × Json)) (some_member : members ≠ [])
    (fits : membersFitWords members = true) (rest : List Char) :
    Gives (members? (compactMembers members ++ '}' :: rest)) (some (rereadMembers members)) rest := by
  cases members with
  | nil => exact absurd rfl some_member
  | cons first others =>
    obtain ⟨name, j⟩ := first
    obtain ⟨fit, fits⟩ := Bool.and_eq_true_iff.1 fits
    by_cases last : others = []
    · subst last
      rw [compactMembers, List.append_assoc, List.cons_append]
      exact members_of_last (name_quoted name _)
        (value_compact j fit (endsNumber_cons rest (by decide))) (skip_of_mark rest (by decide))
    · rw [compactMembers_cons name j last, List.append_assoc, List.cons_append, List.append_assoc,
        List.cons_append]
      exact members_of_more (name_quoted name _)
        (value_compact j fit (endsNumber_cons _ (by decide))) (skip_of_mark _ (by decide))
        (members_compact others last fits rest)
end

theorem parse_of_value {s : String} {j : Json} (whole : Gives (value? s.toList) j []) :
    parse? s = some j := by
  obtain ⟨shorter, read⟩ := whole
  unfold parse?
  rw [read]
  rfl

/- What is written compactly is one complete document. -/
theorem parse_render {j : Json} (fits : j.fitsWords = true) : parse? j.render = some j.reread := by
  apply parse_of_value
  have written := value_compact j fits endsNumber_nil
  rw [List.append_nil] at written
  rw [render, String.toList_ofList]
  exact written

end ChatStory.Json
