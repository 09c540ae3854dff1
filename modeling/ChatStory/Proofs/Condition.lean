import ChatStory.Proofs.Action.DelaySearch
import ChatStory.Proofs.Literals
import ChatStory.Proofs.SetMacro

/-!
Conditions in writing. The text of a condition is read as that condition again: what a literal is read as does
not depend on the quotes in it, since its text stands in quotes of its own, and a negation is not taken for a
literal. A number must come back from its text, and a zero comes back without its sign.
-/
namespace ChatStory

open Text

namespace Decimal

/-- The double is read from the text that shows it as itself. -/
def readsBack (x : Float) : Prop := float? (plain.text x).toList = some x

instance : DecidablePred readsBack := fun x =>
  inferInstanceAs (Decidable (float? (plain.text x).toList = some x))

/-- What a number in plain layout is written with. -/
def isFigure (c : Char) : Bool := c.isDigit || c == '-' || c == '.'

theorem figures_of_positional {ds : List Char} (digits : ∀ c ∈ ds, c.isDigit = true) (point : Int) :
    ∀ c ∈ positionalText false ds point, isFigure c = true := by
  have figure : ∀ {c : Char}, c.isDigit = true → isFigure c = true := by
    intro c digit
    rw [isFigure, digit, Bool.true_or, Bool.true_or]
  have zero := fun n c member => figure (digits_zeros n c member)
  have digits := fun c member => figure (digits c member)
  have sign : isFigure '.' = true := rfl
  unfold positionalText
  split
  · exact List.forall_mem_cons.2 ⟨rfl, List.forall_mem_cons.2 ⟨sign,
      List.forall_mem_append.2 ⟨zero _, digits⟩⟩⟩
  · split
    · exact List.forall_mem_append.2 ⟨fun c member => digits c (List.mem_of_mem_take member),
        List.forall_mem_cons.2 ⟨sign, fun c member => digits c (List.mem_of_mem_drop member)⟩⟩
    · exact List.forall_mem_append.2 ⟨List.forall_mem_append.2 ⟨digits, zero _⟩, List.forall_mem_nil _⟩

theorem figures_of_plain {x : Float} (finite : x.isFinite = true) :
    ∀ c ∈ (plain.text x).toList, isFigure c = true := by
  have body : ∀ c ∈ plain.magnitudeText (.ofBits x.toBits), isFigure c = true := by
    unfold Layout.magnitudeText
    split
    · exact List.forall_mem_singleton.2 rfl
    · exact figures_of_positional (digits_of_toDigits _) _
  have ordered : x.isNaN = false := Bool.eq_false_iff.2 fun unordered => by
    rw [Json.isFinite_of_isNaN unordered] at finite
    cases finite
  rw [Layout.text, ordered, if_neg (by decide), finite]
  dsimp only
  rw [if_pos rfl, String.toList_ofList]
  split
  · exact List.forall_mem_cons.2 ⟨rfl, body⟩
  · exact body

theorem same_of_isFinite {x : Float} (finite : x.isFinite = true) : (x == x) = true := by
  change x.toModel.unpack.isFinite = true at finite
  change x.toModel.unpack.beq x.toModel.unpack = true
  cases shape : x.toModel.unpack with
  | notANumber =>
    rw [shape] at finite
    cases finite
  | infinity s =>
    rw [shape] at finite
    cases finite
  | zero s => rfl
  | finite s m e positive => cases s <;> simp [Float.Model.UnpackedFloat.beq, Float.Model.UnpackedFloat.compare]

theorem seen_of_figure {c : Char} (figure : isFigure c = true) : isBlank c = false := by
  refine Bool.eq_false_iff.2 fun blank => ?_
  have apart : ∀ c ∈ blankChars, isFigure c = false := List.all_iff_forall_prop.1 (by decide +kernel)
  rw [apart c (mem_blankChars blank)] at figure
  cases figure

/- A figure has one case, and is no letter of a keyword. -/
theorem no_key_of_figure {c : Char} (figure : isFigure c = true) : isKeyLetter 'n' c = false := by
  have small : ¬c.isUpper = true := by
    intro upper
    rw [isFigure, Bool.or_eq_true, Bool.or_eq_true, beq_iff_eq, beq_iff_eq] at figure
    rcases figure with (digit | rfl) | rfl
    · simp only [Char.isDigit, Char.isUpper, ge_iff_le, UInt32.le_iff_toNat_le, Bool.and_eq_true,
        decide_eq_true_eq] at digit upper
      exact absurd (upper.1.trans digit.2) (by decide)
    · cases upper
    · cases upper
  refine Bool.eq_false_iff.2 fun letter => ?_
  rw [isKeyLetter, Char.toLower_eq_of_not_isUpper small, Bool.or_eq_true, beq_iff_eq] at letter
  rcases letter with rfl | other
  · cases figure
  · cases other

theorem float?_of_quoted (quote : Char) (cs : List Char) (marked : Params.isQuote quote = true) :
    float? (quote :: cs) = none := by
  rcases Action.mark_cases marked with rfl | rfl <;> rfl

end Decimal

namespace Value

/-- How the value is written in a condition: a text in double quotes, all else as it is shown. -/
def spelled : Value → List Char
  | text s => '"' :: (s.toList ++ ['"'])
  | v => v.display.toList

/- What stands in double quotes is read as a text, whatever it is. -/
theorem ofLiteral_spelled_text (s : String) : ofLiteral (text s).spelled = text s := by
  have whole : trim (text s).spelled = (text s).spelled := by
    refine trim_of_seen ?_ ?_
    · rintro c first
      cases first
      decide
    · intro c last
      have ends : (text s).spelled = ('"' :: s.toList) ++ ['"'] := rfl
      rw [ends, List.getLast?_concat] at last
      cases last
      decide
  have inside : quoted? (text s).spelled = some s.toList := by
    rw [quoted?, spelled, unwrap_quote, Option.some_or]
  have other : ∀ word : List Char, word.head? ≠ some '"' → (text s).spelled ≠ word := by
    rintro word other rfl
    exact other rfl
  rw [ofLiteral, whole, if_neg (other _ (by decide)), if_neg (other _ (by decide)), inside]
  have none : Decimal.float? (text s).spelled = none := Decimal.float?_of_quoted '"' _ rfl
  rw [none, Option.getD_some, String.ofList_toList]
  rfl

theorem same_self_of_isFinite {v : Value} (finite : v.isFinite = true) : v.same v = true := by
  cases v with
  | bool b => exact beq_self_eq_true b
  | number x => exact Decimal.same_of_isFinite finite
  | text s => exact beq_self_eq_true s

theorem ofLiteral_spelled_number {x : Float} (finite : x.isFinite = true) (sized : (x == 0) = false)
    (back : Decimal.readsBack x) : ofLiteral (number x).spelled = number x := by
  have shown : (number x).spelled = (Decimal.plain.text x).toList := by
    change (if x == 0 then "0" else Decimal.plain.text x).toList = _
    rw [sized, if_neg (by decide)]
  have figures := Decimal.figures_of_plain finite
  have whole : trim (Decimal.plain.text x).toList = (Decimal.plain.text x).toList :=
    trim_of_seen (fun c first => Decimal.seen_of_figure (figures c (List.mem_of_mem_head? first)))
      (fun c last => Decimal.seen_of_figure (figures c (List.mem_of_getLast? last)))
  have other : ∀ word : List Char, word.all Decimal.isFigure = false →
      (Decimal.plain.text x).toList ≠ word := by
    rintro _ other rfl
    rw [List.all_eq_true.2 figures] at other
    cases other
  rw [ofLiteral, shown, whole, if_neg (other _ (by decide)), if_neg (other _ (by decide)), back,
    Option.filter_some, if_pos finite]

/- A value is read from what is written for it, a zero without its sign. -/
theorem same_ofLiteral_spelled {v : Value} (finite : v.isFinite = true)
    (back : ∀ x, v = number x → Decimal.readsBack x) : v.same (ofLiteral v.spelled) = true := by
  cases v with
  | bool b => cases b <;> decide +kernel
  | text s =>
    rw [ofLiteral_spelled_text]
    exact same_self_of_isFinite finite
  | number x =>
    cases zero : x == 0 with
    | true =>
      have shown : (number x).spelled = "0".toList := by
        change (if x == 0 then "0" else Decimal.plain.text x).toList = _
        rw [zero, if_pos rfl]
      have read : ofLiteral "0".toList = number 0 := by decide +kernel
      rw [shown, read]
      exact zero
    | false =>
      rw [ofLiteral_spelled_number finite zero (back x rfl)]
      exact same_self_of_isFinite finite

/- What is written for a value is not taken for a negation. -/
theorem exists_spelled {v : Value} (finite : v.isFinite = true)
    (back : ∀ x, v = number x → Decimal.readsBack x) :
    ∃ c rest, v.spelled = c :: rest ∧ isBlank c = false ∧ isKeyLetter 'n' c = false := by
  cases v with
  | bool b => cases b <;> exact ⟨_, _, rfl, by decide, by decide⟩
  | text s => exact ⟨_, _, rfl, by decide, by decide⟩
  | number x =>
    have shown : (number x).spelled = (if x == 0 then "0" else Decimal.plain.text x).toList := rfl
    rw [shown]
    split
    · exact ⟨'0', [], rfl, by decide, by decide⟩
    · have figures := Decimal.figures_of_plain finite
      cases written : (Decimal.plain.text x).toList with
      | nil =>
        have back := back x rfl
        rw [Decimal.readsBack, written] at back
        cases back
      | cons c rest =>
        have figure := figures c (by rw [written]; exact List.mem_cons_self)
        exact ⟨c, rest, rfl, Decimal.seen_of_figure figure, Decimal.no_key_of_figure figure⟩

end Value

theorem variableName?_of_words {name : List Char} (named : name ≠ []) (words : ∀ c ∈ name, isWord c = true)
    {rest : List Char} (stops : ∀ c, rest.head? = some c → isWord c = false) :
    variableName? ('$' :: (name ++ rest)) = some (String.ofList name, rest) := by
  have span : (name ++ rest).takeWhile isWord = name ∧ (name ++ rest).dropWhile isWord = rest := by
    cases rest with
    | nil =>
      rw [List.append_nil]
      exact ⟨List.takeWhile_eq_self_iff.2 words, List.dropWhile_eq_nil_iff.2 words⟩
    | cons c more => exact span_of_stop words (stops c rfl) more
  rw [variableName?, dropBlank_cons (by decide)]
  change (if ((name ++ rest).takeWhile isWord).isEmpty = true then none
    else some (_, (name ++ rest).dropWhile isWord)) = _
  rw [span.1, span.2, if_neg (by rwa [List.isEmpty_iff])]

theorem name_of_variableName? {cs rest : List Char} {name : String}
    (read : variableName? cs = some (name, rest)) :
    name.toList ≠ [] ∧ ∀ c ∈ name.toList, isWord c = true := by
  unfold variableName? at read
  split at read
  · dsimp only at read
    split at read
    · cases read
    · rename_i named
      cases read
      rw [String.toList_ofList]
      exact ⟨fun none => named (List.isEmpty_iff.2 none), List.all_eq_true.1 List.all_takeWhile⟩
  · cases read

namespace Condition

/-- What a condition has that was read from some text. -/
structure Legible (c : Condition) : Prop where
  named : c.name.toList ≠ []
  words : ∀ d ∈ c.name.toList, isWord d = true
  /-- Only what equals something can be negated. -/
  affirmed : c.expected = none → c.negated = false
  finite : ∀ v, c.expected = some v → v.isFinite = true

theorem legible_of_read {source : List Char} {c : Condition} (read : read? source = some c) : c.Legible := by
  obtain ⟨⟨name, rest⟩, found, read⟩ := Option.bind_eq_some_iff.1 read
  obtain ⟨named, words⟩ := name_of_variableName? found
  change (if isBlankText rest = true then _ else _) = _ at read
  split at read
  · cases read
    exact ⟨named, words, fun _ => rfl, nofun⟩
  · obtain ⟨after, _, read⟩ := Option.bind_eq_some_iff.1 read
    obtain ⟨after, _, read⟩ := Option.bind_eq_some_iff.1 read
    dsimp only at read
    split at read
    · rename_i v negation
      cases read
      obtain ⟨_, _, negation⟩ := Option.bind_eq_some_iff.1 negation
      obtain ⟨_, _, literal⟩ := Option.bind_eq_some_iff.1 negation
      exact ⟨named, words, nofun, fun _ same => by cases same; exact isFinite_of_literal literal⟩
    · obtain ⟨v, literal, same⟩ := Option.bind_eq_some_iff.1 read
      cases same
      exact ⟨named, words, nofun, fun _ same => by cases same; exact isFinite_of_literal literal⟩

/-- The conditions are the same, up to the sign of a zero. -/
structure Agrees (c d : Condition) : Prop where
  name : c.name = d.name
  negated : c.negated = d.negated
  expected : Option.Rel (fun v w => v.same w = true) c.expected d.expected

section Written

variable {name : String} (named : name.toList ≠ []) (words : ∀ c ∈ name.toList, isWord c = true)
include named words

theorem read_name : read? ('$' :: name.toList) = some ⟨name, false, none⟩ := by
  have found := @variableName?_of_words _ named words [] nofun
  rw [List.append_nil, String.ofList_toList] at found
  change ((variableName? _).bind _) = _
  rw [found]
  rfl

/- What is read behind the word `is`: a negation with its literal, and else a literal. -/
theorem read_is (rest : List Char) : read? ('$' :: (name.toList ++ " is".toList ++ rest)) =
    match ((afterBlanks rest).bind (afterKeyword "not".toList)).bind literal? with
    | some v => some ⟨name, true, some v⟩
    | none => (literal? rest).map fun v => ⟨name, false, some v⟩ := by
  have blank : ∀ c, (" is".toList ++ rest).head? = some c → isWord c = false := by
    rintro c first
    cases first
    decide +kernel
  have found := variableName?_of_words named words blank
  rw [String.ofList_toList, ← List.append_assoc] at found
  have shows : isBlankText (" is".toList ++ rest) = false := rfl
  have keyed : (afterBlanks (" is".toList ++ rest)).bind (afterKeyword "is".toList) = some rest := rfl
  change ((variableName? _).bind _) = _
  rw [found, Option.bind_some, Option.bind_assoc]
  dsimp only
  rw [shows, if_neg (by decide)]
  change ((afterBlanks (" is".toList ++ rest)).bind fun after => (afterKeyword "is".toList after).bind _) = _
  rw [← Option.bind_assoc, keyed, Option.bind_some]
  cases literal? rest <;> rfl

/- A value is read from what is written for it behind `is` and behind `is not`. -/
theorem read_value {v : Value} (finite : v.isFinite = true) (back : ∀ x, v = .number x → Decimal.readsBack x)
    (negated : Bool) : read? ('$' :: (name.toList ++ " is".toList ++
      ((if negated then " not".toList else []) ++ ' ' :: v.spelled))) =
        some ⟨name, negated, some (.ofLiteral v.spelled)⟩ := by
  obtain ⟨c, rest, spelled, seen, letter⟩ := v.exists_spelled finite back
  have literal : literal? (' ' :: v.spelled) = some (.ofLiteral v.spelled) := by
    rw [spelled]
    rfl
  rw [read_is named words]
  cases negated with
  | true =>
    have keyed : (afterBlanks (" not".toList ++ ' ' :: v.spelled)).bind (afterKeyword "not".toList) =
        some (' ' :: v.spelled) := rfl
    rw [if_pos rfl, keyed, Option.bind_some, literal]
  | false =>
    have bare : afterBlanks (' ' :: v.spelled) = some v.spelled := by
      rw [spelled]
      exact congrArg some (dropBlank_cons seen rest)
    have other : afterKeyword "not".toList v.spelled = none := by
      rw [spelled]
      exact if_neg (Bool.eq_false_iff.1 letter)
    rw [if_neg (by decide), List.nil_append, bare, Option.bind_some, other, literal]
    rfl

end Written

theorem display_of_none {c : Condition} (bare : c.expected = none) : c.display.toList = '$' :: c.name.toList := by
  rw [display, bare]
  simp

theorem display_of_some {c : Condition} {v : Value} (valued : c.expected = some v) :
    c.display.toList = '$' :: (c.name.toList ++ " is".toList ++
      ((if c.negated then " not".toList else []) ++ ' ' :: v.spelled)) := by
  rw [display, valued]
  cases v <;> cases c.negated <;> simp [Value.spelled]

/- The text of a condition that was read from some text is read as that condition again. -/
theorem reread_display {source : List Char} {c : Condition} (read : read? source = some c)
    (back : ∀ x, c.expected = some (.number x) → Decimal.readsBack x) :
    ∃ again, read? c.display.toList = some again ∧ c.Agrees again := by
  have legible := legible_of_read read
  cases expected : c.expected with
  | none =>
    have again := read_name legible.named legible.words
    rw [← display_of_none expected] at again
    refine ⟨_, again, rfl, legible.affirmed expected, ?_⟩
    rw [expected]
    exact .none
  | some v =>
    have finite := legible.finite v expected
    have back : ∀ x, v = .number x → Decimal.readsBack x := fun x same => back x (same ▸ expected)
    have again := read_value legible.named legible.words finite back c.negated
    rw [← display_of_some expected] at again
    refine ⟨_, again, rfl, rfl, ?_⟩
    rw [expected]
    exact .some (v.same_ofLiteral_spelled finite back)

theorem reread_display_of_fraction :
    read? " $Höhe\nIS  not -0.50 ".toList = some ⟨"Höhe", true, some (.number (-0.5))⟩ ∧
      ∃ again, read? (display ⟨"Höhe", true, some (.number (-0.5))⟩).toList = some again ∧
        Agrees ⟨"Höhe", true, some (.number (-0.5))⟩ again := by
  have read : read? " $Höhe\nIS  not -0.50 ".toList = some ⟨"Höhe", true, some (.number (-0.5))⟩ := by
    decide +kernel
  refine ⟨read, reread_display read ?_⟩
  rintro x ⟨⟩
  decide +kernel

end Condition

end ChatStory
