import ChatStory.Assignment

/-!
The operand of an assignment. Blanks around a literal do not count, so that what the literal stands for
depends on its operand alone, and a closing parenthesis in the operand is never lost from its value.
-/
namespace ChatStory

namespace Text

variable {c : Char} {cs more : List Char}

theorem dropBlank_cons (seen : isBlank c = false) (cs : List Char) : dropBlank (c :: cs) = c :: cs :=
  List.dropWhile_cons_of_neg (Bool.eq_false_iff.1 seen)

theorem dropBlank_append_cons (seen : isBlank c = false) (cs more : List Char) :
    dropBlank (cs ++ c :: more) = dropBlank cs ++ c :: more := by
  induction cs with
  | nil => exact dropBlank_cons seen more
  | cons d rest ih =>
    rw [dropBlank, dropBlank, List.cons_append, List.dropWhile_cons, List.dropWhile_cons]
    split
    · exact ih
    · rfl

theorem takeBlank_append_cons (seen : isBlank c = false) (cs more : List Char) :
    (cs ++ c :: more).takeWhile isBlank = cs.takeWhile isBlank := by
  induction cs with
  | nil => exact List.takeWhile_cons_of_neg (Bool.eq_false_iff.1 seen)
  | cons d rest ih => rw [List.cons_append, List.takeWhile_cons, List.takeWhile_cons, ih]

theorem dropBlank_append_of_blank (blank : ∀ c ∈ cs, isBlank c = true) (more : List Char) :
    dropBlank (cs ++ more) = dropBlank more :=
  List.dropWhile_append_of_pos blank

theorem blank_of_takeBlank (cs : List Char) : ∀ c ∈ cs.takeWhile isBlank, isBlank c = true :=
  List.all_eq_true.1 List.all_takeWhile

theorem takeBlank_append_dropBlank (cs : List Char) : cs.takeWhile isBlank ++ dropBlank cs = cs :=
  List.takeWhile_append_dropWhile

theorem seen_of_dropBlank (first : dropBlank cs = c :: more) : isBlank c = false := by
  have stops := List.head?_dropWhile_not isBlank cs
  rw [dropBlank] at first
  rw [first] at stops
  simpa using stops

theorem dropBlankEnd_append_of_blank (cs : List Char) (blank : ∀ c ∈ more, isBlank c = true) :
    dropBlankEnd (cs ++ more) = dropBlankEnd cs := by
  rw [dropBlankEnd, List.reverse_append, dropBlank_append_of_blank fun c member =>
    blank c (List.mem_reverse.1 member)]
  rfl

theorem dropBlankEnd_append_cons (seen : isBlank c = false) (cs more : List Char) :
    dropBlankEnd (cs ++ c :: more) = cs ++ c :: dropBlankEnd more := by
  rw [dropBlankEnd, List.reverse_append, List.reverse_cons, List.append_assoc, List.singleton_append,
    dropBlank_append_cons seen, List.reverse_append, List.reverse_cons, List.reverse_reverse,
    List.append_assoc]
  rfl

theorem dropBlankEnd_cons (seen : isBlank c = false) (cs : List Char) :
    dropBlankEnd (c :: cs) = c :: dropBlankEnd cs :=
  dropBlankEnd_append_cons seen [] cs

/- What is dropped at the end is blank. -/
theorem exists_blank_end (cs : List Char) :
    ∃ blanks, cs = dropBlankEnd cs ++ blanks ∧ ∀ c ∈ blanks, isBlank c = true := by
  refine ⟨(cs.reverse.takeWhile isBlank).reverse, ?_, ?_⟩
  · rw [dropBlankEnd, ← List.reverse_append, takeBlank_append_dropBlank, List.reverse_reverse]
  · intro c member
    exact blank_of_takeBlank _ c (List.mem_reverse.1 member)

theorem trim_append_of_blank (blank : ∀ c ∈ cs, isBlank c = true) (more : List Char) :
    trim (cs ++ more) = trim more := by
  rw [trim, dropBlank_append_of_blank blank, trim]

/- A text is what is left of it when it is trimmed, with blanks around it. -/
theorem exists_blanks_around (cs : List Char) : ∃ before after, cs = before ++ (trim cs ++ after) ∧
    (∀ c ∈ before, isBlank c = true) ∧ ∀ c ∈ after, isBlank c = true := by
  obtain ⟨after, parts, blank⟩ := exists_blank_end (dropBlank cs)
  refine ⟨cs.takeWhile isBlank, after, ?_, blank_of_takeBlank cs, blank⟩
  rw [trim, ← parts, takeBlank_append_dropBlank]

theorem mem_trim (seen : isBlank c = false) : c ∈ trim cs ↔ c ∈ cs := by
  obtain ⟨before, after, parts, first, last⟩ := exists_blanks_around cs
  have outside : ∀ {blanks : List Char}, (∀ c ∈ blanks, isBlank c = true) → c ∉ blanks := by
    intro blanks blank member
    rw [blank c member] at seen
    cases seen
  constructor
  · intro inside
    rw [parts]
    exact List.mem_append_right _ (List.mem_append_left _ inside)
  · intro member
    rw [parts, List.mem_append, List.mem_append] at member
    exact (member.resolve_left (outside first)).resolve_right (outside last)

theorem trim_cons (seen : isBlank c = false) (cs : List Char) : trim (c :: cs) = c :: dropBlankEnd cs := by
  rw [trim, dropBlank_cons seen, dropBlankEnd_cons seen]

theorem trim_trim (cs : List Char) : trim (trim cs) = trim cs := by
  cases visible : dropBlank cs with
  | nil =>
    have empty : trim cs = [] := by rw [trim, visible]; rfl
    rw [empty]
    rfl
  | cons c rest =>
    have seen := seen_of_dropBlank visible
    have same : trim cs = c :: dropBlankEnd rest := by rw [trim, visible, dropBlankEnd_cons seen]
    obtain ⟨blanks, parts, blank⟩ := exists_blank_end rest
    have again : dropBlankEnd (dropBlankEnd rest) = dropBlankEnd rest := by
      rw [← dropBlankEnd_append_of_blank (dropBlankEnd rest) blank, ← parts]
    rw [same, trim_cons seen, again]

theorem eq_of_unwrap {quote : Char} {inside : List Char}
    (wrapped : unwrap quote cs = some inside) : cs = quote :: (inside ++ [quote]) := by
  unfold unwrap at wrapped
  split at wrapped
  · cases wrapped
  · rename_i first rest
    split at wrapped
    · rename_i both
      simp only [Bool.and_eq_true, beq_iff_eq] at both
      obtain ⟨front, ends⟩ := List.getLast?_eq_some_iff.1 both.2
      cases wrapped
      rw [both.1, ends, List.dropLast_concat]
    · cases wrapped

theorem mem_quoted {inside : List Char} (quoted : quoted? cs = some inside) (other : c ≠ '"')
    (another : c ≠ '\'') : c ∈ inside ↔ c ∈ cs := by
  rcases Option.or_eq_some_iff.1 quoted with double | ⟨_, single⟩
  · rw [eq_of_unwrap double]
    simp [other]
  · rw [eq_of_unwrap single]
    simp [another]

end Text

namespace Decimal

variable {cs : List Char}

theorem close_in_splitSign (member : ')' ∈ cs) : ')' ∈ (splitSign cs).2 := by
  unfold splitSign
  split
  · exact (List.mem_cons.1 member).resolve_left (by decide)
  · exact (List.mem_cons.1 member).resolve_left (by decide)
  · exact member

theorem close_in_splitDigits (member : ')' ∈ cs) : ')' ∈ (splitDigits cs).2 := by
  rw [← List.takeWhile_append_dropWhile (p := Char.isDigit) (l := cs), List.mem_append] at member
  refine member.resolve_left fun digit => ?_
  exact absurd (List.all_eq_true.1 List.all_takeWhile _ digit) (by decide)

theorem exponent?_of_close (member : ')' ∈ cs) : exponent? cs = none := by
  cases cs with
  | nil => cases member
  | cons c rest =>
    rcases List.mem_cons.1 member with rfl | later
    · rfl
    · have left := List.ne_nil_of_mem (close_in_splitDigits (close_in_splitSign later))
      simp [exponent?, left]

theorem magnitude?_of_close (member : ')' ∈ cs) : magnitude? cs = none := by
  have other : ∀ word : List Char, ')' ∉ word → Text.lower cs ≠ word := by
    intro word absent same
    have lowered : ')' ∈ Text.lower cs := List.mem_map_of_mem (f := Char.toLower) member
    exact absent (same ▸ lowered)
  have noWord : ¬(Text.lower cs = "inf".toList ∨ Text.lower cs = "infinity".toList) := by
    rintro (same | same)
    · exact other _ (by decide) same
    · exact other _ (by decide) same
  have rest := close_in_splitDigits member
  unfold magnitude?
  dsimp only
  rw [if_neg noWord, if_neg (other _ (by decide)), ite_eq_left_iff]
  intro _
  refine Option.map_eq_none_iff.2 (exponent?_of_close ?_)
  split
  · rename_i fraction point
    rw [point] at rest
    exact close_in_splitDigits ((List.mem_cons.1 rest).resolve_left (by decide))
  · exact rest

/- A text with a closing parenthesis is no number. -/
theorem float?_of_close (member : ')' ∈ cs) : float? cs = none := by
  exact Option.map_eq_none_iff.2 (magnitude?_of_close (close_in_splitSign member))

end Decimal

namespace Value

variable {source other : List Char}

theorem ofLiteral_congr (same : Text.trim source = Text.trim other) :
    ofLiteral source = ofLiteral other := by
  rw [ofLiteral, ofLiteral, same]

theorem seen_close : Text.isBlank ')' = false := by decide

/- A literal with a closing parenthesis stands for a text that has one. -/
theorem ofLiteral_of_close (member : ')' ∈ source) :
    ∃ cs, ofLiteral source = text (String.ofList cs) ∧ ')' ∈ cs := by
  have inside := (Text.mem_trim seen_close).2 member
  have plain : ∀ word : List Char, ')' ∉ word → Text.trim source ≠ word :=
    fun word absent same => absent (same ▸ inside)
  refine ⟨(Text.quoted? (Text.trim source)).getD (Text.trim source), ?_, ?_⟩
  · rw [ofLiteral, if_neg (plain _ (by decide)), if_neg (plain _ (by decide)),
      Decimal.float?_of_close inside]
    rfl
  · cases quoted : Text.quoted? (Text.trim source) with
    | none => exact inside
    | some text => exact (Text.mem_quoted quoted (by decide) (by decide)).2 inside

/- A literal without one does not. -/
theorem close_of_ofLiteral {cs : List Char} (same : ofLiteral source = text (String.ofList cs))
    (member : ')' ∈ cs) : ')' ∈ source := by
  rw [← Text.mem_trim seen_close]
  unfold ofLiteral at same
  dsimp only at same
  split at same
  · cases same
  · split at same
    · cases same
    · split at same
      · cases same
      · have same := String.ofList_injective (Value.text.inj same)
        rw [← same] at member
        cases quoted : Text.quoted? (Text.trim source) with
        | none =>
          rw [quoted] at member
          exact member
        | some text =>
          rw [quoted] at member
          exact (Text.mem_quoted quoted (by decide) (by decide)).1 member

theorem ofLiteral_ne (member : ')' ∈ source) (absent : ')' ∉ other) :
    ofLiteral source ≠ ofLiteral other := by
  obtain ⟨cs, same, inside⟩ := ofLiteral_of_close member
  intro equal
  exact absent (close_of_ofLiteral (equal.symm.trans same) inside)

end Value
end ChatStory
