import ChatStory.Proofs.Evaluation
import ChatStory.Proofs.SetMacro
import Mathlib.Data.List.Basic

/-!
Two passes over one text. A body is taken apart span by span, and the survey looks through the same text
for set macros. Each of them has its places, which are what is left of the text where it looks. The
survey reads an assignment of the body exactly if the macro is written plainly and nothing that the survey
has read before reaches beyond the place where the macro stands.
-/
namespace ChatStory

open Markup Text

namespace Assignment

variable {cs rest : List Char} {found : Option Assignment}

theorem suffix_of_operand? {taken : List Char × List Char} (read : operand? cs = some taken) :
    taken.2 <:+ cs := by
  have quoted : ∀ {quote}, quotedOperand? quote cs = some taken → taken.2 <:+ cs := by
    intro quote read
    obtain ⟨text, blanks, _, _, parts⟩ := quotedOperand?_cases read
    refine ⟨quote :: (text ++ quote :: (blanks ++ [')'])), ?_⟩
    rw [parts]
    simp
  rcases Option.or_eq_some_iff.1 read with double | ⟨_, read⟩
  · exact quoted double
  rcases Option.or_eq_some_iff.1 read with single | ⟨_, bare⟩
  · exact quoted single
  unfold bareOperand? at bare
  split at bare
  · rename_i c rest ends
    have whole := List.dropWhile_suffix (· != ')') (l := cs)
    rw [ends] at whole
    cases bare
    exact (List.suffix_cons _ _).trans whole
  · cases bare

/- A set macro is read from its parenthesis on, so that less is left. -/
theorem macroAt?_cases (read : macroAt? cs = some (found, rest)) :
    ∃ others, cs = '(' :: others ∧ rest <:+ others := by
  unfold macroAt? at read
  split at read
  · rename_i others
    refine ⟨others, rfl, ?_⟩
    obtain ⟨body, keyed, read⟩ := Option.bind_eq_some_iff.1 read
    obtain ⟨⟨name, behind⟩, aimed, read⟩ := Option.bind_eq_some_iff.1 read
    obtain ⟨operand, blanks, read⟩ := Option.bind_eq_some_iff.1 read
    obtain ⟨⟨source, _⟩, taken, read⟩ := Option.bind_eq_some_iff.1 read
    cases read
    obtain ⟨key, keyParts, _⟩ := afterKeyword_cases keyed
    obtain ⟨front, bodyParts, _⟩ := target?_cases aimed
    have final : rest <:+ operand := suffix_of_operand? taken
    have fourth : operand <:+ behind := (afterBlanks_cases blanks).2 ▸ List.dropWhile_suffix _
    have third : behind <:+ body := ⟨front, bodyParts.symm⟩
    have second : body <:+ dropBlank others := ⟨key, keyParts.symm⟩
    exact final.trans (fourth.trans (third.trans (second.trans (List.dropWhile_suffix _))))
  · cases read

/-- What is left of a text when the survey has looked for a set macro at its start. -/
def onward (text : List Char) : List Char :=
  match macroAt? text with
  | some (_, rest) => rest
  | none => text.tail

theorem onward_suffix (c : Char) (cs : List Char) : onward (c :: cs) <:+ cs := by
  unfold onward
  split
  · rename_i read
    obtain ⟨others, parts, shorter⟩ := macroAt?_cases read
    rwa [(List.cons.inj parts).2]
  · exact List.suffix_rfl

/-- What is left of a text wherever the survey looks for a set macro. -/
def places : List Char → List (List Char)
  | [] => []
  | c :: cs => (c :: cs) :: places (onward (c :: cs))
termination_by cs => cs.length
decreasing_by exact Nat.lt_succ_of_le (onward_suffix c cs).length_le

/-- What the survey finds at a place. -/
def found? (place : List Char) : Option Assignment := (macroAt? place).bind (·.1)

theorem survey_eq (cs : List Char) : survey cs = (places cs).filterMap found? := by
  fun_induction survey cs with
  | case1 => rw [places, List.filterMap_nil]
  | case2 c cs found rest read _ ih =>
    have here : found? (c :: cs) = found := by rw [found?, read]; rfl
    have next : onward (c :: cs) = rest := by rw [onward, read]
    rw [places, List.filterMap_cons, here, next, ih]
    cases found <;> rfl
  | case3 c cs found rest read longer =>
    obtain ⟨others, parts, shorter⟩ := macroAt?_cases read
    rw [parts] at longer
    exact absurd (Nat.lt_succ_of_le shorter.length_le) longer
  | case4 c cs none ih =>
    have here : found? (c :: cs) = Option.none := by rw [found?, none]; rfl
    have next : onward (c :: cs) = cs := by rw [onward, none]; rfl
    rw [places, List.filterMap_cons, here, next, ih]

theorem suffix_of_places {text place : List Char} (member : place ∈ places text) : place <:+ text := by
  fun_induction places text with
  | case1 => cases member
  | case2 c cs ih =>
    rcases List.mem_cons.1 member with rfl | later
    · exact List.suffix_rfl
    · exact (ih later).trans ((onward_suffix c cs).trans (List.suffix_cons c cs))

theorem mem_places_self {text : List Char} (left : text ≠ []) : text ∈ places text := by
  cases text with
  | nil => exact absurd rfl left
  | cons c cs =>
    rw [places]
    exact List.mem_cons_self

/-- A macro that the survey reads before a place ends behind it. -/
def Overrun (text place : List Char) : Prop :=
  ∃ front ∈ places text, ∃ found rest, macroAt? front = some (found, rest) ∧
    rest.length < place.length ∧ place.length < front.length

theorem overrun_cons {c : Char} {cs place : List Char} : Overrun (c :: cs) place ↔
    (∃ found rest, macroAt? (c :: cs) = some (found, rest) ∧ rest.length < place.length ∧
      place.length < (c :: cs).length) ∨ Overrun (onward (c :: cs)) place := by
  unfold Overrun
  rw [places]
  simp only [List.mem_cons, or_and_right, exists_or, exists_eq_left]

/- The survey looks at a place unless it has read over it. -/
theorem mem_places_iff {text place : List Char} (suffix : place <:+ text) (left : place ≠ []) :
    place ∈ places text ↔ ¬Overrun text place := by
  fun_induction places text with
  | case1 => exact absurd (List.suffix_nil.1 suffix) left
  | case2 c cs ih =>
    rw [List.mem_cons]
    rcases List.suffix_cons_iff.1 suffix with rfl | suffix
    · refine ⟨fun _ => ?_, fun _ => .inl rfl⟩
      rintro ⟨front, member, _, _, _, _, longer⟩
      exact absurd (suffix_of_places member).length_le (Nat.not_le.2 longer)
    have other : place ≠ c :: cs := by
      rintro rfl
      exact absurd suffix.length_le (Nat.not_succ_le_self _)
    rw [or_iff_right other]
    by_cases within : place.length ≤ (onward (c :: cs)).length
    · have inside := List.suffix_of_suffix_length_le suffix (onward_suffix c cs) within
      refine (ih inside).trans (not_congr ?_)
      rw [overrun_cons]
      refine ⟨.inr, fun overrun => overrun.resolve_left ?_⟩
      rintro ⟨found, rest, read, shorter, _⟩
      rw [onward, read] at within
      exact absurd within (Nat.not_le.2 shorter)
    · refine iff_of_false (fun member => within (suffix_of_places member).length_le) ?_
      rw [Classical.not_not, overrun_cons]
      left
      unfold onward at within
      split at within
      · rename_i found rest read
        exact ⟨found, rest, read, Nat.not_le.1 within, Nat.lt_succ_of_le suffix.length_le⟩
      · exact absurd suffix.length_le within

end Assignment

namespace Markup

/-- What is left of a body wherever one of its spans starts. -/
def places : List Char → List (List Char)
  | [] => []
  | c :: cs => (c :: cs) :: places (cs.drop (firstSpan c cs).more)
termination_by cs => cs.length
decreasing_by simp only [List.length_cons, List.length_drop]; omega

def Piece.assignment? : Piece → Option Assignment
  | .markup fragment => fragment.assignment?
  | _ => none

/-- What a body assigns at a place. -/
def assigned? : List Char → Option Assignment
  | [] => none
  | c :: cs => (firstSpan c cs).piece.assignment?

theorem spans_assignments (cs : List Char) :
    (spans cs).filterMap (·.piece.assignment?) = (places cs).filterMap assigned? := by
  fun_induction spans cs with
  | case1 => rw [places, List.filterMap_nil, List.filterMap_nil]
  | case2 c cs first ih =>
    rw [places, List.filterMap_cons, List.filterMap_cons, ih]
    rfl

/- The assignments of a body are those of its spans. -/
theorem fragments_assignments (letters : List Char) (all : List Span) :
    (fragmentsFrom letters all).filterMap Fragment.assignment? = all.filterMap (·.piece.assignment?) := by
  have pieces : ∀ piece : Piece,
      piece.told (·.assignment?.toList) (fun _ => []) = piece.assignment?.toList := fun piece => by
    cases piece <;> rfl
  rw [List.filterMap_eq_flatMap_toList, List.filterMap_eq_flatMap_toList,
    fragments_told_markup _ fun _ => rfl]
  simp only [pieces]

theorem mem_places_self {text : List Char} (left : text ≠ []) : text ∈ places text := by
  cases text with
  | nil => exact absurd rfl left
  | cons c cs =>
    rw [places]
    exact List.mem_cons_self

theorem suffix_of_place {text place : List Char} (member : place ∈ places text) : place <:+ text := by
  fun_induction places text with
  | case1 => cases member
  | case2 c cs ih =>
    rcases List.mem_cons.1 member with rfl | later
    · exact List.suffix_rfl
    · exact (ih later).trans ((List.drop_suffix _ cs).trans (List.suffix_cons c cs))

theorem assign_of_assignment? {piece : Piece} {a : Assignment} (assigns : piece.assignment? = some a) :
    piece = .markup (.assign a.name a.value) := by
  unfold Piece.assignment? at assigns
  split at assigns
  · unfold Fragment.assignment? at assigns
    split at assigns
    · cases assigns
      rfl
    · cases assigns
  · cases assigns

/- A body assigns where a set macro stands. -/
theorem macro_of_assigned? {place : List Char} {a : Assignment} (assigns : assigned? place = some a) :
    ∃ inside after, place = '(' :: (inside ++ ')' :: after) ∧
      round.inside? (inside ++ ')' :: after) = some inside ∧
      (macroSpan inside).piece = .markup (.assign a.name a.value) := by
  cases place with
  | nil => cases assigns
  | cons c cs =>
    have set := assign_of_assignment? assigns
    unfold firstSpan at set
    split at set
    · cases set
    · cases set
    · unfold linkSpan at set
      split at set <;> cases set
    · cases found : round.inside? cs with
      | none =>
        rw [found] at set
        cases set
      | some inside =>
        rw [found] at set
        obtain ⟨after, rfl⟩ := Bracket.eq_append found
        exact ⟨inside, after, rfl, found, set⟩
    · cases found : actionInside? c cs with
      | none =>
        rw [found] at set
        cases set
      | some inside =>
        rw [found] at set
        change (actionSpan inside).piece = _ at set
        unfold actionSpan at set
        dsimp only at set
        split at set <;> cases set

/-- A place with a set macro that is written plainly. -/
def PlainAt (place : List Char) : Prop :=
  ∃ inside after, place = '(' :: (inside ++ ')' :: after) ∧
    round.inside? (inside ++ ')' :: after) = some inside ∧ Plain inside

end Markup

/- The survey looks for a set macro that a body has at a place, and finds the same one there, exactly if
the macro is written plainly and nothing that it has read reaches beyond the place. -/
theorem found_iff {text place : List Char} {a : Assignment} (suffix : place <:+ text)
    (assigns : assigned? place = some a) :
    (place ∈ Assignment.places text ∧ Assignment.found? place = some a) ↔
      PlainAt place ∧ ¬Assignment.Overrun text place := by
  obtain ⟨inside, after, rfl, found, set⟩ := macro_of_assigned? assigns
  rw [Assignment.mem_places_iff suffix (List.cons_ne_nil _ _), and_comm]
  refine and_congr_left fun _ => ?_
  have same : ∀ {inside' after' : List Char}, '(' :: (inside ++ ')' :: after) = '(' :: (inside' ++ ')' :: after') →
      round.inside? (inside' ++ ')' :: after') = some inside' → inside = inside' := by
    intro inside' after' parts found'
    rw [← (List.cons.inj parts).2, found] at found'
    exact Option.some.inj found'
  rcases Assignment.macroAt?_of_set found set with ⟨plain, read⟩ | ⟨bare, read⟩
  · refine iff_of_true ?_ ⟨inside, after, rfl, found, plain⟩
    rw [Assignment.found?, read]
    rfl
  · refine iff_of_false ?_ ?_
    · intro finds
      obtain ⟨⟨_, left⟩, reads, rfl⟩ := Option.bind_eq_some_iff.1 finds
      exact read left reads
    · rintro ⟨inside', after', parts, found', plain⟩
      rw [same parts found'] at bare
      exact bare plain

theorem Variables.contains_surveyed {content : String} {a : Assignment}
    (member : a ∈ Assignment.survey content.toList) : (surveyed content).contains a.name = true := by
  rw [surveyed, Table.ofList, Table.contains_insertMany]
  exact .inl ⟨(a.name, a.value), List.mem_map_of_mem member, rfl⟩

/- The assignments of a body are what it assigns at its places, and those of the survey what it finds at
its own. Of the first, the survey finds the very same at the very place exactly if the macro is written
plainly there and no macro that the survey has read before reaches beyond the place; and then the variable
has a value from the start. -/
theorem surveyed_iff (content : String) (line : Nat) :
    (Body.read content line).fragments.filterMap Fragment.assignment? =
        (Markup.places content.toList).filterMap assigned? ∧
      Assignment.survey content.toList =
        (Assignment.places content.toList).filterMap Assignment.found? ∧
      ∀ place ∈ Markup.places content.toList, ∀ a, assigned? place = some a →
        ((place ∈ Assignment.places content.toList ∧ Assignment.found? place = some a) ↔
          PlainAt place ∧ ¬Assignment.Overrun content.toList place) ∧
        (PlainAt place ∧ ¬Assignment.Overrun content.toList place →
          a ∈ Assignment.survey content.toList ∧ (Variables.surveyed content).contains a.name = true) := by
  refine ⟨?_, Assignment.survey_eq content.toList, ?_⟩
  · exact (fragments_assignments [] (spans content.toList)).trans (spans_assignments content.toList)
  · intro place member a assigns
    have read := found_iff (suffix_of_place member) assigns
    refine ⟨read, fun plain => ?_⟩
    obtain ⟨looked, finds⟩ := read.2 plain
    have listed : a ∈ Assignment.survey content.toList := by
      rw [Assignment.survey_eq]
      exact List.mem_filterMap.2 ⟨place, looked, finds⟩
    exact ⟨listed, Variables.contains_surveyed listed⟩

/- A parenthesis within quotes is read by both. -/
theorem surveyed_iff_quoted :
    ⟨"mood", .text "fine (ish)"⟩ ∈ Assignment.survey "(set: $mood to \"fine (ish)\")".toList ∧
      (Variables.surveyed "(set: $mood to \"fine (ish)\")").contains "mood" = true := by
  have left : "(set: $mood to \"fine (ish)\")".toList ≠ [] := by decide +kernel
  have assigns : assigned? "(set: $mood to \"fine (ish)\")".toList = some ⟨"mood", .text "fine (ish)"⟩ := by
    decide +kernel
  have plain : PlainAt "(set: $mood to \"fine (ish)\")".toList := by
    refine ⟨"set: $mood to \"fine (ish)\"".toList, [], by decide +kernel, by decide +kernel, "set".toList,
      "\"fine (ish)\"".toList, by decide +kernel, by decide +kernel, fun _ => .inl ?_⟩
    exact ⟨"fine (ish)".toList, by decide +kernel, by decide +kernel⟩
  refine ((surveyed_iff "(set: $mood to \"fine (ish)\")" 1).2.2 _ (Markup.mem_places_self left) _ assigns).2
    ⟨plain, ?_⟩
  exact (Assignment.mem_places_iff List.suffix_rfl left).1 (Assignment.mem_places_self left)

/- A parenthesis outside of quotes ends the operand for the survey alone, and a blank before the colon
hides the macro from it. -/
theorem surveyed_garbled :
    .assign "x" (.text "a (b)") ∈ (Body.read "(set: $x to a (b))" 1).fragments ∧
      Assignment.survey "(set: $x to a (b))".toList = [⟨"x", .text "a (b"⟩] ∧
      .assign "y" (.text "open") ∈ (Body.read "(set : $y to open)" 1).fragments ∧
      Assignment.survey "(set : $y to open)".toList = [] := by
  decide +kernel

end ChatStory
