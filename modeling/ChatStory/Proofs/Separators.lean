import ChatStory.Text.Basic
import Mathlib.Data.List.Basic

/-!
Texts that are cut at their separators: at the last or the first place where they stand, at every such place, and
at blanks.
-/
namespace ChatStory

namespace Text

variable {c : Char} {cs : List Char}

theorem cutLast_of_absent (absent : c ∉ cs) : cutLast [c] cs = none := by
  induction cs with
  | nil => rfl
  | cons d rest ih =>
    have other : c ≠ d := List.ne_of_not_mem_cons absent
    simp [cutLast, ih (List.not_mem_of_not_mem_cons absent), other]

theorem cutLast_append (before : List Char) {after : List Char} (absent : c ∉ after) :
    cutLast [c] (before ++ c :: after) = some (before, after) := by
  induction before with
  | nil => simp [cutLast, cutLast_of_absent absent]
  | cons d rest ih =>
    rw [List.cons_append, cutLast, ih]

/- A character stands nowhere in a text, or there is a last place where it stands. -/
theorem exists_last (c : Char) (cs : List Char) :
    c ∉ cs ∨ ∃ before after, cs = before ++ c :: after ∧ c ∉ after := by
  induction cs with
  | nil => exact .inl List.not_mem_nil
  | cons d rest ih =>
    rcases ih with absent | ⟨before, after, rfl, absent⟩
    · by_cases same : c = d
      · exact .inr ⟨[], rest, by rw [same, List.nil_append], absent⟩
      · exact .inl (List.not_mem_cons_of_ne_of_not_mem same absent)
    · exact .inr ⟨d :: before, after, rfl, absent⟩

theorem splitAt_of_absent (absent : c ∉ cs) : splitAt c cs = [cs] := by
  induction cs with
  | nil => rfl
  | cons d rest ih =>
    have other : c ≠ d := List.ne_of_not_mem_cons absent
    rw [splitAt, ih (List.not_mem_of_not_mem_cons absent), if_neg (by simpa using other.symm)]

theorem splitAt_ne_nil (c : Char) (cs : List Char) : splitAt c cs ≠ [] := by
  cases cs with
  | nil => exact List.cons_ne_nil [] []
  | cons d rest =>
    unfold splitAt
    split
    · exact List.cons_ne_nil _ _
    · split <;> exact List.cons_ne_nil _ _

theorem splitAt_append (c : Char) (before after : List Char) :
    splitAt c (before ++ c :: after) = splitAt c before ++ splitAt c after := by
  induction before with
  | nil => simp [splitAt]
  | cons d rest ih =>
    obtain ⟨piece, pieces, split⟩ := List.exists_cons_of_ne_nil (splitAt_ne_nil c rest)
    rw [List.cons_append, splitAt, splitAt, ih, split]
    split <;> rfl

/-- One character more in front of words. -/
def wordStep (c : Char) (acc : List (List Char)) : List (List Char) :=
  if isBlank c then [] :: acc else match acc with
    | [] => [[c]]
    | w :: ws => (c :: w) :: ws

theorem foldr_wordStep (cs w : List Char) (ws : List (List Char)) :
    ∃ v vs, cs.foldr wordStep [w] = v :: vs ∧ cs.foldr wordStep (w :: ws) = v :: (vs ++ ws) := by
  induction cs with
  | nil => exact ⟨w, [], rfl, rfl⟩
  | cons c rest ih =>
    obtain ⟨v, vs, short, long⟩ := ih
    rw [List.foldr_cons, List.foldr_cons, long, short]
    unfold wordStep
    split
    · exact ⟨[], v :: vs, rfl, rfl⟩
    · exact ⟨c :: v, vs, rfl, rfl⟩

/- A blank stands between words. -/
theorem words_append_blank (blank : isBlank c = true) (cs more : List Char) :
    words (cs ++ c :: more) = words cs ++ words more := by
  obtain ⟨v, vs, short, long⟩ := foldr_wordStep cs [] (more.foldr wordStep [[]])
  have next : (c :: more).foldr wordStep [[]] = [] :: more.foldr wordStep [[]] := by
    rw [List.foldr_cons]
    exact if_pos blank
  change ((cs ++ c :: more).foldr wordStep [[]]).filter (· ≠ []) =
    (cs.foldr wordStep [[]]).filter (· ≠ []) ++ (more.foldr wordStep [[]]).filter (· ≠ [])
  rw [List.foldr_append, next, long, short, ← List.cons_append, List.filter_append]

section Infix

variable {c : Char} {sep w before after : List Char}

/- A text that stands across a character has the character in it. -/
theorem infix_append_cons (absent : c ∉ w) (part : w <:+: before ++ c :: after) : w <:+: before ∨ w <:+: after := by
  obtain ⟨front, back, same⟩ := part
  rcases List.append_eq_append_iff.1 same with ⟨rest, rfl, -⟩ | ⟨rest, inside, behind⟩
  · exact .inl ⟨front, rest, rfl⟩
  · cases rest with
    | nil => exact .inl ⟨front, [], by simpa using inside⟩
    | cons d rest =>
      obtain ⟨rfl, rfl⟩ := List.cons.inj behind
      rcases List.append_eq_append_iff.1 inside with ⟨left, rfl, split⟩ | ⟨left, rfl, split⟩
      · exact absurd (split ▸ List.mem_append_right left List.mem_cons_self) absent
      · cases left with
        | nil =>
          have whole : w = c :: rest := split.symm
          exact absurd (whole ▸ List.mem_cons_self) absent
        | cons e left =>
          obtain ⟨rfl, rfl⟩ := List.cons.inj split
          exact .inr ⟨left, back, rfl⟩

/- Two characters that stand side by side do not stand across a third that is not the second. -/
theorem pair_infix_append {a b : Char} (other : b ≠ c) (part : [a, b] <:+: before ++ c :: after) :
    [a, b] <:+: before ∨ [a, b] <:+: c :: after := by
  induction before with
  | nil => exact .inr part
  | cons d rest ih =>
    rcases List.infix_cons_iff.1 part with first | later
    · obtain ⟨-, next⟩ := List.cons_prefix_cons.1 first
      cases rest with
      | nil => exact absurd (List.cons_prefix_cons.1 next).1 other
      | cons e rest =>
        obtain ⟨rfl, -⟩ := List.cons_prefix_cons.1 next
        obtain ⟨rfl, -⟩ := List.cons_prefix_cons.1 first
        exact .inl ⟨[], rest, rfl⟩
    · exact (ih later).imp_left fun within => within.trans (List.suffix_cons d rest).isInfix

theorem cutLast_of_not_infix (some_sep : sep ≠ []) (absent : ¬sep <:+: after) : cutLast sep after = none := by
  induction after with
  | nil => exact if_neg fun empty => some_sep (List.isEmpty_iff.1 empty)
  | cons d rest ih =>
    have later := ih fun within => absent (within.trans (List.suffix_cons d rest).isInfix)
    have first : sep.isPrefixOf (d :: rest) = false :=
      Bool.eq_false_iff.2 fun starts => absent (List.isPrefixOf_iff_prefix.1 starts).isInfix
    rw [cutLast, later]
    exact if_neg (Bool.eq_false_iff.1 first)

theorem cutLast_append_of_some {found : List Char × List Char} (cut : cutLast sep after = some found)
    (before : List Char) : cutLast sep (before ++ after) = some (before ++ found.1, found.2) := by
  induction before with
  | nil => exact cut
  | cons d rest ih =>
    rw [List.cons_append, cutLast, ih]
    rfl

/- The first place where the separator stands is found if it does not begin earlier. -/
theorem cutFirst_append (some_sep : sep ≠ []) (absent : ¬sep <:+: before ++ sep.dropLast) (after : List Char) :
    cutFirst sep (before ++ (sep ++ after)) = some (before, after) := by
  induction before with
  | nil =>
    obtain ⟨d, rest, rfl⟩ := List.exists_cons_of_ne_nil some_sep
    have first : (d :: rest).isPrefixOf (d :: rest ++ after) = true :=
      List.isPrefixOf_iff_prefix.2 (List.prefix_append _ _)
    rw [List.nil_append, List.cons_append, cutFirst, ← List.cons_append, if_pos first, List.drop_left]
  | cons d rest ih =>
    have later := ih fun within => absent (within.trans (List.suffix_cons d _).isInfix)
    have first : ¬sep.isPrefixOf (d :: (rest ++ (sep ++ after))) = true := by
      intro starts
      refine absurd (List.IsPrefix.isInfix ?_) absent
      obtain ⟨front, last, rfl⟩ := (List.eq_nil_or_concat sep).resolve_left some_sep
      rw [List.concat_eq_append] at starts ⊢
      rw [List.dropLast_concat]
      have parts : d :: (rest ++ (front ++ [last] ++ after)) = d :: rest ++ front ++ ([last] ++ after) := by simp
      rw [parts] at starts
      refine List.prefix_of_prefix_length_le (List.isPrefixOf_iff_prefix.1 starts) (List.prefix_append _ _) ?_
      simp only [List.length_append, List.length_cons, List.length_nil]
      omega
    rw [List.cons_append, cutFirst, if_neg first, later]
    rfl

end Infix

end Text

end ChatStory
