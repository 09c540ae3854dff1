import ChatStory.Proofs.Embedding
import ChatStory.Proofs.Literals

/-!
The forms of a link. Its display and its target may be written in three ways, which are read alike exactly if
the whole link is free of actions. It is not enough that display and target are: an action may open in the one
and end in the other.
-/
namespace ChatStory

namespace Action

theorem findings_of_dropped {source : List Char} (dropped : (read source).action = none) :
    (read source).findings ≠ [] := by
  unfold read at dropped ⊢
  dsimp only at dropped ⊢
  split at dropped
  · rename_i nameless
    rw [if_pos nameless]
    exact List.cons_ne_nil _ _
  · rename_i named
    rw [if_neg named]
    split at dropped
    · cases dropped
    · exact List.append_ne_nil_of_right_ne_nil _ (List.cons_ne_nil _ _)

end Action

namespace Choice

open Markup

section Lifting

variable {cs : List Char} {outcomes : List Action.Outcome}

/-- No action stands anywhere in the text. -/
def Actionless (cs : List Char) : Prop := ∀ c rest, c :: rest <:+ cs → actionInside? c rest = none

theorem liftActions_of_actionless (free : Actionless cs) : liftActions cs = (cs, []) := by
  induction cs with
  | nil => rw [liftActions]
  | cons c rest ih =>
    have later := ih fun d more part => free d more (part.trans (List.suffix_cons c rest))
    rw [liftActions_cons (free c rest (List.suffix_refl _)), later]

theorem actionless_iff : Actionless cs ↔ (liftActions cs).2 = [] := by
  constructor
  · intro free
    rw [liftActions_of_actionless free]
  · intro none
    fun_induction liftActions cs with
    | case1 => exact fun c rest part => absurd (List.suffix_nil.1 part) (List.cons_ne_nil c rest)
    | case2 => cases none
    | case3 c cs outside _ _ lifted ih =>
      rw [lifted] at ih
      intro d more part
      rcases List.suffix_cons_iff.1 part with same | later
      · obtain ⟨rfl, rfl⟩ := List.cons.inj same
        exact outside
      · exact ih none d more later

/- An action opens with its mark, so that a text without the mark has none. -/
theorem actionless_of_unmarked (unmarked : ¬ '[' :: actionMark <:+: Text.lower cs) : Actionless cs := by
  intro c rest part
  unfold actionInside?
  split
  · rename_i opens
    rw [Bool.and_eq_true, beq_iff_eq] at opens
    obtain ⟨rfl, marked⟩ := opens
    refine absurd ?_ unmarked
    obtain ⟨front, rfl⟩ := part
    obtain ⟨more, behind⟩ := marked_iff.1 marked
    refine ⟨Text.lower front, more, ?_⟩
    have small : '['.toLower = '[' := by decide
    rw [Text.lower, Text.lower, List.map_append, List.map_cons, small, List.append_assoc, List.cons_append]
    rw [Text.lower] at behind
    rw [behind]
  · rfl

theorem keepFirst_kept (action : Action) (outcomes : List Action.Outcome) :
    (keepFirst (some action) outcomes).1 = some action := by
  induction outcomes with
  | nil => rfl
  | cons outcome rest ih =>
    unfold keepFirst
    split
    · rename_i kept _ same _
      obtain rfl := Option.some.inj same
      exact ih
    · exact ih

/- Nothing is left of outcomes only if there are none. -/
theorem nil_of_keepFirst (spoken : ∀ outcome ∈ outcomes, outcome.action = none → outcome.findings ≠ [])
    (silent : keepFirst none outcomes = (none, [])) : outcomes = [] := by
  cases outcomes with
  | nil => rfl
  | cons outcome rest =>
    have step : keepFirst none (outcome :: rest) = ((keepFirst outcome.action rest).1,
        outcome.findings ++ (keepFirst outcome.action rest).2) := rfl
    rw [step] at silent
    obtain ⟨nothing, quiet⟩ := Prod.mk.inj silent
    cases dropped : outcome.action with
    | some action =>
      rw [dropped, keepFirst_kept] at nothing
      cases nothing
    | none => exact absurd (List.append_eq_nil_iff.1 quiet).1 (spoken outcome List.mem_cons_self dropped)

end Lifting

section Forms

variable {d t : List Char}

/-- The ways to write a link with a display and a target. -/
def forms (d t : List Char) : List (List Char) :=
  [d ++ '|' :: t, d ++ '-' :: '>' :: t, t ++ '<' :: '-' :: d]

/-- None of the signs that part a link stands in the text. -/
structure Unparted (cs : List Char) : Prop where
  bar : '|' ∉ cs
  arrow : ¬ ['-', '>'] <:+: cs
  back : ¬ ['<', '-'] <:+: cs

/- The signs are looked for in this order. A sign that is looked for earlier does not arise beside a later one,
since the display does not start with the end of an arrow. -/
theorem split_forms (display : Unparted d) (target : Unparted t) (start : d.head? ≠ some '>') :
    ∀ link ∈ forms d t, split link = (d, t) := by
  have bare : ∀ {xs ys : List Char} {c e : Char}, '|' ∉ xs → '|' ∉ ys → c ≠ '|' → e ≠ '|' →
      Text.cutLast ['|'] (xs ++ c :: e :: ys) = none := by
    intro xs ys c e first last other another
    refine Text.cutLast_of_absent ?_
    simp [first, last, other.symm, another.symm]
  have arrow : Text.cutLast ['-', '>'] (d ++ '-' :: '>' :: t) = some (d, t) := by
    have behind : ¬ ['-', '>'] <:+: '>' :: t := by
      intro within
      rcases List.infix_cons_iff.1 within with first | later
      · exact absurd (List.cons_prefix_cons.1 first).1 (by decide)
      · exact target.arrow later
    have here : Text.cutLast ['-', '>'] ('-' :: '>' :: t) = some ([], t) := by
      rw [Text.cutLast, Text.cutLast_of_not_infix (by decide) behind]
      rfl
    have cut := Text.cutLast_append_of_some here d
    rwa [List.append_nil] at cut
  have back : Text.cutFirst ['<', '-'] (t ++ '<' :: '-' :: d) = some (t, d) := by
    refine Text.cutFirst_append (by decide) (fun within => ?_) d
    rcases Text.pair_infix_append (by decide) within with first | last
    · exact target.back first
    · exact absurd last.length_le (by decide)
  have unarrowed : ¬ ['-', '>'] <:+: t ++ '<' :: '-' :: d := by
    intro within
    rcases Text.pair_infix_append (by decide) within with first | last
    · exact target.arrow first
    rcases List.infix_cons_iff.1 last with first | last
    · exact absurd (List.cons_prefix_cons.1 first).1 (by decide)
    rcases List.infix_cons_iff.1 last with first | last
    · obtain ⟨more, same⟩ := (List.cons_prefix_cons.1 first).2
      exact start (by rw [← same]; rfl)
    · exact display.arrow last
  simp only [forms, List.forall_mem_cons, split]
  refine ⟨?_, ?_, ?_, List.forall_mem_nil _⟩
  · rw [Text.cutLast_append d target.bar]
  · rw [bare display.bar target.bar (by decide) (by decide), arrow]
  · rw [bare target.bar display.bar (by decide) (by decide),
      Text.cutLast_of_not_infix (by decide) unarrowed, back]

theorem unmarked_forms (display : ¬ '[' :: actionMark <:+: Text.lower d)
    (target : ¬ '[' :: actionMark <:+: Text.lower t) :
    ∀ link ∈ forms d t, ¬ '[' :: actionMark <:+: Text.lower link := by
  have absent : ∀ {xs ys : List Char} {c : Char}, c ∉ '[' :: actionMark → ¬ '[' :: actionMark <:+: xs →
      ¬ '[' :: actionMark <:+: ys → ¬ '[' :: actionMark <:+: xs ++ c :: ys :=
    fun other first last within => (Text.infix_append_cons other within).elim first last
  have next : ∀ {ys : List Char} {c : Char}, c ∉ '[' :: actionMark → ¬ '[' :: actionMark <:+: ys →
      ¬ '[' :: actionMark <:+: c :: ys := fun other last =>
    absent other (fun within => absurd (List.infix_nil.1 within) (List.cons_ne_nil _ _)) last
  simp only [forms, List.forall_mem_cons, Text.lower, List.map_append, List.map_cons]
  refine ⟨?_, ?_, ?_, List.forall_mem_nil _⟩
  · exact absent (by decide) display target
  · exact absent (by decide) display (next (by decide) target)
  · exact absent (by decide) target (next (by decide) display)

/- Written in any of its forms, a link shows its display and leads to its target, without an action and without a
finding, exactly if no action stands in what is written. That is so if the mark of an action stands neither in the
display nor in the target. -/
theorem read_forms_iff (normal : [' '].intercalate (Text.words d) = d) (start : d.head? ≠ some '>')
    (trimmed : Text.trim t = t) (named : t ≠ []) (display : Unparted d) (target : Unparted t) :
    (∀ link ∈ forms d t, read link =
        (⟨String.ofList d, String.ofList t, RoundKey.ofReference? (String.ofList t), none⟩, []) ↔
          Actionless link) ∧
      (¬ '[' :: actionMark <:+: Text.lower d → ¬ '[' :: actionMark <:+: Text.lower t →
        ∀ link ∈ forms d t, Actionless link) := by
  refine ⟨fun link form => ⟨fun plain => ?_, fun free => ?_⟩, fun first last link form => ?_⟩
  · have spoken : ∀ outcome ∈ (liftActions link).2, outcome.action = none → outcome.findings ≠ [] := by
      intro outcome member dropped
      obtain ⟨source, rfl⟩ := read_of_liftActions member
      exact Action.findings_of_dropped dropped
    obtain ⟨choice, findings⟩ := Prod.mk.inj plain
    exact actionless_iff.2 (nil_of_keepFirst spoken (Prod.ext (congrArg Choice.action choice) findings))
  · have target_named : String.ofList t ≠ "" := fun empty => named (String.ofList_injective empty)
    unfold read
    rw [liftActions_of_actionless free]
    dsimp only
    rw [split_forms display target start link form]
    dsimp only
    rw [normal, trimmed, if_neg target_named]
    rfl
  · exact actionless_of_unmarked (unmarked_forms first last link form)

theorem read_forms_beside_signs :
    read "Go on -<|>A-Round-2.1".toList = (⟨"Go on -<", ">A-Round-2.1", some ⟨2, some 1⟩, none⟩, []) ∧
      read "Go on -<->>A-Round-2.1".toList = (⟨"Go on -<", ">A-Round-2.1", some ⟨2, some 1⟩, none⟩, []) ∧
      read ">A-Round-2.1<-Go on -<".toList = (⟨"Go on -<", ">A-Round-2.1", some ⟨2, some 1⟩, none⟩, []) := by
  have display : Unparted "Go on -<".toList := ⟨by decide, by decide, by decide⟩
  have target : Unparted ">A-Round-2.1".toList := ⟨by decide, by decide, by decide⟩
  have both := read_forms_iff (by decide +kernel) (by decide) (by decide +kernel) (by decide) display target
  have free := both.2 (by decide) (by decide)
  have named : RoundKey.ofReference? ">A-Round-2.1" = some ⟨2, some 1⟩ := by decide +kernel
  have all := fun link form => (both.1 link form).2 (free link form)
  simp only [forms, List.forall_mem_cons, String.ofList_toList, named] at all
  exact ⟨all.1, all.2.1, all.2.2.1⟩

/- An action that opens in the display and ends in the target is lifted out of the link, and both are lost. -/
theorem action_across_sign :
    ([' '].intercalate (Text.words "[Action: show_notification: Hi".toList) =
          "[Action: show_notification: Hi".toList ∧
        "[Action: show_notification: Hi".toList.head? ≠ some '>' ∧
        Text.trim "there]".toList = "there]".toList ∧ "there]".toList ≠ []) ∧
      (Unparted "[Action: show_notification: Hi".toList ∧ Unparted "there]".toList) ∧
      (Actionless "[Action: show_notification: Hi".toList ∧ Actionless "there]".toList) ∧
      read "[Action: show_notification: Hi|there]".toList =
        (⟨"", "", none, some ⟨.showNotification none "Hi|there", 0⟩⟩, []) :=
  ⟨⟨by decide +kernel, by decide, by decide +kernel, by decide⟩,
    ⟨⟨by decide, by decide, by decide⟩, ⟨by decide, by decide, by decide⟩⟩,
    ⟨actionless_iff.2 (by decide +kernel), actionless_iff.2 (by decide +kernel)⟩, by decide +kernel⟩

end Forms

end Choice
end ChatStory
