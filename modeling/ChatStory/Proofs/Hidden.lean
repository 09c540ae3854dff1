import ChatStory.Proofs.Visibility
import Mathlib.Data.List.Basic

/-!
What is hidden has no influence. Markup that is not seen still marks the line on which it stands, and a marked
line is trimmed or dropped; but where a gate is closed the line has been marked before, or it has begun behind
the closed gate and holds nothing.
-/
namespace ChatStory

variable {gate : Gate} {values : Variables} {line : TextLine} {body others front back : List Fragment}
  {fragment other : Fragment}

/-- The fragments that a gate lets through or holds back. The others are what moves the gate, and line breaks. -/
def Fragment.isContent : Fragment → Bool
  | .text _ | .choice _ | .action _ | .assign .. => true
  | _ => false

/-- A piece that is more than hidden content. -/
def Sight.matters (sight : Sight) : Bool := sight.seen || !sight.fragment.isContent

/-- A body without its hidden content. -/
def bare (gate : Gate) (values : Variables) (body : List Fragment) : List Fragment :=
  ((sights gate values body).1.filter (·.matters)).map (·.fragment)

theorem sights_cons (gate : Gate) (values : Variables) (fragment : Fragment) (rest : List Fragment) :
    sights gate values (fragment :: rest) =
      (⟨fragment, gate.isOpen⟩ ::
          (sights (behind gate values [fragment]).1 (behind gate values [fragment]).2 rest).1,
        (sights (behind gate values [fragment]).1 (behind gate values [fragment]).2 rest).2) := rfl

/- Behind a closed gate content changes nothing. -/
theorem behind_of_closed (content : fragment.isContent = true) (closed : gate.isOpen = false) :
    behind gate values [fragment] = (gate, values) := by
  cases fragment with
  | assign name value => simp [behind, Gate.pass, closed]
  | text | choice | action => rfl
  | ifBlock | elseBlock | endBlock | lineBreak => cases content

theorem sights_of_hidden (content : fragment.isContent = true) (closed : gate.isOpen = false)
    (rest : List Fragment) :
    sights gate values (fragment :: rest) =
      (⟨fragment, false⟩ :: (sights gate values rest).1, (sights gate values rest).2) := by
  rw [sights_cons, behind_of_closed content closed, closed]

theorem bare_of_hidden (content : fragment.isContent = true) (closed : gate.isOpen = false)
    (rest : List Fragment) : bare gate values (fragment :: rest) = bare gate values rest := by
  rw [bare, bare, sights_of_hidden content closed, List.filter_cons_of_neg]
  simp [Sight.matters, content]

/- What is left of a body is seen as it is in the body. By induction on the body: hidden content moves neither the
gate nor the variables. -/
theorem sights_bare (gate : Gate) (values : Variables) (body : List Fragment) :
    sights gate values (bare gate values body) =
      ((sights gate values body).1.filter (·.matters), (sights gate values body).2) := by
  induction body generalizing gate values with
  | nil => rfl
  | cons fragment rest ih =>
    by_cases hidden : fragment.isContent = true ∧ gate.isOpen = false
    · obtain ⟨content, closed⟩ := hidden
      have dropped : ¬(Sight.mk fragment false).matters = true := by simp [Sight.matters, content]
      rw [bare_of_hidden content closed, ih, sights_of_hidden content closed, List.filter_cons_of_neg dropped]
    · have kept : (Sight.mk fragment gate.isOpen).matters = true := by
        cases opened : gate.isOpen with
        | true => rfl
        | false =>
          have other : fragment.isContent = false := by simpa [opened] using hidden
          simp [Sight.matters, other]
      have first : bare gate values (fragment :: rest) =
          fragment :: bare (behind gate values [fragment]).1 (behind gate values [fragment]).2 rest := by
        rw [bare, sights_cons, List.filter_cons_of_pos kept]
        rfl
      rw [first, sights_cons, ih, sights_cons, List.filter_cons_of_pos kept]

/-- Where a gate is closed, the line in the making has been marked, or it has begun hidden and holds nothing. -/
def Covered (gate : Gate) (line : TextLine) : Prop :=
  gate.isOpen = false → line.marked = true ∨ (line.opened = false ∧ line.text = "")

/-- The line in the making behind a piece, unless the piece ends it. -/
def TextLine.take (line : TextLine) (sight : Sight) : TextLine :=
  match sight.fragment with
  | .lineBreak => ⟨"", false, sight.seen⟩
  | .text text => if sight.seen then { line with text := line.text ++ text } else line
  | _ => { line with marked := true }

/-- The lines that a piece ends. -/
def TextLine.ended (line : TextLine) (sight : Sight) : List String :=
  match sight.fragment with
  | .lineBreak => line.finish
  | _ => []

theorem textLines_cons (line : TextLine) (sight : Sight) (rest : List Sight) :
    textLines line (sight :: rest) = line.ended sight ++ textLines (line.take sight) rest := by
  obtain ⟨fragment, seen⟩ := sight
  cases fragment <;> rfl

/- Only markup moves a gate, and it marks the line. -/
theorem Covered.step (covered : Covered gate line) (values : Variables) (fragment : Fragment) :
    Covered (gate.pass values fragment) (line.take ⟨fragment, gate.isOpen⟩) := by
  intro closed
  cases fragment with
  | text text =>
    have closed : gate.isOpen = false := closed
    simpa [TextLine.take, closed] using covered closed
  | lineBreak => exact .inr ⟨closed, rfl⟩
  | ifBlock | elseBlock | endBlock | assign | choice | action => exact .inl rfl

/- Behind a closed gate the mark of a line makes no difference: a line that is not yet marked is empty and is
dropped either way, and more markup marks it in any case. By induction on what comes behind the gate. -/
theorem textLines_marked (covered : Covered gate line) (closed : gate.isOpen = false) (body : List Fragment) :
    textLines { line with marked := true } (sights gate values body).1 =
      textLines line (sights gate values body).1 := by
  rcases covered closed with already | ⟨begun, empty⟩
  · rw [← already]
  · obtain ⟨text, marked, opened⟩ := line
    obtain rfl : opened = false := begun
    obtain rfl : text = "" := empty
    cases marked with
    | true => rfl
    | false =>
      have dropped : (TextLine.mk "" true false).finish = (TextLine.mk "" false false).finish := by decide
      induction body with
      | nil => exact dropped
      | cons fragment rest ih =>
        rw [sights_cons, textLines_cons, textLines_cons, closed]
        cases fragment with
        | text text => exact ih
        | lineBreak => exact congrArg (· ++ _) dropped
        | ifBlock | elseBlock | endBlock | assign | choice | action => rfl

/- Hidden content leaves the lines of a text as they are. By induction on the body, with what the line in the
making is where the gate is closed. -/
theorem textLines_bare (covered : Covered gate line) (values : Variables) (body : List Fragment) :
    textLines line ((sights gate values body).1.filter (·.matters)) = textLines line (sights gate values body).1 := by
  induction body generalizing gate line values with
  | nil => rfl
  | cons fragment rest ih =>
    have next := ih (covered.step values fragment) (behind gate values [fragment]).2
    by_cases kept : (Sight.mk fragment gate.isOpen).matters = true
    · rw [sights_cons, List.filter_cons_of_pos kept, textLines_cons, textLines_cons]
      exact congrArg _ next
    · obtain ⟨closed, content⟩ : gate.isOpen = false ∧ fragment.isContent = true := by
        simpa [Sight.matters] using kept
      have here := ih covered values
      rw [sights_cons, List.filter_cons_of_neg kept, behind_of_closed content closed, closed, here, textLines_cons]
      cases fragment with
      | text text => rfl
      | assign | choice | action => exact (textLines_marked covered closed rest).symm
      | ifBlock | elseBlock | endBlock | lineBreak => cases content

/- What is picked from the pieces that are seen does not depend on the others. -/
theorem filterMap_matters {α : Type} (picked : Sight → Option α)
    (unseen : ∀ sight : Sight, sight.seen = false → picked sight = none) (all : List Sight) :
    (all.filter (·.matters)).filterMap picked = all.filterMap picked := by
  rw [List.filterMap_filter]
  refine List.filterMap_congr fun sight _ => ?_
  by_cases kept : sight.matters = true
  · exact if_pos kept
  · have hidden : sight.seen = false := by
      unfold Sight.matters at kept
      grind
    rw [if_neg kept, unseen sight hidden]

/- A body shows what it shows without its hidden content, and leaves the same variables. -/
theorem evaluate_bare (body : List Fragment) (values : Variables) :
    evaluate (bare .start values body) values = evaluate body values := by
  have start : Covered .start ⟨"", false, true⟩ := fun closed => absurd closed (by decide)
  have text := textLines_bare start values body
  have choices := filterMap_matters Sight.choice? (fun sight hidden => by rw [choice?_eq, hidden]; rfl)
    (sights .start values body).1
  have actions := filterMap_matters Sight.action? (fun sight hidden => by rw [action?_eq, hidden]; rfl)
    (sights .start values body).1
  have assignments := filterMap_matters Sight.assignment? (fun sight hidden => by rw [assignment?_eq, hidden]; rfl)
    (sights .start values body).1
  have same : Evaluation.ofSights ((sights .start values body).1.filter (·.matters)) =
      .ofSights (sights .start values body).1 := by
    rw [Evaluation.ofSights, text, choices, actions, assignments]
    rfl
  rw [evaluate, sights_bare]
  exact congrArg (·, (sights .start values body).2) same

/- So bodies that differ in hidden content alone show the same. -/
theorem evaluate_of_bare (same : bare .start values body = bare .start values others) :
    evaluate body values = evaluate others values := by
  rw [← evaluate_bare body, same, evaluate_bare]

/- Content that stands where nothing is seen can be taken out. -/
theorem bare_without (content : fragment.isContent = true)
    (hidden : (behind gate values front).1.isOpen = false) (back : List Fragment) :
    bare gate values (front ++ fragment :: back) = bare gate values (front ++ back) := by
  have later : bare (behind gate values front).1 (behind gate values front).2 (fragment :: back) =
      bare (behind gate values front).1 (behind gate values front).2 back := bare_of_hidden content hidden back
  simp only [bare] at later
  simp only [bare, sights_append, List.filter_append, List.map_append, later]

/- Content at a place where nothing is seen has no influence on what a body shows and on the variables that it
leaves: it may be taken out, and any other content may take its place. -/
theorem hidden_without_influence (content : fragment.isContent = true) (content' : other.isContent = true)
    (hidden : visibleAt values (front ++ fragment :: back) front.length = false) :
    evaluate (front ++ back) values = evaluate (front ++ fragment :: back) values ∧
      evaluate (front ++ other :: back) values = evaluate (front ++ fragment :: back) values := by
  have closed : (behind .start values front).1.isOpen = false := by
    rwa [visibleAt, List.take_left] at hidden
  have without : evaluate (front ++ fragment :: back) values = evaluate (front ++ back) values :=
    evaluate_of_bare (bare_without content closed back)
  have without' : evaluate (front ++ other :: back) values = evaluate (front ++ back) values :=
    evaluate_of_bare (bare_without content' closed back)
  exact ⟨without.symm, without'.trans without.symm⟩

/- A line of its own on which nothing is seen vanishes with what stands on it or without, and so do the
blanks beside a block that ends on the same line. -/
theorem hidden_without_influence_line :
    let front := [.text "Where?", .lineBreak, .ifBlock none, .lineBreak]
    let back := [.text " ", .endBlock, .text " Here. "]
    visibleAt .empty (front ++ .assign "x" (.bool true) :: back) front.length = false ∧
      evaluate (front ++ back) .empty = evaluate (front ++ .assign "x" (.bool true) :: back) .empty ∧
      evaluate (front ++ .text "there" :: back) .empty =
        evaluate (front ++ .assign "x" (.bool true) :: back) .empty ∧
      (evaluate (front ++ back) .empty).1.text = "Where?\nHere." := by
  intro front back
  have hidden : visibleAt .empty (front ++ .assign "x" (.bool true) :: back) front.length = false := by decide
  have content : (Fragment.text "there").isContent = true := rfl
  have same := hidden_without_influence rfl content hidden
  exact ⟨hidden, same.1, same.2, by decide +kernel⟩

end ChatStory
