import ChatStory.Program
import ChatStory.Proofs.Table

/-!
What a body depends on. Which branch it shows is up to how its conditions come out. These read variables,
and some of them the body has assigned by then; the others are its inputs.
-/
namespace ChatStory

variable {gate : Gate} {values others : Variables} {body : List Fragment}

/-- The assignment that a fragment is. -/
def Fragment.assignment? : Fragment → Option Assignment
  | .assign name value => some ⟨name, value⟩
  | _ => none

/- A condition reads nothing but its own variable. -/
theorem Condition.holds_of_same {condition : Condition}
    (same : values.get? condition.name = others.get? condition.name) :
    condition.holds values = condition.holds others := by
  simp only [holds, Table.getD, same]

/-- How the conditions come out, in order. -/
def verdicts (gate : Gate) (values : Variables) : List Fragment → List Bool
  | [] => []
  | fragment :: rest =>
    match fragment with
    | .assign name value =>
      verdicts gate (if gate.isOpen then values.insert name value else values) rest
    | .ifBlock condition =>
      condition.any (·.holds values) :: verdicts (gate.pass values (.ifBlock condition)) values rest
    | other => verdicts (gate.pass values other) values rest

/-- The variables that conditions read before the body has assigned them. -/
def inputs (gate : Gate) (values : Variables) : List Fragment → List String
  | [] => []
  | fragment :: rest =>
    match fragment with
    | .assign name value =>
      if gate.isOpen then (inputs gate (values.insert name value) rest).filter (· ≠ name)
      else inputs gate values rest
    | .ifBlock condition =>
      (condition.map (·.name)).toList ++ inputs (gate.pass values (.ifBlock condition)) values rest
    | other => inputs (gate.pass values other) values rest

/- By induction on the body, under whatever variables the walk comes to. -/
theorem sights_of_verdicts (same : verdicts gate others body = verdicts gate values body) :
    (sights gate others body).1 = (sights gate values body).1 := by
  induction body generalizing gate values others with
  | nil => rfl
  | cons fragment rest ih =>
    cases fragment with
    | ifBlock condition =>
      obtain ⟨comes_out, later⟩ := List.cons.inj same
      have passed : gate.pass others (.ifBlock condition) = gate.pass values (.ifBlock condition) :=
        congrArg (Gate.mk true) comes_out
      unfold sights
      dsimp only
      rw [passed] at later ⊢
      rw [ih later]
    | _ => exact congrArg (_ :: ·) (ih same)

/- By induction on the body: an assignment makes the variables agree on one name more. -/
theorem verdicts_of_inputs
    (same : ∀ name ∈ inputs gate values body, others.get? name = values.get? name) :
    verdicts gate others body = verdicts gate values body := by
  induction body generalizing gate values others with
  | nil => rfl
  | cons fragment rest ih =>
    cases fragment with
    | assign name value =>
      rw [inputs] at same
      rw [verdicts, verdicts]
      cases opened : gate.isOpen with
      | false =>
        rw [opened, if_neg Bool.false_ne_true] at same
        exact ih same
      | true =>
        rw [opened, if_pos rfl] at same
        apply ih
        intro other read
        rw [if_pos rfl] at read
        rw [if_pos rfl, if_pos rfl, Table.get?_insert, Table.get?_insert]
        split
        · rfl
        · exact same other (List.mem_filter.2 ⟨read, by simpa⟩)
    | ifBlock condition =>
      unfold inputs at same
      rw [List.forall_mem_append] at same
      have comes_out : condition.any (·.holds others) = condition.any (·.holds values) := by
        cases condition with
        | none => rfl
        | some condition => exact condition.holds_of_same (same.1 condition.name List.mem_cons_self)
      have passed : gate.pass others (.ifBlock condition) = gate.pass values (.ifBlock condition) :=
        congrArg (Gate.mk true) comes_out
      unfold verdicts
      dsimp only
      rw [passed, comes_out, ih same.2]
    | _ => exact ih same

/-- The gate and the variables behind some pieces of a body. -/
def behind (gate : Gate) (values : Variables) : List Fragment → Gate × Variables
  | [] => (gate, values)
  | fragment :: rest =>
    let after := match fragment with
      | .assign name value => if gate.isOpen then values.insert name value else values
      | _ => values
    behind (gate.pass values fragment) after rest

/- What is seen of the later pieces depends on the gate and the variables behind the earlier ones. -/
theorem sights_append (gate : Gate) (values : Variables) (body rest : List Fragment) :
    (sights gate values (body ++ rest)).1 =
      (sights gate values body).1 ++
        (sights (behind gate values body).1 (behind gate values body).2 rest).1 := by
  induction body generalizing gate values with
  | nil => rfl
  | cons fragment body ih => exact congrArg (_ :: ·) (ih _ _)

theorem behind_append (gate : Gate) (values : Variables) (body rest : List Fragment) :
    behind gate values (body ++ rest) =
      behind (behind gate values body).1 (behind gate values body).2 rest := by
  induction body generalizing gate values with
  | nil => rfl
  | cons fragment body ih => exact ih _ _

theorem fragment_of_sights {sight : Sight} (member : sight ∈ (sights gate values body).1) :
    sight.fragment ∈ body := by
  induction body generalizing gate values with
  | nil => cases member
  | cons fragment rest ih =>
    rcases List.mem_cons.1 member with same | later
    · rw [same]
      exact List.mem_cons_self
    · exact List.mem_cons_of_mem fragment (ih later)

/- Whatever choice is shown stands in the body. -/
theorem fragment_of_choice {choice : Choice} (shown : choice ∈ (evaluate body values).1.choices) :
    .choice choice ∈ body := by
  obtain ⟨sight, listed, found⟩ := List.mem_filterMap.1 shown
  have inside := fragment_of_sights listed
  unfold Sight.choice? at found
  split at found
  · rename_i other same
    split at found
    · cases found
      rw [same] at inside
      exact inside
    · cases found
  · cases found

/- What the body assigns before it is read is no input. -/
example : inputs .start .empty [.ifBlock (some ⟨"y", false, none⟩), .endBlock,
    .assign "x" (.bool true), .ifBlock (some ⟨"x", false, none⟩)] = ["y"] := by decide

namespace Round

/-- How the conditions of the round come out under the values. -/
def verdicts (round : Round) (values : Variables) : List Bool :=
  ChatStory.verdicts .start values round.body

/-- The variables that have to be known for that. -/
def inputs (round : Round) (values : Variables) : List String :=
  ChatStory.inputs .start values round.body

theorem evaluation_of_verdicts {round : Round} (same : round.verdicts others = round.verdicts values) :
    round.evaluation others = round.evaluation values :=
  congrArg Evaluation.ofSights (sights_of_verdicts same)

end Round
end ChatStory
