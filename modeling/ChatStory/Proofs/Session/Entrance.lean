import ChatStory.Proofs.Evaluation
import ChatStory.Proofs.Session.Checked

/-!
The entrance of a conditional round. Its body opens with a block, and one condition decides both whether
this block is seen and whether a choice can lead to the round. Where the condition could not be read they
come apart: the block is never seen, and the round always stands open.
-/
namespace ChatStory

variable {gate : Gate} {values : Variables} {body rest : List Fragment}

/-- Where a block begins or ends. -/
def Fragment.isGate : Fragment → Bool
  | .ifBlock _ | .elseBlock | .endBlock => true
  | _ => false

theorem behind_of_spacing (blank : ∀ fragment ∈ body, fragment.isSpacing = true) :
    behind gate values body = (gate, values) := by
  induction body with
  | nil => rfl
  | cons fragment rest ih =>
    obtain ⟨first, later⟩ := List.forall_mem_cons.1 blank
    cases fragment with
    | text text => exact ih later
    | lineBreak => exact ih later
    | _ => cases first

/- Within a block the gate does not move. -/
theorem sights_of_block (plain : ∀ fragment ∈ body, fragment.isGate = false) :
    (sights gate values body).1 = body.map fun fragment => ⟨fragment, gate.isOpen⟩ := by
  induction body generalizing values with
  | nil => rfl
  | cons fragment rest ih =>
    obtain ⟨first, later⟩ := List.forall_mem_cons.1 plain
    have passed : gate.pass values fragment = gate := by
      cases fragment with
      | ifBlock condition => cases first
      | elseBlock => cases first
      | endBlock => cases first
      | _ => rfl
    unfold sights
    dsimp only
    rw [passed, ih later]
    rfl

/-- A body opens with a block: after some spacing comes its condition, then what stands in the block, and
then what comes behind it. -/
structure OpensWith (body spacing : List Fragment) (condition : Option Condition)
    (block rest : List Fragment) : Prop where
  body : body = spacing ++ .ifBlock condition :: (block ++ rest)
  spacing : ∀ fragment ∈ spacing, fragment.isSpacing = true
  block : ∀ fragment ∈ block, fragment.isGate = false
  rest : ∀ fragment ∈ rest.head?, fragment.isGate = true

/- A body whose first piece, spacing aside, is a condition opens with its block. -/
theorem opensWith_of_find {condition : Option Condition}
    (opens : body.find? (!·.isSpacing) = some (.ifBlock condition)) :
    ∃ spacing block rest, OpensWith body spacing condition block rest := by
  obtain ⟨_, spacing, after, parts, blank⟩ := List.find?_eq_some_iff_append.1 opens
  refine ⟨spacing, after.takeWhile (!·.isGate), after.dropWhile (!·.isGate), ?_, ?_, ?_, ?_⟩
  · rw [List.takeWhile_append_dropWhile]
    exact parts
  · intro fragment member
    simpa using blank fragment member
  · intro fragment member
    simpa using List.all_eq_true.1 List.all_takeWhile fragment member
  · intro fragment first
    have stops := List.head?_dropWhile_not (fun fragment : Fragment => !fragment.isGate) after
    rw [Option.mem_def.1 first] at stops
    simpa using stops

/-- Evaluation finds the gate closed behind the condition of the block that opens the body. -/
def hidesFront (values : Variables) (body : List Fragment) : Bool :=
  match body.dropWhile (·.isSpacing) with
  | .ifBlock condition :: _ =>
    !(behind .start values (body.takeWhile (·.isSpacing) ++ [.ifBlock condition])).1.isOpen
  | _ => false

namespace OpensWith

variable {spacing block : List Fragment} {condition : Option Condition}
  (opens : OpensWith body spacing condition block rest)

include opens

theorem openingCondition : openingCondition? body = condition := by
  have first : body.find? (!·.isSpacing) = some (.ifBlock condition) := by
    refine List.find?_eq_some_iff_append.2 ⟨rfl, spacing, block ++ rest, opens.body, ?_⟩
    intro fragment member
    simpa using opens.spacing fragment member
  rw [openingCondition?, first]

theorem behind_condition (values : Variables) :
    behind .start values (spacing ++ [.ifBlock condition]) =
      (⟨true, condition.any (·.holds values)⟩, values) := by
  rw [behind_append, behind_of_spacing opens.spacing]
  rfl

theorem hidesFront_eq (values : Variables) :
    hidesFront values body = !condition.any (·.holds values) := by
  have before : body.takeWhile (·.isSpacing) = spacing := by
    rw [opens.body, List.takeWhile_append_of_pos opens.spacing,
      List.takeWhile_cons_of_neg Bool.false_ne_true, List.append_nil]
  have after : body.dropWhile (·.isSpacing) = .ifBlock condition :: (block ++ rest) := by
    rw [opens.body, List.dropWhile_append_of_pos opens.spacing,
      List.dropWhile_cons_of_neg Bool.false_ne_true]
  rw [hidesFront, after, before]
  exact congrArg (fun gate : Gate × Variables => !gate.1.isOpen) (opens.behind_condition values)

/- What stands in the block is seen exactly if the body does not hide its front. -/
theorem sights_front (values : Variables) : ∃ later, (sights .start values body).1 =
    (sights .start values (spacing ++ [.ifBlock condition])).1 ++
      (block.map fun fragment => ⟨fragment, !hidesFront values body⟩) ++ later := by
  have parts : body = (spacing ++ [.ifBlock condition]) ++ (block ++ rest) := by
    rw [List.append_assoc]
    exact opens.body
  rw [opens.hidesFront_eq, Bool.not_not]
  have seen : (sights .start values body).1 = (sights .start values (spacing ++ [.ifBlock condition])).1 ++
      (sights ⟨true, condition.any (·.holds values)⟩ values (block ++ rest)).1 := by
    rw [parts, sights_append, opens.behind_condition]
  rw [seen, sights_append _ values block rest, sights_of_block opens.block, ← List.append_assoc]
  exact ⟨_, rfl⟩

end OpensWith

namespace Session

open Play

variable {source contact : String} {key : RoundKey} {round : Round} {condition : Option Condition}

/- A conditional round has the condition that opens its body. -/
theorem condition_compile (found : (compile source).program.round? contact key = some round)
    (conditional : key.isConditional = true) :
    round.key = key ∧ round.condition = openingCondition? round.body := by
  refine round_compile
    (P := fun _ key round => key.isConditional = true →
      round.key = key ∧ round.condition = openingCondition? round.body) found ?_ conditional
  intro passage title round read conditional
  refine ⟨read.key, ?_⟩
  rw [read.condition, if_pos conditional]

/- A conditional round whose body opens with a block hides this block under the values that do not satisfy
   its condition, and under all values if the condition could not be read. A hidden block means that no
   choice leads to the round, exactly if the condition could be read. If it could not, every choice that
   names the round leads there. -/
theorem hidden_front_bars_iff (found : (compile source).program.round? contact key = some round)
    (conditional : key.isConditional = true)
    (opens : round.body.find? (!·.isSpacing) = some (.ifBlock condition)) (values : Variables) :
    (∃ spacing block rest later, OpensWith round.body spacing condition block rest ∧
      (sights .start values round.body).1 =
        (sights .start values (spacing ++ [.ifBlock condition])).1 ++
          (block.map fun fragment => ⟨fragment, !hidesFront values round.body⟩) ++ later) ∧
    (hidesFront values round.body = true ↔
      condition = none ∨ ∃ c, condition = some c ∧ c.holds values = false) ∧
    ((hidesFront values round.body = true → round.canEnter values = false) ↔ condition ≠ none) ∧
    ∀ (play : Play) (choice : Choice), play.program = (compile source).program → play.progress.values = values →
      (hidesFront values round.body = true → condition ≠ none →
        play.target? contact choice ≠ some key) ∧
      (condition = none → choice.targetRound = some key → play.target? contact choice = some key) := by
  obtain ⟨spacing, block, rest, front⟩ := opensWith_of_find opens
  obtain ⟨later, seen⟩ := front.sights_front values
  obtain ⟨own, same⟩ := condition_compile found conditional
  have hides := front.hidesFront_eq values
  have enters : round.canEnter values = condition.all (·.holds values) := by
    rw [Round.canEnter, own, conditional, same, front.openingCondition]
    rfl
  refine ⟨⟨spacing, block, rest, later, front, seen⟩, ?_, ?_, ?_⟩
  · cases condition <;> simp [hides]
  · cases condition <;> simp [hides, enters]
  · rintro play choice playing rfl
    constructor
    · rintro hidden readable leads
      obtain ⟨other, known, allowed⟩ := round_of_target leads
      rw [playing, found] at known
      cases known
      rw [enters] at allowed
      cases condition with
      | none => exact readable rfl
      | some c =>
        rw [hides] at hidden
        simp_all
    · rintro rfl named
      rw [target?_of_named named, playing, found, Option.bind_some, enters]
      rfl

/-- The body of the gated round opens with a block that is hidden at first. -/
def opensGated (round : Round) : Bool :=
  decide (round.body.find? (!·.isSpacing) = some (.ifBlock (some ⟨"x", false, none⟩))) &&
    hidesFront .empty round.body

theorem front_gated :
    ((compile gated).program.round? "A" ⟨2, some 0⟩).any opensGated = true := by decide +kernel

theorem hidden_front_bars_iff_gated : ∃ round,
    (compile gated).program.round? "A" ⟨2, some 0⟩ = some round ∧
    round.body.find? (!·.isSpacing) = some (.ifBlock (some ⟨"x", false, none⟩)) ∧
    hidesFront .empty round.body = true ∧ round.canEnter .empty = false ∧
    ∀ (play : Play) (choice : Choice), play.program = (compile gated).program →
      play.progress.values = .empty → play.target? "A" choice ≠ some ⟨2, some 0⟩ := by
  obtain ⟨round, found, shown⟩ := (Option.any_eq_true _ _).1 front_gated
  obtain ⟨opens, hidden⟩ := Bool.and_eq_true_iff.1 shown
  have opens := of_decide_eq_true opens
  obtain ⟨_, _, bars, leads⟩ := hidden_front_bars_iff found rfl opens .empty
  refine ⟨round, found, opens, hidden, bars.2 (Option.some_ne_none _) hidden, ?_⟩
  intro play choice playing known
  exact (leads play choice playing known).1 hidden (Option.some_ne_none _)

/-- The only choice names a conditional round, the condition of which cannot be read. -/
def misread : String :=
  ":: A-Round-1 [initial_contact]\nHi\n[[Go|A-Round-2.0]]\n\n" ++
    ":: A-Round-2.0 [chat]\n(if: open)Secret.(endif)\n"

/-- The block at the front of the round is hidden, and this round is the current one. -/
def entersHidden (s : Session) : Bool :=
  decide (s.play.progress.rounds.get? "A" = some ⟨2, some 0⟩) &&
    (s.play.program.round? "A" ⟨2, some 0⟩).any fun round =>
      decide (round.body.find? (!·.isSpacing) = some (.ifBlock none)) &&
        hidesFront s.play.progress.values round.body &&
          decide ((round.evaluation s.play.progress.values).text = "")

theorem played_misread :
    (playedWithin 0 misread 1000 [(1000, .choose "A" 0)]).any entersHidden = true := by
  decide +kernel

/- The block of the round is hidden, so that the round shows nothing, and yet the choice leads there. -/
theorem hidden_front_entered : ∃ program : Program, (compile misread).result = .ok program ∧
    ∃ s : Session, s = (start program {} .empty 1000).performAll [(1000, .choose "A" 0)] ∧
      s.play.progress.rounds.get? "A" = some ⟨2, some 0⟩ ∧
      ∃ round, s.play.program.round? "A" ⟨2, some 0⟩ = some round ∧
        round.body.find? (!·.isSpacing) = some (.ifBlock none) ∧
        hidesFront s.play.progress.values round.body = true ∧
        (round.evaluation s.play.progress.values).text = "" := by
  obtain ⟨program, compiled, shown⟩ := played_of_any played_misread
  obtain ⟨entered, shown⟩ := Bool.and_eq_true_iff.1 shown
  obtain ⟨round, found, shown⟩ := (Option.any_eq_true _ _).1 shown
  simp only [Bool.and_eq_true, decide_eq_true_eq] at shown
  obtain ⟨⟨opens, hidden⟩, silent⟩ := shown
  exact ⟨program, compiled, _, rfl, of_decide_eq_true entered, round, found, opens, hidden, silent⟩

end Session
end ChatStory
