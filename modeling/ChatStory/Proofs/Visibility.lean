import ChatStory.Proofs.Evaluation
import Mathlib.Data.List.Induction

/-!
Which pieces of a body are visible, read off the body: the block that is open at a place and the number of
turns in it since then decide, and of the variables only what the visible assignments before the block have
made of them. There is one such reading, and an evaluation shows what it says.
-/
namespace ChatStory

variable {gate : Gate} {values : Variables} {body front back before : List Fragment}
  {condition : Option Condition}

def Fragment.choice? : Fragment → Option Choice
  | .choice c => some c
  | _ => none

def Fragment.action? : Fragment → Option Action
  | .action a => some a
  | _ => none

/-- A body whose pieces are visible or not, by their places. -/
def marked (visible : Nat → Bool) (body : List Fragment) : List Sight :=
  body.mapIdx fun i fragment => ⟨fragment, visible i⟩

/-- The visible pieces in order. -/
def shown (visible : Nat → Bool) (body : List Fragment) : List Fragment :=
  ((marked visible body).filter (·.seen)).map (·.fragment)

/-- The variables after the visible assignments. -/
def assigned (values : Variables) (visible : Nat → Bool) (body : List Fragment) : Variables :=
  values.insertMany (((shown visible body).filterMap (·.assignment?)).map fun a => (a.name, a.value))

/-- The last condition before a place, if its block has not been ended there: what stands before it, and
what stands between it and the place. -/
structure OpenBlock (before front : List Fragment) (condition : Option Condition)
    (back : List Fragment) : Prop where
  parts : before = front ++ .ifBlock condition :: back
  unended : .endBlock ∉ back
  last : ∀ other, .ifBlock other ∉ back

/-- A reading of a body says which of its places are visible. Outside of blocks all of them are. In a block
its condition decides, under the variables after the visible assignments before it, and each turn reverses
what it has decided. A condition that could not be read counts as false. -/
structure Reading (values : Variables) (body : List Fragment) (visible : Nat → Bool) : Prop where
  outside : ∀ i < body.length,
    (∀ front condition back, body.take i = front ++ .ifBlock condition :: back → .endBlock ∈ back) →
      visible i = true
  inside : ∀ i < body.length, ∀ front condition back, OpenBlock (body.take i) front condition back →
    visible i = (condition.any (·.holds (assigned values visible front)) !=
      decide (back.count .elseBlock % 2 = 1))

/- A turn in an open block reverses the gate, and nothing else moves it. -/
theorem behind_of_block {isOpen : Bool} (unended : .endBlock ∉ back)
    (last : ∀ other, .ifBlock other ∉ back) :
    (behind ⟨true, isOpen⟩ values back).1 =
      ⟨true, isOpen != decide (back.count .elseBlock % 2 = 1)⟩ := by
  induction back generalizing isOpen values with
  | nil => simp [behind]
  | cons fragment rest ih =>
    have unended' : .endBlock ∉ rest := fun member => unended (List.mem_cons_of_mem _ member)
    have last' : ∀ other, .ifBlock other ∉ rest := fun other member =>
      last other (List.mem_cons_of_mem _ member)
    cases fragment with
    | ifBlock condition => exact absurd List.mem_cons_self (last condition)
    | endBlock => exact absurd List.mem_cons_self unended
    | elseBlock =>
      have turned : decide ((rest.count .elseBlock + 1) % 2 = 1) =
          !decide (rest.count .elseBlock % 2 = 1) := by
        rw [← decide_not, decide_eq_decide]
        omega
      refine (ih unended' last').trans ?_
      rw [List.count_cons_self, turned]
      cases isOpen <;> simp
    | _ =>
      refine (ih unended' last').trans ?_
      rw [List.count_cons_of_ne (by simp)]

theorem behind_of_openBlock (opens : OpenBlock before front condition back) :
    (behind .start values before).1 =
      ⟨true, condition.any (·.holds (behind .start values front).2) !=
        decide (back.count .elseBlock % 2 = 1)⟩ := by
  rw [opens.parts, behind_append]
  exact behind_of_block opens.unended opens.last

theorem OpenBlock.snoc (opens : OpenBlock before front condition back) {fragment : Fragment}
    (unended : fragment ≠ .endBlock) (last : ∀ other, fragment ≠ .ifBlock other) :
    OpenBlock (before ++ [fragment]) front condition (back ++ [fragment]) := by
  refine ⟨?_, ?_, ?_⟩
  · rw [opens.parts, List.append_assoc, List.cons_append]
  · simpa using ⟨opens.unended, unended.symm⟩
  · intro other
    simpa using ⟨opens.last other, (last other).symm⟩

/- Where no block is open the gate stands as at the start. By induction on what stands before the place, from
its end: a block that is open stays so unless it is ended or another one begins. -/
theorem openBlock_or_start (values : Variables) (before : List Fragment) :
    (∃ front condition back, OpenBlock before front condition back) ∨
      (behind .start values before).1 = .start := by
  induction before using List.reverseRecOn with
  | nil => exact .inr rfl
  | append_singleton before fragment ih =>
    have further : (fragment ≠ .endBlock) → (∀ other, fragment ≠ .ifBlock other) →
        (∃ front condition back, OpenBlock (before ++ [fragment]) front condition back) ∨
          (behind .start values before).1 = .start := by
      intro unended last
      rcases ih with ⟨front, condition, back, opens⟩ | start
      · exact .inl ⟨front, condition, back ++ [fragment], opens.snoc unended last⟩
      · exact .inr start
    rw [behind_append]
    cases fragment with
    | ifBlock condition => exact .inl ⟨before, condition, [], rfl, List.not_mem_nil, fun _ => List.not_mem_nil⟩
    | endBlock => exact .inr rfl
    | _ =>
      refine (further (by simp) (by simp)).imp_right fun start => ?_
      rw [start]
      rfl

/- What is visible at a place is what the gate lets through behind all that stands before it. -/
theorem sights_eq_marked (gate : Gate) (values : Variables) (body : List Fragment) :
    (sights gate values body).1 = marked (fun i => (behind gate values (body.take i)).1.isOpen) body := by
  induction body generalizing gate values with
  | nil => rfl
  | cons fragment rest ih =>
    rw [marked, List.mapIdx_cons]
    exact congrArg (_ :: ·) (ih _ _)

/- What is picked from the pieces that are seen is picked from the visible ones. -/
theorem filterMap_seen {α : Type} {picked : Sight → Option α} {pick : Fragment → Option α}
    (same : ∀ sight, picked sight = if sight.seen then pick sight.fragment else none) (all : List Sight) :
    all.filterMap picked = ((all.filter (·.seen)).map (·.fragment)).filterMap pick := by
  induction all with
  | nil => rfl
  | cons sight rest ih =>
    rw [List.filterMap_cons, same, ih, List.filter_cons]
    cases sight.seen with
    | false => rfl
    | true =>
      rw [if_pos rfl, if_pos rfl, List.map_cons, List.filterMap_cons]

theorem assignment?_eq (sight : Sight) :
    sight.assignment? = if sight.seen then sight.fragment.assignment? else none := by
  obtain ⟨fragment, seen⟩ := sight
  cases fragment with
  | assign name value => rfl
  | _ => exact (ite_self none).symm

theorem choice?_eq (sight : Sight) :
    sight.choice? = if sight.seen then sight.fragment.choice? else none := by
  obtain ⟨fragment, seen⟩ := sight
  cases fragment with
  | choice c => rfl
  | _ => exact (ite_self none).symm

theorem action?_eq (sight : Sight) :
    sight.action? = if sight.seen then sight.fragment.action? else none := by
  obtain ⟨fragment, seen⟩ := sight
  cases fragment with
  | action a => rfl
  | _ => exact (ite_self none).symm

/- An assignment changes the variables where it is seen, and nothing else does. -/
theorem behind_values (gate : Gate) (values : Variables) (body : List Fragment) :
    (behind gate values body).2 = values.insertMany
      (((sights gate values body).1.filterMap (·.assignment?)).map fun a => (a.name, a.value)) := by
  induction body generalizing gate values with
  | nil => rfl
  | cons fragment rest ih =>
    refine (ih _ _).trans ?_
    cases fragment with
    | assign name value =>
      have first : (sights gate values (.assign name value :: rest)).1 = ⟨.assign name value, gate.isOpen⟩ ::
          (sights gate (if gate.isOpen then values.insert name value else values) rest).1 := rfl
      rw [first, List.filterMap_cons, assignment?_eq]
      cases opened : gate.isOpen with
      | true => rfl
      | false => rfl
    | _ => rfl

theorem sights_values (gate : Gate) (values : Variables) (body : List Fragment) :
    (sights gate values body).2 = (behind gate values body).2 := by
  induction body generalizing gate values with
  | nil => rfl
  | cons fragment rest ih => exact ih _ _

/-- What the gate lets through behind all that stands before a place. -/
def visibleAt (values : Variables) (body : List Fragment) (i : Nat) : Bool :=
  (behind .start values (body.take i)).1.isOpen

theorem marked_congr {visible other : Nat → Bool} (same : ∀ i < body.length, visible i = other i) :
    marked visible body = marked other body := by
  refine List.mapIdx_eq_mapIdx_iff.2 fun i within => ?_
  rw [same i within]

theorem assigned_congr {visible other : Nat → Bool} (same : ∀ i < body.length, visible i = other i) :
    assigned values visible body = assigned values other body := by
  rw [assigned, assigned, shown, shown, marked_congr same]

/- The part of a body before a place is read as it is in the body. -/
theorem behind_front {rest : List Fragment} (parts : body = front ++ rest) :
    (behind .start values front).2 = assigned values (visibleAt values body) front := by
  have same : ∀ i < front.length, visibleAt values body i = visibleAt values front i := by
    intro i within
    rw [visibleAt, visibleAt, parts, List.take_append_of_le_length (Nat.le_of_lt within)]
  rw [assigned_congr same, behind_values, sights_eq_marked, filterMap_seen assignment?_eq]
  rfl

/- A block that has been begun and not ended is open, or one that has been begun in it. -/
theorem inBlock_of_unended (unended : .endBlock ∉ back) {isOpen : Bool} :
    (behind ⟨true, isOpen⟩ values back).1.inBlock = true := by
  induction back generalizing isOpen values with
  | nil => rfl
  | cons fragment rest ih =>
    have unended' : .endBlock ∉ rest := fun member => unended (List.mem_cons_of_mem _ member)
    cases fragment with
    | endBlock => exact absurd List.mem_cons_self unended
    | _ => exact ih unended'

theorem openBlock_of_unended (parts : before = front ++ .ifBlock condition :: back)
    (unended : .endBlock ∉ back) :
    ∃ front condition back, OpenBlock before front condition back := by
  refine (openBlock_or_start .empty before).resolve_right fun start => ?_
  have inBlock : (behind ⟨true, condition.any (·.holds (behind .start .empty front).2)⟩
      (behind .start .empty front).2 back).1.inBlock = true := inBlock_of_unended unended
  rw [parts, behind_append] at start
  exact absurd (inBlock.symm.trans (congrArg Gate.inBlock start)) (by decide)

/- What the gate lets through is a reading. -/
theorem reading_visibleAt (values : Variables) (body : List Fragment) :
    Reading values body (visibleAt values body) := by
  constructor
  · intro i _ ended
    rcases openBlock_or_start values (body.take i) with ⟨front, condition, back, opens⟩ | start
    · exact absurd (ended front condition back opens.parts) opens.unended
    · rw [visibleAt, start]
      rfl
  · intro i _ front condition back opens
    have parts : body = front ++ (.ifBlock condition :: back ++ body.drop i) := by
      rw [← List.append_assoc, ← opens.parts, List.take_append_drop]
    rw [visibleAt, behind_of_openBlock opens, behind_front parts]

/- By induction on the places: a reading knows at a place what it says of those before. -/
theorem Reading.eq_visibleAt {visible : Nat → Bool} (reading : Reading values body visible) :
    ∀ i < body.length, visible i = visibleAt values body i := by
  intro i
  induction i using Nat.strongRecOn with
  | ind i ih =>
    intro within
    by_cases opened : ∃ front condition back, OpenBlock (body.take i) front condition back
    · obtain ⟨front, condition, back, opens⟩ := opened
      have shorter : front.length < i := by
        have lengths := congrArg List.length opens.parts
        simp only [List.length_take, List.length_append, List.length_cons] at lengths
        omega
      have same : ∀ j < front.length, visible j = visibleAt values body j :=
        fun j before => ih j (Nat.lt_trans before shorter) (by omega)
      rw [reading.inside i within front condition back opens,
        (reading_visibleAt values body).inside i within front condition back opens, assigned_congr same]
    · have ended : ∀ front condition back, body.take i = front ++ .ifBlock condition :: back →
          .endBlock ∈ back := by
        intro front condition back parts
        by_contra unended
        exact opened (openBlock_of_unended parts unended)
      rw [reading.outside i within ended, (reading_visibleAt values body).outside i within ended]

/- A body has a reading, and what an evaluation shows is what any reading calls visible: the choices, actions
and assignments among the visible pieces in order, the text of the pieces marked so, and the variables after
the visible assignments. -/
theorem evaluate_reads (body : List Fragment) (values : Variables) :
    (∃ visible, Reading values body visible) ∧ ∀ visible, Reading values body visible →
      (evaluate body values).1 = .ofSights (marked visible body) ∧
      (evaluate body values).1.choices = (shown visible body).filterMap (·.choice?) ∧
      (evaluate body values).1.actions = (shown visible body).filterMap (·.action?) ∧
      (evaluate body values).1.assignments = (shown visible body).filterMap (·.assignment?) ∧
      (evaluate body values).2 = values.insertMany
        ((evaluate body values).1.assignments.map fun a => (a.name, a.value)) := by
  refine ⟨⟨_, reading_visibleAt values body⟩, fun visible reading => ?_⟩
  have seen : (sights .start values body).1 = marked visible body := by
    rw [sights_eq_marked, marked_congr reading.eq_visibleAt]
    rfl
  have evaluation : (evaluate body values).1 = .ofSights (marked visible body) :=
    congrArg Evaluation.ofSights seen
  refine ⟨evaluation, ?_, ?_, ?_, ?_⟩
  · rw [evaluation]
    exact filterMap_seen choice?_eq _
  · rw [evaluation]
    exact filterMap_seen action?_eq _
  · rw [evaluation]
    exact filterMap_seen assignment?_eq _
  · exact (sights_values .start values body).trans (behind_values .start values body)

/- A visible assignment is read by the next condition of the same body, and a second turn shows again what the
first one has hidden. -/
theorem evaluate_reads_turned :
    let body := [.assign "x" (.bool true), .ifBlock (some ⟨"x", false, none⟩), .elseBlock,
      .assign "x" (.bool false), .elseBlock, .assign "y" (.bool true), .endBlock, .elseBlock,
      .assign "z" (.bool true)]
    Reading .empty body (visibleAt .empty body) ∧
      (evaluate body .empty).1.assignments = (shown (visibleAt .empty body) body).filterMap (·.assignment?) ∧
      (evaluate body .empty).1.assignments =
        [⟨"x", .bool true⟩, ⟨"y", .bool true⟩, ⟨"z", .bool true⟩] := by
  intro body
  have reading := reading_visibleAt .empty body
  exact ⟨reading, ((evaluate_reads body .empty).2 _ reading).2.2.2.1, by decide⟩

end ChatStory
