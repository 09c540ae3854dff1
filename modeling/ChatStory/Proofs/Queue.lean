import ChatStory.Proofs.Table
import ChatStory.Queue

/-!
Lanes. The tasks of one contact keep the order in which they were scheduled: a new task goes to the
end of its contact's lane, and the lanes of all others stay as they are.
-/
namespace ChatStory.Queue

/-- The tasks of a contact in the order in which they will be fired. -/
def lane (q : Queue) (contact : String) : List Slot :=
  q.slots.filter (·.task.contact == contact)

/-- No task comes after the time noted for its contact. -/
def Bounded (q : Queue) : Prop := ∀ slot ∈ q.slots, slot.time ≤ q.latest.getD slot.task.contact 0

theorem mem_lane {q : Queue} {contact : String} {slot : Slot} :
    slot ∈ q.lane contact ↔ slot ∈ q.slots ∧ slot.task.contact = contact := by
  simp [lane]

theorem filter_place_of_not {slot : Slot} {p : Slot → Bool} (other : p slot = false)
    (slots : List Slot) : (place slot slots).filter p = slots.filter p := by
  induction slots with
  | nil => simp [place, other]
  | cons first rest ih =>
    unfold place
    split
    · rw [List.filter_cons, List.filter_cons, ih]
    · rw [List.filter_cons, if_neg (by simp [other])]

theorem filter_place {slot : Slot} {p : Slot → Bool} (own : p slot = true) {slots : List Slot}
    (before : ∀ other ∈ slots, p other = true → other.time ≤ slot.time)
    (ascending : slots.Pairwise fun a b => a.time ≤ b.time) :
    (place slot slots).filter p = slots.filter p ++ [slot] := by
  induction slots with
  | nil => simp [place, own]
  | cons first rest ih =>
    obtain ⟨least, ascending⟩ := List.pairwise_cons.1 ascending
    have tail := ih (fun other member => before other (List.mem_cons_of_mem first member)) ascending
    unfold place
    split
    · rw [List.filter_cons, List.filter_cons, tail]
      split <;> rfl
    · rename_i later
      have none : (first :: rest).filter p = [] := by
        rw [List.filter_eq_nil_iff]
        intro other member mine
        have early := before other member mine
        rcases List.mem_cons.1 member with rfl | member
        · exact later early
        · exact later (Nat.le_trans (least other member) early)
      rw [List.filter_cons, if_pos own, none]
      rfl

theorem mem_schedule {q : Queue} {time : Nat} {task : Task} {slot : Slot} :
    slot ∈ (q.schedule time task).slots ↔
      slot = ⟨q.effectiveTime task.contact time, task⟩ ∨ slot ∈ q.slots := by
  rw [(q.schedule_perm time task).mem_iff, List.mem_cons]

theorem latest_schedule (q : Queue) (time : Nat) (task : Task) (contact : String) :
    (q.schedule time task).latest.getD contact 0 =
      if contact = task.contact then q.effectiveTime task.contact time
      else q.latest.getD contact 0 := by
  simp only [schedule, Table.getD, Table.get?_insert]
  split <;> rfl

theorem bounded_empty : Bounded ∅ := by
  intro slot member
  cases member

theorem bounded_schedule {q : Queue} (bounded : q.Bounded) (time : Nat) (task : Task) :
    (q.schedule time task).Bounded := by
  intro slot member
  rw [latest_schedule]
  rcases mem_schedule.1 member with rfl | member
  · exact Nat.le_of_eq (if_pos rfl).symm
  · have before := bounded slot member
    split
    · rename_i same
      rw [same] at before
      exact Nat.le_trans before (Nat.le_max_right _ _)
    · exact before

theorem bounded_rest {q : Queue} (bounded : q.Bounded) : q.rest.Bounded := by
  intro slot member
  exact bounded slot (List.mem_of_mem_tail member)

theorem lane_schedule_other (q : Queue) (time : Nat) {task : Task} {contact : String}
    (other : task.contact ≠ contact) : (q.schedule time task).lane contact = q.lane contact :=
  filter_place_of_not (by simpa using other) q.slots

theorem lane_schedule {q : Queue} (bounded : q.Bounded) (time : Nat) (task : Task) :
    (q.schedule time task).lane task.contact =
      q.lane task.contact ++ [⟨q.effectiveTime task.contact time, task⟩] := by
  apply filter_place
  · simp
  · intro other member own
    have before := bounded other member
    have same : other.task.contact = task.contact := by simpa using own
    rw [same] at before
    exact Nat.le_trans before (Nat.le_max_right _ _)
  · exact q.ascending

theorem lane_rest {q : Queue} {slot : Slot} (next : q.next? = some slot) (contact : String) :
    q.lane contact =
      (if slot.task.contact = contact then [slot] else []) ++ q.rest.lane contact := by
  unfold lane
  rw [slots_of_next next, List.filter_cons]
  by_cases own : slot.task.contact = contact <;> simp [own]

/-- The tasks of a contact, whatever their times. -/
def tasksOf (q : Queue) (contact : String) : List Task := (q.lane contact).map (·.task)

theorem tasksOf_schedule {q : Queue} (bounded : q.Bounded) (time : Nat) (task : Task)
    (contact : String) : (q.schedule time task).tasksOf contact =
      q.tasksOf contact ++ if task.contact = contact then [task] else [] := by
  unfold tasksOf
  split
  · rename_i own
    subst own
    rw [lane_schedule bounded, List.map_append]
    rfl
  · rename_i other
    rw [lane_schedule_other q time other, List.append_nil]

theorem tasksOf_rest {q : Queue} {slot : Slot} (next : q.next? = some slot) (contact : String) :
    q.tasksOf contact =
      (if slot.task.contact = contact then [slot.task] else []) ++ q.rest.tasksOf contact := by
  unfold tasksOf
  rw [lane_rest next, List.map_append]
  split <;> rfl

theorem tasksOf_eq_nil {q : Queue} : (∀ contact, q.tasksOf contact = []) ↔ q.slots = [] := by
  constructor
  · intro none
    rw [List.eq_nil_iff_forall_not_mem]
    intro slot member
    have lane := mem_lane.2 ⟨member, rfl⟩
    rw [List.map_eq_nil_iff.1 (none slot.task.contact)] at lane
    cases lane
  · intro empty contact
    rw [tasksOf, lane, empty]
    rfl

/- Where only one contact has tasks, its tasks are all of them. -/
theorem tasksOf_of_alone {q : Queue} {contact : String}
    (alone : ∀ slot ∈ q.slots, slot.task.contact = contact) :
    q.tasksOf contact = q.slots.map (·.task) := by
  have whole : q.lane contact = q.slots :=
    List.filter_eq_self.2 fun slot member => by simpa using alone slot member
  rw [tasksOf, whole]

/-- What comes of a queue when only tasks that fit are added to it. -/
inductive Extended (fit : Task → Prop) (q : Queue) : Queue → Prop where
  | refl : Extended fit q q
  | schedule {r : Queue} (time : Nat) {task : Task} :
    Extended fit q r → fit task → Extended fit q (r.schedule time task)

namespace Extended

variable {fit : Task → Prop} {q r s : Queue}

theorem trans (first : Extended fit q r) (second : Extended fit r s) : Extended fit q s := by
  induction second with
  | refl => exact first
  | schedule time _ fits ih => exact ih.schedule time fits

theorem weaken {wider : Task → Prop} (weaker : ∀ task, fit task → wider task)
    (extended : Extended fit q r) : Extended wider q r := by
  induction extended with
  | refl => exact .refl
  | schedule time _ fits ih => exact ih.schedule time (weaker _ fits)

theorem bounded (extended : Extended fit q r) (bounded : q.Bounded) : r.Bounded := by
  induction extended with
  | refl => exact bounded
  | schedule time _ _ ih => exact bounded_schedule ih time _

theorem mem (extended : Extended fit q r) {slot : Slot} (member : slot ∈ r.slots) :
    slot ∈ q.slots ∨ fit slot.task := by
  induction extended with
  | refl => exact .inl member
  | schedule time _ fits ih =>
    rcases mem_schedule.1 member with rfl | member
    · exact .inr fits
    · exact ih member

theorem stays (extended : Extended fit q r) {slot : Slot} (member : slot ∈ q.slots) :
    slot ∈ r.slots := by
  induction extended with
  | refl => exact member
  | schedule time _ _ ih => exact mem_schedule.2 (.inr ih)

/- What was in a lane stays at its front. -/
theorem lane (extended : Extended fit q r) (bounded : q.Bounded) (contact : String) :
    q.lane contact <+: r.lane contact := by
  induction extended with
  | refl => exact List.prefix_rfl
  | @schedule r time task before _ ih =>
    by_cases own : task.contact = contact
    · subst own
      rw [lane_schedule (before.bounded bounded)]
      exact ih.trans (List.prefix_append _ _)
    · rw [lane_schedule_other r time own]
      exact ih

end Extended
end ChatStory.Queue
