import ChatStory.Action

/-!
The timeline. Tasks wait in order of their times, and tasks of one time in the order in which
they came. A contact's tasks never overtake each other: a task asked for earlier than the
contact's latest one gets the time of that one.
-/
namespace ChatStory

/-- What is done for a contact at some time. -/
inductive Delivery where
  | typing
  | reply (text : String)
  | payload (action : Action)
  | notices
deriving DecidableEq

/-- A task belongs to the epoch in which it was scheduled. -/
structure Task where
  contact : String
  epoch : Nat
  delivery : Delivery
deriving DecidableEq

structure Slot where
  time : Nat
  task : Task
deriving DecidableEq

structure Queue where
  slots : List Slot
  /-- The time of the task that was scheduled last for each contact. -/
  latest : Table String Nat
  ascending : slots.Pairwise fun a b => a.time ≤ b.time
deriving DecidableEq

namespace Queue

def empty : Queue := ⟨[], ∅, .nil⟩

instance : EmptyCollection Queue := ⟨empty⟩
instance : Inhabited Queue := ⟨empty⟩

/-- Places a slot behind all that are not later. -/
def place (slot : Slot) : List Slot → List Slot
  | [] => [slot]
  | first :: rest =>
    if first.time ≤ slot.time then first :: place slot rest else slot :: first :: rest

theorem place_perm (slot : Slot) (slots : List Slot) : (place slot slots).Perm (slot :: slots) := by
  induction slots with
  | nil => exact .refl _
  | cons first rest ih =>
    simp only [place]
    split
    · exact (ih.cons first).trans (.swap slot first rest)
    · exact .refl _

theorem place_ascending (slot : Slot) {slots : List Slot}
    (h : slots.Pairwise fun a b => a.time ≤ b.time) :
    (place slot slots).Pairwise fun a b => a.time ≤ b.time := by
  induction slots with
  | nil => simp [place]
  | cons first rest ih =>
    obtain ⟨hf, hr⟩ := List.pairwise_cons.1 h
    simp only [place]
    split
    · refine List.pairwise_cons.2 ⟨fun other ho => ?_, ih hr⟩
      rcases List.mem_cons.1 ((place_perm slot rest).mem_iff.1 ho) with rfl | ho
      · assumption
      · exact hf other ho
    · refine List.pairwise_cons.2 ⟨fun other ho => ?_, h⟩
      rcases List.mem_cons.1 ho with rfl | ho
      · omega
      · have := hf other ho
        omega

/-- The time that a task gets when it is asked for at `time`. -/
def effectiveTime (q : Queue) (contact : String) (time : Nat) : Nat :=
  max time (q.latest.getD contact 0)

def schedule (q : Queue) (time : Nat) (task : Task) : Queue :=
  let time := q.effectiveTime task.contact time
  ⟨place ⟨time, task⟩ q.slots, q.latest.insert task.contact time, place_ascending _ q.ascending⟩

def next? (q : Queue) : Option Slot := q.slots.head?

def nextTime? (q : Queue) : Option Nat := q.next?.map (·.time)

/-- Without the task that comes first. -/
def rest (q : Queue) : Queue := ⟨q.slots.tail, q.latest, q.ascending.tail⟩

/-- The task that comes first, if it is due. -/
def due? (q : Queue) (now : Nat) : Option Slot := q.next?.filter (·.time ≤ now)

def size (q : Queue) : Nat := q.slots.length

theorem schedule_perm (q : Queue) (time : Nat) (task : Task) :
    (q.schedule time task).slots.Perm
      (⟨q.effectiveTime task.contact time, task⟩ :: q.slots) :=
  place_perm _ _

theorem time_le_effectiveTime (q : Queue) (contact : String) (time : Nat) :
    time ≤ q.effectiveTime contact time :=
  Nat.le_max_left _ _

theorem slots_of_next {q : Queue} {slot : Slot} (h : q.next? = some slot) :
    q.slots = slot :: q.rest.slots := by
  obtain ⟨slots, _, _⟩ := q
  cases slots with
  | nil => simp [next?] at h
  | cons first rest => simp_all [next?, Queue.rest]

/-- Nothing that waits comes before the first task. -/
theorem time_le_of_next {q : Queue} {slot other : Slot} (h : q.next? = some slot)
    (ho : other ∈ q.slots) : slot.time ≤ other.time := by
  have hs := slots_of_next h
  have ha := q.ascending
  rw [hs] at ho ha
  rcases List.mem_cons.1 ho with rfl | ho
  · exact Nat.le_refl _
  · exact (List.pairwise_cons.1 ha).1 other ho

end Queue
end ChatStory
