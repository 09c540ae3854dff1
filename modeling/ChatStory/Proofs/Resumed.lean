import ChatStory.Progress
import ChatStory.Proofs.Queue

/-!
Timelines that are put back. The tasks come back in their order at their times, since none of them is
saved behind a later one. The times noted for the contacts are not saved: a contact's last task
gives its time again, and the time of a task that was fired lies in the past.
-/
namespace ChatStory

/-- A task on the timeline as it is saved. -/
def Slot.saved (slot : Slot) : SavedTask := ⟨slot.task.contact, slot.time, slot.task.delivery⟩

/-- A saved task as it is put back in an epoch. -/
def SavedTask.slot (epoch : Nat) (pending : SavedTask) : Slot :=
  ⟨pending.time, ⟨pending.contact, epoch, pending.delivery⟩⟩

namespace Queue

def listed (q : Queue) : List SavedTask := q.slots.map Slot.saved

/-- Saved tasks put on the timeline one after the other. -/
def resume (q : Queue) (epoch : Nat) (saved : List SavedTask) : Queue :=
  saved.foldl (fun q pending => q.schedule pending.time ⟨pending.contact, epoch, pending.delivery⟩) q

/-- The time noted for a contact has been reached, or is that of its last task. -/
def Floored (clock : Nat) (q : Queue) : Prop := ∀ c, q.latest.getD c 0 ≤ clock ∨
  ∃ slot, (q.lane c).getLast? = some slot ∧ slot.time = q.latest.getD c 0

variable {q r : Queue} {clock : Nat}

theorem floored_empty (clock : Nat) : Floored clock ∅ := fun _ => .inl (Nat.zero_le clock)

theorem Floored.later (floored : q.Floored clock) {now : Nat} (later : clock ≤ now) : q.Floored now := by
  intro c
  rcases floored c with reached | last
  · exact .inl (Nat.le_trans reached later)
  · exact .inr last

theorem floored_schedule (bounded : q.Bounded) (floored : q.Floored clock) (time : Nat) (task : Task) :
    (q.schedule time task).Floored clock := by
  intro c
  rw [latest_schedule]
  by_cases own : c = task.contact
  · subst own
    right
    refine ⟨⟨q.effectiveTime task.contact time, task⟩, ?_, by rw [if_pos rfl]⟩
    rw [lane_schedule bounded, List.getLast?_concat]
  · rw [if_neg own, lane_schedule_other q time fun same => own same.symm]
    exact floored c

/- A task that is taken when its time has come leaves no time noted that is still ahead. -/
theorem floored_rest (floored : q.Floored clock) {slot : Slot} (next : q.next? = some slot)
    (due : slot.time ≤ clock) : q.rest.Floored clock := by
  intro c
  change q.latest.getD c 0 ≤ clock ∨ ∃ slot, (q.rest.lane c).getLast? = some slot ∧
    slot.time = q.latest.getD c 0
  rcases floored c with reached | ⟨last, found, same⟩
  · exact .inl reached
  · rw [lane_rest next, List.getLast?_append] at found
    cases behind : (q.rest.lane c).getLast? with
    | some other =>
      rw [behind, Option.some_or] at found
      right
      exact ⟨other, rfl, (congrArg Slot.time (Option.some.inj found)).trans same⟩
    | none =>
      left
      rw [behind, Option.none_or] at found
      split at found
      · rw [List.getLast?_singleton] at found
        cases found
        rw [← same]
        exact due
      · cases found

theorem Extended.floored {fit : Task → Prop} (extended : Extended fit q r) (bounded : q.Bounded)
    (floored : q.Floored clock) : r.Floored clock := by
  induction extended with
  | refl => exact floored
  | schedule time before _ ih => exact floored_schedule (before.bounded bounded) ih time _

theorem place_last {slot : Slot} {slots : List Slot}
    (before : ∀ other ∈ slots, other.time ≤ slot.time) : place slot slots = slots ++ [slot] := by
  induction slots with
  | nil => rfl
  | cons first rest ih =>
    unfold place
    rw [if_pos (before first List.mem_cons_self),
      ih fun other member => before other (List.mem_cons_of_mem first member)]
    rfl

theorem effectiveTime_of_last (floored : q.Floored 0) {contact : String} {time : Nat}
    (before : ∀ slot ∈ q.slots, slot.time ≤ time) : q.effectiveTime contact time = time := by
  apply Nat.max_eq_left
  rcases floored contact with reached | ⟨slot, last, same⟩
  · omega
  · rw [← same]
    exact before slot (mem_lane.1 (List.mem_of_getLast? last)).1

/- By induction on the saved tasks: none of them comes before what is already on the timeline. -/
theorem resume_ascending (bounded : q.Bounded) (floored : q.Floored 0) (epoch : Nat)
    {saved : List SavedTask} (ascending : saved.Pairwise fun a b => a.time ≤ b.time)
    (behind : ∀ pending ∈ saved, ∀ slot ∈ q.slots, slot.time ≤ pending.time) :
    (q.resume epoch saved).slots = q.slots ++ saved.map (·.slot epoch) ∧
      (q.resume epoch saved).Bounded ∧ (q.resume epoch saved).Floored 0 := by
  induction saved generalizing q with
  | nil => exact ⟨(List.append_nil _).symm, bounded, floored⟩
  | cons pending rest ih =>
    obtain ⟨least, ascending⟩ := List.pairwise_cons.1 ascending
    let task : Task := ⟨pending.contact, epoch, pending.delivery⟩
    have early := behind pending List.mem_cons_self
    have kept : q.effectiveTime pending.contact pending.time = pending.time :=
      effectiveTime_of_last floored early
    have placed : (q.schedule pending.time task).slots = q.slots ++ [pending.slot epoch] := by
      change place ⟨q.effectiveTime pending.contact pending.time, task⟩ q.slots = _
      rw [kept]
      exact place_last early
    have later : ∀ other ∈ rest, ∀ slot ∈ (q.schedule pending.time task).slots,
        slot.time ≤ other.time := by
      intro other member slot waits
      rw [placed] at waits
      rcases List.mem_append.1 waits with before | own
      · exact behind other (List.mem_cons_of_mem pending member) slot before
      · rw [List.mem_singleton.1 own]
        exact least other member
    obtain ⟨slots, rest_kept⟩ := ih (bounded_schedule bounded _ task)
      (floored_schedule bounded floored _ task) ascending later
    refine ⟨?_, rest_kept⟩
    change ((q.schedule pending.time task).resume epoch rest).slots = _
    rw [slots, placed, List.append_assoc, List.map_cons]
    rfl

/- What is put back on an empty timeline is the timeline that was saved. -/
theorem resume_empty (epoch : Nat) {saved : List SavedTask}
    (ascending : saved.Pairwise fun a b => a.time ≤ b.time) :
    (resume ∅ epoch saved).slots = saved.map (·.slot epoch) ∧
      (resume ∅ epoch saved).listed = saved ∧ (resume ∅ epoch saved).Bounded ∧
        (resume ∅ epoch saved).Floored 0 := by
  obtain ⟨slots, kept⟩ := resume_ascending bounded_empty (floored_empty 0) epoch ascending
    fun _ _ => List.forall_mem_nil _
  have whole : (resume ∅ epoch saved).slots = saved.map (·.slot epoch) := slots
  refine ⟨whole, ?_, kept⟩
  rw [listed, whole, List.map_map]
  exact List.map_id saved

/-- What is asked of a timeline. -/
inductive Request where
  | pop (now : Nat)
  | schedule (time : Nat) (contact : String) (delivery : Delivery)

/-- Nothing is asked for before the clock. -/
def Request.From (clock : Nat) : Request → Prop
  | pop _ => True
  | schedule time _ _ => clock ≤ time

/-- The task that is taken, or the one that is put on the timeline with the time that it gets, and
the timeline after that. -/
def answer (q : Queue) (epoch : Nat) : Request → Option SavedTask × Queue
  | .pop now => match q.due? now with
    | some slot => (some slot.saved, q.rest)
    | none => (none, q)
  | .schedule time contact delivery =>
    (some ⟨contact, q.effectiveTime contact time, delivery⟩,
      q.schedule time ⟨contact, epoch, delivery⟩)

/-- The answers to some requests, each with what is then on the timeline, in order. -/
def answers (q : Queue) (epoch : Nat) : List Request → List (Option SavedTask × List SavedTask)
  | [] => []
  | request :: rest =>
    ((q.answer epoch request).1, (q.answer epoch request).2.listed) ::
      (q.answer epoch request).2.answers epoch rest

/-- The same tasks in the same order, and the same times noted but for those that have passed. -/
structure Alike (clock : Nat) (q r : Queue) : Prop where
  listed : q.listed = r.listed
  floors : ∀ c, max clock (q.latest.getD c 0) = max clock (r.latest.getD c 0)

theorem lane_listed (q : Queue) (contact : String) :
    (q.lane contact).map Slot.saved = q.listed.filter (·.contact == contact) := by
  rw [listed, List.filter_map]
  rfl

theorem time_of_last {contact : String} {slot : Slot} (bounded : q.Bounded)
    (last : (q.lane contact).getLast? = some slot) : slot.time ≤ q.latest.getD contact 0 := by
  obtain ⟨member, own⟩ := mem_lane.1 (List.mem_of_getLast? last)
  rw [← own]
  exact bounded slot member

/- A time that was noted and is still ahead is that of a task, which both timelines list. -/
theorem floor_le {now : Nat} (listed : q.listed = r.listed) (bounded : r.Bounded)
    (floored : q.Floored now) (contact : String) :
    q.latest.getD contact 0 ≤ max now (r.latest.getD contact 0) := by
  rcases floored contact with reached | ⟨slot, last, same⟩
  · exact Nat.le_trans reached (Nat.le_max_left _ _)
  · have lanes : (q.lane contact).map Slot.saved = (r.lane contact).map Slot.saved := by
      rw [lane_listed, lane_listed, listed]
    have ends : ((r.lane contact).map Slot.saved).getLast? = some slot.saved := by
      rw [← lanes, List.getLast?_map, last]
      rfl
    rw [List.getLast?_map] at ends
    obtain ⟨other, found, saved⟩ := Option.map_eq_some_iff.1 ends
    have time : other.time = slot.time := congrArg SavedTask.time saved
    rw [← same, ← time]
    exact Nat.le_trans (time_of_last bounded found) (Nat.le_max_right _ _)

theorem alike_of_listed {now : Nat} (listed : q.listed = r.listed) (q_bounded : q.Bounded)
    (r_bounded : r.Bounded) (q_floored : q.Floored now) (r_floored : r.Floored now) :
    Alike now q r := by
  refine ⟨listed, ?_⟩
  intro contact
  have first := floor_le listed r_bounded q_floored contact
  have second := floor_le listed.symm q_bounded r_floored contact
  omega

theorem map_place (slot : Slot) (slots : List Slot) {others : List Slot} {other : Slot}
    (saved : slot.saved = other.saved) (same : slots.map Slot.saved = others.map Slot.saved) :
    (place slot slots).map Slot.saved = (place other others).map Slot.saved := by
  have time : slot.time = other.time := congrArg SavedTask.time saved
  induction slots generalizing others with
  | nil =>
    rw [List.map_nil, eq_comm, List.map_eq_nil_iff] at same
    subst same
    simp only [place, List.map_cons, List.map_nil, saved]
  | cons first rest ih =>
    cases others with
    | nil => cases same
    | cons second tail =>
      obtain ⟨heads, tails⟩ := List.cons.inj same
      have times : first.time = second.time := congrArg SavedTask.time heads
      unfold place
      rw [time, times]
      split
      · rw [List.map_cons, List.map_cons, heads, ih tails]
      · simp only [List.map_cons, saved, heads, tails]

/- Alike timelines answer a request alike, and stay alike. -/
theorem answer_of_alike {now : Nat} (alike : Alike now q r) (e f : Nat) {request : Request}
    (later : request.From now) : (q.answer e request).1 = (r.answer f request).1 ∧
      Alike now (q.answer e request).2 (r.answer f request).2 := by
  cases request with
  | pop at_time =>
    have firsts : q.next?.map Slot.saved = r.next?.map Slot.saved := by
      have heads := congrArg List.head? alike.listed
      rw [listed, listed, List.head?_map, List.head?_map] at heads
      exact heads
    have rests : q.rest.listed = r.rest.listed := by
      have tails := congrArg List.tail alike.listed
      rw [listed, listed, ← List.map_tail, ← List.map_tail] at tails
      exact tails
    have dues : (q.due? at_time).map Slot.saved = (r.due? at_time).map Slot.saved := by
      have filtered := congrArg (Option.filter fun pending => pending.time ≤ at_time) firsts
      rw [Option.filter_map, Option.filter_map] at filtered
      exact filtered
    unfold answer
    dsimp only
    cases due : q.due? at_time with
    | none =>
      rw [due, Option.map_none, eq_comm, Option.map_eq_none_iff] at dues
      rw [dues]
      exact ⟨rfl, alike⟩
    | some slot =>
      rw [due, Option.map_some, eq_comm] at dues
      obtain ⟨other, found, saved⟩ := Option.map_eq_some_iff.1 dues
      rw [found]
      exact ⟨congrArg some saved.symm, rests, alike.floors⟩
  | schedule time contact delivery =>
    have ahead : now ≤ time := later
    have floors := alike.floors contact
    have times : q.effectiveTime contact time = r.effectiveTime contact time := by
      unfold effectiveTime
      omega
    refine ⟨by simp only [answer, times], ?_, ?_⟩
    · apply map_place _ _ _ alike.listed
      simp only [Slot.saved, times]
    · intro other
      simp only [answer, latest_schedule, times]
      split
      · rfl
      · exact alike.floors other

theorem answers_of_alike {now : Nat} (alike : Alike now q r) (e f : Nat) {requests : List Request}
    (later : ∀ request ∈ requests, request.From now) : q.answers e requests = r.answers f requests := by
  induction requests generalizing q r with
  | nil => rfl
  | cons request rest ih =>
    obtain ⟨first, others⟩ := List.forall_mem_cons.1 later
    obtain ⟨same, after⟩ := answer_of_alike alike e f first
    unfold answers
    rw [same, after.listed, ih after others]

end Queue
end ChatStory
