import ChatStory.Proofs.Session.Granularity
import ChatStory.Proofs.Session.Parallel

/-!
Stories that are abreast: the same is known in both, the same has been said, and the same tasks wait for
each contact. On one clock the tasks come up at the same times, and what one story does the other one
does too. Without a clock tasks may come up at any times, and the stories stay abreast as long as the
tasks of different contacts are fired in the same order.
-/
namespace ChatStory

/-- What is told by a message: its text, its kind, who says it, and what is shown with it. -/
def Message.gist (m : Message) : String × MessageKind × Bool × Option String :=
  (m.text, m.kind, m.fromPlayer, m.media)

/-- Times on one clock meet if they are the same and have not passed. Without a clock all times do. -/
def Meet (clock : Option Nat) (x y : Nat) : Prop := ∀ now ∈ clock, x = y ∧ now ≤ x

namespace Meet

variable {clock : Option Nat} {x y z w : Nat}

theorem add (meet : Meet clock x y) (delay : Nat) : Meet clock (x + delay) (y + delay) := by
  intro now reads
  obtain ⟨same, after⟩ := meet now reads
  omega

theorem max (first : Meet clock x y) (second : Meet clock z w) :
    Meet clock (max x z) (max y w) := by
  intro now reads
  obtain ⟨same, after⟩ := first now reads
  obtain ⟨same', _⟩ := second now reads
  rw [same, same'] at *
  omega

end Meet

namespace Queue

/-- The same tasks wait for each contact. On one clock all of them come up at the same times, and so
will those that are still to be added. -/
structure Abreast (clock : Option Nat) (q r : Queue) : Prop where
  left : q.Bounded
  right : r.Bounded
  tasks : ∀ contact, q.tasksOf contact = r.tasksOf contact
  slots : ∀ now ∈ clock, q.slots = r.slots ∧ ∀ slot ∈ q.slots, now ≤ slot.time
  latest : ∀ now ∈ clock, ∀ contact,
    max now (q.latest.getD contact 0) = max now (r.latest.getD contact 0)

namespace Abreast

variable {clock : Option Nat} {q r : Queue}

/- Without a clock, all that counts is which tasks wait for each contact. -/
theorem of_tasks (left : q.Bounded) (right : r.Bounded)
    (tasks : ∀ contact, q.tasksOf contact = r.tasksOf contact) : q.Abreast none r :=
  ⟨left, right, tasks, nofun, nofun⟩

variable (abreast : q.Abreast clock r)

include abreast

theorem effectiveTime {x y : Nat} (meet : Meet clock x y) (contact : String) :
    Meet clock (q.effectiveTime contact x) (r.effectiveTime contact y) := by
  intro now reads
  obtain ⟨same, after⟩ := meet now reads
  have latest := abreast.latest now reads contact
  unfold Queue.effectiveTime
  omega

theorem schedule {x y : Nat} (meet : Meet clock x y) (task : Task) :
    (q.schedule x task).Abreast clock (r.schedule y task) := by
  have times := abreast.effectiveTime meet task.contact
  refine ⟨bounded_schedule abreast.left x task, bounded_schedule abreast.right y task, ?_, ?_, ?_⟩
  · intro contact
    rw [tasksOf_schedule abreast.left, tasksOf_schedule abreast.right, abreast.tasks]
  · intro now reads
    obtain ⟨same, after⟩ := times now reads
    obtain ⟨slots, late⟩ := abreast.slots now reads
    constructor
    · change place ⟨q.effectiveTime task.contact x, task⟩ q.slots =
        place ⟨r.effectiveTime task.contact y, task⟩ r.slots
      rw [same, slots]
    · intro slot member
      rcases mem_schedule.1 member with rfl | waits
      · exact after
      · exact late slot waits
  · intro now reads contact
    rw [latest_schedule, latest_schedule, (times now reads).1]
    split
    · rfl
    · exact abreast.latest now reads contact

theorem slots_eq_nil : q.slots = [] ↔ r.slots = [] := by
  rw [← tasksOf_eq_nil, ← tasksOf_eq_nil]
  simp only [abreast.tasks]

theorem rest {slot other : Slot} (next : q.next? = some slot) (second : r.next? = some other)
    (task : slot.task = other.task) : q.rest.Abreast clock r.rest := by
  refine ⟨bounded_rest abreast.left, bounded_rest abreast.right, ?_, ?_, abreast.latest⟩
  · intro contact
    have tasks := abreast.tasks contact
    rw [tasksOf_rest next, tasksOf_rest second, task] at tasks
    exact List.append_cancel_left tasks
  · intro now reads
    obtain ⟨slots, late⟩ := abreast.slots now reads
    exact ⟨congrArg List.tail slots, fun slot member => late slot (List.mem_of_mem_tail member)⟩

omit abreast

theorem next_timed {now : Nat} (abreast : q.Abreast (some now) r) {slot : Slot}
    (next : q.next? = some slot) : r.next? = some slot ∧ now ≤ slot.time := by
  obtain ⟨slots, late⟩ := abreast.slots now rfl
  constructor
  · rw [← next, next?, next?, slots]
  · apply late
    rw [slots_of_next next]
    exact List.mem_cons_self

include abreast

/- Where all tasks are of one contact, they wait in the same order. -/
theorem next_alone {contact : String} (own : ∀ slot ∈ q.slots, slot.task.contact = contact)
    {slot : Slot} (next : q.next? = some slot) :
    ∃ other, r.next? = some other ∧ slot.task = other.task := by
  have others : ∀ other ∈ r.slots, other.task.contact = contact := by
    intro other member
    have listed : other.task ∈ q.tasksOf other.task.contact := by
      rw [abreast.tasks]
      exact List.mem_map_of_mem (mem_lane.2 ⟨member, rfl⟩)
    obtain ⟨before, waits, same⟩ := List.mem_map.1 listed
    rw [← same]
    exact own before (mem_lane.1 waits).1
  have tasks := abreast.tasks contact
  rw [tasksOf_of_alone own, tasksOf_of_alone others] at tasks
  have heads : q.next?.map (·.task) = r.next?.map (·.task) := by
    rw [next?, next?, ← List.head?_map, ← List.head?_map, tasks]
  rw [next] at heads
  obtain ⟨other, second, same⟩ := Option.map_eq_some_iff.1 heads.symm
  exact ⟨other, second, same.symm⟩

end Abreast
end Queue

namespace Play

/-- The stories are abreast. -/
structure Abreast (program : Program) (clock : Option Nat) (entering : Option String) (a b : Play) :
    Prop extends Alike program entering a b where
  pace : a.progress.typingDelay = b.progress.typingDelay
  gists : ∀ c, (a.progress.history c).map Message.gist = (b.progress.history c).map Message.gist
  queues : a.queue.Abreast clock b.queue

namespace Abreast

variable {program : Program} {clock : Option Nat} {entering : Option String} {a b : Play}

theorem putThread (abreast : Abreast program clock none a b) (contact : String) {thread : ThreadState}
    (opens : thread = .active → entering = some contact) :
    Abreast program clock entering (a.putThread contact thread) (b.putThread contact thread) := by
  have alike : Alike program entering (a.putThread contact thread) (b.putThread contact thread) :=
    abreast.toAlike.putThread contact opens
  rw [putThread_eq a, putThread_eq b] at alike ⊢
  exact ⟨alike, abreast.pace, abreast.gists, abreast.queues⟩

theorem say (abreast : Abreast program clock entering a b) (contact : String) (saying : Saying)
    (x y : Nat) : Abreast program clock entering (a.say contact saying x) (b.say contact saying y) := by
  refine ⟨{ abreast.toAlike with }, abreast.pace, fun c => ?_, abreast.queues⟩
  rw [Speaks.history_say, Speaks.history_say]
  split
  · rw [List.map_append, List.map_append, abreast.gists]
    rfl
  · exact abreast.gists c

theorem setUnlocked (abreast : Abreast program clock entering a b) (contact : String) :
    Abreast program clock entering (a.setUnlocked contact) (b.setUnlocked contact) := by
  have alike := abreast.toAlike.setUnlocked contact
  rw [setUnlocked_eq a, setUnlocked_eq b] at alike ⊢
  exact ⟨alike, abreast.pace, abreast.gists, abreast.queues⟩

theorem schedule (abreast : Abreast program clock entering a b) {x y : Nat} (meet : Meet clock x y)
    (contact : String) (delivery : Delivery) :
    Abreast program clock entering (a.schedule contact x delivery)
      (b.schedule contact y delivery) := by
  have epoch : a.epoch = b.epoch := congrArg Mind.epoch abreast.mind
  refine { abreast with queues := ?_ }
  have queues := abreast.queues.schedule meet ⟨contact, b.epoch, delivery⟩
  rw [Play.schedule, Play.schedule, epoch]
  exact queues

theorem revise (abreast : Abreast program clock entering a b) {f g : Progress → Progress}
    (left : ∀ p, (f p).threadwise = p.threadwise) (right : ∀ p, (g p).threadwise = p.threadwise)
    (mind : (a.revise f).mind = (b.revise g).mind) :
    Abreast program clock entering (a.revise f) (b.revise g) := by
  have delay : ∀ {h : Progress → Progress}, (∀ p, (h p).threadwise = p.threadwise) →
      ∀ p, (h p).typingDelay = p.typingDelay := fun same p => congrArg (·.2.2.2.2) (same p)
  have history : ∀ {h : Progress → Progress}, (∀ p, (h p).threadwise = p.threadwise) →
      ∀ p c, (h p).history c = p.history c :=
    fun same p c => congrArg (fun whole => whole.1.getD c []) (same p)
  refine ⟨abreast.toAlike.revise left right mind, ?_, fun c => ?_, abreast.queues⟩
  · change (f a.progress).typingDelay = (g b.progress).typingDelay
    rw [delay left, delay right]
    exact abreast.pace
  · change ((f a.progress).history c).map Message.gist = ((g b.progress).history c).map Message.gist
    rw [history left, history right]
    exact abreast.gists c

theorem refl {a : Play} (bounded : a.queue.Bounded) : Abreast a.program none none a a :=
  ⟨⟨rfl, rfl, fun _ _ _ => rfl⟩, rfl, fun _ => rfl, .of_tasks bounded bounded fun _ => rfl⟩

theorem trans {other : Program} {c : Play} (first : Abreast program none none a b)
    (second : Abreast other none none b c) : Abreast program none none a c := by
  refine ⟨⟨first.program, first.mind.trans second.mind, fun d free active => ?_⟩,
    first.pace.trans second.pace, fun d => (first.gists d).trans (second.gists d), ?_⟩
  · refine (first.rounds d free active).trans (second.rounds d free ?_)
    rw [← first.thread? d]
    exact active
  · exact .of_tasks first.queues.left second.queues.right fun d =>
      (first.queues.tasks d).trans (second.queues.tasks d)

theorem note (abreast : Abreast program clock none a b) (first second : List SavedTask) :
    Abreast program clock none (a.note first) (b.note second) :=
  { abreast with }

theorem untimed (abreast : Abreast program clock none a b) : Abreast program none none a b :=
  { abreast with queues := .of_tasks abreast.queues.left abreast.queues.right abreast.queues.tasks }

/- Where nothing waits, and no contact has been put off to a time that is still to come, the stories are
   on one clock. -/
theorem timed (abreast : Abreast program none none a b) {now : Nat} (rests : a.queue.slots = [])
    (first : ∀ c, a.queue.latest.getD c 0 ≤ now) (second : ∀ c, b.queue.latest.getD c 0 ≤ now) :
    Abreast program (some now) none a b := by
  refine { abreast with queues := { abreast.queues with slots := ?_, latest := ?_ } }
  · intro _ _
    rw [rests, abreast.queues.slots_eq_nil.1 rests]
    exact ⟨rfl, List.forall_mem_nil _⟩
  · intro _ reads c
    obtain rfl := Option.some.inj reads
    rw [Nat.max_eq_left (first c), Nat.max_eq_left (second c)]

end Abreast

theorem timely_abreast (program : Program) (clock : Option Nat) (contact : String) :
    Timely (Meet clock) (Abreast program clock none) contact where
  mind := fun abreast => abreast.mind
  add := Meet.add
  max := Meet.max
  say := fun abreast _ saying => abreast.say contact saying _ _
  schedule := fun abreast meet => abreast.schedule meet contact
  timeFor := fun abreast meet => abreast.queues.effectiveTime meet contact

/- Stories that are abreast stay so in whatever is done at once. -/
theorem parallel_abreast {program : Program} (formed : program.WellFormed) (clock : Option Nat) :
    Parallel program (fun _ _ => True) (Meet clock) (Abreast program clock) where
  formed := formed
  program := fun abreast => abreast.program
  mind := fun abreast => abreast.mind
  rounds := fun abreast c => abreast.rounds c nofun
  reopens := fun _ _ _ _ => trivial
  opens := fun _ _ _ => trivial
  loosen := fun abreast c => { abreast with toAlike := abreast.toAlike.loosen c }
  placed := fun abreast key => { abreast with toAlike := abreast.toAlike.placed key }
  erased := fun abreast c => { abreast with toAlike := abreast.toAlike.erased c }
  putActive := fun abreast c => abreast.putThread c fun _ => rfl
  putEnded := fun abreast c => abreast.putThread c nofun
  setUnlocked := Abreast.setUnlocked
  setTypingDelay := fun abreast _ => { abreast with pace := rfl }
  revise := fun abreast left right mind _ => abreast.revise left right mind
  announce := fun abreast _ => { abreast with }
  announceTyping := fun abreast _ _ => { abreast with }
  say := fun abreast _ contact saying => abreast.say contact saying _ _
  layOut := fun abreast meet contact text plan _ _ =>
    (timely_abreast program clock contact).layOut abreast meet text plan fun _ => abreast.pace

variable {program : Program} {clock : Option Nat} {a b : Play}

/-- Tasks are fired in the same order in both stories: all tasks are of one contact, or their order is
seen to be the same. -/
def InOrder (limit other : Nat) (a b : Play) : Prop :=
  (∃ contact, ∀ slot ∈ a.slotsUpTo limit, slot.task.contact = contact) ∨
    (a.slotsUpTo limit).map (·.task) = (b.slotsUpTo other).map (·.task)

/- Without a clock, the same task comes up next where tasks are fired in the same order. -/
theorem Abreast.next_in_order {limit other : Nat} (abreast : Abreast program none none a b)
    (ordered : InOrder limit other a b)
    (waiting : ∀ slot ∈ a.queue.slots, slot ∈ a.slotsUpTo limit) {slot : Slot}
    (next : a.queue.next? = some slot) :
    ∃ same, b.queue.next? = some same ∧ slot.task = same.task := by
  rcases ordered with ⟨contact, own⟩ | order
  · exact abreast.queues.next_alone (fun slot member => own slot (waiting slot member)) next
  · cases fires : a.slotsUpTo limit with
    | nil =>
      have member := waiting slot (by rw [Queue.slots_of_next next]; exact List.mem_cons_self)
      rw [fires] at member
      cases member
    | cons first rest =>
      obtain ⟨same, _⟩ := slotsUpTo_eq_cons fires
      obtain rfl := Option.some.inj (next.symm.trans same)
      rw [fires, List.map_cons] at order
      obtain ⟨second, others, fires', task, _⟩ := List.map_eq_cons_iff.1 order.symm
      exact ⟨second, (slotsUpTo_eq_cons fires').1, task.symm⟩

/- The rest of the tasks are fired in the same order too. -/
theorem InOrder.rest {limit other : Nat} (ordered : InOrder (limit + 1) (other + 1) a b)
    {slot same : Slot} (next : a.queue.next? = some slot) (comes : b.queue.next? = some same) :
    InOrder limit other (a.dropFirst.fire slot) (b.dropFirst.fire same) := by
  unfold InOrder at ordered
  rw [slotsUpTo_of_some next, slotsUpTo_of_some comes] at ordered
  rcases ordered with ⟨contact, own⟩ | order
  · exact .inl ⟨contact, fun slot member => own slot (List.mem_cons_of_mem _ member)⟩
  · exact .inr (List.cons.inj order).2

/- Stories that are abreast are so again once nothing waits any more, on one clock or where tasks are
   fired in the same order. -/
theorem Abreast.drained (formed : program.WellFormed) {limit other : Nat}
    (abreast : Abreast program clock none a b) (ordered : clock = none → InOrder limit other a b)
    (first : (fireUpTo limit a).1.queue.slots = []) (second : (fireUpTo other b).1.queue.slots = []) :
    Abreast program clock none (fireUpTo limit a).1 (fireUpTo other b).1 := by
  induction limit generalizing a b other with
  | zero =>
    have empty : b.queue.slots = [] := abreast.queues.slots_eq_nil.1 first
    rw [fireUpTo_of_empty empty]
    exact abreast
  | succ limit ih =>
    cases next : a.queue.next? with
    | none =>
      have idle : a.queue.slots = [] := List.head?_eq_none_iff.1 next
      rw [fireUpTo_of_empty idle, fireUpTo_of_empty (abreast.queues.slots_eq_nil.1 idle)]
      exact abreast
    | some slot =>
      have both : ∃ same, b.queue.next? = some same ∧ slot.task = same.task ∧
          Meet clock slot.time same.time := by
        cases clock with
        | some now =>
          obtain ⟨comes, after⟩ := abreast.queues.next_timed next
          exact ⟨slot, comes, rfl, fun _ reads => ⟨rfl, Option.some.inj reads ▸ after⟩⟩
        | none =>
          have waiting := mem_slotsUpTo first
          obtain ⟨same, comes, task⟩ := abreast.next_in_order (ordered rfl) waiting next
          exact ⟨same, comes, task, nofun⟩
      obtain ⟨same, comes, task, meet⟩ := both
      obtain ⟨fewer, rfl⟩ := limit_of_drained comes second
      rw [fireUpTo_of_some next] at first ⊢
      rw [fireUpTo_of_some comes] at second ⊢
      have dropped : Abreast program clock none a.dropFirst b.dropFirst :=
        { abreast with queues := abreast.queues.rest next comes task }
      have fired := (parallel_abreast formed clock).fire dropped task meet
      exact ih fired (fun untimed => (ordered untimed).rest next comes) first second

end Play
end ChatStory
