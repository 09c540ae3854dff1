import ChatStory.Proofs.Queue
import Mathlib.Data.List.Nodup
import Mathlib.Order.Bounds.Defs

/-!
What a timeline makes of any calls. A book is kept beside the timeline: every task that is scheduled gets
a ticket with the next number, and a ticket waits until it is taken or everything is cancelled. What is
taken is always the waiting ticket with the least time, and of several the one with the least number.
-/
namespace ChatStory.Queue

inductive Call where
  | schedule (time : Nat) (task : Task)
  | popDue (now : Nat)
  | popNext
  | cancelAll
deriving DecidableEq

inductive Reply where
  | placed (time : Nat)
  | taken (slot : Slot)
  | nothing
  | dropped (count : Nat)
deriving DecidableEq

/-- The time that was asked for, and the task. -/
def Call.asked? : Call → Option (Nat × Task)
  | schedule time task => some (time, task)
  | _ => none

def Reply.time? : Reply → Option Nat
  | placed time => some time
  | _ => none

def Reply.slot? : Reply → Option Slot
  | taken slot => some slot
  | _ => none

/-- How many tasks are dropped by some calls. -/
def Reply.drops : List Reply → Nat
  | [] => 0
  | dropped count :: rest => count + drops rest
  | _ :: rest => drops rest

theorem Reply.drops_append (replies more : List Reply) :
    drops (replies ++ more) = drops replies + drops more := by
  induction replies with
  | nil => exact (Nat.zero_add _).symm
  | cons r rest ih => cases r <;> simp [drops, ih, Nat.add_assoc]

/-- Hands over the first task, if there is one to hand over. -/
def hand (q : Queue) : Option Slot → Reply × Queue
  | some slot => (.taken slot, q.rest)
  | none => (.nothing, q)

def call (q : Queue) : Call → Reply × Queue
  | .schedule time task => (.placed (q.effectiveTime task.contact time), q.schedule time task)
  | .popDue now => q.hand (q.due? now)
  | .popNext => q.hand q.next?
  | .cancelAll => (.dropped q.size, ∅)

def replies (q : Queue) : List Call → List Reply
  | [] => []
  | c :: rest => (q.call c).1 :: (q.call c).2.replies rest

def after (q : Queue) : List Call → Queue
  | [] => q
  | c :: rest => (q.call c).2.after rest

theorem replies_append (q : Queue) (calls more : List Call) :
    q.replies (calls ++ more) = q.replies calls ++ (q.after calls).replies more := by
  induction calls generalizing q with
  | nil => rfl
  | cons c rest ih => exact congrArg ((q.call c).1 :: ·) (ih (q.call c).2)

theorem after_append (q : Queue) (calls more : List Call) :
    q.after (calls ++ more) = (q.after calls).after more := by
  induction calls generalizing q with
  | nil => rfl
  | cons c rest ih => exact ih (q.call c).2

/-- How often everything had been cancelled before each task was scheduled. -/
def eras : Nat → List Call → List Nat
  | _, [] => []
  | n, .schedule _ _ :: rest => n :: eras n rest
  | n, .cancelAll :: rest => eras (n + 1) rest
  | n, .popDue _ :: rest | n, .popNext :: rest => eras n rest

theorem eras_append (n : Nat) (calls more : List Call) :
    eras n (calls ++ more) = eras n calls ++ eras (n + calls.count .cancelAll) more := by
  induction calls generalizing n with
  | nil => rfl
  | cons c rest ih =>
    cases c with
    | schedule asked task => simp [eras, ih]
    | cancelAll =>
      have count : n + 1 + rest.count .cancelAll = n + (rest.count .cancelAll + 1) := by omega
      simp [eras, ih, count]
    | popDue now => simp [eras, ih]
    | popNext => simp [eras, ih]

/-- A task that was scheduled, with its number among all of them. Its era is the number of times that
everything had been cancelled before. -/
structure Ticket where
  number : Nat
  era : Nat
  asked : Nat
  slot : Slot
deriving DecidableEq

namespace Ticket

def time (t : Ticket) : Nat := t.slot.time

def contact (t : Ticket) : String := t.slot.task.contact

/-- The ticket has the lesser time, or the same time and the lesser number. -/
def Before (t u : Ticket) : Prop := t.time < u.time ∨ t.time = u.time ∧ t.number < u.number

/-- Places a ticket behind all that are not later. -/
def file (t : Ticket) : List Ticket → List Ticket
  | [] => [t]
  | first :: rest => if first.time ≤ t.time then first :: file t rest else t :: first :: rest

theorem map_file (t : Ticket) (tickets : List Ticket) :
    (file t tickets).map (·.slot) = place t.slot (tickets.map (·.slot)) := by
  induction tickets with
  | nil => rfl
  | cons first rest ih =>
    rw [List.map_cons, place, file]
    by_cases early : first.time ≤ t.time
    · have same : first.slot.time ≤ t.slot.time := early
      rw [if_pos early, if_pos same, List.map_cons, ih]
    · have same : ¬first.slot.time ≤ t.slot.time := early
      rw [if_neg early, if_neg same]
      rfl

theorem file_perm (t : Ticket) (tickets : List Ticket) : (file t tickets).Perm (t :: tickets) := by
  induction tickets with
  | nil => exact .refl _
  | cons first rest ih =>
    unfold file
    split
    · exact (ih.cons first).trans (.swap t first rest)
    · exact .refl _

theorem mem_file {t u : Ticket} {tickets : List Ticket} :
    u ∈ file t tickets ↔ u = t ∨ u ∈ tickets := by
  rw [(file_perm t tickets).mem_iff, List.mem_cons]

/- A new ticket has a higher number than all others, so it may stand behind those of its time. -/
theorem file_before {t : Ticket} {tickets : List Ticket} (ordered : tickets.Pairwise Before)
    (newer : ∀ u ∈ tickets, u.number < t.number) : (file t tickets).Pairwise Before := by
  induction tickets with
  | nil => exact List.pairwise_singleton _ _
  | cons first rest ih =>
    obtain ⟨least, ordered_rest⟩ := List.pairwise_cons.1 ordered
    obtain ⟨older, others⟩ := List.forall_mem_cons.1 newer
    unfold file
    split
    · rename_i early
      refine List.pairwise_cons.2 ⟨?_, ih ordered_rest others⟩
      intro u member
      rcases mem_file.1 member with rfl | member
      · rcases Nat.lt_or_eq_of_le early with less | same
        · exact .inl less
        · exact .inr ⟨same, older⟩
      · exact least u member
    · rename_i late
      refine List.pairwise_cons.2 ⟨?_, ordered⟩
      intro u member
      left
      rcases List.mem_cons.1 member with rfl | member
      · omega
      · rcases least u member with less | ⟨same, _⟩ <;> omega

end Ticket

/-- A timeline and its tickets: all that were issued, in the order of their numbers; those that wait, in
the order in which they will be fired; those that were taken, in the order in which they were; and those
that were dropped. -/
structure Book where
  queue : Queue
  era : Nat
  issued : List Ticket
  waiting : List Ticket
  taken : List Ticket
  dropped : List Ticket

namespace Book

def empty : Book := ⟨∅, 0, [], [], [], []⟩

/-- The ticket of the next task. -/
def ticket (b : Book) (asked : Nat) (task : Task) : Ticket where
  number := b.issued.length
  era := b.era
  asked := asked
  slot := ⟨b.queue.effectiveTime task.contact asked, task⟩

def issue (b : Book) (asked : Nat) (task : Task) : Book :=
  { b with
    queue := b.queue.schedule asked task
    issued := b.issued ++ [b.ticket asked task]
    waiting := (b.ticket asked task).file b.waiting }

/-- Takes the first of the waiting tickets, if there is one. -/
def take (b : Book) : Book :=
  match b.waiting with
  | [] => b
  | t :: rest => { b with queue := b.queue.rest, waiting := rest, taken := b.taken ++ [t] }

theorem take_nil {b : Book} (none : b.waiting = []) : b.take = b := by
  unfold take
  rw [none]

theorem take_cons {b : Book} {t : Ticket} {rest : List Ticket} (waits : b.waiting = t :: rest) :
    b.take = { b with queue := b.queue.rest, waiting := rest, taken := b.taken ++ [t] } := by
  unfold take
  rw [waits]

def cancel (b : Book) : Book :=
  { b with queue := ∅, era := b.era + 1, waiting := [], dropped := b.dropped ++ b.waiting }

/-- The book after a call. -/
def record (b : Book) : Call → Book
  | .schedule asked task => b.issue asked task
  | .popDue now => if (b.queue.due? now).isSome then b.take else b
  | .popNext => b.take
  | .cancelAll => b.cancel

/-- The book of some calls on a new timeline. -/
def of (calls : List Call) : Book := calls.foldl record empty

/-- The times that are neither before what was asked for nor before any ticket of the contact that was
issued earlier in the same era. -/
def allowed (b : Book) (t : Ticket) : Set Nat :=
  {time | t.asked ≤ time ∧ ∀ u ∈ b.issued, u.number < t.number → u.era = t.era →
    u.contact = t.contact → u.time ≤ time}

/-- What holds of every book. The time that is noted for a contact is that of its latest ticket of
this era. -/
structure Kept (b : Book) : Prop where
  listed : b.waiting.map (·.slot) = b.queue.slots
  ordered : b.waiting.Pairwise Ticket.Before
  numbered : b.issued.map (·.number) = List.range b.issued.length
  accounted : b.issued.Perm (b.taken ++ (b.dropped ++ b.waiting))
  current : ∀ t ∈ b.waiting, t.era = b.era
  past : ∀ t ∈ b.issued, t.era ≤ b.era
  noted : ∀ t ∈ b.issued, t.era = b.era → t.time ≤ b.queue.latest.getD t.contact 0
  attained : ∀ c, b.queue.latest.getD c 0 = 0 ∨
    ∃ t ∈ b.issued, t.era = b.era ∧ t.contact = c ∧ t.time = b.queue.latest.getD c 0
  least : ∀ t ∈ b.issued, IsLeast (b.allowed t) t.time
  lanes : b.taken.Pairwise fun t u => t.contact = u.contact → t.number < u.number
  ahead : ∀ t ∈ b.taken, ∀ u ∈ b.waiting, t.contact = u.contact → t.number < u.number

theorem kept_empty : empty.Kept := by
  refine ⟨rfl, .nil, rfl, .refl _, ?_, ?_, ?_, fun _ => .inl rfl, ?_, .nil, ?_⟩
  all_goals exact List.forall_mem_nil _

namespace Kept

variable {b : Book} {t u : Ticket}

theorem number_lt (kept : b.Kept) (issued : t ∈ b.issued) : t.number < b.issued.length := by
  have member : t.number ∈ List.range b.issued.length := by
    rw [← kept.numbered]
    exact List.mem_map_of_mem issued
  exact List.mem_range.1 member

theorem numbers_nodup (kept : b.Kept) : (b.issued.map (·.number)).Nodup := by
  rw [kept.numbered]
  exact List.nodup_range

theorem eq_of_number (kept : b.Kept) (first : t ∈ b.issued) (second : u ∈ b.issued)
    (same : t.number = u.number) : t = u :=
  List.inj_on_of_nodup_map kept.numbers_nodup first second same

theorem issued_of_waiting (kept : b.Kept) (waits : t ∈ b.waiting) : t ∈ b.issued := by
  rw [kept.accounted.mem_iff]
  exact List.mem_append_right _ (List.mem_append_right _ waits)

theorem issued_of_taken (kept : b.Kept) (taken : t ∈ b.taken) : t ∈ b.issued := by
  rw [kept.accounted.mem_iff]
  exact List.mem_append_left _ taken

/- Within an era a contact's tickets have times in the order of their numbers. -/
theorem time_le (kept : b.Kept) (first : t ∈ b.issued) (second : u ∈ b.issued)
    (earlier : t.number < u.number) (era : t.era = u.era) (contact : t.contact = u.contact) :
    t.time ≤ u.time :=
  (kept.least u second).1.2 t first earlier era contact

section Issue

variable (kept : b.Kept) (asked : Nat) (task : Task)

theorem mem_issue : u ∈ (b.issue asked task).issued ↔ u ∈ b.issued ∨ u = b.ticket asked task := by
  unfold Book.issue
  rw [List.mem_append, List.mem_singleton]

theorem latest_issue (c : String) : (b.issue asked task).queue.latest.getD c 0 =
    if c = (b.ticket asked task).contact then (b.ticket asked task).time
    else b.queue.latest.getD c 0 :=
  latest_schedule b.queue asked task c

theorem latest_le_ticket :
    b.queue.latest.getD (b.ticket asked task).contact 0 ≤ (b.ticket asked task).time :=
  Nat.le_max_right _ _

include kept

theorem newer (issued : u ∈ b.issued) : u.number < (b.ticket asked task).number :=
  kept.number_lt issued

/- A new ticket has no bearing on those before it. -/
theorem allowed_issue (issued : u ∈ b.issued) : (b.issue asked task).allowed u = b.allowed u := by
  ext time
  refine and_congr_right fun _ => ?_
  constructor
  · intro all v old
    exact all v ((mem_issue asked task).2 (.inl old))
  · intro all v known less
    rcases (mem_issue asked task).1 known with old | rfl
    · exact all v old less
    · exact absurd less (Nat.lt_asymm (kept.newer asked task issued))

theorem least_ticket :
    IsLeast ((b.issue asked task).allowed (b.ticket asked task)) (b.ticket asked task).time := by
  refine ⟨⟨Nat.le_max_left _ _, ?_⟩, ?_⟩
  · intro u known less current mine
    rcases (mem_issue asked task).1 known with old | rfl
    · have noted := kept.noted u old current
      rw [mine] at noted
      exact Nat.le_trans noted (latest_le_ticket asked task)
    · exact absurd less (Nat.lt_irrefl _)
  · rintro time ⟨enough, behind⟩
    apply Nat.max_le.2 ⟨enough, ?_⟩
    change b.queue.latest.getD (b.ticket asked task).contact 0 ≤ time
    rcases kept.attained (b.ticket asked task).contact with zero | ⟨u, old, current, mine, reached⟩
    · rw [zero]
      exact Nat.zero_le time
    · rw [← reached]
      exact behind u ((mem_issue asked task).2 (.inl old)) (kept.newer asked task old) current mine

theorem noted_issue (known : u ∈ (b.issue asked task).issued) (current : u.era = b.era) :
    u.time ≤ (b.issue asked task).queue.latest.getD u.contact 0 := by
  rw [latest_issue]
  rcases (mem_issue asked task).1 known with old | rfl
  · have noted := kept.noted u old current
    split
    · rename_i mine
      rw [mine] at noted
      exact Nat.le_trans noted (latest_le_ticket asked task)
    · exact noted
  · exact Nat.le_of_eq (if_pos rfl).symm

theorem attained_issue (c : String) : (b.issue asked task).queue.latest.getD c 0 = 0 ∨
    ∃ u ∈ (b.issue asked task).issued, u.era = b.era ∧ u.contact = c ∧
      u.time = (b.issue asked task).queue.latest.getD c 0 := by
  rw [latest_issue]
  by_cases mine : c = (b.ticket asked task).contact
  · rw [if_pos mine]
    exact .inr ⟨_, (mem_issue asked task).2 (.inr rfl), rfl, mine.symm, rfl⟩
  · rw [if_neg mine]
    rcases kept.attained c with zero | ⟨u, old, rest⟩
    · exact .inl zero
    · exact .inr ⟨u, (mem_issue asked task).2 (.inl old), rest⟩

theorem accounted_issue : (b.issue asked task).issued.Perm
    (b.taken ++ (b.dropped ++ (b.issue asked task).waiting)) := by
  have filed := (b.ticket asked task).file_perm b.waiting
  calc (b.issued ++ [b.ticket asked task]).Perm (b.ticket asked task :: b.issued) :=
        List.perm_append_singleton _ _
    List.Perm _ (b.ticket asked task :: (b.taken ++ (b.dropped ++ b.waiting))) :=
        kept.accounted.cons _
    List.Perm _ (b.taken ++ (b.ticket asked task :: (b.dropped ++ b.waiting))) :=
        List.perm_middle.symm
    List.Perm _ (b.taken ++ (b.dropped ++ (b.ticket asked task :: b.waiting))) :=
        List.perm_middle.symm.append_left _
    List.Perm _ (b.taken ++ (b.dropped ++ (b.issue asked task).waiting)) :=
        (filed.symm.append_left _).append_left _

theorem issue : (b.issue asked task).Kept := by
  refine ⟨?_, ?_, ?_, kept.accounted_issue asked task, ?_, ?_, fun u => kept.noted_issue asked task,
    kept.attained_issue asked task, ?_, kept.lanes, ?_⟩
  · change ((b.ticket asked task).file b.waiting).map (·.slot) = place _ _
    rw [Ticket.map_file, kept.listed]
    rfl
  · exact Ticket.file_before kept.ordered fun u waits =>
      kept.newer asked task (kept.issued_of_waiting waits)
  · unfold Book.issue
    rw [List.map_append, List.length_append, List.length_singleton, List.range_succ, kept.numbered]
    rfl
  · intro u waits
    rcases Ticket.mem_file.1 waits with rfl | waits
    · rfl
    · exact kept.current u waits
  · intro u known
    rcases (mem_issue asked task).1 known with old | rfl
    · exact kept.past u old
    · exact Nat.le_refl _
  · intro u known
    rcases (mem_issue asked task).1 known with old | rfl
    · rw [kept.allowed_issue asked task old]
      exact kept.least u old
    · exact kept.least_ticket asked task
  · intro u taken v waits mine
    rcases Ticket.mem_file.1 waits with rfl | waits
    · exact kept.newer asked task (kept.issued_of_taken taken)
    · exact kept.ahead u taken v waits mine

end Issue

/- Of two waiting tickets of a contact the first has the lower number: with a higher one it could not have
   got the lesser time. -/
theorem number_lt_of_before (kept : b.Kept) (first : t ∈ b.waiting) (second : u ∈ b.waiting)
    (before : t.Before u) (mine : t.contact = u.contact) : t.number < u.number := by
  have issued := kept.issued_of_waiting first
  have other := kept.issued_of_waiting second
  have era : u.era = t.era := (kept.current u second).trans (kept.current t first).symm
  rcases before with less | ⟨_, less⟩
  · rcases Nat.lt_trichotomy t.number u.number with lower | same | higher
    · exact lower
    · rw [kept.eq_of_number issued other same] at less
      exact absurd less (Nat.lt_irrefl _)
    · have early := kept.time_le other issued higher era mine.symm
      exact absurd less (Nat.not_lt_of_le early)
  · exact less

theorem take (kept : b.Kept) : b.take.Kept := by
  cases waiting : b.waiting with
  | nil =>
    rw [take_nil waiting]
    exact kept
  | cons t rest =>
    have first : t ∈ b.waiting := by
      rw [waiting]
      exact List.mem_cons_self
    have others : ∀ u ∈ rest, u ∈ b.waiting := by
      intro u member
      rw [waiting]
      exact List.mem_cons_of_mem t member
    have ordered := kept.ordered
    rw [waiting] at ordered
    obtain ⟨least, ordered⟩ := List.pairwise_cons.1 ordered
    have ahead : ∀ u ∈ rest, t.contact = u.contact → t.number < u.number := fun u member mine =>
      kept.number_lt_of_before first (others u member) (least u member) mine
    rw [take_cons waiting]
    refine { kept with
      listed := ?_
      ordered := ordered
      accounted := ?_
      current := ?_
      lanes := ?_
      ahead := ?_ }
    · change rest.map (·.slot) = b.queue.slots.tail
      rw [← kept.listed, waiting]
      rfl
    · change b.issued.Perm ((b.taken ++ [t]) ++ (b.dropped ++ rest))
      have all := kept.accounted
      rw [waiting] at all
      calc b.issued.Perm (b.taken ++ (b.dropped ++ t :: rest)) := all
        List.Perm _ (b.taken ++ (t :: (b.dropped ++ rest))) := List.perm_middle.append_left _
        _ = (b.taken ++ [t]) ++ (b.dropped ++ rest) := by simp
    · intro u member
      exact kept.current u (others u member)
    · change (b.taken ++ [t]).Pairwise _
      refine List.pairwise_append.2 ⟨kept.lanes, List.pairwise_singleton _ _, ?_⟩
      intro u taken v own
      rw [List.mem_singleton.1 own]
      exact kept.ahead u taken t first
    · intro u taken v member
      rcases List.mem_append.1 taken with old | own
      · exact kept.ahead u old v (others v member)
      · rw [List.mem_singleton.1 own]
        exact ahead v member

theorem cancel (kept : b.Kept) : b.cancel.Kept := by
  refine { kept with
    listed := rfl
    ordered := .nil
    accounted := ?_
    current := ?_
    past := ?_
    noted := ?_
    attained := fun _ => .inl rfl
    ahead := ?_ }
  · change b.issued.Perm (b.taken ++ ((b.dropped ++ b.waiting) ++ []))
    rw [List.append_nil]
    exact kept.accounted
  · exact List.forall_mem_nil _
  · intro t issued
    exact Nat.le_succ_of_le (kept.past t issued)
  · intro t issued later
    have past := kept.past t issued
    change t.era = b.era + 1 at later
    omega
  · intro t _
    exact List.forall_mem_nil _

theorem record (kept : b.Kept) (c : Call) : (b.record c).Kept := by
  cases c with
  | schedule asked task => exact kept.issue asked task
  | popDue now =>
    change (if (b.queue.due? now).isSome then b.take else b).Kept
    split
    · exact kept.take
    · exact kept
  | popNext => exact kept.take
  | cancelAll => exact kept.cancel

theorem foldl (kept : b.Kept) (calls : List Call) : (calls.foldl Book.record b).Kept := by
  induction calls generalizing b with
  | nil => exact kept
  | cons c rest ih => exact ih (kept.record c)

/- The first ticket is that of the first slot. -/
theorem next (kept : b.Kept) : b.queue.next? = b.waiting.head?.map (·.slot) := by
  rw [← List.head?_map, kept.listed]
  rfl

end Kept

/-- What has been added to a book is what was asked for and what was answered. -/
structure Follows (b : Book) (calls : List Call) (c : Book) : Prop where
  queue : c.queue = b.queue.after calls
  era : c.era = b.era + calls.count .cancelAll
  asked : c.issued.map (fun t => (t.asked, t.slot.task)) =
    b.issued.map (fun t => (t.asked, t.slot.task)) ++ calls.filterMap Call.asked?
  placed : c.issued.map (·.time) =
    b.issued.map (·.time) ++ (b.queue.replies calls).filterMap Reply.time?
  eras : c.issued.map (·.era) = b.issued.map (·.era) ++ eras b.era calls
  taken : c.taken.map (·.slot) = b.taken.map (·.slot) ++ (b.queue.replies calls).filterMap Reply.slot?
  dropped : c.dropped.length = b.dropped.length + Reply.drops (b.queue.replies calls)

namespace Follows

variable {b c d : Book} {calls more : List Call}

theorem refl (b : Book) : b.Follows [] b := by
  constructor <;> simp [after, replies, Reply.drops, Queue.eras]

theorem trans (first : b.Follows calls c) (second : c.Follows more d) : b.Follows (calls ++ more) d := by
  refine ⟨?_, ?_, ?_, ?_, ?_, ?_, ?_⟩
  · rw [second.queue, first.queue, after_append]
  · rw [second.era, first.era, List.count_append, Nat.add_assoc]
  · rw [second.asked, first.asked, List.filterMap_append, List.append_assoc]
  · rw [second.placed, first.placed, first.queue, replies_append, List.filterMap_append,
      List.append_assoc]
  · rw [second.eras, first.eras, first.era, eras_append, List.append_assoc]
  · rw [second.taken, first.taken, first.queue, replies_append, List.filterMap_append,
      List.append_assoc]
  · rw [second.dropped, first.dropped, first.queue, replies_append, Reply.drops_append,
      Nat.add_assoc]

theorem idle {c : Call} (hands : b.queue.call c = b.queue.hand none) (asks : c.asked? = none)
    (same : Queue.eras b.era [c] = [] ∧ [c].count .cancelAll = 0) : b.Follows [c] b := by
  refine ⟨?_, ?_, ?_, ?_, ?_, ?_, ?_⟩
  · rw [after, hands]
    rfl
  · rw [same.2]
    rfl
  · simp [asks]
  · simp [replies, hands, hand, Reply.time?]
  · rw [same.1, List.append_nil]
  · simp [replies, hands, hand, Reply.slot?]
  · simp [replies, hands, hand, Reply.drops]

/- What a pop hands over is the slot of the ticket that is taken. -/
theorem take (kept : b.Kept) {c : Call} (hands : b.queue.call c = b.queue.hand b.queue.next?)
    (asks : c.asked? = none) (same : Queue.eras b.era [c] = [] ∧ [c].count .cancelAll = 0) :
    b.Follows [c] b.take := by
  have next := kept.next
  cases waits : b.waiting with
  | nil =>
    rw [waits] at next
    rw [take_nil waits]
    rw [next] at hands
    exact idle hands asks same
  | cons t rest =>
    rw [waits] at next
    rw [take_cons waits]
    rw [next] at hands
    refine ⟨?_, ?_, ?_, ?_, ?_, ?_, ?_⟩
    · rw [after, hands]
      rfl
    · rw [same.2]
      rfl
    · simp [asks]
    · simp [replies, hands, hand, Reply.time?]
    · rw [same.1, List.append_nil]
    · simp [replies, hands, hand, Reply.slot?]
    · simp [replies, hands, hand, Reply.drops]

theorem issue (b : Book) (asked : Nat) (task : Task) :
    b.Follows [.schedule asked task] (b.issue asked task) := by
  constructor <;> simp [Book.issue, Book.ticket, after, replies, call, Call.asked?, Reply.time?,
    Reply.slot?, Reply.drops, Queue.eras, Ticket.time]

theorem cancel (kept : b.Kept) : b.Follows [.cancelAll] b.cancel := by
  have size : b.queue.size = b.waiting.length := by
    rw [size, ← kept.listed, List.length_map]
  constructor <;> simp [Book.cancel, after, replies, call, Call.asked?, Reply.time?, Reply.slot?,
    Reply.drops, Queue.eras, size]

theorem record (kept : b.Kept) (c : Call) : b.Follows [c] (b.record c) := by
  cases c with
  | schedule asked task => exact issue b asked task
  | popDue now =>
    change b.Follows _ (if (b.queue.due? now).isSome then b.take else b)
    cases due : b.queue.due? now with
    | none => exact idle (congrArg b.queue.hand due) rfl ⟨rfl, rfl⟩
    | some slot =>
      have next := (Option.filter_eq_some_iff.1 due).1
      exact take kept (congrArg b.queue.hand (due.trans next.symm)) rfl ⟨rfl, rfl⟩
  | popNext => exact take kept rfl rfl ⟨rfl, rfl⟩
  | cancelAll => exact cancel kept

theorem foldl (kept : b.Kept) (calls : List Call) : b.Follows calls (calls.foldl Book.record b) := by
  induction calls generalizing b with
  | nil => exact refl b
  | cons c rest ih => exact (record kept c).trans (ih (kept.record c))

end Follows

theorem kept_of (calls : List Call) : (of calls).Kept := kept_empty.foldl calls

theorem follows_of (calls : List Call) : empty.Follows calls (of calls) := .foldl kept_empty calls

theorem queue_of (calls : List Call) : (of calls).queue = after ∅ calls := (follows_of calls).queue

theorem of_append_singleton (calls : List Call) (c : Call) :
    of (calls ++ [c]) = (of calls).record c := by
  unfold of
  rw [List.foldl_append]
  rfl

end Book

/-- All that waits, in the order in which it is handed over when everything is asked for. -/
theorem replies_popNext (q : Queue) :
    q.replies (List.replicate q.size .popNext) = q.slots.map .taken := by
  obtain ⟨slots, latest, ascending⟩ := q
  change replies _ (List.replicate slots.length .popNext) = slots.map .taken
  induction slots with
  | nil => rfl
  | cons slot rest ih => exact congrArg (.taken slot :: ·) (ih ascending.tail)

/-- The contract of a timeline, with the book of the calls on it. -/
structure Contract (calls : List Call) (b : Book) : Prop where
  /-- The tickets are those of the scheduled tasks, with the times that were answered. -/
  asked : b.issued.map (fun t => (t.asked, t.slot.task)) = calls.filterMap Call.asked?
  placed : b.issued.map (·.time) = (replies ∅ calls).filterMap Reply.time?
  eras : b.issued.map (·.era) = eras 0 calls
  numbered : b.issued.map (·.number) = List.range b.issued.length
  /-- Pops handed over the tickets that were taken, calls to cancel dropped as many as are dropped, and
  those that wait are on the timeline. -/
  taken : b.taken.map (·.slot) = (replies ∅ calls).filterMap Reply.slot?
  dropped : b.dropped.length = Reply.drops (replies ∅ calls)
  waiting : b.waiting.map (·.slot) = (after ∅ calls).slots
  /-- Every ticket is one of these, and only once. -/
  accounted : b.issued.Perm (b.taken ++ (b.dropped ++ b.waiting)) ∧ b.issued.Nodup
  /-- Each time is the least that was allowed. -/
  least : ∀ t ∈ b.issued, IsLeast (b.allowed t) t.time
  /-- A contact's tasks are handed over in the order in which they were scheduled, and at times that do
  not decrease as long as nothing is cancelled. -/
  lanes : b.taken.Pairwise fun t u => t.contact = u.contact →
    t.number < u.number ∧ (t.era = u.era → t.time ≤ u.time)
  /-- Whatever is handed over next, it is the slot of the ticket that comes before all others. -/
  pops : ∀ c slot, ((after ∅ calls).call c).1 = .taken slot → ∃ t ∈ b.waiting, t.slot = slot ∧
    (Book.of (calls ++ [c])).taken = b.taken ++ [t] ∧ ∀ u ∈ b.waiting, u ≠ t → t.Before u
  due : ∀ now, ((after ∅ calls).call (.popDue now)).1 = .nothing ↔ ∀ t ∈ b.waiting, now < t.time
  /-- What is listed is what would be handed over, in this order. -/
  listed : (after ∅ calls).replies (List.replicate (after ∅ calls).size .popNext) =
    (after ∅ calls).slots.map .taken

namespace Book

variable {b : Book} {t : Ticket} {rest : List Ticket}

/- Whoever is handed over is the first of those that wait. -/
theorem Kept.pop (kept : b.Kept) {c : Call} {slot : Slot} (hands : (b.queue.call c).1 = .taken slot) :
    ∃ t ∈ b.waiting, t.slot = slot ∧ (b.record c).taken = b.taken ++ [t] ∧
      ∀ u ∈ b.waiting, u ≠ t → t.Before u := by
  have first : b.queue.next? = some slot ∧ b.record c = b.take := by
    cases c with
    | schedule asked task => cases hands
    | cancelAll => cases hands
    | popNext =>
      change (b.queue.hand b.queue.next?).1 = _ at hands
      cases next : b.queue.next? with
      | none =>
        rw [next] at hands
        cases hands
      | some other =>
        rw [next] at hands
        cases hands
        exact ⟨rfl, rfl⟩
    | popDue now =>
      change (b.queue.hand (b.queue.due? now)).1 = _ at hands
      cases due : b.queue.due? now with
      | none =>
        rw [due] at hands
        cases hands
      | some other =>
        rw [due] at hands
        cases hands
        have taken : b.record (.popDue now) = b.take := if_pos (by rw [due]; rfl)
        exact ⟨(Option.filter_eq_some_iff.1 due).1, taken⟩
  obtain ⟨next, record⟩ := first
  rw [kept.next] at next
  cases waits : b.waiting with
  | nil =>
    rw [waits] at next
    cases next
  | cons t rest =>
    have ordered := kept.ordered
    rw [waits] at next ordered
    cases next
    refine ⟨t, List.mem_cons_self, rfl, ?_, ?_⟩
    · rw [record, take_cons waits]
    · intro u member other
      rcases List.mem_cons.1 member with rfl | member
      · exact absurd rfl other
      · exact (List.pairwise_cons.1 ordered).1 u member

/- If the first of those that wait is not due, nobody is. -/
theorem Kept.due (kept : b.Kept) (now : Nat) :
    (b.queue.call (.popDue now)).1 = .nothing ↔ ∀ t ∈ b.waiting, now < t.time := by
  have nothing : (b.queue.call (.popDue now)).1 = .nothing ↔ b.queue.due? now = none := by
    change (b.queue.hand (b.queue.due? now)).1 = _ ↔ _
    cases b.queue.due? now with
    | none => exact ⟨fun _ => rfl, fun _ => rfl⟩
    | some slot => exact ⟨nofun, nofun⟩
  rw [nothing, due?, kept.next]
  have ordered := kept.ordered
  cases waits : b.waiting with
  | nil => exact ⟨fun _ => List.forall_mem_nil _, fun _ => rfl⟩
  | cons t rest =>
    rw [waits] at ordered
    have first : Option.filter (fun slot : Slot => decide (slot.time ≤ now))
        ((t :: rest).head?.map (·.slot)) = none ↔ now < t.time := by
      simp [Option.filter, Ticket.time]
    rw [first, List.forall_mem_cons]
    refine ⟨fun late => ⟨late, ?_⟩, And.left⟩
    intro u member
    rcases (List.pairwise_cons.1 ordered).1 u member with less | ⟨same, _⟩ <;> omega

end Book

/- The contract holds after any calls on a new timeline. -/
theorem contract_of (calls : List Call) : Contract calls (Book.of calls) := by
  have kept := Book.kept_of calls
  have follows := Book.follows_of calls
  have queue := Book.queue_of calls
  refine {
    asked := follows.asked
    placed := follows.placed
    eras := follows.eras
    numbered := kept.numbered
    taken := follows.taken
    dropped := ?_
    waiting := ?_
    accounted := ⟨kept.accounted, kept.numbers_nodup.of_map⟩
    least := kept.least
    lanes := ?_
    pops := ?_
    due := ?_
    listed := replies_popNext _ }
  · have dropped := follows.dropped
    rwa [Book.empty, List.length_nil, Nat.zero_add] at dropped
  · rw [← queue]
    exact kept.listed
  · refine kept.lanes.imp_of_mem ?_
    intro t u first second ordered mine
    have lower := ordered mine
    refine ⟨lower, fun era => ?_⟩
    exact kept.time_le (kept.issued_of_taken first) (kept.issued_of_taken second) lower era mine
  · intro c slot hands
    rw [← queue] at hands
    rw [Book.of_append_singleton]
    exact kept.pop hands
  · intro now
    rw [← queue]
    exact kept.due now

/-- A task that is scheduled late and taken, and after everything was cancelled one that comes up
earlier. -/
def cancelledBetween : List Call :=
  let task : Task := ⟨"A", 0, .notices⟩
  [.schedule 900 task, .popNext, .cancelAll, .schedule 100 task, .popNext]

/- Across a call to cancel, the times at which a contact's tasks are handed over may decrease. -/
theorem times_decrease :
    replies ∅ cancelledBetween = [.placed 900, .taken ⟨900, ⟨"A", 0, .notices⟩⟩, .dropped 0,
      .placed 100, .taken ⟨100, ⟨"A", 0, .notices⟩⟩] ∧
    ¬∀ (calls : List Call) (contact : String),
      (((replies ∅ calls).filterMap Reply.slot?).filter (·.task.contact == contact)).Pairwise
        fun a b => a.time ≤ b.time := by
  refine ⟨by decide, fun ordered => ?_⟩
  exact absurd (ordered cancelledBetween "A") (by decide)

end ChatStory.Queue
