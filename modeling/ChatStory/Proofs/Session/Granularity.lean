import ChatStory.Proofs.Session.Clock
import ChatStory.Proofs.Session.Recast

/-!
How often time is looked at. Between two ticks nothing happens, so it does not matter at which readings
of the clock a session ticks on the way to the last of them; and to flush the timeline is to tick when
all of its tasks have come.
-/
namespace ChatStory

namespace Store

/- Of two documents that are written one after the other, the store keeps the second. -/
theorem settle_write_settle (store : Store) (first second : String) :
    (store.settle (store.write first)).settle ((store.settle (store.write first)).write second) =
      store.settle (store.write second) := by
  rw [settle_write, settle_write, settle_write]
  cases store.refused.contains .write <;> rfl

end Store

namespace Play

theorem due_mono {play : Play} {early late : Nat} (ordered : early ≤ late) {slot : Slot}
    (due : play.queue.due? early = some slot) : play.queue.due? late = some slot := by
  obtain ⟨next, passed⟩ := next_of_due due
  exact Option.filter_eq_some_iff.2 ⟨next, by simpa using Nat.le_trans passed ordered⟩

/- What is fired by an early reading is fired first by a late one. -/
theorem fireDue_fireDue (play : Play) {early late : Nat} (ordered : early ≤ late) :
    play.fireDue late = (((play.fireDue early).1.fireDue late).1,
      (play.fireDue early).2 + ((play.fireDue early).1.fireDue late).2) := by
  cases due : play.queue.due? early with
  | none =>
    rw [fireDue_of_none due]
    simp only [Nat.zero_add]
  | some slot =>
    rw [fireDue_of_some due, fireDue_of_some (due_mono ordered due),
      fireDue_fireDue (play.dropFirst.fire slot) ordered]
    simp only [Nat.add_right_comm]
termination_by play.rank early
decreasing_by exact rank_fire_lt due

theorem fireDue_note (play : Play) (tasks : List SavedTask) (now : Nat) :
    (play.note tasks).fireDue now = ((play.fireDue now).1.note tasks, (play.fireDue now).2) := by
  rw [note_eq_recast, fireDue_recast, note_eq_recast]

/- A save does not change what is fired after it. -/
theorem fireDue_recordTimeline (play : Play) (now : Nat) : play.recordTimeline.fireDue now =
    ((play.fireDue now).1.note play.savedTasks, (play.fireDue now).2) :=
  fireDue_note play play.savedTasks now

/- Nothing waits for a time before that of the task that was fired last. -/
theorem le_time_of_fired {play : Play} {slot other : Slot} (next : play.queue.next? = some slot)
    (waits : other ∈ (play.dropFirst.fire slot).queue.slots) : slot.time ≤ other.time := by
  obtain ⟨added, slots, later⟩ := (Grows.fire play.dropFirst slot).queue
  rcases List.mem_append.1 (slots.mem_iff.1 waits) with old | new
  · have member : other ∈ play.queue.slots := by
      rw [Queue.slots_of_next next]
      exact List.mem_cons_of_mem slot old
    exact Queue.time_le_of_next next member
  · exact (later other new).1

/-- The tasks that are fired up to a limit. -/
def slotsUpTo (limit : Nat) (play : Play) : List Slot :=
  (play.firingsUpTo limit).filterMap Moment.slot?

theorem slotsUpTo_of_some {play : Play} {slot : Slot} (next : play.queue.next? = some slot)
    (limit : Nat) :
    play.slotsUpTo (limit + 1) = slot :: (play.dropFirst.fire slot).slotsUpTo limit := by
  unfold slotsUpTo
  rw [firingsUpTo, next]
  rfl

theorem fireUpTo_of_empty {play : Play} (empty : play.queue.slots = []) (limit : Nat) :
    fireUpTo limit play = (play, 0) := by
  have none : play.queue.next? = none := List.head?_eq_none_iff.2 empty
  cases limit with
  | zero => rfl
  | succ limit => rw [fireUpTo, none]

theorem fireUpTo_of_some {play : Play} {slot : Slot} (next : play.queue.next? = some slot)
    (limit : Nat) :
    (fireUpTo (limit + 1) play).1 = (fireUpTo limit (play.dropFirst.fire slot)).1 := by
  rw [fireUpTo, next]

/- Where nothing is left in the end, a task that waits was among those that were fired. -/
theorem limit_of_drained {play : Play} {limit : Nat} {slot : Slot} (next : play.queue.next? = some slot)
    (drained : (fireUpTo limit play).1.queue.slots = []) : ∃ fewer, limit = fewer + 1 := by
  cases limit with
  | zero =>
    have empty : play.queue.slots = [] := drained
    rw [Queue.next?, empty] at next
    cases next
  | succ fewer => exact ⟨fewer, rfl⟩

theorem slotsUpTo_of_empty {play : Play} (empty : play.queue.slots = []) (limit : Nat) :
    play.slotsUpTo limit = [] := by
  have none : play.queue.next? = none := List.head?_eq_none_iff.2 empty
  cases limit with
  | zero => rfl
  | succ limit =>
    unfold slotsUpTo
    rw [firingsUpTo, none]
    rfl

/- The first task that is fired came up next. -/
theorem slotsUpTo_eq_cons {play : Play} {limit : Nat} {slot : Slot} {rest : List Slot}
    (fires : play.slotsUpTo limit = slot :: rest) : play.queue.next? = some slot ∧
      ∃ fewer, limit = fewer + 1 ∧ (play.dropFirst.fire slot).slotsUpTo fewer = rest := by
  cases limit with
  | zero => cases fires
  | succ fewer =>
    cases next : play.queue.next? with
    | none =>
      rw [slotsUpTo_of_empty (List.head?_eq_none_iff.1 next)] at fires
      cases fires
    | some first =>
      rw [slotsUpTo_of_some next] at fires
      obtain ⟨rfl, same⟩ := List.cons.inj fires
      exact ⟨rfl, fewer, rfl, same⟩

/- Firing some tasks and then some more is firing all of them. -/
theorem fireUpTo_add (play : Play) (first second : Nat) :
    (fireUpTo (first + second) play).1 = (fireUpTo second (fireUpTo first play).1).1 ∧
      play.slotsUpTo (first + second) =
        play.slotsUpTo first ++ (fireUpTo first play).1.slotsUpTo second := by
  induction first generalizing play with
  | zero =>
    rw [Nat.zero_add]
    exact ⟨rfl, rfl⟩
  | succ first ih =>
    rw [Nat.add_right_comm]
    cases next : play.queue.next? with
    | none =>
      have empty : play.queue.slots = [] := List.head?_eq_none_iff.1 next
      simp only [fireUpTo_of_empty empty, slotsUpTo_of_empty empty, List.append_nil]
      exact ⟨trivial, trivial⟩
    | some slot =>
      obtain ⟨fired, slots⟩ := ih (play.dropFirst.fire slot)
      rw [fireUpTo_of_some next, fireUpTo_of_some next, slotsUpTo_of_some next,
        slotsUpTo_of_some next, fired, slots]
      exact ⟨rfl, rfl⟩

/- What is due is what is fired up to its own number. -/
theorem fireDue_eq_upTo (play : Play) (now : Nat) :
    (play.fireDue now).1 = (fireUpTo (play.fireDue now).2 play).1 ∧
      (play.firings now).filterMap Moment.slot? = play.slotsUpTo (play.fireDue now).2 := by
  cases due : play.queue.due? now with
  | none =>
    rw [fireDue_of_none due, firings_of_none due]
    exact ⟨rfl, rfl⟩
  | some slot =>
    have next := (next_of_due due).1
    obtain ⟨fired, slots⟩ := fireDue_eq_upTo (play.dropFirst.fire slot) now
    rw [fireDue_of_some due, firings_of_some due, fireUpTo_of_some next, slotsUpTo_of_some next,
      ← slots]
    exact ⟨fired, rfl⟩
termination_by play.rank now
decreasing_by exact rank_fire_lt due

theorem fireUpTo_note (play : Play) (tasks : List SavedTask) (limit : Nat) :
    (fireUpTo limit (play.note tasks)).1 = (fireUpTo limit play).1.note tasks := by
  rw [note_eq_recast, fireUpTo_recast, note_eq_recast]

/- What is noted does not bear on what is fired. -/
theorem slotsUpTo_note (play : Play) (tasks : List SavedTask) (limit : Nat) :
    (play.note tasks).slotsUpTo limit = play.slotsUpTo limit := by
  induction limit generalizing play with
  | zero => rfl
  | succ limit ih =>
    cases next : play.queue.next? with
    | none =>
      have empty : play.queue.slots = [] := List.head?_eq_none_iff.1 next
      have still : (play.note tasks).queue.slots = [] := empty
      rw [slotsUpTo_of_empty empty, slotsUpTo_of_empty still]
    | some slot =>
      have fired : (play.note tasks).dropFirst.fire slot = (play.dropFirst.fire slot).note tasks := by
        have again := fire_recast play.dropFirst ⟨0, #[], fun _ => tasks⟩ slot
        rw [← note_eq_recast, ← note_eq_recast] at again
        exact again
      have same : (play.note tasks).queue.next? = some slot := next
      rw [slotsUpTo_of_some next, slotsUpTo_of_some same, fired, ih]

/- What waits is fired at some time, if nothing waits in the end. -/
theorem mem_slotsUpTo {play : Play} {limit : Nat}
    (drained : (fireUpTo limit play).1.queue.slots = []) :
    ∀ slot ∈ play.queue.slots, slot ∈ play.slotsUpTo limit := by
  induction limit generalizing play with
  | zero =>
    have empty : play.queue.slots = [] := drained
    rw [empty]
    exact List.forall_mem_nil _
  | succ limit ih =>
    cases next : play.queue.next? with
    | none =>
      rw [List.head?_eq_none_iff.1 next]
      exact List.forall_mem_nil _
    | some first =>
      rw [fireUpTo_of_some next] at drained
      obtain ⟨added, slots, _⟩ := (Grows.fire play.dropFirst first).queue
      rw [slotsUpTo_of_some next, Queue.slots_of_next next]
      refine List.forall_mem_cons.2 ⟨List.mem_cons_self, fun slot waits => ?_⟩
      have still := slots.mem_iff.2 (List.mem_append_left added waits)
      exact List.mem_cons_of_mem first (ih drained slot still)

theorem le_slotsUpTo {play : Play} {time : Nat} (waiting : ∀ slot ∈ play.queue.slots, time ≤ slot.time)
    (limit : Nat) : ∀ slot ∈ play.slotsUpTo limit, time ≤ slot.time := by
  induction limit generalizing play with
  | zero => exact List.forall_mem_nil _
  | succ limit ih =>
    cases next : play.queue.next? with
    | none =>
      unfold slotsUpTo
      rw [firingsUpTo, next]
      exact List.forall_mem_nil _
    | some slot =>
      have first : time ≤ slot.time := by
        apply waiting
        rw [Queue.slots_of_next next]
        exact List.mem_cons_self
      rw [slotsUpTo_of_some next]
      refine List.forall_mem_cons.2 ⟨first, ih fun other waits => ?_⟩
      exact Nat.le_trans first (le_time_of_fired next waits)

/- Where the last task that is fired has come, all others before it have come too. -/
theorem fireDue_eq_fireUpTo {play : Play} {limit now : Nat} (all : (fireUpTo limit play).2 < limit)
    (come : ∀ slot, (play.slotsUpTo limit).getLast? = some slot → slot.time ≤ now) :
    play.fireDue now = fireUpTo limit play := by
  induction limit generalizing play with
  | zero => exact absurd all (Nat.not_lt_zero _)
  | succ limit ih =>
    unfold fireUpTo at all ⊢
    cases next : play.queue.next? with
    | none =>
      apply fireDue_of_none
      rw [Queue.due?, next]
      rfl
    | some slot =>
      rw [next] at all
      rw [slotsUpTo_of_some next, List.getLast?_cons] at come
      have later : ∀ other ∈ (play.dropFirst.fire slot).slotsUpTo limit, slot.time ≤ other.time :=
        le_slotsUpTo (fun other waits => le_time_of_fired next waits) limit
      have due : play.queue.due? now = some slot := by
        refine Option.filter_eq_some_iff.2 ⟨next, ?_⟩
        have last := come _ rfl
        cases found : ((play.dropFirst.fire slot).slotsUpTo limit).getLast? with
        | none => simpa [found] using last
        | some other =>
          have first := later other (List.mem_of_getLast? found)
          simpa using Nat.le_trans first (by simpa [found] using last)
      rw [fireDue_of_some due, ih (Nat.lt_of_succ_lt_succ all)]
      intro other found
      exact come other (by rw [found]; rfl)

end Play

namespace Session

variable (s : Session)

/-- The tasks that flushing fires. -/
def flushed : List Slot := s.play.slotsUpTo Play.fireLimit

/- A tick settles the play, unless nothing is due. -/
theorem tick_eq (now : Nat) : s.tick now =
    (if (s.play.fireDue now).2 = 0 then s else s.settle s.play now, (s.play.fireDue now).2) := by
  unfold tick settle
  dsimp only
  split
  · rename_i unfired
    rw [Play.fireDue_untouched unfired]
  · rfl

theorem settle_settle {early late : Nat} (ordered : early ≤ late) :
    (s.settle s.play early).settle (s.settle s.play early).play late = s.settle s.play late := by
  have once : ((s.play.fireDue early).1.recordTimeline.fireDue late).1 =
      (s.play.fireDue late).1.note (s.play.fireDue early).1.savedTasks := by
    rw [Play.fireDue_recordTimeline, Play.fireDue_fireDue s.play ordered]
  unfold settle save
  dsimp only
  rw [once, Store.settle_write_settle]
  rfl

/- What the save of an early tick has noted is noted anew by a late one. -/
theorem tick_tick {early late : Nat} (ordered : early ≤ late) :
    ((s.tick early).1.tick late).1 = (s.tick late).1 := by
  have whole := Play.fireDue_fireDue s.play ordered
  have total : (s.play.fireDue late).2 =
      (s.play.fireDue early).2 + ((s.play.fireDue early).1.fireDue late).2 := congrArg Prod.snd whole
  rw [tick_eq s early, tick_eq s late]
  by_cases unfired : (s.play.fireDue early).2 = 0
  · rw [if_pos unfired, tick_eq s late]
  · have counted : ((s.settle s.play early).play.fireDue late).2 =
        ((s.play.fireDue early).1.fireDue late).2 := by
      rw [play_settle, Play.fireDue_recordTimeline]
    rw [if_neg unfired, if_neg (by omega), tick_eq, counted, settle_settle s ordered]
    by_cases idle : ((s.play.fireDue early).1.fireDue late).2 = 0
    · have same : (s.play.fireDue late).1 = (s.play.fireDue early).1 := by
        rw [whole]
        exact Play.fireDue_untouched idle
      rw [if_pos idle, settle, settle, same]
    · rw [if_neg idle]

theorem flush_eq_tick {now : Nat} (all : s.flush.2 < Play.fireLimit)
    (come : ∀ slot, s.flushed.getLast? = some slot → slot.time ≤ now) : s.tick now = s.flush := by
  unfold tick flush Play.fireAll
  rw [Play.fireDue_eq_fireUpTo all come]

theorem performAll_ticks {readings : List Nat} {last : Nat}
    (forward : (readings ++ [last]).Pairwise (· ≤ ·)) :
    s.performAll ((readings ++ [last]).map (·, .tick)) = s.perform last .tick := by
  induction readings generalizing s with
  | nil => rfl
  | cons reading rest ih =>
    obtain ⟨first, others⟩ := List.pairwise_cons.1 forward
    have ordered : reading ≤ last := first last (List.mem_append_right rest List.mem_cons_self)
    rw [List.cons_append, List.map_cons, performAll, ih _ others]
    exact tick_tick s ordered

/- Ticks at several readings of the clock do what a tick at the last of them does, to all of the
   session: to its progress, to its timeline, to what is announced, and to its store. Flushing that
   is not cut off by the limit does what a tick does as soon as the last task has come. -/
theorem ticks_coalesce {readings : List Nat} {last : Nat}
    (forward : (readings ++ [last]).Pairwise (· ≤ ·)) :
    s.performAll ((readings ++ [last]).map (·, .tick)) = s.perform last .tick ∧
      (s.flush.2 < Play.fireLimit → ∀ now,
        (∀ slot, s.flushed.getLast? = some slot → slot.time ≤ now) → s.tick now = s.flush) :=
  ⟨performAll_ticks s forward, fun all _ come => flush_eq_tick s all come⟩

def introducing : String :=
  ":: A-Round-1 [initial_contact]\nHi\n[[Go|A-Round-2]]\n\n" ++
  ":: A-Round-2 [chat]\nMeet B.\n[Action: unlock_contact: B]\n\n:: B-Round-1 [chat]\nHello.\n"

def waitsForIntroduction (s : Session) : Bool :=
  decide (s.flush.2 = 3) && decide (s.flushed.getLast?.map (·.time) = some 3400)

theorem played_introducing : (playedWithin 0 introducing 1000 [(1000, .choose "A" 0)]).any
    waitsForIntroduction = true := by
  decide +kernel

/- Ticks and flushing, while a reply and the notices behind it are on their way. -/
theorem ticks_coalesce_introducing : ∃ program : Program,
    (compile introducing).result = .ok program ∧
      ∃ s, s = (start program {} .empty 1000).performAll [(1000, .choose "A" 0)] ∧
        s.flush.2 = 3 ∧ s.flushed.getLast?.map (·.time) = some 3400 ∧
        ([3000, 3200] ++ [4000]).Pairwise (· ≤ ·) ∧
        s.performAll (([3000, 3200] ++ [4000]).map (·, .tick)) = s.perform 4000 .tick ∧
        s.tick 3400 = s.flush := by
  obtain ⟨program, compiled, shown⟩ := played_of_any played_introducing
  obtain ⟨count, last⟩ := Bool.and_eq_true_iff.1 shown
  have forward : ([3000, 3200] ++ [4000]).Pairwise (· ≤ ·) := by decide
  generalize defined : (start program {} .empty 1000).performAll [(1000, .choose "A" 0)] = s at count last
  have fired : s.flush.2 = 3 := of_decide_eq_true count
  have time : s.flushed.getLast?.map (·.time) = some 3400 := of_decide_eq_true last
  obtain ⟨ticks, flushes⟩ := ticks_coalesce s forward
  refine ⟨program, compiled, s, defined.symm, fired, time, forward, ticks, flushes ?_ 3400 ?_⟩
  · rw [fired]
    decide
  · intro slot found
    rw [found] at time
    exact Nat.le_of_eq (Option.some.inj time)

end Session
end ChatStory
