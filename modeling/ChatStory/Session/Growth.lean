import ChatStory.Session.Spans

/-!
How a story in play can grow. Nothing that happens at some time puts a task before that time on
the timeline, a task that assigns a variable always comes later, and no contact that has been
unlocked can be unlocked again. So among the tasks of one moment only those that assign a variable
or unlock a contact bring new tasks, and there are only finitely many of these.
-/
namespace ChatStory

namespace Play

/-- The contact was never unlocked, or its thread is locked. -/
def canUnlock (play : Play) (contact : String) : Bool :=
  !(play.progress.unlocked.has contact && play.progress.thread? contact != some .locked)

/-- What happens at `time` takes the story from `before` to `after`. -/
structure Grows (time : Nat) (before after : Play) : Prop where
  program : after.program = before.program
  /-- What comes to the timeline comes in time. -/
  queue : ∃ added, after.queue.slots.Perm (before.queue.slots ++ added) ∧
    ∀ slot ∈ added, time ≤ slot.time ∧ (slot.isAssigning = true → time < slot.time)
  unlocking : ∀ contact, after.canUnlock contact = true → before.canUnlock contact = true

namespace Grows

variable {time : Nat} {a b c : Play}

theorem refl (time : Nat) (a : Play) : Grows time a a :=
  ⟨rfl, ⟨[], by simp⟩, fun _ h => h⟩

theorem trans (hab : Grows time a b) (hbc : Grows time b c) : Grows time a c := by
  obtain ⟨added, hp, ha⟩ := hab.queue
  obtain ⟨more, hq, hm⟩ := hbc.queue
  refine ⟨hbc.program.trans hab.program, ⟨added ++ more, ?_, ?_⟩,
    fun contact h => hab.unlocking contact (hbc.unlocking contact h)⟩
  · rw [← List.append_assoc]
    exact hq.trans (hp.append_right more)
  · intro slot hs
    rcases List.mem_append.1 hs with hs | hs
    · exact ha slot hs
    · exact hm slot hs

/-- A step that leaves the timeline alone. -/
theorem of_same_queue (hp : b.program = a.program) (hq : b.queue = a.queue)
    (hu : ∀ contact, b.canUnlock contact = true → a.canUnlock contact = true) :
    Grows time a b :=
  ⟨hp, ⟨[], by simp [hq]⟩, hu⟩

/-- A step that leaves the timeline, the threads and the unlocked contacts alone. -/
theorem of_same (hp : b.program = a.program) (hq : b.queue = a.queue)
    (hu : b.progress.unlocked = a.progress.unlocked)
    (ht : b.progress.threads = a.progress.threads) : Grows time a b :=
  of_same_queue hp hq fun contact h => by
    simpa [canUnlock, Progress.thread?, hu, ht] using h

theorem revise {play : Play} {change : Progress → Progress}
    (hu : (change play.progress).unlocked = play.progress.unlocked)
    (ht : (change play.progress).threads = play.progress.threads) :
    Grows time play (play.revise change) :=
  of_same rfl rfl hu ht

theorem announce (play : Play) (event : Event) : Grows time play (play.announce event) :=
  of_same rfl rfl rfl rfl

theorem say (play : Play) (contact : String) (saying : Saying) (moment : Nat) :
    Grows time play (play.say contact saying moment) :=
  of_same rfl rfl rfl rfl

theorem schedule (play : Play) (contact : String) {moment : Nat} (delivery : Delivery)
    (h : time ≤ moment)
    (hs : ∀ t, (Slot.mk t ⟨contact, play.epoch, delivery⟩).isAssigning = true → time < moment) :
    Grows time play (play.schedule contact moment delivery) := by
  refine ⟨rfl, ⟨[⟨play.timeFor contact moment, ⟨contact, play.epoch, delivery⟩⟩], ?_, ?_⟩,
    fun _ h => h⟩
  · refine (play.queue.schedule_perm moment ⟨contact, play.epoch, delivery⟩).trans ?_
    exact (List.perm_append_singleton _ _).symm
  · intro slot hslot
    have hle : moment ≤ play.timeFor contact moment :=
      play.queue.time_le_effectiveTime contact moment
    rw [List.mem_singleton] at hslot
    subst hslot
    exact ⟨Nat.le_trans h hle, fun ha => Nat.lt_of_lt_of_le (hs _ ha) hle⟩

theorem active_ne_locked : ThreadState.active ≠ .locked := nofun

theorem putThread (play : Play) (contact : String) {thread : ThreadState}
    (h : thread ≠ .locked) : Grows time play (play.putThread contact thread) := by
  have hstep : Grows time play { play with progress := { play.progress with
      threads := play.progress.threads.insert contact thread } } := by
    refine of_same_queue rfl rfl fun other ho => ?_
    simp only [canUnlock, Progress.thread?, Table.get?_insert] at ho ⊢
    split at ho <;> simp_all
  unfold Play.putThread
  split
  · exact hstep
  · exact hstep.trans (announce _ _)

theorem setUnlocked (play : Play) (contact : String) :
    Grows time play (play.setUnlocked contact) := by
  unfold Play.setUnlocked
  split
  · exact refl time play
  · have hstep : Grows time play
        (play.revise fun p => { p with unlocked := p.unlocked.add contact }) := by
      refine of_same_queue rfl rfl fun other ho => ?_
      simp only [canUnlock, Play.revise, NameSet.has, NameSet.add, Table.contains,
        Table.get?_insert] at ho ⊢
      split at ho <;> simp_all [Progress.thread?]
    exact hstep.trans (announce _ _)

/-- Whatever is done at some time lets the story grow. -/
theorem spans (time : Nat) : SpansAll time (Grows time) where
  refl := refl time
  trans := trans
  noted _ _ _ _ threads unlocked _ := revise unlocked threads
  scheduled := schedule
  said a contact _ _ := say a contact _ time
  typed a _ := announce a _
  opened a contact := putThread a contact active_ne_locked
  unlocked := setUnlocked
  assigned a _ _ _ := (revise rfl rfl : Grows time a (a.revise _)).trans (announce _ _)
  told a _ _ := announce a _
  ended a contact := putThread a contact nofun

theorem enter (play : Play) (contact : String) (key : RoundKey) (tempo : Tempo)
    (leading : Option Action) : Grows time play (play.enter contact key time tempo leading) :=
  (spans time).enter play contact key tempo leading

theorem unlock (play : Play) (contact target : String) :
    Grows time play (play.unlock contact target time) :=
  (spans time).unlock play contact target

theorem endPending (play : Play) (contact : String) :
    Grows time play (play.endPending contact time) :=
  (spans time).endPending play contact

theorem fire (play : Play) (slot : Slot) : Grows slot.time play (play.fire slot) :=
  (spans slot.time).fire play

end Grows

/-- Without an unlock, only a task that assigns a variable brings new tasks. -/
theorem queue_run {play : Play} {contact : String} {action : Action} {time : Nat}
    (h : ∀ name value, action.effect ≠ .setVariable name value) :
    (play.run contact action time).queue = play.queue := by
  unfold Play.run Play.runWith
  split
  · rename_i after he
    have hafter : after.queue = play.queue := by
      unfold effectWith? at he
      dsimp only at he
      split at he
      case h_9 => exact absurd ‹_› (h _ _)
      all_goals first
        | (obtain rfl := Option.some.inj he; rfl)
        | (split at he
           · obtain rfl := Option.some.inj he; rfl
           · cases he)
    split <;> exact hafter
  · rfl

theorem thread?_putThread (play : Play) (contact : String) (thread : ThreadState) :
    (play.putThread contact thread).progress.thread? contact = some thread := by
  unfold putThread
  split <;> simp [revise, announce, Progress.thread?, Table.get?_insert]

theorem unlocked_putThread (play : Play) (contact : String) (thread : ThreadState) :
    (play.putThread contact thread).progress.unlocked = play.progress.unlocked := by
  unfold putThread
  split <;> rfl

theorem has_setUnlocked (play : Play) (contact : String) :
    (play.setUnlocked contact).progress.unlocked.has contact = true := by
  unfold setUnlocked
  split
  · assumption
  · simp [revise, announce, NameSet.has, NameSet.add, Table.contains, Table.get?_insert]

/-- An unlock either leaves the timeline alone or uses up that the contact can be unlocked. -/
theorem queue_unlock (play : Play) (contact target : String) (time : Nat) :
    (play.unlock contact target time).queue = play.queue ∨
      play.program.has target = true ∧ play.canUnlock target = true ∧
        (play.unlock contact target time).canUnlock target = false := by
  unfold unlock
  split
  · exact .inl rfl
  · rename_i entry he
    split
    · exact .inl rfl
    · rename_i hu
      refine .inr ⟨Option.isSome_of_eq_some he,
        by rw [canUnlock, Bool.eq_false_iff.2 hu]; rfl, ?_⟩
      dsimp only
      generalize hopened : ((play.say contact (.ofUnlock target) time).setUnlocked
        target).putThread target .active = opened
      have hused : opened.canUnlock target = false := by
        subst hopened
        simp [canUnlock, thread?_putThread, unlocked_putThread, has_setUnlocked]
      have hsaid : Grows time opened (opened.announce
          (.actionExecuted contact { effect := .unlockContact target })) := .announce ..
      split
      · rename_i key _
        have hgrows := hsaid.trans (.enter _ target key .immediate none)
        refine Bool.eq_false_iff.2 fun h => ?_
        have := hgrows.unlocking target h
        simp [hused] at this
      · exact hused

theorem queue_foldl_unlock (play : Play) (contact : String) (time : Nat) (targets : List String) :
    (targets.foldl (fun play target => play.unlock contact target time) play).queue = play.queue ∨
      ∃ target, play.program.has target = true ∧ play.canUnlock target = true ∧
        (targets.foldl (fun play target => play.unlock contact target time) play).canUnlock target =
          false := by
  induction targets generalizing play with
  | nil => exact .inl rfl
  | cons first rest ih =>
    simp only [List.foldl_cons]
    have hfirst : Grows time play (play.unlock contact first time) := .unlock ..
    have hrest : Grows time (play.unlock contact first time) (rest.foldl
        (fun play target => play.unlock contact target time) (play.unlock contact first time)) :=
      (Grows.spans time).foldl (fun play target => Grows.unlock play contact target) _ _
    rcases queue_unlock play contact first time with hq | ⟨hh, hc, hn⟩
    · rcases ih (play.unlock contact first time) with hr | ⟨target, hh, hc, hn⟩
      · exact .inl (hr.trans hq)
      · exact .inr ⟨target, hfirst.program ▸ hh, hfirst.unlocking target hc, hn⟩
    · refine .inr ⟨first, hh, hc, Bool.eq_false_iff.2 fun h => ?_⟩
      have := hrest.unlocking first h
      simp [hn] at this

theorem queue_endPending (play : Play) (contact : String) (time : Nat) :
    (play.endPending contact time).queue = play.queue := by
  unfold endPending finishThread putThread
  dsimp only
  repeat' split
  all_goals rfl

/-- A task that assigns no variable brings new tasks only if it unlocks a contact. -/
theorem queue_fire (play : Play) {slot : Slot} (h : slot.isAssigning = false) :
    (play.fire slot).queue = play.queue ∨
      ∃ target, play.program.has target = true ∧ play.canUnlock target = true ∧
        (play.fire slot).canUnlock target = false := by
  unfold fire
  split
  · split
    · exact .inl rfl
    · exact .inl rfl
    · rename_i action ha
      refine .inl (queue_run fun name value he => ?_)
      simp [Slot.isAssigning, ha, he] at h
    · unfold deliverHeld
      dsimp only
      rw [queue_endPending]
      rcases queue_foldl_unlock (play.revise fun p => { p with
        unlocks := p.unlocks.erase slot.task.contact }) slot.task.contact slot.time
        (play.progress.unlocks.getD slot.task.contact []) with hq | ⟨target, hh, hc, hn⟩
      · exact .inl hq
      · refine .inr ⟨target, hh, hc, Bool.eq_false_iff.2 fun hcan => ?_⟩
        have hend : ∀ p : Play, Grows slot.time p (p.endPending slot.task.contact slot.time) :=
          fun p => .endPending ..
        have := (hend _).unlocking target hcan
        simp [hn] at this
  · exact .inl rfl

/-- The number of contacts that can still be unlocked. -/
def unlockable (play : Play) : Nat := play.program.contacts.keys.countP play.canUnlock

/-- How far the first task lies before the time `now`. -/
def overdue (play : Play) (now : Nat) : Nat :=
  (play.queue.nextTime?.map (now + 1 - ·)).getD 0

/-- The number of tasks that assign a variable at the time of the first task. -/
def assigningNext (play : Play) : Nat :=
  play.queue.slots.countP fun slot => slot.isAssigning && play.queue.nextTime? == some slot.time

/-- What becomes less with every task that is fired. -/
def rank (play : Play) (now : Nat) : Nat × Nat × Nat × Nat :=
  (play.overdue now, play.unlockable, play.assigningNext, play.queue.size)

theorem countP_lt {α : Type} {p q : α → Bool} {items : List α} {item : α}
    (h : ∀ a ∈ items, p a = true → q a = true) (hi : item ∈ items) (hq : q item = true)
    (hp : p item = false) : items.countP p < items.countP q := by
  induction items with
  | nil => simp at hi
  | cons first rest ih =>
    have hle : rest.countP p ≤ rest.countP q :=
      List.countP_mono_left fun a ha => h a (List.mem_cons_of_mem _ ha)
    have hfirst := h first List.mem_cons_self
    rcases List.mem_cons.1 hi with rfl | hi
    · simp only [List.countP_cons, hp, hq]
      simp
      omega
    · have := ih (fun a ha => h a (List.mem_cons_of_mem _ ha)) hi
      simp only [List.countP_cons]
      cases hpf : p first
      · simp; omega
      · simp [hfirst hpf]; omega

theorem Grows.unlockable_le {time : Nat} {a b : Play} (h : Grows time a b) :
    b.unlockable ≤ a.unlockable := by
  unfold unlockable
  rw [h.program]
  exact List.countP_mono_left fun contact _ => h.unlocking contact

theorem Grows.unlockable_lt {time : Nat} {a b : Play} (h : Grows time a b) {target : String}
    (hh : a.program.has target = true) (hc : a.canUnlock target = true)
    (hn : b.canUnlock target = false) : b.unlockable < a.unlockable := by
  unfold unlockable
  rw [h.program]
  exact countP_lt (fun contact _ => h.unlocking contact) (Table.contains_iff_mem_keys.1 hh) hc hn

/-- Firing a task that is due makes the rank less. -/
theorem rank_fire_lt {play : Play} {now : Nat} {slot : Slot}
    (h : play.queue.due? now = some slot) :
    Prod.Lex (· < ·) (Prod.Lex (· < ·) (Prod.Lex (· < ·) (· < ·)))
      ((play.dropFirst.fire slot).rank now) (play.rank now) := by
  obtain ⟨hnext, hdue⟩ := Option.filter_eq_some_iff.1 h
  have hdue : slot.time ≤ now := by simpa using hdue
  have hslots := Queue.slots_of_next hnext
  have htime : play.queue.nextTime? = some slot.time := by simp [Queue.nextTime?, hnext]
  have hgrows := Grows.fire play.dropFirst slot
  generalize hafter : play.dropFirst.fire slot = after at hgrows
  obtain ⟨added, hperm, hadded⟩ := hgrows.queue
  have hover : play.overdue now = now + 1 - slot.time := by simp [overdue, htime]
  have hlater : ∀ other ∈ after.queue.slots, slot.time ≤ other.time := by
    intro other ho
    rcases List.mem_append.1 (hperm.mem_iff.1 ho) with ho | ho
    · refine Queue.time_le_of_next hnext ?_
      rw [hslots]
      exact List.mem_cons_of_mem _ ho
    · exact (hadded other ho).1
  by_cases hsame : after.queue.nextTime? = some slot.time
  · have hunlock : after.unlockable ≤ play.unlockable := hgrows.unlockable_le
    have heq : after.overdue now = play.overdue now := by simp [overdue, hsame, htime]
    have hcount : after.assigningNext = play.dropFirst.queue.slots.countP
        fun s => s.isAssigning && some slot.time == some s.time := by
      have hnone : added.countP (fun s => s.isAssigning && some slot.time == some s.time) = 0 := by
        rw [List.countP_eq_zero]
        intro s hs ha
        have := (hadded s hs).2
        simp only [Bool.and_eq_true, beq_iff_eq, Option.some.injEq] at ha
        have := this ha.1
        omega
      rw [assigningNext, hsame, hperm.countP_eq, List.countP_append, hnone, Nat.add_zero]
    have hcount' : play.assigningNext = play.dropFirst.queue.slots.countP
        (fun s => s.isAssigning && some slot.time == some s.time) +
          if slot.isAssigning then 1 else 0 := by
      rw [assigningNext, htime, hslots, List.countP_cons]
      simp [dropFirst]
    rcases Nat.lt_or_eq_of_le hunlock with hlt | hue
    · simp only [rank, heq]
      exact .right _ (.left _ _ hlt)
    · simp only [rank, heq, hue]
      refine .right _ (.right _ ?_)
      cases hs : slot.isAssigning with
      | true => exact .left _ _ (by rw [hcount, hcount', hs]; simp)
      | false =>
        have hc : after.assigningNext = play.assigningNext := by rw [hcount, hcount', hs]; simp
        rw [hc]
        refine .right _ ?_
        rcases queue_fire play.dropFirst hs with hq | ⟨target, hh, hcan, hn⟩
        · rw [hafter] at hq
          simp [Queue.size, hq, hslots, dropFirst]
        · rw [hafter] at hn
          have := hgrows.unlockable_lt hh hcan hn
          have : play.dropFirst.unlockable = play.unlockable := rfl
          omega
  · refine .left _ _ ?_
    rw [hover]
    cases hn : after.queue.next? with
    | none => simp [overdue, Queue.nextTime?, hn]; omega
    | some other =>
      have ho : other ∈ after.queue.slots := by
        rw [Queue.slots_of_next hn]
        exact List.mem_cons_self
      have hle := hlater other ho
      have hne : other.time ≠ slot.time := fun he => hsame (by simp [Queue.nextTime?, hn, he])
      simp [overdue, Queue.nextTime?, hn]
      omega

end Play
end ChatStory
