import ChatStory.Proofs.Session.Run

/-!
Plays that keep to their programs. A store may put anything on the timeline, even actions that would
have been held back, so the notices that wait may be left behind; yet every name in such a play is the
name of a contact of its program, and every open thread is in a round.
-/
namespace ChatStory.Play

open Stirs (only)

/-- A play that keeps to its program, whatever the tasks on its timeline do. -/
structure Coherent (play : Play) : Prop where
  formed : play.program.WellFormed
  kept : play.progress.KeptFor play.program
  epochs : ∀ slot ∈ play.queue.slots, slot.task.epoch = play.epoch
  known : ∀ slot ∈ play.queue.slots, play.program.has slot.task.contact = true
  bounded : play.queue.Bounded
  rounded : ∀ c, ¬play.Unrounded c

variable {a b : Play} {now : Nat}

theorem Sound.coherent (sound : a.Sound) : a.Coherent :=
  ⟨sound.formed, sound.kept, fun slot member => (sound.tasks slot member).epoch,
    fun slot member => (sound.tasks slot member).known, sound.bounded, sound.rounded⟩

theorem Coherent.follow {busy : String → Prop} (coherent : a.Coherent) (moves : Moves busy a b)
    (rounded : ∀ c, b.Unrounded c → a.Unrounded c) : b.Coherent := by
  refine ⟨moves.formed coherent.formed, ?_, ?_, ?_, moves.queue.bounded coherent.bounded,
    fun c loose => coherent.rounded c (rounded c loose)⟩
  · rw [moves.program]
    exact moves.kept coherent.kept
  · intro slot member
    rw [moves.epoch]
    rcases moves.queue.mem member with old | accepts
    · exact coherent.epochs slot old
    · exact accepts.epoch
  · intro slot member
    rw [moves.program]
    rcases moves.queue.mem member with old | accepts
    · exact coherent.known slot old
    · exact accepts.known

theorem Coherent.moves (coherent : a.Coherent) (moves : Moves nobody a b) : b.Coherent :=
  coherent.follow moves fun c => moves.unrounded c id

theorem Coherent.known_of_thread (coherent : a.Coherent) {contact : String} {thread : ThreadState}
    (found : a.progress.thread? contact = some thread) : a.program.has contact = true :=
  (coherent.kept.threads contact).1 (Table.contains_eq_true.2 ⟨thread, found⟩)

theorem Coherent.dropFirst (coherent : a.Coherent) : a.dropFirst.Coherent :=
  ⟨coherent.formed, coherent.kept, fun slot member => coherent.epochs slot (List.mem_of_mem_tail member),
    fun slot member => coherent.known slot (List.mem_of_mem_tail member),
    Queue.bounded_rest coherent.bounded, coherent.rounded⟩

theorem Coherent.known_first (coherent : a.Coherent) {slot : Slot} (next : a.queue.next? = some slot) :
    a.program.has slot.task.contact = true := by
  apply coherent.known slot
  rw [Queue.slots_of_next next]
  exact List.mem_cons_self

theorem Coherent.epoch_first (coherent : a.Coherent) {slot : Slot} (next : a.queue.next? = some slot) :
    slot.task.epoch = a.dropFirst.epoch := by
  apply coherent.epochs slot
  rw [Queue.slots_of_next next]
  exact List.mem_cons_self

/- An action that is held back may be run too; then its contact is left to wait. -/
theorem moves_run_busy (formed : a.program.WellFormed) {contact : String}
    (known : a.program.has contact = true) (action : Action) (time : Nat) :
    Moves (only contact) a (a.run contact action time) ∧
      ∀ c, (a.run contact action time).Unrounded c → a.Unrounded c := by
  cases bubble : action.effect.isBubble with
  | false =>
    obtain ⟨stirs, rounded, _⟩ :=
      stirs_runWith (quiet_reopen a.closedThreads) formed known bubble time
    exact ⟨stirs.toMoves, rounded⟩
  | true =>
    have moves := moves_run formed known (Bool.eq_false_iff.2 fun held => by
      rw [Effect.not_heldBack_of_bubble bubble] at held
      cases held) time
    exact ⟨moves.widen fun _ => False.elim, fun c => moves.unrounded c id⟩

theorem moves_fire_busy (formed : a.program.WellFormed) {slot : Slot}
    (known : a.program.has slot.task.contact = true) : Moves (only slot.task.contact) a (a.fire slot) ∧
      ∀ c, (a.fire slot).Unrounded c → a.Unrounded c := by
  have still : Moves (only slot.task.contact) a a ∧ ∀ c, a.Unrounded c → a.Unrounded c :=
    ⟨.refl _ a, fun _ => id⟩
  unfold fire
  split
  · split
    · exact ⟨.announce _ _ _, fun _ => id⟩
    · exact ⟨.say a known _ _, fun _ => id⟩
    · exact moves_run_busy formed known _ _
    · have moves := (moves_deliverHeld formed known slot.time).1
      exact ⟨moves.widen fun _ => False.elim, fun c => moves.unrounded c id⟩
  · exact still

theorem coherent_fire (coherent : a.Coherent) {slot : Slot} (next : a.queue.next? = some slot) :
    (a.dropFirst.fire slot).Coherent := by
  obtain ⟨moves, rounded⟩ := moves_fire_busy (a := a.dropFirst) coherent.formed
    (coherent.known_first next)
  exact coherent.dropFirst.follow moves rounded

theorem coherent_beginStory (coherent : a.Coherent) (now : Nat) : (a.beginStory now).Coherent := by
  unfold beginStory
  split
  · exact coherent
  · split
    · exact coherent.moves (moves_enter coherent.formed _ _ _ _ _)
    · exact coherent

end ChatStory.Play
