import ChatStory.Proofs.Session.Rebuilt

/-!
Sessions whose clock never goes back. A task is fired when its time has come, so the times
noted for the contacts that no task on the timeline explains have all passed; what a session saves
is then all that there is to know of its timeline.
-/
namespace ChatStory

namespace Play

variable {a b : Play} {clock now : Nat}

theorem floored_moves {busy : String → Prop} (coherent : a.Coherent)
    (floored : a.queue.Floored clock) (moves : Moves busy a b) : b.queue.Floored clock :=
  moves.queue.floored coherent.bounded floored

theorem floored_fire (coherent : a.Coherent) (floored : a.queue.Floored now) {slot : Slot}
    (due : a.queue.due? now = some slot) : (a.dropFirst.fire slot).queue.Floored now := by
  obtain ⟨next, early⟩ := next_of_due due
  have fires := (moves_fire_busy (a := a.dropFirst) coherent.formed (coherent.known_first next)).1
  exact floored_moves coherent.dropFirst (Queue.floored_rest floored next early) fires

theorem floored_fireDue (coherent : a.Coherent) (floored : a.queue.Floored now) :
    (a.fireDue now).1.queue.Floored now := by
  have kept : ((a.fireDue now).1.Coherent ∧ (a.fireDue now).1.queue.Floored now) ∧ _ :=
    fireDue_keeps (P := fun play => play.Coherent ∧ play.queue.Floored now)
      (fun _ _ both due => ⟨coherent_fire both.1 (next_of_due due).1, floored_fire both.1 both.2 due⟩)
      ⟨coherent, floored⟩
  exact kept.1.2

theorem floored_beginStory (formed : a.program.WellFormed) (empty : a.queue = ∅) (now : Nat) :
    (a.beginStory now).queue.Floored now := by
  have start : a.queue.Floored now := by
    rw [empty]
    exact Queue.floored_empty now
  have bounded : a.queue.Bounded := by
    rw [empty]
    exact Queue.bounded_empty
  unfold beginStory
  split
  · exact start
  · split
    · exact (moves_enter formed _ _ _ _ _).queue.floored bounded start
    · exact start

theorem floored_acted {s : Session} (coherent : s.play.Coherent) (floored : s.play.queue.Floored now)
    {operation : Operation} (scripted : operation.Scripted) (acted : s.acted? now operation = some a) :
    a.queue.Floored now := by
  cases operation with
  | switchProgram program =>
    obtain ⟨rfl, _⟩ := Session.begun_of_switch acted
    exact floored_beginStory (a := s.play.switched program) scripted.wellFormed rfl now
  | reset =>
    cases acted
    exact floored_beginStory
      (a := s.play.nextEpoch.revise fun _ => .initial s.play.program s.options.typingDelay)
      coherent.formed rfl now
  | _ => exact floored_moves coherent floored (moves_acted coherent rfl acted)

end Play

namespace Session

open Play

variable {s : Session} {clock now : Nat}

theorem floored_perform (coherent : s.play.Coherent) (floored : s.play.queue.Floored clock)
    (later : clock ≤ now) {operation : Operation} (scripted : operation.Scripted)
    (waits : operation ≠ .flush) : (s.perform now operation).play.queue.Floored now := by
  have still := floored.later later
  cases acted : s.acted? now operation with
  | some start =>
    have fired := floored_fireDue (coherent_acted coherent scripted acted)
      (floored_acted coherent still scripted acted)
    rcases play_perform_of_acted acted with same | same
    · rw [same]
      exact fired
    · rw [same]
      exact fired
  | none =>
    cases operation with
    | switchProgram program =>
      rw [play_of_unbegun acted]
      exact Queue.floored_empty now
    | reset => cases acted
    | _ => exact floored_moves coherent still (rests_of_unacted acted waits rfl).moves

/-- A session that can be reached by a time, from a new story by operations that wait for the times
of the tasks, at readings of the clock of which none is before an earlier one. -/
inductive ReachedBy : Nat → Session → Prop where
  | start {program : Program} (options : Options) {store : Store} (now : Nat) :
    program.Compiled → restored? store = none → ReachedBy now (start program options store now)
  | perform {s : Session} {clock now : Nat} {operation : Operation} :
    ReachedBy clock s → clock ≤ now → operation.Compiled → operation ≠ .flush →
      ReachedBy now (s.perform now operation)

theorem ReachedBy.reached (by_clock : ReachedBy clock s) : s.Reached := by
  induction by_clock with
  | start options now compiled fresh => exact .start options now compiled fresh
  | perform _ _ compiled _ ih => exact ih.perform _ compiled

theorem ReachedBy.floored (by_clock : ReachedBy clock s) : s.play.queue.Floored clock := by
  induction by_clock with
  | start options now compiled fresh =>
    rw [start_of_fresh fresh, play_settle]
    have sound := sound_beginStory (sound_initial compiled.wellFormed options.typingDelay 0
      options.indicator #[]) now
    exact floored_fireDue sound.coherent (floored_beginStory compiled.wellFormed rfl now)
  | perform before later compiled waits ih =>
    exact floored_perform before.reached.sound.coherent ih later compiled.scripted waits

/- The timeline of a session is put back from its store as it was, with every answer that it would
   give from then on, exactly if the store can be read and the payloads on the timeline read as
   themselves. -/
theorem timeline_resumes_iff (by_clock : ReachedBy clock s) (later : clock ≤ now)
    (readable : s.store.refused.contains .read = false)
    (writable : s.store.refused.contains .write = false) (fits : s.play.progress.fitsWords = true) :
    (∃ saved, restored? s.store = some saved ∧
      let play := Play.resumed s.play.program s.options saved now
      play.queue.listed = s.play.queue.listed ∧
        ∀ requests : List Queue.Request, (∀ request ∈ requests, request.From now) →
          play.queue.answers play.epoch requests = s.play.queue.answers s.play.epoch requests) ↔
    ∃ saved, s.play.progress.reread? = some saved ∧
      saved.deliveries = s.play.progress.deliveries := by
  have sound := by_clock.reached.sound
  have saved := by_clock.reached.saved writable
  have restored := restored_of_saved saved readable fits
  have own : s.play.progress.deliveries = s.play.queue.listed := saved.deliveries
  have passed := by_clock.floored.later later
  rw [restored]
  constructor
  · rintro ⟨q, read, listed, _⟩
    obtain ⟨_, whole, _⟩ := resumed_of_reread sound saved read s.options now
    obtain ⟨_, ascending⟩ := times_of_reread saved read
    obtain ⟨_, resumed, _⟩ := Queue.resume_empty 0 ascending
    rw [whole] at listed
    exact ⟨q, read, resumed.symm.trans (listed.trans own.symm)⟩
  · rintro ⟨q, read, same⟩
    obtain ⟨_, whole, _⟩ := resumed_of_reread sound saved read s.options now
    obtain ⟨_, ascending⟩ := times_of_reread saved read
    obtain ⟨_, listed, bounded, floored⟩ := Queue.resume_empty 0 ascending
    have alike : Queue.Alike now (Queue.resume ∅ 0 q.deliveries) s.play.queue := by
      apply Queue.alike_of_listed _ bounded sound.bounded (floored.later (Nat.zero_le now)) passed
      rw [listed, same, own]
    refine ⟨q, read, ?_⟩
    dsimp only
    rw [whole]
    exact ⟨alike.listed, fun requests ahead => Queue.answers_of_alike alike _ _ ahead⟩

theorem ReachedBy.performAll {steps : List (Nat × Operation)} (by_clock : ReachedBy clock s)
    (steady : ∀ step ∈ steps, step.1 = clock ∧ step.2.Compiled ∧ step.2 ≠ .flush) :
    ReachedBy clock (s.performAll steps) := by
  induction steps generalizing s with
  | nil => exact by_clock
  | cons step rest ih =>
    obtain ⟨⟨same, compiled, waits⟩, others⟩ := List.forall_mem_cons.1 steady
    have first : ReachedBy step.1 (s.perform step.1 step.2) :=
      by_clock.perform (Nat.le_of_eq same.symm) compiled waits
    rw [same] at first
    unfold Session.performAll
    rw [same]
    exact ih first others

def replying : String :=
  ":: A-Round-1 [initial_contact]\nHi\n[[Go|A-Round-2]]\n\n:: A-Round-2 [chat]\nReply.\n"

/-- A variable becomes infinite while a reply is on its way. -/
def growWhileTyping : List (Nat × Operation) :=
  [(1000, .choose "A" 0), (1000, .setVariable "x" (.number Decimal.infinity))]

def losesTimeline (s : Session) : Bool :=
  !s.store.refused.contains .read && !s.store.refused.contains .write &&
    s.play.progress.fitsWords && decide (s.play.progress.reread? = none) &&
    decide (s.pendingTasks = 2) &&
    (startWithin 0 s.play.program s.options s.store 1000).any fun t => t.pendingTasks = 0

theorem played_replying : (playedWithin 0 replying 1000 growWhileTyping).any losesTimeline = true := by
  decide +kernel

theorem losesTimeline_eq_true {s : Session} : s.losesTimeline = true ↔
    s.store.refused.contains .read = false ∧ s.store.refused.contains .write = false ∧
      s.play.progress.fitsWords = true ∧ s.play.progress.reread? = none ∧ s.pendingTasks = 2 ∧
      (startWithin 0 s.play.program s.options s.store 1000).any (fun t => t.pendingTasks = 0) =
        true := by
  simp only [losesTimeline, Bool.and_eq_true, Bool.not_eq_true', decide_eq_true_eq, and_assoc]

theorem reachedBy_growWhileTyping {program : Program}
    (compiled : (compile replying).result = .ok program) :
    ReachedBy 1000 ((start program {} .empty 1000).performAll growWhileTyping) := by
  apply ReachedBy.performAll (.start {} 1000 ⟨replying, compiled⟩ rfl)
  simp only [growWhileTyping, List.forall_mem_cons]
  exact ⟨⟨trivial, trivial, nofun⟩, ⟨trivial, trivial, nofun⟩, List.forall_mem_nil _⟩

/- A session with a variable that is infinite saves what cannot be read, and the reply that was on its
   way never comes. -/
theorem timeline_lost : ∃ program : Program, (compile replying).result = .ok program ∧
    ∃ s, s = (start program {} .empty 1000).performAll growWhileTyping ∧ s.pendingTasks = 2 ∧
      restored? s.store = none ∧
      (start s.play.program s.options s.store 1000).pendingTasks = 0 := by
  obtain ⟨program, compiled, shown⟩ := played_of_any played_replying
  obtain ⟨readable, writable, fits, unreadable, waiting, begun⟩ := losesTimeline_eq_true.1 shown
  obtain ⟨t, within, none⟩ := (Option.any_eq_true _ _).1 begun
  have saved := (reachedBy_growWhileTyping compiled).reached.saved writable
  have fresh := (restored_of_saved saved readable fits).trans unreadable
  refine ⟨program, compiled, _, rfl, waiting, fresh, ?_⟩
  rw [start_of_startWithin fresh within]
  exact of_decide_eq_true none

/- The equivalence, for that session. -/
theorem timeline_resumes_iff_growWhileTyping : ∃ s : Session, ReachedBy 1000 s ∧ 1000 ≤ 1000 ∧
    s.store.refused.contains .read = false ∧ s.store.refused.contains .write = false ∧
    s.play.progress.fitsWords = true ∧
    ((∃ saved, restored? s.store = some saved ∧
      let play := Play.resumed s.play.program s.options saved 1000
      play.queue.listed = s.play.queue.listed ∧
        ∀ requests : List Queue.Request, (∀ request ∈ requests, request.From 1000) →
          play.queue.answers play.epoch requests = s.play.queue.answers s.play.epoch requests) ↔
    ∃ saved, s.play.progress.reread? = some saved ∧
      saved.deliveries = s.play.progress.deliveries) := by
  obtain ⟨program, compiled, shown⟩ := played_of_any played_replying
  obtain ⟨readable, writable, fits, _⟩ := losesTimeline_eq_true.1 shown
  have by_clock := reachedBy_growWhileTyping compiled
  exact ⟨_, by_clock, Nat.le_refl _, readable, writable, fits,
    timeline_resumes_iff by_clock (Nat.le_refl _) readable writable fits⟩

end Session
end ChatStory
