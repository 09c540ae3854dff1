import ChatStory.Proofs.Fitting
import ChatStory.Proofs.Session.Sequence
import ChatStory.Session.Loading

/-!
Sessions that come about in any way: from an empty store or from one that holds whatever can be read,
and through all operations, among them those that begin the story anew or go on with another script.
No name in them points to nothing.
-/
namespace ChatStory

namespace Session

inductive Arises : Session → Prop where
  | start {program : Program} (options : Options) (store : Store) (now : Nat) :
    program.Scripted → Arises (start program options store now)
  | perform {s : Session} {operation : Operation} (now : Nat) :
    Arises s → operation.Scripted → Arises (s.perform now operation)

end Session

namespace Play

variable {a b : Play} {now : Nat}

theorem coherent_schedule (coherent : a.Coherent) {contact : String}
    (known : a.program.has contact = true) (time : Nat) (delivery : Delivery) :
    (a.schedule contact time delivery).Coherent := by
  refine ⟨coherent.formed, coherent.kept, ?_, ?_, Queue.bounded_schedule coherent.bounded _ _,
    coherent.rounded⟩
  · intro slot member
    rcases Queue.mem_schedule.1 member with rfl | old
    · rfl
    · exact coherent.epochs slot old
  · intro slot member
    rcases Queue.mem_schedule.1 member with rfl | old
    · exact known
    · exact coherent.known slot old

theorem coherent_foldl_schedule {α : Type} (contact : α → String) (time : α → Nat)
    (delivery : α → Delivery) (coherent : a.Coherent) {items : List α}
    (known : ∀ item ∈ items, a.program.has (contact item) = true) :
    (items.foldl (fun play item => play.schedule (contact item) (time item) (delivery item)) a).Coherent
    := by
  induction items generalizing a with
  | nil => exact coherent
  | cons item rest ih =>
    obtain ⟨first, others⟩ := List.forall_mem_cons.1 known
    exact ih (coherent_schedule coherent first _ _) others

/- The saved tasks of known contacts, and notices for those who wait, make a coherent timeline. -/
theorem coherent_resumeTimeline (coherent : a.Coherent)
    (known : ∀ pending ∈ a.progress.deliveries, a.program.has pending.contact = true) :
    (a.resumeTimeline now).Coherent := by
  have taken : (a.revise fun p => { p with deliveries := [] }).Coherent :=
    coherent.moves (.of_same rfl rfl rfl (fun kept => { kept with }) rfl rfl rfl rfl)
  have put := coherent_foldl_schedule SavedTask.contact SavedTask.time SavedTask.delivery taken known
  rw [foldl_schedule] at put
  rw [resumeTimeline_eq, foldl_schedule]
  apply coherent_foldl_schedule id (fun _ => now) (fun _ => .notices) put
  intro c waits
  exact (mem_unserved.1 waits).1.elim (coherent.kept.unlocks c) (coherent.kept.endings c)

/- Progress that is fitted to its program is coherent as long as no task waits. -/
theorem coherent_fitted {program : Program} (formed : program.WellFormed) (saved : Progress)
    (indicator : Nat) : Coherent {
      program := program
      progress := saved.fitTo program
      queue := ∅
      epoch := 0
      indicator := indicator
      events := #[] } := by
  obtain ⟨kept, rounded⟩ := Progress.kept_fitTo formed saved
  refine ⟨formed, kept, nofun, nofun, Queue.bounded_empty, ?_⟩
  rintro c ⟨active, none⟩
  have had := rounded c active
  rw [Table.contains, none] at had
  cases had

theorem coherent_resumed {program : Program} (formed : program.WellFormed) (options : Options)
    (saved : Progress) (now : Nat) : (Play.resumed program options saved now).Coherent :=
  coherent_resumeTimeline (coherent_fitted formed saved options.indicator)
    fun _ member => Progress.known_of_fitTo saved member

end Play

namespace Session

open Play

variable {s : Session} {now : Nat}

theorem coherent_start {program : Program} (formed : program.WellFormed) (options : Options)
    (store : Store) (now : Nat) : (start program options store now).play.Coherent := by
  apply start_keeps lasting_coherent
  · exact fun saved _ => coherent_resumed formed options saved now
  · exact fun _ => coherent_beginStory (sound_initial formed _ _ _ _).coherent now

theorem coherent_perform (coherent : s.play.Coherent) {operation : Operation}
    (scripted : operation.Scripted) : (s.perform now operation).play.Coherent := by
  refine perform_keeps lasting_coherent coherent (fun start => coherent_acted coherent scripted) ?_ ?_
  · rintro program rfl
    exact (sound_switched scripted.wellFormed s.play).coherent
  · intro ongoing unacted waits
    exact coherent.moves (rests_of_unacted unacted waits ongoing).moves

theorem coherent_acts {a b : Play} (coherent : a.Coherent) (acts : Acts Operation.Scripted a b) :
    b.Coherent := by
  cases acts with
  | acted scripted acted => exact coherent_acted coherent scripted acted
  | unacted scripted _ _ => exact coherent_perform coherent scripted
  | noted => exact coherent_recordTimeline coherent
  | still => exact coherent

theorem Arises.coherent (arises : Arises s) : s.play.Coherent := by
  induction arises with
  | start options store now scripted => exact coherent_start scripted.wellFormed options store now
  | perform now _ scripted ih => exact coherent_perform ih scripted

theorem Arises.performAll {steps : List (Nat × Operation)} (arises : s.Arises)
    (scripted : ∀ step ∈ steps, step.2.Scripted) : (s.performAll steps).Arises := by
  induction steps generalizing s with
  | nil => exact arises
  | cons step rest ih =>
    obtain ⟨first, others⟩ := List.forall_mem_cons.1 scripted
    exact ih (arises.perform step.1 first) others

/- A session that goes on with another script has a program of it. -/
theorem Arises.switchScript {source : String} {now : Nat} {loaded : Loaded} (arises : s.Arises)
    (switched : s.switchScript source now = .ok loaded) : loaded.session.Arises := by
  unfold Session.switchScript programOf at switched
  cases compiled : (compile source).result with
  | error diagnostic =>
    simp only [compiled] at switched
    cases switched
  | ok program =>
    simp only [compiled] at switched
    cases switched
    have scripted : (Operation.switchProgram program).Scripted :=
      Program.Compiled.scripted ⟨source, compiled⟩
    exact arises.perform now scripted

end Session

/-- Every name is that of a contact of the program, every contact has a thread and a history, every
current round is a round of its contact, and every active thread has one. -/
structure Play.Referential (play : Play) : Prop where
  threads : ∀ c, play.progress.threads.contains c = true ↔ play.program.has c = true
  histories : ∀ c, play.progress.histories.contains c = true ↔ play.program.has c = true
  rounds : ∀ c, play.progress.rounds.contains c = true → play.program.has c = true
  unlocked : ∀ c, play.progress.unlocked.has c = true → play.program.has c = true
  viewed : ∀ c, play.progress.viewed.has c = true → play.program.has c = true
  unlocks : ∀ c, play.progress.unlocks.contains c = true → play.program.has c = true
  endings : ∀ c, play.progress.endings.has c = true → play.program.has c = true
  statuses : ∀ c, play.progress.statuses.contains c = true → play.program.has c = true
  tasks : ∀ slot ∈ play.queue.slots, play.program.has slot.task.contact = true
  current : ∀ c key, play.progress.rounds.get? c = some key → (play.program.round? c key).isSome = true
  active : ∀ c, play.progress.thread? c = some .active → play.progress.rounds.contains c = true

/- No session refers to what its program does not have, whatever its store held when it was made. -/
theorem Session.Arises.referential {s : Session} (arises : s.Arises) : s.play.Referential := by
  have coherent := arises.coherent
  have kept := coherent.kept
  refine ⟨kept.threads, kept.histories, ?_, kept.unlocked, kept.viewed, kept.unlocks, kept.endings,
    kept.statuses, coherent.known, kept.rounds, ?_⟩
  · intro c had
    obtain ⟨key, found⟩ := Table.contains_eq_true.1 had
    exact Program.has_of_round (kept.rounds c key found)
  · intro c active
    cases found : s.play.progress.rounds.get? c with
    | some key => rw [Table.contains, found, Option.isSome_some]
    | none => exact absurd ⟨active, found⟩ (coherent.rounded c)

namespace Session

/-- The store can be read, and what it holds speaks of a second contact. -/
def keepsSecond (s : Session) : Bool :=
  !s.store.refused.contains .read && !s.store.refused.contains .write &&
    s.play.progress.fitsWords && s.play.progress.reread?.isSome &&
    s.play.progress.threads.contains "B"

theorem played_keepsSecond : (playedWithin 0 overlapping 1000 pickOnce).any keepsSecond = true := by
  decide +kernel

/- A script without a contact that the store speaks of, and then the script with it again. -/
theorem referential_of_foreign_store : ∃ (store : Store) (saved : Progress),
    restored? store = some saved ∧ saved.threads.contains "B" = true ∧
      (compile replying).program.has "B" = false ∧
      ∃ s : Session, s = ((start (compile replying).program {} store 5000).perform 6000
          (.choose "A" 0)).perform 9000 (.switchProgram (compile overlapping).program) ∧
        s.Arises ∧ s.play.Referential := by
  obtain ⟨program, compiled, shown⟩ := played_of_any played_keepsSecond
  have reached : ((start program {} .empty 1000).performAll pickOnce).Reached := by
    apply Reached.performAll (.start {} 1000 ⟨overlapping, compiled⟩ rfl)
    exact List.forall_mem_singleton.2 trivial
  generalize (start program {} .empty 1000).performAll pickOnce = t at shown reached
  simp only [keepsSecond, Bool.and_eq_true, Bool.not_eq_true'] at shown
  obtain ⟨⟨⟨⟨readable, writable⟩, fits⟩, read⟩, second⟩ := shown
  obtain ⟨saved, reads⟩ := Option.isSome_iff_exists.1 read
  have restored := (restored_of_saved (reached.saved writable) readable fits).trans reads
  have kept : saved.threads = t.play.progress.threads := by
    obtain ⟨_, _, _, same, _⟩ := Progress.reread_cases reads
    rw [same]
  have begun : Arises (start (compile replying).program {} t.store 5000) :=
    .start {} t.store 5000 ⟨replying, rfl⟩
  have chosen : Arises ((start (compile replying).program {} t.store 5000).perform 6000 (.choose "A" 0)) :=
    begun.perform 6000 trivial
  have switched : Arises (((start (compile replying).program {} t.store 5000).perform 6000
      (.choose "A" 0)).perform 9000 (.switchProgram (compile overlapping).program)) :=
    chosen.perform 9000 ⟨overlapping, rfl⟩
  refine ⟨t.store, saved, restored, ?_, by decide +kernel, _, rfl, switched, switched.referential⟩
  rw [kept]
  exact second

end Session
end ChatStory
