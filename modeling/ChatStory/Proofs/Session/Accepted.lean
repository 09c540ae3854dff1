import ChatStory.Proofs.Session.Clock
import ChatStory.Proofs.Session.Durable
import ChatStory.Proofs.Session.Finite

/-!
Saves that are accepted. What a session saves is read again exactly if no number that plays a part in
the story is infinite or no number at all, and no such number comes from anywhere but the host: not from
a script, not from a save, not from what is done.
-/
namespace ChatStory.Session

open Play

variable {program : Program} {options : Options} {store : Store} {begun : Nat}
  {steps : List (Nat × Operation)} {s : Session}

/- The progress of a story is finite if the host hands in finite numbers. -/
theorem isFinite_performAll (scripted : program.Scripted) (allowed : ∀ step ∈ steps, step.2.Scripted)
    (saved : ((start program options store begun).performAll steps).Saved)
    (named : ∀ step ∈ steps, step.2.isFinite = true) :
    ((start program options store begun).performAll steps).play.progress.isFinite = true := by
  have finite := finite_performAll (finite_start scripted options store begun) allowed named
  apply Progress.isFinite_iff.2 ⟨finite.values, ?_⟩
  rw [saved.deliveries]
  intro pending member
  obtain ⟨slot, waits, rfl⟩ := List.mem_map.1 member
  exact finite.waiting slot waits

/- Whatever the store held, and after any operations with any values: the store holds the progress as it
   is. A document of it is accepted exactly if its numbers are finite, and gives the variables back
   exactly if each of their doubles is read as itself; a session that is made again begins a new story
   exactly if they are not finite, which they always are if the host hands in finite ones. -/
theorem accepted_iff (scripted : program.Scripted) (allowed : ∀ step ∈ steps, step.2.Scripted)
    (run : s = (start program options store begun).performAll steps)
    (writable : s.store.refused.contains .write = false) (fits : s.play.progress.fitsWords = true) :
    ∃ document, s.store.document = some document ∧ document = Save.encode s.play.progress ∧
      ((Save.decode document).toOption.isSome = true ↔ s.play.progress.isFinite = true) ∧
      (∀ q, (Save.decode document).toOption = some q →
        (q.values = s.play.progress.values ↔
          ∀ v ∈ s.play.progress.values.values, ∀ x ∈ v.doubles, comesBack x)) ∧
      (s.store.refused.contains .read = false →
        (restored? s.store = none ↔ s.play.progress.isFinite = false)) ∧
      ((∀ step ∈ steps, step.2.isFinite = true) → s.play.progress.isFinite = true) := by
  have arises : s.Arises := by
    rw [run]
    exact (Arises.start options store begun scripted).performAll allowed
  have saved := arises.saved writable
  refine ⟨_, saved.document, rfl, ?_, ?_, ?_, ?_⟩
  · rw [Save.decode_encode_isSome fits]
  · intro q decoded
    rw [Save.decode_encode fits] at decoded
    exact Progress.values_of_reread? decoded
  · intro readable
    rw [restored_of_saved saved readable fits, ← Progress.reread?_isSome, Option.isSome_eq_false_iff,
      Option.isNone_iff_eq_none]
  · intro named
    subst run
    exact isFinite_performAll scripted allowed saved named

/-- The store can be read and written, and a number that is not finite is at play; in the story that is
told once the session is made again, the player has not said anything yet. -/
def losesStory (s : Session) : Bool :=
  !s.store.refused.contains .read && !s.store.refused.contains .write && s.play.progress.fitsWords &&
    !s.play.progress.isFinite &&
    decide ((s.play.progress.history "A").map (·.text) = ["Hi", "Go"]) &&
    (startWithin 0 s.play.program s.options s.store 1000).any fun t =>
      decide ((t.play.progress.history "A").map (·.text) = ["Hi"])

theorem played_losesStory : (playedWithin 0 replying 1000 growWhileTyping).any losesStory = true := by
  decide +kernel

theorem scripted_growWhileTyping : ∀ step ∈ growWhileTyping, step.2.Scripted := by
  simp [growWhileTyping, Operation.Scripted]

/- A variable becomes infinite, and the session writes what it cannot read: what the player has said is
   gone when the session is made again. -/
theorem story_lost : ∃ program : Program, (compile replying).result = .ok program ∧
    ∃ s document, s = (start program {} .empty 1000).performAll growWhileTyping ∧
      s.store.document = some document ∧ document = Save.encode s.play.progress ∧
      (Save.decode document).toOption = none ∧ restored? s.store = none ∧
      (s.play.progress.history "A").map (·.text) = ["Hi", "Go"] ∧
      ((start s.play.program s.options s.store 1000).play.progress.history "A").map (·.text) =
        ["Hi"] := by
  obtain ⟨program, compiled, shown⟩ := played_of_any played_losesStory
  simp only [losesStory, Bool.and_eq_true, Bool.not_eq_true', decide_eq_true_eq] at shown
  obtain ⟨⟨⟨⟨⟨readable, writable⟩, fits⟩, infinite⟩, told⟩, again⟩ := shown
  obtain ⟨t, within, anew⟩ := (Option.any_eq_true _ _).1 again
  have scripted : program.Scripted := Program.Compiled.scripted ⟨replying, compiled⟩
  have arises := (Arises.start {} .empty 1000 scripted).performAll scripted_growWhileTyping
  have saved := arises.saved writable
  have unread : ((start program {} .empty 1000).performAll growWhileTyping).play.progress.reread? =
      none := by
    rw [← Option.isNone_iff_eq_none, ← Option.isSome_eq_false_iff, Progress.reread?_isSome]
    exact infinite
  have fresh := (restored_of_saved saved readable fits).trans unread
  have refused := (Save.decode_encode fits).trans unread
  refine ⟨program, compiled, _, _, rfl, saved.document, rfl, refused, fresh, told, ?_⟩
  rw [start_of_startWithin fresh within]
  exact of_decide_eq_true anew

/- A half is handed in, and the save is accepted and has the half in it. -/
theorem accepted_iff_half : ∃ (program : Program) (s : Session) (document : String),
    program.Scripted ∧ (∀ step ∈ setWhileTyping 0.5, step.2.Scripted) ∧
      s = (start program {} .empty 1000).performAll (setWhileTyping 0.5) ∧
      s.store.refused.contains .write = false ∧ s.play.progress.fitsWords = true ∧
      s.store.document = some document ∧ (Save.decode document).toOption.isSome = true ∧
      ∀ q, (Save.decode document).toOption = some q → q.values = s.play.progress.values := by
  obtain ⟨program, compiled, shown⟩ := played_of_any played_half
  obtain ⟨ready, waiting⟩ := Bool.and_eq_true_iff.1 shown
  obtain ⟨_, back⟩ := Bool.and_eq_true_iff.1 waiting
  obtain ⟨writable, fits, _⟩ := storable_eq_true.1 ready
  have scripted : program.Scripted := Program.Compiled.scripted ⟨replying, compiled⟩
  have allowed := scripted_setWhileTyping 0.5
  have run : (start program {} .empty 1000).performAll (setWhileTyping 0.5) = _ := rfl
  obtain ⟨document, held, _, read, same, _, finite⟩ := accepted_iff scripted allowed run writable fits
  refine ⟨program, _, document, scripted, allowed, rfl, writable, fits, held, ?_, ?_⟩
  · apply read.2 (finite ?_)
    simp only [setWhileTyping, List.forall_mem_cons]
    exact ⟨rfl, by decide +kernel, List.forall_mem_nil _⟩
  · intro q decoded
    rw [same q decoded]
    intro v member x inside
    apply of_decide_eq_true (List.all_eq_true.1 back x _)
    exact List.mem_append_left _ (List.mem_flatMap.2 ⟨v, member, inside⟩)

end ChatStory.Session
