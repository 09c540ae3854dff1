import ChatStory.Proofs.Document.Doubles
import ChatStory.Proofs.Session.Arising

/-!
What the store is good for. Whatever has been done, a store that takes what is written holds the
progress as it is and the tasks that wait, and reading gives this back exactly if its doubles come
back.
-/
namespace ChatStory.Session

variable {s : Session}

theorem Arises.saved (arises : s.Arises) (writable : s.store.refused.contains .write = false) :
    s.Saved := by
  induction arises with
  | @start program options store now scripted =>
    apply saved_save
    have kept : (Session.start program options store now).store.refused = store.refused := refused_save _
    rw [kept] at writable
    exact writable
  | @perform s operation now _ _ ih =>
    rw [refused_perform] at writable
    exact saved_perform (ih writable) writable now operation

/-- The store holds a document of the progress as it is, with the tasks on the timeline as they will be
fired. -/
structure Durable (s : Session) : Prop where
  decoded : ∃ document, s.store.document = some document ∧
    (Save.decode document).toOption = some s.play.progress
  deliveries : s.play.progress.deliveries = s.play.savedTasks

/- After a start from any store and any operations, whatever they did: the store holds the progress as
   it was written last, which lists the tasks on the timeline, and this is decoded to the progress
   exactly if every double in it comes back from its written text. -/
theorem Arises.durable_iff (arises : s.Arises) (writable : s.store.refused.contains .write = false)
    (fits : s.play.progress.fitsWords = true) :
    s.store.document = some (Save.encode s.play.progress) ∧
      s.play.progress.deliveries = s.play.savedTasks ∧
      (s.Durable ↔ ∀ x ∈ s.play.progress.doubles, comesBack x) := by
  obtain ⟨document, deliveries⟩ := arises.saved writable
  refine ⟨document, deliveries, ?_⟩
  rw [← Progress.reread?_eq_self_iff, ← Save.decode_encode fits]
  constructor
  · rintro ⟨⟨held, found, decoded⟩, _⟩
    rw [document] at found
    cases found
    exact decoded
  · intro decoded
    exact ⟨⟨_, document, decoded⟩, deliveries⟩

/-- The store takes what is written, all counts fit, and all doubles are finite. -/
def storable (s : Session) : Bool :=
  !s.store.refused.contains .write && s.play.progress.fitsWords &&
    s.play.progress.doubles.all Float.isFinite

theorem storable_eq_true : s.storable = true ↔ s.store.refused.contains .write = false ∧
    s.play.progress.fitsWords = true ∧ ∀ x ∈ s.play.progress.doubles, x.isFinite = true := by
  simp only [storable, Bool.and_eq_true, Bool.not_eq_true', List.all_eq_true, and_assoc]

/-- A variable is set while a reply is on its way. -/
def setWhileTyping (x : Float) : List (Nat × Operation) :=
  [(1000, .choose "A" 0), (1000, .setVariable "x" (.number x))]

theorem scripted_setWhileTyping (x : Float) : ∀ step ∈ setWhileTyping x, step.2.Scripted := by
  simp [setWhileTyping, Operation.Scripted]

theorem arises_setWhileTyping {program : Program} (compiled : (compile replying).result = .ok program)
    (x : Float) : Arises ((start program {} .empty 1000).performAll (setWhileTyping x)) := by
  have scripted : program.Scripted := Program.Compiled.scripted ⟨replying, compiled⟩
  exact (Arises.start {} .empty 1000 scripted).performAll (scripted_setWhileTyping x)

theorem played_half : (playedWithin 0 replying 1000 (setWhileTyping 0.5)).any (fun s =>
    s.storable && (decide (s.play.queue.size = 2) &&
      s.play.progress.doubles.all fun x => decide (comesBack x))) = true := by
  decide +kernel

theorem played_eleventh : (playedWithin 0 replying 1000 (setWhileTyping 0.09090909090909091)).any
    (fun s => s.storable &&
      (decide (s.play.progress.values.get? "x" = some (.number 0.09090909090909091)) &&
        s.play.progress.reread?.any fun q =>
          decide (q.values.get? "x" = some (.number 0.09090909090909093)))) = true := by
  decide +kernel

/- A half comes back, and with it a reply that is on its way. -/
theorem durable_iff_half : ∃ s : Session, s.Arises ∧ s.store.refused.contains .write = false ∧
    s.play.progress.fitsWords = true ∧ s.play.queue.size = 2 ∧ s.Durable := by
  obtain ⟨program, compiled, shown⟩ := played_of_any played_half
  obtain ⟨ready, waiting⟩ := Bool.and_eq_true_iff.1 shown
  obtain ⟨size, back⟩ := Bool.and_eq_true_iff.1 waiting
  obtain ⟨writable, fits, _⟩ := storable_eq_true.1 ready
  have arises := arises_setWhileTyping compiled 0.5
  refine ⟨_, arises, writable, fits, of_decide_eq_true size, ?_⟩
  apply (arises.durable_iff writable fits).2.2.2
  intro x member
  exact of_decide_eq_true (List.all_eq_true.1 back x member)

/- The double next to an eleventh is finite, and another one comes back for it. -/
theorem eleventh_not_durable : ∃ program : Program, (compile replying).result = .ok program ∧
    ∃ s : Session,
      s = (start program {} .empty 1000).performAll (setWhileTyping 0.09090909090909091) ∧
      s.Arises ∧ s.storable = true ∧
      (∃ document q, s.store.document = some document ∧
        (Save.decode document).toOption = some q ∧
        s.play.progress.values.get? "x" = some (.number 0.09090909090909091) ∧
        q.values.get? "x" = some (.number 0.09090909090909093)) ∧ ¬s.Durable := by
  obtain ⟨program, compiled, shown⟩ := played_of_any played_eleventh
  obtain ⟨ready, changed⟩ := Bool.and_eq_true_iff.1 shown
  obtain ⟨before, other⟩ := Bool.and_eq_true_iff.1 changed
  obtain ⟨q, read, after⟩ := (Option.any_eq_true _ _).1 other
  obtain ⟨writable, fits, _⟩ := storable_eq_true.1 ready
  have arises := arises_setWhileTyping compiled 0.09090909090909091
  generalize defined : (start program {} .empty 1000).performAll
    (setWhileTyping 0.09090909090909091) = s at before read ready writable fits arises
  have set : s.play.progress.values.get? "x" = some (.number 0.09090909090909091) :=
    of_decide_eq_true before
  have found : q.values.get? "x" = some (.number 0.09090909090909093) := of_decide_eq_true after
  have decoded := (Save.decode_encode fits).trans read
  have document := (arises.saved writable).document
  refine ⟨program, compiled, s, defined.symm, arises, ready, ⟨_, q, document, decoded, set, found⟩, ?_⟩
  rintro ⟨⟨held, again, same⟩, _⟩
  rw [document] at again
  cases again
  rw [decoded] at same
  cases same
  rw [found] at set
  exact absurd set (by decide +kernel)

end ChatStory.Session
