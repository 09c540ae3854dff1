import ChatStory.Proofs.Document.Progress
import ChatStory.Proofs.Session.Reached

/-!
What the store keeps. A store that takes what is written holds, after every operation, the document of
the progress as it is, and in it the tasks that are still on the timeline.
-/
namespace ChatStory

namespace Store

theorem settle_write (store : Store) (document : String) :
    store.settle (store.write document) = { store with
      document := if store.refused.contains .write then store.document else some document } := by
  unfold write guarded
  cases store.refused.contains .write <;> rfl

theorem settle_clear (store : Store) : store.settle store.clear = { store with
    document := if store.refused.contains .clear then store.document else none } := by
  unfold clear guarded
  cases store.refused.contains .clear <;> rfl

theorem refused_settle_write (store : Store) (document : String) :
    (store.settle (store.write document)).refused = store.refused := by
  rw [settle_write]

theorem refused_settle_clear (store : Store) : (store.settle store.clear).refused = store.refused := by
  rw [settle_clear]

theorem document_settle_write {store : Store} (writable : store.refused.contains .write = false)
    (document : String) : (store.settle (store.write document)).document = some document := by
  rw [settle_write, writable]
  rfl

end Store

namespace Session

variable {s : Session}

/-- The store holds the document of the progress, with the timeline in it. -/
structure Saved (s : Session) : Prop where
  document : s.store.document = some (Save.encode s.play.progress)
  deliveries : s.play.progress.deliveries = s.play.savedTasks

theorem saved_save (s : Session) (writable : s.store.refused.contains .write = false) :
    s.save.Saved := by
  refine ⟨?_, rfl⟩
  exact Store.document_settle_write writable _

theorem refused_save (s : Session) : s.save.store.refused = s.store.refused :=
  Store.refused_settle_write _ _

theorem fireUpTo_untouched {limit : Nat} {play : Play} (unfired : (Play.fireUpTo limit play).2 = 0) :
    (Play.fireUpTo limit play).1 = play := by
  cases limit with
  | zero => rfl
  | succ limit =>
    unfold Play.fireUpTo at unfired ⊢
    cases next : play.queue.next? with
    | none => rfl
    | some slot =>
      rw [next] at unfired
      cases unfired

/-- An operation saves what it has done, or it has done nothing that a save would hold. -/
inductive Outcome (s : Session) : Session → Prop where
  | same (events : Array Event) : Outcome s { s with play := { s.play with events := events } }
  | saved (play : Play) {store : Store} : store.refused = s.store.refused →
    Outcome s (save ⟨play, store, s.options⟩)

theorem perform_outcome (s : Session) (now : Nat) (operation : Operation) :
    s.Outcome (s.perform now operation) := by
  have idle : s.Outcome s := .same s.play.events
  cases operation with
  | choose contact index =>
    rw [perform, choose_eq]
    cases s.play.choose? contact index now with
    | none => exact idle
    | some play => exact .saved _ rfl
  | setVariable name value => exact .saved _ rfl
  | setTypingDelay delay => exact .saved _ rfl
  | execute contact actions =>
    rw [perform, execute_eq]
    cases s.play.execute? contact actions now with
    | none => exact idle
    | some play => exact .saved _ rfl
  | tick =>
    unfold perform tick
    dsimp only
    split
    · rename_i unfired
      rw [Play.fireDue_untouched unfired]
      exact idle
    · exact .saved _ rfl
  | flush =>
    unfold perform flush Play.fireAll
    dsimp only
    split
    · rename_i unfired
      rw [fireUpTo_untouched unfired]
      exact idle
    · exact .saved _ rfl
  | view contact =>
    rw [perform, view]
    split
    · exact .saved _ rfl
    · exact idle
  | collectNotifications =>
    unfold perform collectNotifications
    dsimp only
    split
    · exact idle
    · exact .saved _ rfl
  | takeEvents => exact .same _
  | switchProgram program =>
    rw [perform, switchProgram_eq]
    split
    · exact .saved _ rfl
    · exact .saved _ rfl
  | reset => exact .saved _ (Store.refused_settle_clear s.store)

theorem refused_perform (s : Session) (now : Nat) (operation : Operation) :
    (s.perform now operation).store.refused = s.store.refused := by
  have outcome := perform_outcome s now operation
  generalize s.perform now operation = t at outcome
  cases outcome with
  | same events => rfl
  | saved play same => exact (refused_save _).trans same

theorem saved_perform (saved : s.Saved) (writable : s.store.refused.contains .write = false) (now : Nat)
    (operation : Operation) : (s.perform now operation).Saved := by
  have outcome := perform_outcome s now operation
  generalize s.perform now operation = t at outcome
  cases outcome with
  | same events => exact ⟨saved.document, saved.deliveries⟩
  | saved play same =>
    apply saved_save
    rw [same]
    exact writable

theorem Reached.saved (reached : s.Reached) (writable : s.store.refused.contains .write = false) :
    s.Saved := by
  induction reached with
  | @start program options store now compiled fresh =>
    apply saved_save
    have kept : (Session.start program options store now).store.refused = store.refused := refused_save _
    rw [kept] at writable
    exact writable
  | @perform s operation now _ _ ih =>
    rw [refused_perform] at writable
    exact saved_perform (ih writable) writable now operation

theorem decoded_of_restored {store : Store} {saved : Progress}
    (restored : restored? store = some saved) :
    ∃ document, store.document = some document ∧ (Save.decode document).toOption = some saved := by
  unfold restored? at restored
  split at restored
  · rename_i document read
    refine ⟨document, ?_, restored⟩
    unfold Store.read Store.guarded at read
    split at read
    · cases read
    · exact Except.ok.inj read
  · cases restored

/- What can be read back from the store. -/
theorem restored_of_saved (saved : s.Saved) (readable : s.store.refused.contains .read = false)
    (fits : s.play.progress.fitsWords = true) : restored? s.store = s.play.progress.reread? := by
  have read : s.store.read = .ok (some (Save.encode s.play.progress)) := by
    unfold Store.read Store.guarded
    rw [if_neg (by simpa using readable), saved.document]
  rw [restored?, read]
  exact Save.decode_encode fits

end Session
end ChatStory
