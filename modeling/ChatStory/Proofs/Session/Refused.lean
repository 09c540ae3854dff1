import ChatStory.Proofs.Session.Clock
import ChatStory.Session.Loading

/-!
Scripts that are refused. A call that fails leaves a state behind, so each way to give a script is
seen here as a call on the state that outlives it: a session that is to play another script, or the
store from which a session is made. A script with errors changes nothing in a session, and nothing in
the store of a session that is to be made. A session that is to go on from given progress is the
exception: the progress is in the store before the script is looked at.
-/
namespace ChatStory

/-- A call on a state that is still there when the call has failed. -/
abbrev Attempt (σ α : Type) := ExceptT Fault (StateM σ) α

namespace Attempt

variable {σ α β : Type}

/-- The answer of a call, and the state that the call leaves. -/
def on (call : Attempt σ α) (state : σ) : Except Fault α × σ := call.run.run state

/-- Makes a session on a script from the store. -/
def create (source : String) (options : Options) (now : Nat) : Attempt Store Loaded := do
  let (program, warnings) ← MonadExcept.ofExcept (Session.programOf source)
  let session := Session.start program options (← get) now
  set session.store
  return ⟨session, warnings⟩

/-- Puts progress into the store and makes a session on a script from it. -/
def resume (source : String) (progress : Progress) (options : Options) (now : Nat) :
    Attempt Store Loaded := do
  let store ← get
  set (← MonadExcept.ofExcept (store.write (Save.encode progress)))
  create source options now

/-- Goes on with another script. -/
def switchScript (source : String) (now : Nat) : Attempt Session (List Diagnostic) := do
  let (program, warnings) ← MonadExcept.ofExcept (Session.programOf source)
  modify (·.switchProgram program now)
  return warnings

/- What follows a step that can only fail sees the state as it was before the step, and so does
   whoever called. -/
theorem on_bind_ofExcept (outcome : Except Fault α) (next : α → Attempt σ β) (state : σ) :
    (MonadExcept.ofExcept outcome >>= next).on state = match outcome with
      | .ok a => (next a).on state
      | .error fault => (.error fault, state) := by
  cases outcome <;> rfl

variable {source : String} {options : Options} {store : Store} {now : Nat}

/- The calls are the functions of sessions, with what they leave where they fail. -/
theorem on_create : (create source options now).on store =
    match Session.create source options store now with
    | .ok loaded => (.ok loaded, loaded.session.store)
    | .error fault => (.error fault, store) := by
  rw [create, on_bind_ofExcept, Session.create]
  cases Session.programOf source <;> rfl

theorem on_resume {progress : Progress} : (resume source progress options now).on store =
    (Session.resume source progress options store now).swap := by
  change (MonadExcept.ofExcept (store.write (Save.encode progress)) >>= fun written =>
    (do set written; create source options now : Attempt Store Loaded)).on store = _
  rw [on_bind_ofExcept, Session.resume]
  cases store.write (Save.encode progress) with
  | error fault => rfl
  | ok written =>
    change (create source options now).on written = _
    rw [on_create]
    dsimp only
    cases Session.create source options written now <;> rfl

theorem on_switchScript {s : Session} : (switchScript source now).on s =
    match s.switchScript source now with
    | .ok loaded => (.ok loaded.warnings, loaded.session)
    | .error fault => (.error fault, s) := by
  rw [switchScript, on_bind_ofExcept, Session.switchScript]
  cases Session.programOf source <;> rfl

variable {first : Diagnostic} {others : List Diagnostic}

theorem programOf_of_errors (errors : (compile source).errors = first :: others) :
    Session.programOf source = .error (.script first) := by
  rw [Session.programOf, Compilation.result, errors]

theorem create_of_errors (errors : (compile source).errors = first :: others) :
    Session.create source options store now = .error (.script first) := by
  rw [Session.create, programOf_of_errors errors]
  rfl

/- The store is written first, so only a refused write is noticed before the script is. -/
theorem resume_of_errors (errors : (compile source).errors = first :: others) (progress : Progress) :
    (resume source progress options now).on store =
      if store.refused.contains .write then (.error (.refusedCall .write), store)
      else (.error (.script first), { store with document := some (Save.encode progress) }) := by
  rw [on_resume, Session.resume, Store.write, Store.guarded]
  cases store.refused.contains .write with
  | true => rfl
  | false => simp [create_of_errors errors]

/- A script with errors is refused with the first of them. The session that was to play it stays as it
   is, with its program, its progress, its tasks, its epoch, its events and its store, and so does the
   store from which a session was to be made. Where the session was to go on from given progress, the
   store holds this progress afterwards, unless it refuses to be written. -/
theorem script_refused (errors : (compile source).errors = first :: others) :
    (∀ s now, (switchScript source now).on s = (.error (.script first), s)) ∧
    (∀ options store now, (create source options now).on store = (.error (.script first), store)) ∧
    ∀ progress options store now,
      ((resume source progress options now).on store =
        if store.refused.contains .write then (.error (.refusedCall .write), store)
        else (.error (.script first), { store with document := some (Save.encode progress) })) ∧
      (((resume source progress options now).on store).2 = store ↔
        store.refused.contains .write = true ∨ store.document = some (Save.encode progress)) := by
  refine ⟨?_, ?_, ?_⟩
  · intro s now
    rw [on_switchScript, Session.switchScript, programOf_of_errors errors]
    rfl
  · intro options store now
    rw [on_create, create_of_errors errors]
  · intro progress options store now
    refine ⟨resume_of_errors errors progress, ?_⟩
    rw [resume_of_errors errors progress]
    obtain ⟨document, refused⟩ := store
    cases refused.contains .write with
    | true => simp
    | false => simp [eq_comm]

/-- A script that defines a round twice. -/
def roundTwice : String := ":: A-Round-1 [chat]\na\n\n:: A-Round-1 [chat]\nb\n"

theorem errors_roundTwice :
    (compile roundTwice).errors = [Finding.at (.duplicateRound ⟨1, none⟩ "A") 4] := by
  decide +kernel

/- It is refused wherever it is given; only a store that takes the given progress changes. -/
theorem script_refused_roundTwice :
    (compile roundTwice).errors = [Finding.at (.duplicateRound ⟨1, none⟩ "A") 4] ∧
    ((create roundTwice {} 0).on ⟨some "kept", []⟩).2 = ⟨some "kept", []⟩ ∧
    ((resume roundTwice default {} 0).on ⟨some "kept", [.write]⟩).2 = ⟨some "kept", [.write]⟩ ∧
    ((resume roundTwice default {} 0).on ⟨some "kept", []⟩).2 =
      ⟨some (Save.encode default), []⟩ := by
  obtain ⟨_, create, resume⟩ := script_refused errors_roundTwice
  refine ⟨errors_roundTwice, ?_, ?_, ?_⟩
  · rw [create]
  · rw [(resume _ _ _ _).2]
    exact .inl rfl
  · rw [(resume _ _ _ _).1]
    rfl

/-- A story is begun and its first choice is made; the progress before and behind it is read differently. -/
def savesTwice (program : Program) : Bool :=
  (Session.startWithin 0 program {} .empty 1000).any fun before =>
    (before.performWithin 0 1000 (.choose "A" 0)).any fun after =>
      !after.store.refused.contains .write && before.play.progress.fitsWords &&
        after.play.progress.fitsWords &&
          decide (before.play.progress.reread?.map (·.nextId) ≠
            after.play.progress.reread?.map (·.nextId))

theorem compiled_savesTwice :
    (compile Session.replying).result.toOption.any savesTwice = true := by
  decide +kernel

/- A choice is made and saved. Then a script with errors is given together with the progress from before
   the choice: it is refused, and the older progress stands in the store. -/
theorem save_replaced : ∃ program : Program, (compile Session.replying).result = .ok program ∧
    ∃ before after : Session, before = Session.start program {} .empty 1000 ∧
      after = before.perform 1000 (.choose "A" 0) ∧
      after.store.document = some (Save.encode after.play.progress) ∧
      (compile roundTwice).errors ≠ [] ∧
      ((resume roundTwice before.play.progress {} 1000).on after.store).2 ≠ after.store := by
  obtain ⟨program, compiled, shown⟩ := Session.compiled_of_any compiled_savesTwice
  obtain ⟨before, begun, shown⟩ := (Option.any_eq_true _ _).1 shown
  obtain ⟨after, chosen, shown⟩ := (Option.any_eq_true _ _).1 shown
  simp only [Bool.and_eq_true, decide_eq_true_eq, Bool.not_eq_true'] at shown
  obtain ⟨⟨⟨writable, fits⟩, fits'⟩, differ⟩ := shown
  have start := Session.start_of_startWithin rfl begun
  have chosen := Session.perform_of_performWithin chosen
  have reached : after.Reached := by
    rw [← chosen, ← start]
    exact (Session.Reached.start {} 1000 ⟨Session.replying, compiled⟩ rfl).perform 1000 trivial
  have saved := (reached.saved writable).document
  refine ⟨program, compiled, before, after, start.symm, chosen.symm, saved, ?_, ?_⟩
  · rw [errors_roundTwice]
    exact List.cons_ne_nil _ _
  · rw [resume_of_errors errors_roundTwice, writable, if_neg Bool.false_ne_true]
    intro same
    rw [← congrArg Store.document same] at saved
    apply differ
    rw [← Save.decode_encode fits, ← Save.decode_encode fits', Option.some.inj saved]

end Attempt
end ChatStory
