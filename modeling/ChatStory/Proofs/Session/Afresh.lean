import ChatStory.Proofs.Session.Arising
import ChatStory.Proofs.Session.Recast
import ChatStory.Proofs.Session.Saved
import ChatStory.Proofs.Session.Setting

/-!
Starting afresh. A session that is reset goes on like a new session on the same program: it gives the
same answers, announces the same and keeps the same progress, whatever is done with it. What the
story was before shows only in the number of the epoch, and in the document of a store that can
neither be written nor cleared. No task of an earlier epoch does anything.
-/
namespace ChatStory

namespace Store

/-- A store that can be neither written nor cleared, and so holds some document for good. Any other
store is as it was. -/
def keeping (store : Store) (kept : Option String) : Store := { store with
  document :=
    if store.refused.contains .write && store.refused.contains .clear then kept
    else store.document }

theorem settle_write_keeping (store : Store) (kept : Option String) (document : String) :
    (store.keeping kept).settle ((store.keeping kept).write document) =
      (store.settle (store.write document)).keeping kept := by
  rw [settle_write, settle_write, keeping, keeping]
  cases store.refused.contains .write <;> rfl

theorem settle_clear_keeping (store : Store) (kept : Option String) :
    (store.keeping kept).settle (store.keeping kept).clear =
      (store.settle store.clear).keeping kept := by
  rw [settle_clear, settle_clear, keeping, keeping]
  cases store.refused.contains .clear <;> cases store.refused.contains .write <;> rfl

/- What is written into a store that was cleared is what an empty one would hold, unless the store
   can be neither cleared nor written. -/
theorem settle_clear_write (store : Store) (document : String) :
    (store.settle store.clear).settle ((store.settle store.clear).write document) =
      ((Store.mk none store.refused).settle ((Store.mk none store.refused).write document)).keeping
        store.document := by
  rw [settle_clear, settle_write, settle_write, keeping]
  cases store.refused.contains .clear <;> cases store.refused.contains .write <;> rfl

end Store

/-- What an operation gives back to whoever performs it. -/
inductive Answer where
  | done
  | taken (accepted : Bool)
  | fired (tasks : Nat)
  | notified (notifications : List Notification)
  | heard (events : List Event)

/-- The events that wait already are heard with the first that are taken. -/
def Answer.hearing (past : List Event) : List Answer → List Answer
  | [] => []
  | heard events :: rest => heard (past ++ events) :: rest
  | other :: rest => other :: hearing past rest

/-- What of the events that wait no operation has taken. -/
def untaken (past : Array Event) : List (Nat × Operation) → Array Event
  | [] => past
  | (_, .takeEvents) :: _ => #[]
  | _ :: rest => untaken past rest

namespace Session

/-- What an operation answers. -/
def response (s : Session) (now : Nat) : Operation → Answer
  | .choose contact index => .taken (s.choose contact index now).isSome
  | .execute contact actions => .taken (s.execute contact actions now).isSome
  | .tick => .fired (s.tick now).2
  | .flush => .fired s.flush.2
  | .view contact => .taken (s.view contact).isSome
  | .collectNotifications => .notified s.collectNotifications.1
  | .takeEvents => .heard s.takeEvents.1
  | .setVariable .. | .setTypingDelay _ | .switchProgram _ | .reset => .done

def responses (s : Session) : List (Nat × Operation) → List Answer
  | [] => []
  | (now, operation) :: rest =>
    s.response now operation :: (s.perform now operation).responses rest

theorem start_store (program : Program) (options : Options) (store : Store) (now : Nat) :
    (start program options store now).store =
      store.settle (store.write (Save.encode (start program options store now).play.progress)) := rfl

/-- A new session on the same program, with an empty store that refuses the same calls. -/
def afresh (s : Session) (now : Nat) : Session :=
  start s.play.program s.options ⟨none, s.store.refused⟩ now

/-- The session after so many more epochs, with events that wait already, and with the document that
the store keeps if it can neither be written nor cleared. -/
def recast (s : Session) (epochs : Nat) (past : Array Event) (kept : Option String) : Session where
  play := s.play.recast ⟨epochs, past, id⟩
  store := s.store.keeping kept
  options := s.options

variable (s : Session) (epochs : Nat) (past : Array Event) (kept : Option String) (now : Nat)

theorem save_recast (play : Play) (noted : List SavedTask → List SavedTask) :
    save { s.recast epochs past kept with play := play.recast ⟨epochs, past, noted⟩ } =
      (save { s with play := play }).recast epochs past kept := by
  unfold save recast
  dsimp only
  rw [Play.recordTimeline_recast]
  congr 1
  exact Store.settle_write_keeping s.store kept (Save.encode play.recordTimeline.progress)

theorem settle_recast (play : Play) :
    (s.recast epochs past kept).settle (play.recast ⟨epochs, past, id⟩) now =
      (s.settle play now).recast epochs past kept := by
  unfold settle
  rw [Play.fireDue_recast]
  exact save_recast s epochs past kept _ id

theorem choose_recast (contact : String) (index : Nat) :
    (s.recast epochs past kept).choose contact index now =
      (s.choose contact index now).map (recast · epochs past kept) := by
  have chosen := s.play.choose?_recast ⟨epochs, past, id⟩ contact index now
  rw [choose_eq, choose_eq, show (s.recast epochs past kept).play.choose? contact index now = _ from
    chosen, Option.map_map, Option.map_map]
  exact congrArg (Option.map · _) (funext fun play => settle_recast s epochs past kept now play)

theorem execute_recast (contact : String) (actions : List Action) :
    (s.recast epochs past kept).execute contact actions now =
      (s.execute contact actions now).map (recast · epochs past kept) := by
  have done := s.play.execute?_recast ⟨epochs, past, id⟩ contact actions now
  rw [execute_eq, execute_eq, show (s.recast epochs past kept).play.execute? contact actions now = _
    from done, Option.map_map, Option.map_map]
  exact congrArg (Option.map · _) (funext fun play => settle_recast s epochs past kept now play)

theorem tick_recast : (s.recast epochs past kept).tick now =
    ((s.tick now).1.recast epochs past kept, (s.tick now).2) := by
  have fired := s.play.fireDue_recast ⟨epochs, past, id⟩ now
  have saved := s.save_recast epochs past kept (s.play.fireDue now).1 id
  unfold tick
  rw [show (s.recast epochs past kept).play.fireDue now = _ from fired]
  dsimp only
  rw [saved, apply_ite (recast · epochs past kept)]
  rfl

theorem flush_recast : (s.recast epochs past kept).flush =
    (s.flush.1.recast epochs past kept, s.flush.2) := by
  have fired := s.play.fireUpTo_recast ⟨epochs, past, id⟩ Play.fireLimit
  have saved := s.save_recast epochs past kept s.play.fireAll.1 id
  unfold flush Play.fireAll at *
  rw [show Play.fireUpTo Play.fireLimit (s.recast epochs past kept).play = _ from fired]
  dsimp only
  rw [saved, apply_ite (recast · epochs past kept)]
  rfl

theorem view_recast (contact : String) : (s.recast epochs past kept).view contact =
    (s.view contact).map (recast · epochs past kept) := by
  have saved := fun change => s.save_recast epochs past kept (s.play.revise change) id
  unfold view
  rw [apply_ite (Option.map (recast · epochs past kept)), Option.map_some, ← saved]
  rfl

theorem collectNotifications_recast : (s.recast epochs past kept).collectNotifications =
    (s.collectNotifications.1, s.collectNotifications.2.recast epochs past kept) := by
  have saved := s.save_recast epochs past kept
    (s.play.revise fun p => { p with notifications := [] }) id
  have same : (s.recast epochs past kept).play.progress.notifications =
      s.play.progress.notifications := rfl
  unfold collectNotifications
  dsimp only
  rw [same]
  cases s.play.progress.notifications.isEmpty with
  | true => rfl
  | false => exact congrArg (Prod.mk _) saved

theorem switched_recast (play : Play) (program : Program) :
    (play.recast ⟨epochs, past, id⟩).switched program =
      (play.switched program).recast ⟨epochs, past, id⟩ := by
  unfold Play.switched
  rw [Play.nextEpoch_recast]
  rfl

theorem switchProgram_recast (program : Program) :
    (s.recast epochs past kept).switchProgram program now =
      (s.switchProgram program now).recast epochs past kept := by
  have switched : (s.recast epochs past kept).play.switched program =
      (s.play.switched program).recast ⟨epochs, past, id⟩ :=
    switched_recast epochs past s.play program
  rw [switchProgram_eq, switchProgram_eq, switched, Play.beginStory_recast, settle_recast, save_recast]
  exact (apply_ite (recast · epochs past kept) _ _ _).symm

theorem reset_recast : (s.recast epochs past kept).reset now =
    (s.reset now).recast epochs past kept := by
  have cleared : { s.recast epochs past kept with
      store := (s.recast epochs past kept).store.settle (s.recast epochs past kept).store.clear } =
        recast { s with store := s.store.settle s.store.clear } epochs past kept := by
    unfold recast
    rw [Store.settle_clear_keeping]
  have begun : ((s.recast epochs past kept).play.nextEpoch.revise fun _ =>
      .initial (s.recast epochs past kept).play.program s.options.typingDelay) =
        (s.play.nextEpoch.revise fun _ =>
          .initial s.play.program s.options.typingDelay).recast ⟨epochs, past, id⟩ := by
    rw [show (s.recast epochs past kept).play.nextEpoch = _ from s.play.nextEpoch_recast _]
    rfl
  unfold reset
  dsimp only
  rw [cleared, ← settle_recast, ← Play.beginStory_recast, ← begun]
  rfl

theorem takeEvents_recast : (s.recast epochs past kept).takeEvents =
    (past.toList ++ s.takeEvents.1, s.takeEvents.2.recast epochs #[] kept) := by
  unfold takeEvents
  rw [show (s.recast epochs past kept).play.events.toList = _ from Array.toList_append]
  rfl

/- Every operation does the same, and answers the same but for the events that wait. -/
theorem perform_recast (operation : Operation) :
    (s.recast epochs past kept).perform now operation =
      (s.perform now operation).recast epochs (untaken past [(now, operation)]) kept := by
  cases operation with
  | choose contact index =>
    rw [perform, choose_recast]
    exact Option.getD_map (recast · epochs past kept) s _
  | execute contact actions =>
    rw [perform, execute_recast]
    exact Option.getD_map (recast · epochs past kept) s _
  | view contact =>
    rw [perform, view_recast]
    exact Option.getD_map (recast · epochs past kept) s _
  | setVariable name value =>
    have assigned := s.play.assign_recast ⟨epochs, past, id⟩ name value now
    rw [perform, setVariable, show (s.recast epochs past kept).play.assign name value now = _ from
      assigned]
    exact settle_recast s epochs past kept now _
  | setTypingDelay delay =>
    exact save_recast s epochs past kept (s.play.revise fun p => { p with typingDelay := delay }) id
  | tick => exact congrArg Prod.fst (tick_recast s epochs past kept now)
  | flush => exact congrArg Prod.fst (flush_recast s epochs past kept)
  | collectNotifications => exact congrArg Prod.snd (collectNotifications_recast s epochs past kept)
  | takeEvents => exact congrArg Prod.snd (takeEvents_recast s epochs past kept)
  | switchProgram program => exact switchProgram_recast s epochs past kept now program
  | reset => exact reset_recast s epochs past kept now

theorem response_recast (operation : Operation) :
    [(s.recast epochs past kept).response now operation] =
      Answer.hearing past.toList [s.response now operation] := by
  cases operation with
  | choose contact index =>
    rw [response, choose_recast, Option.isSome_map]
    rfl
  | execute contact actions =>
    rw [response, execute_recast, Option.isSome_map]
    rfl
  | view contact =>
    rw [response, view_recast, Option.isSome_map]
    rfl
  | tick =>
    rw [response, tick_recast]
    rfl
  | flush =>
    rw [response, flush_recast]
    rfl
  | collectNotifications =>
    rw [response, collectNotifications_recast]
    rfl
  | takeEvents =>
    rw [response, takeEvents_recast]
    rfl
  | setVariable | setTypingDelay | switchProgram | reset => rfl

theorem untaken_none (steps : List (Nat × Operation)) : untaken #[] steps = #[] := by
  induction steps with
  | nil => rfl
  | cons step rest ih =>
    obtain ⟨now, operation⟩ := step
    cases operation with
    | takeEvents => rfl
    | _ => exact ih

theorem untaken_cons (step : Nat × Operation) (rest : List (Nat × Operation)) :
    untaken past (step :: rest) = untaken (untaken past [step]) rest := by
  obtain ⟨now, operation⟩ := step
  cases operation with
  | takeEvents => exact (untaken_none rest).symm
  | _ => rfl

theorem hearing_none (answers : List Answer) : Answer.hearing [] answers = answers := by
  induction answers with
  | nil => rfl
  | cons answer rest ih =>
    cases answer with
    | heard events => rfl
    | _ => exact congrArg (_ :: ·) ih

theorem performAll_recast (steps : List (Nat × Operation)) :
    (s.recast epochs past kept).performAll steps =
      (s.performAll steps).recast epochs (untaken past steps) kept := by
  induction steps generalizing s past with
  | nil => rfl
  | cons step rest ih =>
    obtain ⟨now, operation⟩ := step
    rw [performAll, perform_recast, ih, ← untaken_cons]
    rfl

theorem responses_recast (steps : List (Nat × Operation)) :
    (s.recast epochs past kept).responses steps =
      Answer.hearing past.toList (s.responses steps) := by
  induction steps generalizing s past with
  | nil => rfl
  | cons step rest ih =>
    obtain ⟨now, operation⟩ := step
    have first := response_recast s epochs past kept now operation
    have later : ((s.recast epochs past kept).perform now operation).responses rest =
        Answer.hearing (untaken past [(now, operation)]).toList
          ((s.perform now operation).responses rest) := by
      rw [perform_recast]
      exact ih _ _
    rw [responses, responses, later]
    cases operation with
    | takeEvents =>
      have none : Answer.hearing (untaken past [(now, .takeEvents)]).toList
          ((s.perform now .takeEvents).responses rest) = (s.perform now .takeEvents).responses rest :=
        hearing_none _
      rw [none]
      exact congrArg (· ++ _) first
    | _ => exact congrArg (· ++ Answer.hearing past.toList _) first

/- To reset a session is to start afresh, after one more epoch. -/
theorem reset_eq (still : s.play.indicator = s.options.indicator) : s.reset now =
    (s.afresh now).recast (s.play.epoch + 1) s.play.events s.store.document := by
  have fresh : restored? ⟨none, s.store.refused⟩ = none := by
    unfold restored? Store.read Store.guarded
    cases s.store.refused.contains .read <;> rfl
  let guise : Play.Guise := ⟨s.play.epoch + 1, s.play.events, id⟩
  have begun : (s.play.nextEpoch.revise fun _ =>
      .initial s.play.program s.options.typingDelay).beginStory now =
        (Play.begun s.play.program s.options now).recast guise := by
    rw [Play.begun, ← Play.beginStory_recast]
    unfold Play.recast Play.nextEpoch Play.revise
    dsimp only
    rw [still, Nat.zero_add, Array.append_empty]
    rfl
  rw [afresh, start_of_fresh fresh, reset, begun]
  unfold settle save recast
  dsimp only
  rw [Play.fireDue_recast, Play.recordTimeline_recast]
  congr 1
  exact s.store.settle_clear_write _

theorem options_perform (operation : Operation) :
    (s.perform now operation).options = s.options := by
  cases operation with
  | choose contact index =>
    rw [perform, choose_eq]
    cases s.play.choose? contact index now <;> rfl
  | execute contact actions =>
    rw [perform, execute_eq]
    cases s.play.execute? contact actions now <;> rfl
  | view contact =>
    rw [perform, view]
    split <;> rfl
  | collectNotifications =>
    rw [perform, collectNotifications]
    split <;> rfl
  | tick =>
    rw [perform, tick]
    dsimp only
    split <;> rfl
  | flush =>
    rw [perform, flush]
    dsimp only
    split <;> rfl
  | switchProgram program =>
    rw [perform, switchProgram_eq]
    split <;> rfl
  | setVariable | setTypingDelay | takeEvents | reset => rfl

variable {s now}

/- Whatever is in the store, a session starts in the first epoch. -/
theorem setting_start (program : Program) (options : Options) (store : Store) (now : Nat) :
    (start program options store now).play.setting = ⟨program, 0, options.indicator⟩ := by
  cases restored : restored? store with
  | none =>
    rw [start_of_fresh restored]
    exact (Play.setting_fireDue (Play.begun program options now) now).trans
      (Play.setting_beginStory _ now)
  | some saved =>
    rw [start_of_restored restored]
    exact (Play.setting_fireDue (Play.resumed program options saved now) now).trans
      (Play.setting_resumeTimeline _ now)

/- How long bubbles stay is never changed. -/
theorem Arises.still (arises : s.Arises) : s.play.indicator = s.options.indicator := by
  induction arises with
  | @start program options store now _ =>
    exact congrArg Setting.indicator (setting_start program options store now)
  | perform now _ _ ih =>
    rw [options_perform, ← ih]
    exact (leads_perform _ now _).indicator

/- A task that comes up is one of the epoch that there is. -/
theorem epoch_fired {a : Play} (coherent : a.Coherent) {moments : List Moment}
    (follows : Follows Operation.Scripted a moments) :
    ∀ m ∈ moments, ∀ slot, m.slot? = some slot → slot.task.epoch = m.play.epoch := by
  induction follows with
  | nil => exact List.forall_mem_nil _
  | acted acts _ ih =>
    exact List.forall_mem_cons.2 ⟨nofun, ih (coherent_acts coherent acts)⟩
  | @fired a slot _ next _ ih =>
    refine List.forall_mem_cons.2 ⟨?_, ih (Play.coherent_fire coherent next)⟩
    intro other same
    obtain rfl := Option.some.inj same
    have epoch := congrArg Setting.epoch (Play.setting_fire a.dropFirst slot)
    exact (coherent.epoch_first next).trans epoch.symm

theorem fire_stale {play : Play} {slot : Slot} (stale : slot.task.epoch < play.epoch) :
    play.fire slot = play := by
  unfold Play.fire
  rw [if_neg (Nat.ne_of_lt stale)]

/- From a reset on, every epoch is a later one. -/
theorem epoch_reset (s : Session) (now : Nat) {steps : List (Nat × Operation)}
    (scripted : ∀ step ∈ steps, step.2.Scripted) :
    ∀ m ∈ s.allMoments ((now, .reset) :: steps), s.play.epoch < m.play.epoch := by
  have every : ∀ step ∈ (now, Operation.reset) :: steps, step.2.Scripted :=
    List.forall_mem_cons.2 ⟨trivial, scripted⟩
  have follows := (follows_allMoments Operation.Scripted s every).1
  generalize later : s.allMoments ((now, .reset) :: steps) = moments at follows
  have begins : ∃ rest, moments = .acted ((s.play.nextEpoch.revise fun _ =>
      .initial s.play.program s.options.typingDelay).beginStory now) :: rest := ⟨_, later.symm⟩
  obtain ⟨rest, rfl⟩ := begins
  have first : s.play.epoch < ((s.play.nextEpoch.revise fun _ =>
      .initial s.play.program s.options.typingDelay).beginStory now).epoch := by
    rw [show Play.epoch _ = _ from congrArg Setting.epoch (Play.setting_beginStory _ now)]
    exact Nat.lt_succ_self _
  cases follows with
  | acted _ others =>
    refine List.forall_mem_cons.2 ⟨first, fun m member => ?_⟩
    exact Nat.lt_of_lt_of_le first (leads_follows others m member).epoch

/- A reset is a fresh start. Whatever is done after it, the session keeps the same progress, timeline
   and document as one that starts afresh at the same time, and gives the same answers, where the
   events that waited before come with the first that are taken. What differs is that the
   epochs are counted on, and that a store which refuses both to be cleared and to be written keeps the
   document that it had. No task of an epoch up to the reset comes up after it, and none would do
   anything. -/
theorem Arises.reset_afresh (arises : s.Arises) (now : Nat) {steps : List (Nat × Operation)}
    (scripted : ∀ step ∈ steps, step.2.Scripted) :
    (s.reset now).performAll steps = ((s.afresh now).performAll steps).recast (s.play.epoch + 1)
        (untaken s.play.events steps) s.store.document ∧
      (s.reset now).responses steps =
        Answer.hearing s.play.events.toList ((s.afresh now).responses steps) ∧
      (∀ slot ∈ s.play.queue.slots, slot.task.epoch ≤ s.play.epoch) ∧
      ∀ m ∈ s.allMoments ((now, .reset) :: steps), ∀ slot, slot.task.epoch ≤ s.play.epoch →
        m.slot? ≠ some slot ∧ m.play.fire slot = m.play := by
  have anew := reset_eq s now arises.still
  refine ⟨?_, ?_, fun slot waits => Nat.le_of_eq (arises.coherent.epochs slot waits), ?_⟩
  · rw [anew]
    exact performAll_recast _ _ _ _ steps
  · rw [anew]
    exact responses_recast _ _ _ _ steps
  · intro m member slot stale
    have every : ∀ step ∈ (now, Operation.reset) :: steps, step.2.Scripted :=
      List.forall_mem_cons.2 ⟨trivial, scripted⟩
    have later := epoch_reset s now scripted m member
    refine ⟨fun fired => ?_, fire_stale (Nat.lt_of_le_of_lt stale later)⟩
    have current := epoch_fired arises.coherent (follows_allMoments Operation.Scripted s every).1
      m member slot fired
    omega

def waitsForReply (s : Session) : Bool := !s.play.queue.slots.isEmpty

theorem played_waitsForReply : (playedWithin 0 overlapping 1000 pickOnce).any waitsForReply = true := by
  decide +kernel

/- A reset while a reply and the notices behind it are on their way. -/
theorem reset_afresh_overlapping : ∃ program : Program, (compile overlapping).result = .ok program ∧
    ∃ s : Session, s = (start program {} .empty 1000).performAll pickOnce ∧ s.Arises ∧
      s.play.queue.slots ≠ [] ∧
      (∀ step ∈ [(2000, Operation.takeEvents), (9000, .tick)], step.2.Scripted) ∧
      (s.reset 2000).performAll [(2000, .takeEvents), (9000, .tick)] =
        ((s.afresh 2000).performAll [(2000, .takeEvents), (9000, .tick)]).recast (s.play.epoch + 1)
          #[] s.store.document ∧
      (s.reset 2000).responses [(2000, .takeEvents), (9000, .tick)] =
        Answer.hearing s.play.events.toList
          ((s.afresh 2000).responses [(2000, .takeEvents), (9000, .tick)]) ∧
      ∀ slot ∈ s.play.queue.slots,
        ∀ m ∈ s.allMoments ((2000, .reset) :: [(2000, .takeEvents), (9000, .tick)]),
          m.slot? ≠ some slot ∧ m.play.fire slot = m.play := by
  obtain ⟨program, compiled, shown⟩ := played_of_any played_waitsForReply
  have arises : ((start program {} .empty 1000).performAll pickOnce).Arises := by
    apply Arises.performAll (.start {} _ 1000 (Program.Compiled.scripted ⟨overlapping, compiled⟩))
    exact List.forall_mem_singleton.2 trivial
  have scripted : ∀ step ∈ [(2000, Operation.takeEvents), (9000, .tick)], step.2.Scripted :=
    List.forall_mem_cons.2 ⟨trivial, List.forall_mem_singleton.2 trivial⟩
  obtain ⟨same, answers, stale, idle⟩ := arises.reset_afresh 2000 scripted
  refine ⟨program, compiled, _, rfl, arises, ?_, scripted, same, answers, ?_⟩
  · intro none
    rw [waitsForReply, none] at shown
    cases shown
  · intro slot waits m member
    exact idle m member slot (stale slot waits)

/- A session that goes on from its own store when that can be neither written nor cleared any more:
   after a reset the store holds the document that it held, and one that was empty holds none. -/
theorem reset_leaves_document : ∃ program : Program, (compile overlapping).result = .ok program ∧
    ∃ s : Session, s = start program {}
        ⟨(start program {} .empty 1000).store.document, [.write, .clear]⟩ 2000 ∧
      s.Arises ∧ (s.reset 3000).store.document.isSome = true ∧
      (s.afresh 3000).store.document = none := by
  obtain ⟨program, compiled, _⟩ := played_of_any played_overlapping
  let s := start program {} ⟨(start program {} .empty 1000).store.document, [.write, .clear]⟩ 2000
  have written : (start program {} .empty 1000).store.document.isSome = true := by
    rw [start_store, Store.settle_write]
    rfl
  have kept : s.store = ⟨(start program {} .empty 1000).store.document, [.write, .clear]⟩ := by
    rw [start_store, Store.settle_write]
    rfl
  refine ⟨program, compiled, s, rfl, .start {} _ 2000 (Program.Compiled.scripted ⟨_, compiled⟩), ?_, ?_⟩
  · have cleared : (s.reset 3000).store = (s.store.settle s.store.clear).settle
        ((s.store.settle s.store.clear).write (Save.encode (s.reset 3000).play.progress)) := rfl
    rw [cleared, Store.settle_write, Store.settle_clear, kept]
    exact written
  · rw [afresh, start_store, Store.settle_write, kept]
    rfl

end Session
end ChatStory
