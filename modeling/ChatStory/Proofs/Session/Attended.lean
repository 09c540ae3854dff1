import ChatStory.Proofs.Session.Durable

/-!
Notices that come. A session lives through operations, and it may be made again from its own store,
with the same program or with another one. Through all of this every contact that waits to be unlocked
or to be ended by notices has them on the timeline, and they come up when their time has come.
-/
namespace ChatStory

/-- The task does not carry an action that is held back. -/
def SavedTask.Plain (pending : SavedTask) : Prop :=
  ∀ action, pending.delivery = .payload action → action.effect.isHeldBack = false

theorem Effect.isHeldBack_reread {effect after : Effect} (read : effect.reread? = some after) :
    after.isHeldBack = effect.isHeldBack := by
  cases effect with
  | dropPin pin =>
    obtain ⟨pin, _, same⟩ := Option.map_eq_some_iff.1 read
    rw [← same]
    rfl
  | setVariable name value =>
    obtain ⟨value, _, same⟩ := Option.map_eq_some_iff.1 read
    rw [← same]
    rfl
  | _ =>
    cases read
    rfl

/- What is held back when a task is read back was held back when it was saved. -/
theorem SavedTask.Plain.reread {pending after : SavedTask} (plain : pending.Plain)
    (read : pending.reread? = some after) : after.Plain := by
  obtain ⟨delivery, found, same⟩ := Option.map_eq_some_iff.1 read
  intro action carried
  rw [← same] at carried
  cases kind : pending.delivery with
  | payload before =>
    rw [kind] at found
    obtain ⟨action', reads, whole⟩ := Option.map_eq_some_iff.1 found
    obtain ⟨effect, kept, rest⟩ := Option.map_eq_some_iff.1 reads
    have held := plain before kind
    rw [← whole, ← rest] at carried
    cases carried
    rw [Effect.isHeldBack_reread kept]
    exact held
  | typing | reply | notices =>
    rw [kind] at found
    cases found
    cases carried

theorem Progress.mem_of_fitTo {program : Program} (p : Progress) {pending : SavedTask}
    (member : pending ∈ (p.fitTo program).deliveries) : pending ∈ p.deliveries := by
  rw [deliveries_fitTo] at member
  exact (List.mem_filter.1 member).1

namespace Play

variable {a : Play} {now : Nat}

/- Tasks that are scheduled one after the other are what the timeline is extended by. -/
theorem extended_schedules {α : Type} (contact : α → String) (time : α → Nat)
    (delivery : α → Delivery) (items : List α) : Queue.Extended
      (fun task => ∃ item ∈ items, task = ⟨contact item, a.epoch, delivery item⟩) a.queue
      (items.foldl (fun play item => play.schedule (contact item) (time item) (delivery item)) a).queue
    := by
  induction items generalizing a with
  | nil => exact .refl
  | cons item rest ih =>
    have first : Queue.Extended (fun task => ∃ other ∈ item :: rest,
        task = ⟨contact other, a.epoch, delivery other⟩) a.queue
        (a.schedule (contact item) (time item) (delivery item)).queue :=
      .schedule _ .refl ⟨item, List.mem_cons_self, rfl⟩
    refine first.trans (ih.weaken fun task known => ?_)
    obtain ⟨other, member, same⟩ := known
    exact ⟨other, List.mem_cons_of_mem item member, same⟩

theorem noticed_of_schedules {α : Type} (contact : α → String) (time : α → Nat)
    (delivery : α → Delivery) {items : List α} {item : α} (member : item ∈ items)
    (notices : delivery item = .notices) :
    (items.foldl (fun play item => play.schedule (contact item) (time item) (delivery item)) a).Noticed
      (contact item) := by
  induction items generalizing a with
  | nil => cases member
  | cons first rest ih =>
    rcases List.mem_cons.1 member with rfl | later
    · have here : (a.schedule (contact item) (time item) (delivery item)).Noticed (contact item) :=
        ⟨_, Queue.mem_schedule.2 (.inl rfl), rfl, notices⟩
      exact here.extended (extended_schedules contact time delivery rest)
    · exact ih later

/- Scheduling changes nothing but the timeline. -/
theorem schedules_eq {α : Type} (contact : α → String) (time : α → Nat) (delivery : α → Delivery)
    (items : List α) :
    items.foldl (fun play item => play.schedule (contact item) (time item) (delivery item)) a =
      { a with queue := (items.foldl (fun play item =>
          play.schedule (contact item) (time item) (delivery item)) a).queue } := by
  induction items generalizing a with
  | nil => rfl
  | cons item rest ih =>
    rw [List.foldl_cons, ih]
    rfl

theorem progress_schedules {α : Type} (contact : α → String) (time : α → Nat) (delivery : α → Delivery)
    (items : List α) : (items.foldl (fun play item =>
      play.schedule (contact item) (time item) (delivery item)) a).progress = a.progress := by
  rw [schedules_eq]

theorem progress_resumeTimeline (a : Play) (now : Nat) :
    (a.resumeTimeline now).progress = { a.progress with deliveries := [] } := by
  rw [resumeTimeline_eq]
  have noticed := progress_schedules (a := a.progress.deliveries.foldl
      (fun play pending => play.schedule pending.contact pending.time pending.delivery)
      (a.revise fun p => { p with deliveries := [] }))
    id (fun _ => now) (fun _ => .notices) (unserved a.progress a.progress.deliveries)
  exact noticed.trans (progress_schedules SavedTask.contact SavedTask.time SavedTask.delivery _)

theorem Coherent.sound (coherent : a.Coherent)
    (plain : ∀ slot ∈ a.queue.slots, ∀ action, slot.task.delivery = .payload action →
      action.effect.isHeldBack = false)
    (noticed : ∀ c, a.progress.unlocks.contains c = true ∨ a.progress.endings.has c = true →
      a.Noticed c) : a.Sound where
  formed := coherent.formed
  kept := coherent.kept
  tasks slot member := ⟨coherent.epochs slot member, coherent.known slot member, plain slot member⟩
  bounded := coherent.bounded
  rounded := coherent.rounded
  unlocks c strands := strands.2 (noticed c (.inl strands.1))
  ending c strands := strands.2 (noticed c (.inr strands.1))

/- Saved tasks that carry nothing that is held back make a sound timeline: those whom none of the saved
   notices serve get some. -/
theorem sound_resumeTimeline (coherent : a.Coherent) (idle : a.queue = ∅)
    (known : ∀ pending ∈ a.progress.deliveries, a.program.has pending.contact = true)
    (plain : ∀ pending ∈ a.progress.deliveries, pending.Plain) : (a.resumeTimeline now).Sound := by
  have resumed : (a.resumeTimeline now).Coherent := coherent_resumeTimeline coherent known
  have progress := progress_resumeTimeline a now
  rw [resumeTimeline_eq] at resumed progress ⊢
  let taken := a.revise fun p => { p with deliveries := [] }
  have saved := extended_schedules (a := taken) SavedTask.contact SavedTask.time SavedTask.delivery
    a.progress.deliveries
  have served : ∀ pending ∈ a.progress.deliveries, pending.delivery = .notices →
      (a.progress.deliveries.foldl (fun play pending =>
        play.schedule pending.contact pending.time pending.delivery) taken).Noticed pending.contact :=
    fun _ member notices => noticed_of_schedules SavedTask.contact SavedTask.time SavedTask.delivery
      member notices
  generalize a.progress.deliveries.foldl (fun play pending =>
    play.schedule pending.contact pending.time pending.delivery) taken = put at *
  have added := extended_schedules (a := put) id (fun _ => now) (fun _ => .notices)
    (unserved a.progress a.progress.deliveries)
  apply resumed.sound
  · intro slot member action carried
    rcases added.mem member with old | ⟨_, _, same⟩
    · rcases saved.mem old with none | ⟨pending, inside, same⟩
      · have empty : taken.queue = ∅ := idle
        rw [empty] at none
        cases none
      · rw [same] at carried
        exact plain pending inside action carried
    · rw [same] at carried
      cases carried
  · intro c asked
    rw [progress] at asked
    by_cases lacks : c ∈ unserved a.progress a.progress.deliveries
    · exact noticed_of_schedules id (fun _ => now) (fun _ => .notices) lacks rfl
    · obtain ⟨pending, inside, notices, own⟩ :=
        Classical.not_not.1 fun none => lacks (mem_unserved.2 ⟨asked, none⟩)
      rw [← own]
      exact (served pending inside notices).extended added

theorem sound_resumed {program : Program} (formed : program.WellFormed) (options : Options)
    {saved : Progress} (plain : ∀ pending ∈ saved.deliveries, pending.Plain) (now : Nat) :
    (Play.resumed program options saved now).Sound := by
  apply sound_resumeTimeline (coherent_fitted formed saved options.indicator)
  · rfl
  · intro pending member
    exact Progress.known_of_fitTo saved member
  · intro pending member
    exact plain pending (Progress.mem_of_fitTo saved member)

/- Every task whose time has come is fired, in its own epoch; by recursion along those that are. -/
theorem mem_firings {a : Play} (coherent : a.Coherent) {slot : Slot} (waits : slot ∈ a.queue.slots)
    (early : slot.time ≤ now) :
    ∃ before, .fired before slot ∈ a.firings now ∧ slot.task.epoch = before.epoch := by
  cases due : a.queue.due? now with
  | none =>
    have ahead := Queue.due?_eq_none.1 due slot waits
    omega
  | some first =>
    have next := (next_of_due due).1
    have order := waits
    rw [Queue.slots_of_next next] at order
    rw [firings_of_some due]
    rcases List.mem_cons.1 order with rfl | behind
    · exact ⟨a.dropFirst, List.mem_cons_self, coherent.epoch_first next⟩
    · obtain ⟨added, listed, _⟩ := (Grows.fire a.dropFirst first).queue
      have still : slot ∈ (a.dropFirst.fire first).queue.slots :=
        listed.mem_iff.2 (List.mem_append_left _ behind)
      obtain ⟨before, fired, epoch⟩ := mem_firings (coherent_fire coherent next) still early
      exact ⟨before, List.mem_cons_of_mem _ fired, epoch⟩
termination_by a.rank now
decreasing_by exact rank_fire_lt due

end Play

namespace Session

open Play

variable {s : Session} {now : Nat}

/-- The document of the progress with what is on the timeline. -/
def document (s : Session) : String := Save.encode s.play.recordTimeline.progress

/-- A session that lives through operations from a new story on, and that may be made again, with any
program, from what it or another such session has saved. -/
inductive Lives : Session → Prop where
  | start {program : Program} (options : Options) {store : Store} (now : Nat) :
    program.Compiled → restored? store = none → Lives (start program options store now)
  | perform {s : Session} {operation : Operation} (now : Nat) :
    Lives s → operation.Compiled → Lives (s.perform now operation)
  | rebuild {s : Session} {program : Program} (options : Options) {store : Store} (now : Nat) :
    Lives s → s.play.recordTimeline.progress.fitsWords = true → store.document = some s.document →
      program.Compiled → Lives (start program options store now)

/- What is read back from a document that a session has saved. -/
theorem reread_of_restored (fits : s.play.recordTimeline.progress.fitsWords = true) {store : Store}
    (document : store.document = some s.document) {saved : Progress}
    (restored : restored? store = some saved) :
    s.play.recordTimeline.progress.reread? = some saved := by
  obtain ⟨written, held, decoded⟩ := decoded_of_restored restored
  rw [document] at held
  rw [← Save.decode_encode fits, ← decoded, ← Option.some.inj held]
  rfl

/- What a sound session has saved carries nothing that is held back. -/
theorem plain_of_document (sound : s.play.Sound)
    (fits : s.play.recordTimeline.progress.fitsWords = true) {store : Store}
    (document : store.document = some s.document) {saved : Progress}
    (restored : restored? store = some saved) : ∀ pending ∈ saved.deliveries, pending.Plain := by
  have read := reread_of_restored fits document restored
  obtain ⟨_, deliveries, _, whole, _, waiting, _⟩ := Progress.reread_cases read
  intro pending member
  rw [whole] at member
  obtain ⟨before, inside, reads⟩ := of_mapM_mem waiting member
  obtain ⟨slot, waits, same⟩ := List.mem_map.1 inside
  refine SavedTask.Plain.reread ?_ reads
  intro action carried
  rw [← same] at carried
  exact (sound.tasks slot waits).payload action carried

theorem sound_start {program : Program} (formed : program.WellFormed) (options : Options) {store : Store}
    (plain : ∀ saved, restored? store = some saved → ∀ pending ∈ saved.deliveries, pending.Plain)
    (now : Nat) : (start program options store now).play.Sound := by
  apply start_keeps lasting_sound
  · exact fun saved restored => sound_resumed formed options (plain saved restored) now
  · exact fun _ => sound_beginStory (sound_initial formed _ _ _ _) now

theorem Lives.sound (lives : s.Lives) : s.play.Sound := by
  induction lives with
  | start options now compiled fresh =>
    apply sound_start compiled.wellFormed
    intro saved restored
    rw [fresh] at restored
    cases restored
  | perform now _ compiled ih => exact sound_perform ih compiled now
  | rebuild options now _ fits document compiled ih =>
    exact sound_start compiled.wellFormed options
      (fun saved restored => plain_of_document ih fits document restored) now

theorem Lives.arises (lives : s.Lives) : s.Arises := by
  induction lives with
  | start options now compiled _ => exact .start options _ now compiled.scripted
  | perform now _ compiled ih => exact ih.perform now compiled.scripted
  | rebuild options now _ _ _ compiled _ => exact .start options _ now compiled.scripted

/- A session may be made again from its own store, if that takes what is written. -/
theorem Lives.rebuilt (lives : s.Lives) (writable : s.store.refused.contains .write = false)
    (fits : s.play.progress.fitsWords = true) {program : Program} (compiled : program.Compiled)
    (options : Options) (now : Nat) : (Session.start program options s.store now).Lives := by
  have saved := lives.arises.saved writable
  have noted : s.play.recordTimeline.progress = s.play.progress := by
    change { s.play.progress with deliveries := s.play.savedTasks } = _
    rw [← saved.deliveries]
  refine .rebuild options now lives ?_ ?_ compiled
  · rw [noted]
    exact fits
  · rw [document, noted]
    exact saved.document

/- Nobody is left waiting: whoever has asked for unlocks or for the end has notices of this epoch on the
   timeline, and they are delivered as soon as their time has come. -/
theorem Lives.attended (lives : s.Lives) {contact : String}
    (waits : s.play.progress.unlocks.contains contact = true ∨
      s.play.progress.endings.has contact = true) :
    ∃ slot ∈ s.play.queue.slots, slot.task = ⟨contact, s.play.epoch, .notices⟩ ∧
      ∀ now, slot.time ≤ now → ∃ before, .fired before slot ∈ s.moments now .tick ∧
        before.fire slot = before.deliverHeld contact slot.time := by
  obtain ⟨⟨time, task⟩, member, own, notices⟩ := lives.sound.noticed waits
  have epoch : task.epoch = s.play.epoch := (lives.sound.tasks _ member).epoch
  have same : task = ⟨contact, s.play.epoch, .notices⟩ := by
    rw [← own, ← epoch, ← notices]
  subst same
  refine ⟨_, member, rfl, fun now early => ?_⟩
  obtain ⟨before, fired, current⟩ := mem_firings lives.sound.coherent member early
  refine ⟨before, ?_, ?_⟩
  · have acted : s.acted? now .tick = some s.play := rfl
    rw [moments_of_acted acted]
    exact List.mem_cons_of_mem _ (List.mem_append_left _ fired)
  · unfold fire
    rw [if_pos current]

/-- The session is made again from its store, and an unlock waits in it. -/
def waitsAgain (s : Session) : Bool :=
  s.rebuildable &&
    (resumeWithin 0 (compile overlapping).program {} s.store s.play.progress 1000).any fun t =>
      t.play.progress.unlocks.contains "A"

theorem played_waitsAgain : (playedWithin 0 overlapping 1000 pickOnce).any waitsAgain = true := by
  decide +kernel

/- A session that was made again while an unlock waited. -/
theorem attended_rebuilt : ∃ program : Program, (compile overlapping).result = .ok program ∧
    ∃ s t : Session, s = (start program {} .empty 1000).performAll pickOnce ∧
      t = start program {} s.store 1000 ∧ t.Lives ∧
      t.play.progress.unlocks.contains "A" = true ∧
      ∃ slot ∈ t.play.queue.slots, slot.task = ⟨"A", t.play.epoch, .notices⟩ ∧
        ∀ now, slot.time ≤ now → ∃ before, .fired before slot ∈ t.moments now .tick ∧
          before.fire slot = before.deliverHeld "A" slot.time := by
  obtain ⟨program, compiled, shown⟩ := played_of_any played_waitsAgain
  obtain ⟨ready, again⟩ := Bool.and_eq_true_iff.1 shown
  obtain ⟨t, resumed, waits⟩ := (Option.any_eq_true _ _).1 again
  obtain ⟨readable, writable, fits, _, read⟩ := rebuildable_eq_true.1 ready
  have begun : Lives (start program {} .empty 1000) := .start {} 1000 ⟨overlapping, compiled⟩ rfl
  have picks : (Operation.choose "A" 0).Compiled := trivial
  have picked : Lives ((start program {} .empty 1000).performAll pickOnce) := begun.perform 1000 picks
  have restored := (restored_of_saved (picked.arises.saved writable) readable fits).trans read
  rw [Compilation.program_of_result compiled] at resumed
  have same := start_of_resumeWithin restored resumed
  have lives := picked.rebuilt writable fits ⟨overlapping, compiled⟩ {} 1000
  refine ⟨program, compiled, _, _, rfl, rfl, lives, ?_, lives.attended (.inl ?_)⟩
  · rw [same]
    exact waits
  · rw [same]
    exact waits

end Session
end ChatStory
