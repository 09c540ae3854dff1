import ChatStory.Proofs.Resumed
import ChatStory.Proofs.Session.Computed
import ChatStory.Proofs.Session.Saved
import ChatStory.Session.Loading

/-!
Sessions that are made from what another one has saved. The timeline is put back as it was, and
so is the progress, but for doubles that do not read as they were and for the rounds of threads
that ended without one.
-/
namespace ChatStory

/- A saved task is read back with its contact and its time, and notices as notices. -/
theorem SavedTask.reread_same {pending after : SavedTask} (read : pending.reread? = some after) :
    after.contact = pending.contact ∧ after.time = pending.time ∧
      (pending.delivery = .notices → after.delivery = .notices) := by
  obtain ⟨delivery, found, same⟩ := Option.map_eq_some_iff.1 read
  subst same
  refine ⟨rfl, rfl, ?_⟩
  intro notices
  rw [notices] at found
  exact (Option.some.inj found).symm

namespace Progress

variable {p q : Progress} {program : Program}

theorem reread_cases (read : p.reread? = some q) : ∃ histories deliveries values,
    q = { p with histories := histories, deliveries := deliveries, values := values } ∧
      p.histories.mapM? (fun history => history.mapM Message.reread?) = some histories ∧
      p.deliveries.mapM SavedTask.reread? = some deliveries ∧
      p.values.mapM? Value.reread? = some values := by
  obtain ⟨histories, heard, rest⟩ := Option.bind_eq_some_iff.1 read
  obtain ⟨deliveries, waiting, rest⟩ := Option.bind_eq_some_iff.1 rest
  obtain ⟨values, known, same⟩ := Option.bind_eq_some_iff.1 rest
  exact ⟨histories, deliveries, values, (Option.some.inj same).symm, heard, waiting, known⟩

theorem keptFor_reread (kept : p.KeptFor program) (read : p.reread? = some q) : q.KeptFor program := by
  obtain ⟨histories, deliveries, values, same, heard, _, known⟩ := reread_cases read
  subst same
  refine { kept with histories := ?_, values := ?_ }
  · intro c
    change histories.contains c = true ↔ _
    rw [← (Table.get?_mapM? heard c).2]
    exact kept.histories c
  · intro name default
    change values.contains name = true
    rw [← (Table.get?_mapM? known name).2]
    exact kept.values name default

end Progress

namespace Play

/- Tasks that are put back one after the other are put on the timeline as a whole. -/
theorem foldl_schedule (play : Play) (saved : List SavedTask) :
    saved.foldl (fun play pending => play.schedule pending.contact pending.time pending.delivery) play =
      { play with queue := play.queue.resume play.epoch saved } := by
  induction saved generalizing play with
  | nil => rfl
  | cons pending rest ih =>
    rw [List.foldl_cons, ih]
    rfl

/-- Those who wait for notices that are not among some saved tasks. -/
def unserved (p : Progress) (saved : List SavedTask) : List String :=
  (NameSet.ofNames (p.unlocks.keys ++ p.endings.keys)).keys.filter fun contact =>
    !saved.any fun pending => pending.delivery = .notices && pending.contact == contact

theorem mem_unserved {p : Progress} {saved : List SavedTask} {c : String} : c ∈ unserved p saved ↔
    (p.unlocks.contains c = true ∨ p.endings.has c = true) ∧
      ¬∃ pending ∈ saved, pending.delivery = .notices ∧ pending.contact = c := by
  have waits : c ∈ (NameSet.ofNames (p.unlocks.keys ++ p.endings.keys)).keys ↔
      p.unlocks.contains c = true ∨ p.endings.has c = true := by
    rw [← Table.contains_iff_mem_keys, ← NameSet.has, NameSet.has_ofNames, List.mem_append,
      ← Table.contains_iff_mem_keys, ← Table.contains_iff_mem_keys]
    rfl
  rw [unserved, List.mem_filter, waits]
  simp

/- The saved tasks are put back, and those whom no saved notices serve get some. -/
theorem resumeTimeline_eq (play : Play) (now : Nat) : play.resumeTimeline now =
    (unserved play.progress play.progress.deliveries).foldl
      (fun play contact => play.schedule contact now .notices) (play.progress.deliveries.foldl
        (fun play pending => play.schedule pending.contact pending.time pending.delivery)
        (play.revise fun p => { p with deliveries := [] })) := by
  unfold resumeTimeline unserved
  dsimp only
  rw [foldl_schedule]
  rfl

/- Where everything that is held back has its notices, resuming adds no task. -/
theorem resumeTimeline_of_noticed {play : Play} (now : Nat)
    (noticed : ∀ c, play.progress.unlocks.contains c = true ∨ play.progress.endings.has c = true →
      ∃ pending ∈ play.progress.deliveries, pending.delivery = .notices ∧ pending.contact = c) :
    play.resumeTimeline now = { play with
      progress := { play.progress with deliveries := [] }
      queue := play.queue.resume play.epoch play.progress.deliveries } := by
  have none : unserved play.progress play.progress.deliveries = [] := by
    rw [List.eq_nil_iff_forall_not_mem]
    intro c waits
    obtain ⟨asked, lacks⟩ := mem_unserved.1 waits
    exact lacks (noticed c asked)
  rw [resumeTimeline_eq, none, foldl_schedule]
  rfl

/-- A story that goes on from saved progress, before time is looked at. -/
def resumed (program : Program) (options : Options) (saved : Progress) (now : Nat) : Play :=
  resumeTimeline {
    program := program
    progress := saved.fitTo program
    queue := ∅
    epoch := 0
    indicator := options.indicator
    events := #[] } now

end Play

namespace Queue

variable {q r : Queue}

theorem due?_eq_none {now : Nat} : q.due? now = none ↔ ∀ slot ∈ q.slots, now < slot.time := by
  unfold due?
  cases next : q.next? with
  | none =>
    have empty : q.slots = [] := List.head?_eq_none_iff.1 next
    rw [empty]
    exact ⟨fun _ => List.forall_mem_nil _, fun _ => rfl⟩
  | some first =>
    rw [Option.filter_eq_none_iff]
    constructor
    · intro late slot member
      have least := time_le_of_next next member
      have ahead := late first rfl
      simp only [decide_eq_true_eq] at ahead
      omega
    · intro ahead slot same
      cases same
      have late := ahead first (List.mem_of_head? next)
      simp only [decide_eq_true_eq]
      omega

/- What is due is told by the times alone. -/
theorem due?_of_times {now : Nat} (times : r.slots.map (·.time) = q.slots.map (·.time))
    (undue : q.due? now = none) : r.due? now = none := by
  rw [due?_eq_none] at undue ⊢
  intro slot member
  have listed : slot.time ∈ r.slots.map (·.time) := List.mem_map_of_mem member
  rw [times] at listed
  obtain ⟨other, waits, same⟩ := List.mem_map.1 listed
  rw [← same]
  exact undue other waits

end Queue

theorem create_of_result {source : String} {program : Program} (result : (compile source).result = .ok program)
    (options : Options) (store : Store) (now : Nat) : Session.create source options store now =
      .ok ⟨Session.start program options store now, (compile source).warnings⟩ := by
  rw [Session.create, Session.programOf, result]
  rfl

theorem start_of_create {source : String} {options : Options} {store : Store} {now : Nat}
    {loaded : Loaded} (created : Session.create source options store now = .ok loaded) :
    loaded.session = Session.start (compile source).program options store now := by
  cases result : (compile source).result with
  | error diagnostic =>
    rw [Session.create, Session.programOf, result] at created
    cases created
  | ok program =>
    rw [create_of_result result] at created
    cases created
    rw [Compilation.program_of_result result]

theorem resume_of_result {source : String} {program : Program} (result : (compile source).result = .ok program)
    {progress : Progress} {store written : Store} (kept : store.write (Save.encode progress) = .ok written)
    (options : Options) (now : Nat) : (Session.resume source progress options store now).2 =
      .ok ⟨Session.start program options written now, (compile source).warnings⟩ := by
  rw [Session.resume, kept]
  dsimp only
  rw [create_of_result result]

theorem start_of_resume {source : String} {progress : Progress} {options : Options} {store : Store} {now : Nat}
    {loaded : Loaded} (resumed : (Session.resume source progress options store now).2 = .ok loaded) :
    ∃ written, store.write (Save.encode progress) = .ok written ∧
      loaded.session = Session.start (compile source).program options written now := by
  unfold Session.resume at resumed
  split at resumed
  · cases resumed
  · rename_i written kept
    split at resumed
    · cases resumed
    · rename_i made created
      cases resumed
      exact ⟨written, kept, start_of_create created⟩

namespace Session

open Play

variable {s : Session} {q : Progress}

theorem start_of_restored {program : Program} {options : Options} {store : Store} {saved : Progress}
    (restored : restored? store = some saved) (now : Nat) : start program options store now =
      (Session.mk (.resumed program options saved now) store options).settle
        (.resumed program options saved now) now := by
  unfold start
  rw [restored]
  rfl

/- What lasts holds of a session from its first moment on if it holds of a story that begins, and of
   what is put back from a store. -/
theorem start_keeps {P : Play → Prop} (lasting : Play.Lasting P) {program : Program}
    {options : Options} {store : Store} {now : Nat}
    (resumes : ∀ saved, restored? store = some saved → P (.resumed program options saved now))
    (begins : restored? store = none → P (.begun program options now)) :
    P (start program options store now).play := by
  cases restored : restored? store with
  | some saved =>
    rw [start_of_restored restored]
    exact settle_keeps lasting _ (resumes saved restored) now
  | none =>
    rw [start_of_fresh restored]
    exact settle_keeps lasting _ (begins restored) now

/- Every task on the timeline comes back in its place, and with it the progress, fitted to its own
   program once more. -/
theorem resumed_of_reread (sound : s.play.Sound) (saved : s.Saved)
    (read : s.play.progress.reread? = some q) (options : Options) (now : Nat) :
    ∃ rounds, Play.resumed s.play.program options q now = {
        program := s.play.program
        progress := { q with rounds := rounds, deliveries := [] }
        queue := Queue.resume ∅ 0 q.deliveries
        epoch := 0
        indicator := options.indicator
        events := #[] } ∧
      ∀ c, rounds.get? c = s.play.progress.refitRound? s.play.program c := by
  obtain ⟨histories, deliveries, values, same, _, waiting, _⟩ := Progress.reread_cases read
  have kept : q.KeptFor s.play.program := Progress.keptFor_reread sound.kept read
  have rounded : ∀ c, q.thread? c = some .active → q.rounds.contains c = true := by
    intro c active
    rw [same] at active ⊢
    cases found : s.play.progress.rounds.contains c with
    | true => rfl
    | false =>
      have lost : s.play.progress.rounds.get? c = none := by simpa [Table.contains] using found
      exact absurd ⟨active, lost⟩ (sound.rounded c)
  have contacts : deliveries.map (·.contact) = s.play.progress.deliveries.map (·.contact) :=
    map_of_mapM (fun _ _ read => (SavedTask.reread_same read).1) waiting
  have known : ∀ pending ∈ q.deliveries, s.play.program.has pending.contact = true := by
    intro pending member
    rw [same] at member
    have listed : pending.contact ∈ deliveries.map (·.contact) := List.mem_map_of_mem member
    rw [contacts, saved.deliveries] at listed
    obtain ⟨before, task, own⟩ := List.mem_map.1 listed
    obtain ⟨slot, waits, taken⟩ := List.mem_map.1 task
    rw [← own, ← taken]
    exact (sound.tasks slot waits).known
  obtain ⟨rounds, fitted, placed⟩ := Progress.fitTo_of_kept sound.formed kept rounded known
  refine ⟨rounds, ?_, ?_⟩
  · unfold Play.resumed
    rw [fitted, resumeTimeline_of_noticed]
    intro c waits
    rw [same] at waits
    obtain ⟨slot, member, own, notices⟩ := sound.noticed waits
    have listed : (⟨slot.task.contact, slot.time, slot.task.delivery⟩ : SavedTask) ∈
        s.play.progress.deliveries := by
      rw [saved.deliveries]
      exact List.mem_map_of_mem member
    obtain ⟨after, inside, reads⟩ := mem_of_mapM waiting listed
    obtain ⟨contact, _, kind⟩ := SavedTask.reread_same reads
    refine ⟨after, ?_, kind notices, contact.trans own⟩
    rw [same]
    exact inside
  · intro c
    rw [placed c, same]
    rfl

/- The times of the tasks come back, and so does their order. -/
theorem times_of_reread (saved : s.Saved) (read : s.play.progress.reread? = some q) :
    q.deliveries.map (·.time) = s.play.queue.slots.map (·.time) ∧
      q.deliveries.Pairwise fun a b => a.time ≤ b.time := by
  obtain ⟨_, deliveries, _, whole, _, waiting, _⟩ := Progress.reread_cases read
  have own : q.deliveries = deliveries := by rw [whole]
  have times : q.deliveries.map (·.time) = s.play.queue.slots.map (·.time) := by
    rw [own, map_of_mapM (fun _ _ read => (SavedTask.reread_same read).2.1) waiting, saved.deliveries,
      savedTasks, List.map_map]
    rfl
  refine ⟨times, ?_⟩
  rw [← List.pairwise_map (R := (· ≤ ·)), times]
  exact List.pairwise_map.2 s.play.queue.ascending

/- The session that is made from the store, when no task is due. -/
theorem rebuilt_of_reread (sound : s.play.Sound) (saved : s.Saved)
    (readable : s.store.refused.contains .read = false) (fits : s.play.progress.fitsWords = true)
    (read : s.play.progress.reread? = some q) {now : Nat} (undue : s.play.queue.due? now = none)
    (options : Options) : ∃ rounds,
      (start s.play.program options s.store now).play.progress = { q with rounds := rounds } ∧
      (start s.play.program options s.store now).play.events = #[] ∧
      ∀ c, rounds.get? c = s.play.progress.refitRound? s.play.program c := by
  obtain ⟨rounds, same, placed⟩ := resumed_of_reread sound saved read options now
  have restored : restored? s.store = some q := (restored_of_saved saved readable fits).trans read
  obtain ⟨times, ascending⟩ := times_of_reread saved read
  obtain ⟨slots, listed, _⟩ := Queue.resume_empty 0 ascending
  have still : (Queue.resume ∅ 0 q.deliveries).due? now = none := by
    apply Queue.due?_of_times _ undue
    rw [slots, List.map_map, ← times]
    rfl
  refine ⟨rounds, ?_, ?_, placed⟩
  · rw [start_of_restored restored, play_settle, same, fireDue_of_none still]
    change { q with rounds := rounds, deliveries := (Queue.resume ∅ 0 q.deliveries).listed } = _
    rw [listed]
  · rw [start_of_restored restored, play_settle, same, fireDue_of_none still]
    rfl

/- A session is rebuilt from what it saved as it was, with nothing said again, exactly if every
   double in it reads as itself and no thread has ended out of its round. -/
theorem rebuilt_same_iff (reached : s.Reached) (readable : s.store.refused.contains .read = false)
    (writable : s.store.refused.contains .write = false) (fits : s.play.progress.fitsWords = true)
    {now : Nat} (undue : s.play.queue.due? now = none) :
    ((restored? s.store).isSome = true ∧
      (start s.play.program s.options s.store now).play.progress = s.play.progress ∧
      (start s.play.program s.options s.store now).play.events = #[]) ↔
    (s.play.progress.reread? = some s.play.progress ∧
      ∀ c, s.play.progress.thread? c = some .ended → s.play.progress.rounds.contains c = true) := by
  have sound := reached.sound
  have saved := reached.saved writable
  have restored := restored_of_saved saved readable fits
  constructor
  · rintro ⟨some, same, _⟩
    rw [restored] at some
    obtain ⟨q, read⟩ := Option.isSome_iff_exists.1 some
    obtain ⟨rounds, whole, _, placed⟩ := rebuilt_of_reread sound saved readable fits read undue s.options
    obtain ⟨_, _, _, parts, _⟩ := Progress.reread_cases read
    have before : q.rounds = s.play.progress.rounds := by rw [parts]
    rw [whole] at same
    have kept : rounds = s.play.progress.rounds := congrArg Progress.rounds same
    constructor
    · rw [read, ← same, kept, ← before]
    · intro c ended
      cases found : s.play.progress.rounds.get? c with
      | some key => rw [Table.contains, found, Option.isSome_some]
      | none =>
        obtain ⟨contact, known⟩ := Table.contains_eq_true.1 (sound.coherent.known_of_thread ended)
        obtain ⟨key, first, _⟩ := sound.formed.firstKey (sound.formed.inOrder_of_contact known)
        have refit := placed c
        rw [Progress.refitRound?, if_pos ⟨ended, found⟩, kept, found, Program.contact?, known,
          Option.bind_some, first] at refit
        cases refit
  · rintro ⟨read, rounded⟩
    obtain ⟨rounds, whole, silent, placed⟩ :=
      rebuilt_of_reread sound saved readable fits read undue s.options
    have kept : rounds = s.play.progress.rounds := by
      apply Table.ext_get?
      intro c
      rw [placed c, Progress.refitRound?, if_neg]
      rintro ⟨ended, none⟩
      have some := rounded c ended
      rw [Table.contains, none] at some
      cases some
    refine ⟨?_, ?_, silent⟩
    · rw [restored, read]
      rfl
    · rw [whole, kept]

/-- The session that goes on from saved progress, if it fires no more tasks than the limit. -/
def resumeWithin (limit : Nat) (program : Program) (options : Options) (store : Store)
    (saved : Progress) (now : Nat) : Option Session :=
  settleWithin limit ⟨.resumed program options saved now, store, options⟩
    (.resumed program options saved now) now

theorem start_of_resumeWithin {limit : Nat} {program : Program} {options : Options} {store : Store}
    {saved : Progress} {now : Nat} {t : Session} (restored : restored? store = some saved)
    (within : resumeWithin limit program options store saved now = some t) :
    start program options store now = t := by
  rw [start_of_restored restored]
  exact settle_of_settleWithin within

/-- The thread ends with the only choice in it. -/
def leaving : String := ":: A-Round-1 [initial_contact]\nHi\n[[Leave|A-Round-9]]\n"

def leave : List (Nat × Operation) := [(1000, .choose "A" 0)]

/-- All that is asked of a session for it to be rebuilt, and that its doubles read as themselves. -/
def rebuildable (s : Session) : Bool :=
  !s.store.refused.contains .read && !s.store.refused.contains .write &&
    s.play.progress.fitsWords && decide (s.play.queue.due? 1000 = none) &&
    decide (s.play.progress.reread? = some s.play.progress)

def rebuiltElsewhere (s : Session) : Bool :=
  s.rebuildable &&
    (resumeWithin 0 s.play.program s.options s.store s.play.progress 1000).any fun t =>
      t.play.progress ≠ s.play.progress

theorem played_leaving : (playedWithin 0 leaving 1000 leave).any rebuiltElsewhere = true := by
  decide +kernel

theorem rebuildable_eq_true {s : Session} : s.rebuildable = true ↔
    s.store.refused.contains .read = false ∧ s.store.refused.contains .write = false ∧
      s.play.progress.fitsWords = true ∧ s.play.queue.due? 1000 = none ∧
      s.play.progress.reread? = some s.play.progress := by
  simp only [rebuildable, Bool.and_eq_true, Bool.not_eq_true', decide_eq_true_eq, and_assoc]

theorem reached_leave {program : Program} (compiled : (compile leaving).result = .ok program) :
    ((start program {} .empty 1000).performAll leave).Reached := by
  apply Reached.performAll (.start {} 1000 ⟨leaving, compiled⟩ rfl)
  simp only [leave, List.forall_mem_cons]
  exact ⟨trivial, List.forall_mem_nil _⟩

/- A thread that ended out of its round is in a round again when the session is rebuilt. -/
theorem rebuilt_in_another_round : ∃ program : Program, (compile leaving).result = .ok program ∧
    ∃ s, s = (start program {} .empty 1000).performAll leave ∧ s.rebuildable = true ∧
      (start s.play.program s.options s.store 1000).play.progress ≠ s.play.progress := by
  obtain ⟨program, compiled, shown⟩ := played_of_any played_leaving
  obtain ⟨ready, elsewhere⟩ := Bool.and_eq_true_iff.1 shown
  obtain ⟨t, resumed, other⟩ := (Option.any_eq_true _ _).1 elsewhere
  obtain ⟨readable, writable, fits, _, read⟩ := rebuildable_eq_true.1 ready
  have reached := reached_leave compiled
  have restored := (restored_of_saved (reached.saved writable) readable fits).trans read
  refine ⟨program, compiled, _, rfl, ready, ?_⟩
  rw [start_of_resumeWithin restored resumed]
  exact of_decide_eq_true other

/- The equivalence, for that session. -/
theorem rebuilt_same_iff_leaving : ∃ s : Session, s.Reached ∧
    s.store.refused.contains .read = false ∧ s.store.refused.contains .write = false ∧
    s.play.progress.fitsWords = true ∧ s.play.queue.due? 1000 = none ∧
    (((restored? s.store).isSome = true ∧
      (start s.play.program s.options s.store 1000).play.progress = s.play.progress ∧
      (start s.play.program s.options s.store 1000).play.events = #[]) ↔
    (s.play.progress.reread? = some s.play.progress ∧
      ∀ c, s.play.progress.thread? c = some .ended → s.play.progress.rounds.contains c = true)) := by
  obtain ⟨program, compiled, shown⟩ := played_of_any played_leaving
  obtain ⟨readable, writable, fits, undue, _⟩ :=
    rebuildable_eq_true.1 (Bool.and_eq_true_iff.1 shown).1
  have reached := reached_leave compiled
  exact ⟨_, reached, readable, writable, fits, undue,
    rebuilt_same_iff reached readable writable fits undue⟩

end Session
end ChatStory
