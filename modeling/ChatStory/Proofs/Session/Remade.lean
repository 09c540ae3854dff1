import ChatStory.Proofs.Session.Abreast
import ChatStory.Proofs.Session.Afresh
import ChatStory.Proofs.Session.Input
import ChatStory.Proofs.Session.Numbering

/-!
A session that lives on, and one that is made again from what it has saved before every step. Between
steps nothing is on the timeline. What makes the two different is that the one that lives on remembers for
each contact the time of its last task, which flushing may have fired long before that time: the next
task of the contact is put off to it, behind tasks of others that it would otherwise precede.
-/
namespace ChatStory

namespace Session

open Play

/-- Nothing is on the timeline. -/
def AtRest (s : Session) : Prop := s.play.queue.slots = []

instance (s : Session) : Decidable s.AtRest :=
  inferInstanceAs (Decidable (s.play.queue.slots = []))

/-- A step of the player: an input, and then all that is on the timeline. -/
def step (s : Session) (now : Nat) (operation : Operation) : Session :=
  (s.perform now operation).perform now .flush

/-- The tasks that come up in a step. -/
def stepSlots (s : Session) (now : Nat) (operation : Operation) : List Slot :=
  (s.firings now operation).filterMap Moment.slot? ++ (s.perform now operation).flushed

/-- The session that is made again from what this one has saved, with all that is on the timeline. -/
def remade (s : Session) (now : Nat) : Session :=
  (start s.play.program s.options s.store now).perform now .flush

/-- Every thread tells the same, is in the same state, and offers the same choices. -/
structure SameStory (s t : Session) : Prop where
  gists : ∀ c, (s.play.progress.history c).map Message.gist =
    (t.play.progress.history c).map Message.gist
  threads : ∀ c, s.play.progress.thread? c = t.play.progress.thread? c
  choices : ∀ c, s.play.choices c = t.play.choices c

/-- What the session has saved can be read, and its variables are read back as they are. -/
structure Restorable (s : Session) : Prop where
  readable : s.store.refused.contains .read = false
  writable : s.store.refused.contains .write = false
  fits : s.play.progress.fitsWords = true
  values : ∃ q, s.play.progress.reread? = some q ∧ q.values = s.play.progress.values

/-- In a step, nothing makes the tasks of two sessions come up in different orders: in the first one no
contact has been put off to a time that is still to come; or the tasks that come up are all of one
contact; or they are seen to come up in the same order in both. -/
inductive KeepsOrder (s r : Session) (now : Nat) (operation : Operation) : Prop where
  | clock : (∀ c, s.play.queue.latest.getD c 0 ≤ now) → KeepsOrder s r now operation
  | alone (contact : String) :
    (∀ slot ∈ s.stepSlots now operation, slot.task.contact = contact) → KeepsOrder s r now operation
  | same : (s.stepSlots now operation).map (·.task) = (r.stepSlots now operation).map (·.task) →
    KeepsOrder s r now operation

/-- Two sessions on one story, of which the first one lives on, and the second one is made again before
every step. Each step comes to rest in both of them, and keeps the order in which tasks come up. -/
inductive SideBySide : Session → Session → Prop where
  | begun {program : Program} {options : Options} {store : Store} {s : Session} (now : Nat) :
    program.Compiled → restored? store = none →
      s = (start program options store now).perform now .flush → s.AtRest → SideBySide s s
  | stepped {s t : Session} {operation : Operation} (now : Nat) :
    SideBySide s t → operation.isInput = true → t.Restorable →
      KeepsOrder s (t.remade now) now operation → (s.step now operation).AtRest →
      ((t.remade now).step now operation).AtRest →
      SideBySide (s.step now operation) ((t.remade now).step now operation)

variable {s t r : Session} {program : Program} {clock : Option Nat} {now : Nat} {operation : Operation}

theorem flush_of_rest (rest : s.AtRest) (now : Nat) : s.perform now .flush = s := by
  unfold perform flush fireAll
  rw [fireUpTo_of_empty rest]
  rfl

/- What is flushed is fired, and perhaps noted. -/
theorem play_flush (s : Session) (now : Nat) : ∃ tasks,
    (s.perform now .flush).play = (fireUpTo fireLimit s.play).1.note tasks := by
  unfold perform flush fireAll
  dsimp only
  split
  · exact ⟨_, rfl⟩
  · exact ⟨_, rfl⟩

/- A step fires what comes of its input, one task after the other. -/
theorem play_step {start : Play} (acted : s.acted? now operation = some start) :
    (∃ tasks, (s.step now operation).play =
      (fireUpTo ((start.fireDue now).2 + fireLimit) start).1.note tasks) ∧
      s.stepSlots now operation = start.slotsUpTo ((start.fireDue now).2 + fireLimit) := by
  have noted : ∃ tasks, (s.perform now operation).play = (start.fireDue now).1.note tasks := by
    rcases play_perform_of_acted acted with same | same
    · exact ⟨_, same⟩
    · exact ⟨_, same⟩
  obtain ⟨tasks, performed⟩ := noted
  obtain ⟨after, flushed⟩ := play_flush (s.perform now operation) now
  obtain ⟨due, fired⟩ := fireDue_eq_upTo start now
  obtain ⟨whole, slots⟩ := fireUpTo_add start (start.fireDue now).2 fireLimit
  refine ⟨⟨after, ?_⟩, ?_⟩
  · rw [step, flushed, performed, fireUpTo_note, due, whole]
    rfl
  · rw [stepSlots, Session.flushed, performed, slotsUpTo_note, firings_of_acted acted, fired, slots,
      ← due]

/- Sessions that are abreast take the same step. -/
theorem abreast_acted (formed : program.WellFormed) (input : operation.isInput = true)
    (abreast : Abreast program clock none s.play r.play) (meet : Meet clock now now)
    (rests : s.AtRest) (rests' : r.AtRest)
    (ordered : clock = none → ∀ {start other : Play} {limit limit' : Nat},
      s.stepSlots now operation = start.slotsUpTo limit →
      r.stepSlots now operation = other.slotsUpTo limit' → InOrder limit limit' start other)
    (drained : (s.step now operation).AtRest) (drained' : (r.step now operation).AtRest) :
    Abreast program clock none (s.step now operation).play (r.step now operation).play := by
  have acts := parallel_acted (parallel_abreast formed clock) (fun _ _ => trivial) meet abreast input
  generalize first : s.acted? now operation = start at acts
  generalize second : r.acted? now operation = other at acts
  cases acts with
  | none =>
    have refused : s.perform now operation = s :=
      perform_refused input (by rw [answer_eq s now input, first]; rfl)
    have refused' : r.perform now operation = r :=
      perform_refused input (by rw [answer_eq r now input, second]; rfl)
    rw [step, step, refused, refused', flush_of_rest rests, flush_of_rest rests']
    exact abreast
  | some pair =>
    obtain ⟨⟨tasks, played⟩, slots⟩ := play_step first
    obtain ⟨⟨tasks', played'⟩, slots'⟩ := play_step second
    rw [AtRest, played] at drained
    rw [AtRest, played'] at drained'
    rw [played, played']
    exact (pair.drained formed (fun untimed => ordered untimed slots slots') drained drained').note
      tasks tasks'

theorem abreast_step (formed : program.WellFormed) (input : operation.isInput = true)
    (abreast : Abreast program none none s.play r.play) (rests : s.AtRest) (rests' : r.AtRest)
    (latest : ∀ c, r.play.queue.latest.getD c 0 = 0) (keeps : KeepsOrder s r now operation)
    (drained : (s.step now operation).AtRest) (drained' : (r.step now operation).AtRest) :
    Abreast program none none (s.step now operation).play (r.step now operation).play := by
  cases keeps with
  | clock passed =>
    have timed := abreast.timed rests passed fun c => by rw [latest c]; exact Nat.zero_le now
    have meet : Meet (some now) now now :=
      fun _ reads => ⟨rfl, Nat.le_of_eq (Option.some.inj reads).symm⟩
    exact (abreast_acted formed input timed meet rests rests' nofun drained drained').untimed
  | alone contact own =>
    refine abreast_acted formed input abreast nofun rests rests' (fun _ => ?_) drained drained'
    intro start other limit limit' slots _
    exact .inl ⟨contact, slots ▸ own⟩
  | same order =>
    refine abreast_acted formed input abreast nofun rests rests' (fun _ => ?_) drained drained'
    intro start other limit limit' slots slots'
    rw [slots, slots'] at order
    exact .inr order

/- The session that is made again starts without any times that tasks were put off to. -/
theorem play_remade (lives : t.Lives) (rests : t.AtRest) (restorable : t.Restorable) (now : Nat) :
    ∃ q rounds, t.play.progress.reread? = some q ∧ q.values = t.play.progress.values ∧
      (t.remade now).play = {
        program := t.play.program
        progress := { q with rounds := rounds, deliveries := [] }
        queue := ∅
        epoch := 0
        indicator := t.options.indicator
        events := #[] } ∧
      ∀ c, rounds.get? c = t.play.progress.refitRound? t.play.program c := by
  obtain ⟨q, read, values⟩ := restorable.values
  have saved := lives.arises.saved restorable.writable
  have restored : restored? t.store = some q :=
    (restored_of_saved saved restorable.readable restorable.fits).trans read
  obtain ⟨rounds, same, placed⟩ := resumed_of_reread lives.sound saved read t.options now
  have none : q.deliveries = [] := by
    have times := (times_of_reread saved read).1
    rw [show t.play.queue.slots = [] from rests] at times
    exact List.map_eq_nil_iff.1 times
  have started : (start t.play.program t.options t.store now).play = {
      program := t.play.program
      progress := { q with rounds := rounds, deliveries := [] }
      queue := ∅
      epoch := 0
      indicator := t.options.indicator
      events := #[] } := by
    rw [start_of_restored restored, play_settle, same, none, fireDue_of_none rfl]
    rfl
  have still : (start t.play.program t.options t.store now).AtRest := by
    rw [AtRest, started]
    rfl
  refine ⟨q, rounds, read, values, ?_, placed⟩
  rw [remade, flush_of_rest still]
  exact started

/- What is read back tells the same. -/
theorem gists_reread {p q : Progress} (read : p.reread? = some q) (c : String) :
    (q.history c).map Message.gist = (p.history c).map Message.gist := by
  refine map_of_mapM (fun m after read => ?_) (Progress.history_reread read c)
  rw [Message.reread_same read]
  rfl

/- At rest, the session that is made again is abreast with the one that it is made of. -/
theorem abreast_remade (lives : t.Lives) (rests : t.AtRest) (restorable : t.Restorable)
    (first : t.play.epoch = 0) (now : Nat) :
    Abreast t.play.program none none t.play (t.remade now).play := by
  obtain ⟨q, rounds, read, values, same, placed⟩ := play_remade lives rests restorable now
  obtain ⟨histories, deliveries, _, parts, _⟩ := Progress.reread_cases read
  have empty : t.play.queue.slots = [] := rests
  rw [same]
  refine ⟨⟨rfl, ?_, ?_⟩, by rw [parts], fun c => (gists_reread read c).symm, ?_⟩
  · unfold mind
    dsimp only
    rw [first, lives.arises.still, values, parts]
  · intro c _ active
    dsimp only
    rw [placed c, Progress.refitRound?, if_neg]
    rintro ⟨ended, _⟩
    rw [active] at ended
    cases ended
  · refine .of_tasks lives.sound.bounded Queue.bounded_empty fun c => ?_
    rw [Queue.tasksOf_eq_nil.2 empty c]
    rfl

/- The session that is made again lives on, with nothing on its timeline and nothing put off. -/
theorem remade_abreast (compiled : program.Compiled) (abreast : Abreast program none none s.play t.play)
    (rests : t.AtRest) (lives : t.Lives) (first : t.play.epoch = 0) (restorable : t.Restorable)
    (now : Nat) : Abreast program none none s.play (t.remade now).play ∧ (t.remade now).Lives ∧
      (t.remade now).play.epoch = 0 ∧ (t.remade now).AtRest ∧
      ∀ c, (t.remade now).play.queue.latest.getD c 0 = 0 := by
  have own : t.play.program = program :=
    (congrArg Mind.program abreast.mind).symm.trans abreast.program
  obtain ⟨q, rounds, _, _, same, _⟩ := play_remade lives rests restorable now
  refine ⟨abreast.trans (abreast_remade lives rests restorable first now), ?_, ?_, ?_, ?_⟩
  · have known : t.play.program.Compiled := by
      rw [own]
      exact compiled
    exact (lives.rebuilt restorable.writable restorable.fits known t.options now).perform now trivial
  · rw [same]
  · rw [AtRest, same]
    rfl
  · intro c
    rw [same]
    rfl

/- While two sessions stand side by side, both are at rest and abreast. -/
theorem SideBySide.abreast (beside : SideBySide s t) : ∃ program : Program, program.Compiled ∧
    s.AtRest ∧ t.AtRest ∧ t.Lives ∧ t.play.epoch = 0 ∧
      Abreast program none none s.play t.play := by
  induction beside with
  | @begun program options store s now compiled fresh same rests =>
    have lives : s.Lives := by
      rw [same]
      exact (Lives.start options now compiled fresh).perform now trivial
    have setting : s.play.setting = ⟨program, 0, options.indicator⟩ := by
      rw [same, setting_perform _ _ rfl, setting_start]
    have own : s.play.program = program := congrArg Setting.program setting
    refine ⟨program, compiled, rests, rests, lives, congrArg Setting.epoch setting, ?_⟩
    rw [← own]
    exact .refl lives.sound.bounded
  | @stepped s t operation now _ input restorable keeps drained drained' ih =>
    obtain ⟨program, compiled, rests, rests', lives, first, abreast⟩ := ih
    obtain ⟨again, relives, epoch, restart, latest⟩ := remade_abreast compiled abreast rests' lives first
      restorable now
    refine ⟨program, compiled, drained, drained', ?_, ?_, ?_⟩
    · exact (relives.perform now (Operation.compiled_of_isInput input)).perform now trivial
    · have performed := setting_perform (t.remade now) now (Operation.ongoing_of_isInput input)
      have flushed : ((t.remade now).step now operation).play.setting =
          ((t.remade now).perform now operation).play.setting :=
        setting_perform ((t.remade now).perform now operation) now rfl
      exact (congrArg Setting.epoch (flushed.trans performed)).trans epoch
    · exact abreast_step compiled.wellFormed input again rests restart latest keeps drained drained'

/- A session that lives on, and one that is made again from its document before every step, tell one story,
   in whatever way the clock reads: the same texts of the same kinds by the same speakers with the same
   media in every thread, the same states of all threads, and the same choices. This is so as long as the
   documents give back the variables, and no step makes tasks of different contacts come up in different
   orders, as it may where flushing has put a contact off. -/
theorem SideBySide.same_story (beside : SideBySide s t) :
    SameStory s t ∧ ∀ now, t.Restorable → SameStory s (t.remade now) := by
  obtain ⟨program, compiled, rests, rests', lives, first, abreast⟩ := beside.abreast
  have shown : ∀ {u : Session}, Abreast program none none s.play u.play → SameStory s u := by
    intro u level
    refine ⟨level.gists, fun c => ?_, fun c => ?_⟩
    · exact (parallel_abreast compiled.wellFormed none).thread? level c
    · exact (parallel_abreast compiled.wellFormed none).choices level c
  refine ⟨shown abreast, fun now restorable => shown ?_⟩
  exact abreast.trans (abreast_remade lives rests' restorable first now)

/-- What is asked of a session for it to be made again. -/
def restorable (s : Session) : Bool :=
  !s.store.refused.contains .read && !s.store.refused.contains .write &&
    s.play.progress.fitsWords &&
    s.play.progress.reread?.any fun q => decide (q.values = s.play.progress.values)

theorem restorable_eq_true : s.restorable = true ↔ s.Restorable := by
  simp only [restorable, Bool.and_eq_true, Bool.not_eq_true', Option.any_eq_true, decide_eq_true_eq,
    and_assoc]
  constructor
  · rintro ⟨readable, writable, fits, values⟩
    exact ⟨readable, writable, fits, values⟩
  · rintro ⟨readable, writable, fits, values⟩
    exact ⟨readable, writable, fits, values⟩

/-- The session that is made again, if nothing is due in it. -/
def remadeWithin (s : Session) (now : Nat) : Option Session := do
  let q ← s.play.progress.reread?
  let t ← resumeWithin 0 s.play.program s.options s.store q now
  return t.flush.1

theorem remade_of_remadeWithin (lives : s.Lives) (restorable : s.Restorable)
    (within : s.remadeWithin now = some t) : s.remade now = t := by
  obtain ⟨q, read, rest⟩ := Option.bind_eq_some_iff.1 within
  obtain ⟨u, resumed, same⟩ := Option.bind_eq_some_iff.1 rest
  have saved := lives.arises.saved restorable.writable
  have restored := (restored_of_saved saved restorable.readable restorable.fits).trans read
  rw [remade, start_of_resumeWithin restored resumed]
  exact Option.some.inj same

/-- A step, if nothing is due in it. -/
def stepWithin (s : Session) (now : Nat) (operation : Operation) : Option Session :=
  (s.performWithin 0 now operation).map fun t => t.flush.1

theorem step_of_stepWithin (within : s.stepWithin now operation = some t) :
    s.step now operation = t := by
  obtain ⟨u, performed, same⟩ := Option.map_eq_some_iff.1 within
  rw [step, perform_of_performWithin performed]
  exact same

/-- The next step of two sessions, the second of which is made again before it, if both come to rest. -/
def stepBeside (now : Nat) (operation : Operation) (pair : Session × Session) :
    Option (Session × Session) := do
  let again ← pair.2.remadeWithin now
  let first ← pair.1.stepWithin now operation
  let second ← again.stepWithin now operation
  if pair.2.restorable ∧ first.AtRest ∧ second.AtRest then
    some (first, second)
  else none

/- What is computed of the next step is what there is, as long as the sessions stand side by side. -/
theorem of_stepBeside (beside : SideBySide s t) {pair : Session × Session}
    (within : stepBeside now operation (s, t) = some pair) : t.Restorable ∧
      s.step now operation = pair.1 ∧ (t.remade now).step now operation = pair.2 ∧
      (s.step now operation).AtRest ∧ ((t.remade now).step now operation).AtRest := by
  obtain ⟨again, made, rest⟩ := Option.bind_eq_some_iff.1 within
  obtain ⟨first, stepped, rest⟩ := Option.bind_eq_some_iff.1 rest
  obtain ⟨second, restepped, rest⟩ := Option.bind_eq_some_iff.1 rest
  split at rest
  · rename_i checked
    obtain ⟨ready, rests, rests'⟩ := checked
    obtain rfl := Option.some.inj rest
    obtain ⟨_, _, _, _, lives, _⟩ := beside.abreast
    have restorable := restorable_eq_true.1 ready
    have same := remade_of_remadeWithin lives restorable made
    rw [same, step_of_stepWithin stepped, step_of_stepWithin restepped]
    exact ⟨restorable, rfl, rfl, rests, rests'⟩
  · cases rest

/-- The first contact still has something to do when all that is on the timeline is flushed. Its choice
lets the second contact write in its thread, as does the variable that is set by it. -/
def crossing : String :=
  ":: A-Round-1 [initial_contact]\n(set: $x to false)Hi\n[Action: vibrate: 1, delay: 9999]\n" ++
  "[[Go|A-Round-2]]\n\n:: A-Round-2 [chat]\n(set: $x to true)Reply.\n\n" ++
  ":: B-Round-1.0 [chat]\n(if: $x)Hey.(endif)\n" ++
  "[Action: delayed_message: text: Psst, contact: A, delay: 1]\n"

/-- The session that begins a story at 1000, with all that is on the timeline. -/
def opened (program : Program) : Session := (start program {} .empty 1000).perform 1000 .flush

theorem opened_of_any {source : String} {shows : Session → Bool}
    (within : (playedWithin 0 source 1000 []).any (fun s => shows s.flush.1) = true) :
    ∃ program : Program, (compile source).result = .ok program ∧ shows (opened program) = true := by
  obtain ⟨program, compiled, shown⟩ := played_of_any within
  exact ⟨program, compiled, shown⟩

/-- The choice is made while the first contact is still put off. -/
def crosses (s : Session) : Bool :=
  (stepBeside 1000 (.choose "A" 0) (s, s)).any fun pair =>
    pair.1.textsOf "A" = ["Hi", "Go", "Psst", "Reply."] &&
      pair.2.textsOf "A" = ["Hi", "Go", "Reply.", "Psst"]

/-- The variable is set while the first contact is still put off, and the choice is made later. -/
def waitsToChoose (s : Session) : Bool :=
  let start := s.play.assign "x" (.bool true) 1000
  decide (start.queue.due? 1000 = none) &&
    (start.slotsUpTo fireLimit).all (fun slot => decide (slot.task.contact = "B")) &&
    (stepBeside 1000 (.setVariable "x" (.bool true)) (s, s)).any fun pair =>
      pair.1.play.queue.latest.values.all (· ≤ 20000) &&
        (stepBeside 20000 (.choose "A" 0) pair).any fun last =>
          last.1.textsOf "A" = ["Hi", "Psst", "Go", "Reply."]

/-- What follows from a session at rest, if the choice is made at once and if it is made later. -/
def bothWays (s : Session) : Bool :=
  decide s.AtRest && (s.crosses && s.waitsToChoose)

theorem played_crossing :
    (playedWithin 0 crossing 1000 []).any (fun s => bothWays s.flush.1) = true := by
  decide +kernel

theorem beside_opened {program : Program} (compiled : (compile crossing).result = .ok program)
    (rests : (opened program).AtRest) : SideBySide (opened program) (opened program) :=
  .begun 1000 ⟨crossing, compiled⟩ rfl rfl rests

/- The variable is set and the tasks of the second contact come up, and later the choice is made. -/
theorem same_story_crossing : ∃ program : Program, (compile crossing).result = .ok program ∧
    ∃ s t : Session,
      s = ((opened program).step 1000 (.setVariable "x" (.bool true))).step 20000 (.choose "A" 0) ∧
      t = ((((opened program).remade 1000).step 1000 (.setVariable "x" (.bool true))).remade
        20000).step 20000 (.choose "A" 0) ∧
      SideBySide s t ∧ s.textsOf "A" = ["Hi", "Psst", "Go", "Reply."] ∧
      SameStory s t ∧ ∀ now, t.Restorable → SameStory s (t.remade now) := by
  obtain ⟨program, compiled, shown⟩ := opened_of_any played_crossing
  obtain ⟨still, runs⟩ := Bool.and_eq_true_iff.1 shown
  have begun := beside_opened compiled (of_decide_eq_true still)
  have waits := (Bool.and_eq_true_iff.1 runs).2
  simp only [waitsToChoose, Bool.and_eq_true, Option.any_eq_true, List.all_eq_true,
    decide_eq_true_eq] at waits
  obtain ⟨⟨undue, own⟩, pair, within, latest, last, later, texts⟩ := waits
  obtain ⟨ready, first, second, idle, idle'⟩ := of_stepBeside begun within
  have acted : (opened program).acted? 1000 (.setVariable "x" (.bool true)) =
      some ((opened program).play.assign "x" (.bool true) 1000) := rfl
  have alone : KeepsOrder (opened program) ((opened program).remade 1000) 1000
      (.setVariable "x" (.bool true)) := by
    refine .alone "B" ?_
    rw [(play_step acted).2, fireDue_of_none undue, Nat.zero_add]
    exact own
  have stepped := SideBySide.stepped 1000 begun rfl ready alone idle idle'
  rw [first, second] at stepped
  obtain ⟨ready', first', second', idle, idle'⟩ := of_stepBeside stepped later
  have passed : KeepsOrder pair.1 (pair.2.remade 20000) 20000 (.choose "A" 0) :=
    .clock (Table.getD_le latest)
  have beside := SideBySide.stepped 20000 stepped rfl ready' passed idle idle'
  refine ⟨program, compiled, _, _, ?_, ?_, beside, ?_, beside.same_story⟩
  · rw [first]
  · rw [second]
  · rw [first']
    exact texts

/- The choice is made at once: where the session lives on, the reply of the first contact comes up behind
   what the second one writes, and before it where the session is made again. -/
theorem order_crossed : ∃ program : Program, (compile crossing).result = .ok program ∧
    SideBySide (opened program) (opened program) ∧ (opened program).Restorable ∧
      ∃ s t : Session, s = (opened program).step 1000 (.choose "A" 0) ∧
        t = ((opened program).remade 1000).step 1000 (.choose "A" 0) ∧ s.AtRest ∧ t.AtRest ∧
        s.textsOf "A" = ["Hi", "Go", "Psst", "Reply."] ∧
        t.textsOf "A" = ["Hi", "Go", "Reply.", "Psst"] ∧ ¬SameStory s t := by
  obtain ⟨program, compiled, shown⟩ := opened_of_any played_crossing
  obtain ⟨still, runs⟩ := Bool.and_eq_true_iff.1 shown
  have begun := beside_opened compiled (of_decide_eq_true still)
  obtain ⟨pair, within, texts⟩ := (Option.any_eq_true _ _).1 (Bool.and_eq_true_iff.1 runs).1
  obtain ⟨living, again⟩ := Bool.and_eq_true_iff.1 texts
  have psst : pair.1.textsOf "A" = ["Hi", "Go", "Psst", "Reply."] := of_decide_eq_true living
  have reply : pair.2.textsOf "A" = ["Hi", "Go", "Reply.", "Psst"] := of_decide_eq_true again
  obtain ⟨ready, first, second, idle, idle'⟩ := of_stepBeside begun within
  refine ⟨program, compiled, begun, ready, _, _, rfl, rfl, idle, idle', ?_, ?_, ?_⟩
  · rw [first]
    exact psst
  · rw [second]
    exact reply
  · rw [first, second]
    intro same
    have gists := congrArg (List.map Prod.fst) (same.gists "A")
    rw [List.map_map, List.map_map] at gists
    have texts : pair.1.textsOf "A" = pair.2.textsOf "A" := gists
    rw [psst, reply] at texts
    exact absurd texts (by decide)

end Session
end ChatStory
