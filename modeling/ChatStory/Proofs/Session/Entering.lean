import ChatStory.Proofs.Session.Locking

/-!
Who is entered. A thread that is open stays in its round while others are entered, and whoever is
entered was not open before and is open then. Nothing is said to all others, and nothing is put on the
timeline for them.
-/
namespace ChatStory

namespace Play

open Stirs (only)

/-- The thread is active, and its contact is unlocked. -/
def Open (play : Play) (c : String) : Prop :=
  play.progress.thread? c = some .active ∧ play.progress.unlocked.has c = true

/-- The end of the thread has been told in it. -/
def EndTold (play : Play) (c : String) : Prop := ∃ m ∈ play.progress.history c, m.kind = .endThread

/-- The contact stays where it is. It may have been told something, and something may have been laid out
for it. -/
structure Stays (told laid : Prop) (c : String) (a b : Play) : Prop where
  thread : b.progress.thread? c = a.progress.thread? c
  unlocked : b.progress.unlocked.has c = a.progress.unlocked.has c
  round : b.progress.rounds.get? c = a.progress.rounds.get? c
  history : ¬told → b.progress.history c = a.progress.history c
  lane : ¬laid → b.queue.lane c = a.queue.lane c
  latest : ¬laid → b.queue.latest.getD c 0 = a.queue.latest.getD c 0

/-- Whoever does not stay where he is has been entered: he was not open before, and is open now. -/
structure Enters (told laid : String → Prop) (a b : Play) : Prop where
  program : b.program = a.program
  grown : ∀ c, a.progress.history c <+: b.progress.history c
  each : ∀ c, Stays (told c) (laid c) c a b ∨ (¬a.Open c ∧ b.Open c)

variable {told laid : String → Prop} {a b c : Play}

theorem EndTold.grown {contact : String} (ended : a.EndTold contact)
    (grown : a.progress.history contact <+: b.progress.history contact) : b.EndTold contact := by
  obtain ⟨m, member, kind⟩ := ended
  exact ⟨m, grown.subset member, kind⟩

namespace Stays

variable {contact : String} {heard lies : Prop}

theorem trans (first : Stays heard lies contact a b) (second : Stays heard lies contact b c) :
    Stays heard lies contact a c :=
  ⟨second.thread.trans first.thread, second.unlocked.trans first.unlocked,
    second.round.trans first.round, fun free => (second.history free).trans (first.history free),
    fun free => (second.lane free).trans (first.lane free),
    fun free => (second.latest free).trans (first.latest free)⟩

theorem open_iff (stays : Stays heard lies contact a b) : b.Open contact ↔ a.Open contact := by
  unfold Open
  rw [stays.thread, stays.unlocked]

end Stays

namespace Enters

theorem of_stays (program : b.program = a.program)
    (grown : ∀ c, a.progress.history c <+: b.progress.history c)
    (each : ∀ c, Stays (told c) (laid c) c a b) : Enters told laid a b :=
  ⟨program, grown, fun c => .inl (each c)⟩

theorem of_same (program : b.program = a.program) (queue : b.queue = a.queue)
    (histories : b.progress.histories = a.progress.histories)
    (threads : b.progress.threads = a.progress.threads)
    (unlocked : b.progress.unlocked = a.progress.unlocked)
    (rounds : b.progress.rounds = a.progress.rounds) : Enters told laid a b := by
  have history : ∀ c, b.progress.history c = a.progress.history c := by
    intro c
    rw [Progress.history, histories]
    rfl
  refine of_stays program (fun c => history c ▸ List.prefix_rfl) fun c => ?_
  refine ⟨?_, by rw [unlocked], by rw [rounds], fun _ => history c, fun _ => by rw [queue],
    fun _ => by rw [queue]⟩
  rw [Progress.thread?, Progress.thread?, threads]

theorem refl (told laid : String → Prop) (a : Play) : Enters told laid a a :=
  of_same rfl rfl rfl rfl rfl rfl

theorem announce (told laid : String → Prop) (a : Play) (event : Event) :
    Enters told laid a (a.announce event) :=
  of_same rfl rfl rfl rfl rfl rfl

theorem trans (first : Enters told laid a b) (second : Enters told laid b c) :
    Enters told laid a c := by
  refine ⟨second.program.trans first.program, fun d => (first.grown d).trans (second.grown d), ?_⟩
  intro d
  rcases first.each d with before | ⟨closed, opened⟩
  · rcases second.each d with after | ⟨closed, opened⟩
    · exact .inl (before.trans after)
    · exact .inr ⟨fun was => closed (before.open_iff.2 was), opened⟩
  · rcases second.each d with after | ⟨_, still⟩
    · exact .inr ⟨closed, after.open_iff.2 opened⟩
    · exact .inr ⟨closed, still⟩

theorem widen {heard lies : String → Prop} (enters : Enters told laid a b)
    (more : ∀ c, told c → heard c) (further : ∀ c, laid c → lies c) : Enters heard lies a b := by
  refine ⟨enters.program, enters.grown, fun d => (enters.each d).imp_left fun stays => ?_⟩
  exact ⟨stays.thread, stays.unlocked, stays.round, fun free => stays.history fun t => free (more d t),
    fun free => stays.lane fun l => free (further d l),
    fun free => stays.latest fun l => free (further d l)⟩

theorem spread (enters : Enters nobody nobody a b) : Enters told laid a b :=
  enters.widen (fun _ => False.elim) fun _ => False.elim

/- What is open stays open. -/
theorem opened (enters : Enters told laid a b) {contact : String} (opened : a.Open contact) :
    b.Open contact := by
  rcases enters.each contact with stays | ⟨_, still⟩
  · exact stays.open_iff.2 opened
  · exact still

/- Whoever has been opened may be spoken to. -/
theorem settle {contact : String} (enters : Enters (only contact) (only contact) a b)
    (closed : ¬a.Open contact) (opened : b.Open contact) : Enters nobody nobody a b := by
  refine ⟨enters.program, enters.grown, fun d => ?_⟩
  by_cases own : d = contact
  · subst own
    exact .inr ⟨closed, opened⟩
  · refine (enters.each d).imp_left fun stays => ?_
    exact ⟨stays.thread, stays.unlocked, stays.round, fun _ => stays.history own,
      fun _ => stays.lane own, fun _ => stays.latest own⟩

theorem foldl {α : Type} {step : Play → α → Play} {items : List α}
    (each : ∀ play, ∀ item ∈ items, Enters told laid play (step play item)) :
    Enters told laid a (items.foldl step a) := by
  apply List.foldlRecOn items step (refl told laid a)
  intro play enters item member
  exact enters.trans (each play item member)

theorem say (laid : String → Prop) (a : Play) (contact : String) (saying : Saying) (time : Nat) :
    Enters (only contact) laid a (a.say contact saying time) := by
  have history := Speaks.history_say a contact saying time
  refine of_stays rfl ?_ fun c => ⟨rfl, rfl, rfl, fun other => ?_, fun _ => rfl, fun _ => rfl⟩
  · intro c
    rw [history]
    split
    · rename_i own
      rw [own]
      exact List.prefix_append _ _
    · exact List.prefix_rfl
  · rw [history, if_neg other]

theorem schedule (told : String → Prop) (a : Play) (contact : String) (time : Nat)
    (delivery : Delivery) : Enters told (only contact) a (a.schedule contact time delivery) := by
  refine of_stays rfl (fun _ => List.prefix_rfl) fun c => ⟨rfl, rfl, rfl, fun _ => rfl, ?_, ?_⟩
  · intro other
    exact Queue.lane_schedule_other _ _ fun same => other same.symm
  · intro other
    exact (Queue.latest_schedule a.queue time ⟨contact, a.epoch, delivery⟩ c).trans (if_neg other)

end Enters

theorem history_putThread (a : Play) (contact : String) (thread : ThreadState) (c : String) :
    (a.putThread contact thread).progress.history c = a.progress.history c ∧
      (a.putThread contact thread).progress.rounds = a.progress.rounds ∧
      (a.putThread contact thread).queue = a.queue := by
  rw [putThread_eq]
  exact ⟨rfl, rfl, rfl⟩

theorem history_setUnlocked (a : Play) (contact c : String) :
    (a.setUnlocked contact).progress.history c = a.progress.history c ∧
      (a.setUnlocked contact).progress.rounds = a.progress.rounds ∧
      (a.setUnlocked contact).queue = a.queue := by
  rw [setUnlocked_eq]
  exact ⟨rfl, rfl, rfl⟩

/- A contact that was not open is opened. -/
theorem enters_of_opened {contact : String} (closed : ¬a.Open contact)
    (program : b.program = a.program) (queue : b.queue = a.queue)
    (histories : ∀ c, b.progress.history c = a.progress.history c)
    (rounds : b.progress.rounds = a.progress.rounds)
    (threads : ∀ c, b.progress.thread? c = if c = contact then some .active else a.progress.thread? c)
    (unlocked : ∀ c, b.progress.unlocked.has c =
      if c = contact then true else a.progress.unlocked.has c) :
    Enters nobody nobody a b ∧ b.Open contact := by
  have opened : b.Open contact := ⟨by rw [threads, if_pos rfl], by rw [unlocked, if_pos rfl]⟩
  refine ⟨⟨program, fun c => histories c ▸ List.prefix_rfl, fun c => ?_⟩, opened⟩
  by_cases own : c = contact
  · rw [own]
    exact .inr ⟨closed, opened⟩
  · refine .inl ⟨by rw [threads, if_neg own], by rw [unlocked, if_neg own], by rw [rounds],
      fun _ => histories c, fun _ => by rw [queue], fun _ => by rw [queue]⟩

theorem not_open_of_closed {contact : String} (closed : a.progress.isClosed contact = true) :
    ¬a.Open contact := by
  rintro ⟨active, _⟩
  rw [Progress.isClosed, active] at closed
  cases closed

theorem not_open_of_can {contact : String} (can : a.canUnlock contact = true) : ¬a.Open contact := by
  rintro ⟨active, unlocked⟩
  rw [canUnlock_of_active active unlocked] at can
  cases can

/- A contact that has just been opened may be put into a round. -/
theorem Enters.place {contact : String} (enters : Enters told laid a b) (closed : ¬a.Open contact)
    (opened : b.Open contact) (key : RoundKey) : Enters told laid a (b.placed contact key) := by
  refine ⟨enters.program, enters.grown, fun d => ?_⟩
  by_cases own : d = contact
  · rw [own]
    exact .inr ⟨closed, opened⟩
  · refine (enters.each d).imp_left fun stays => ⟨stays.thread, stays.unlocked, ?_, stays.history,
      stays.lane, stays.latest⟩
    change (b.progress.rounds.insert contact key).get? d = _
    rw [Table.get?_insert, if_neg own]
    exact stays.round

/-- A reopening enters nobody who is open. -/
def Entering (again : Reopening) : Prop :=
  ∀ play contact key time, Enters nobody nobody play (again play contact key time)

section Cascade

variable {again : Reopening} (entering : Entering again)

include entering

theorem enters_assignWith (name : String) (value : Value) (time : Nat) :
    Enters nobody nobody a (a.assignWith again name value time) := by
  unfold assignWith
  dsimp only
  split
  · exact .refl _ _ a
  · let valued := a.revise fun p => { p with values := a.progress.values.insert name value }
    have told : Enters nobody nobody a (valued.announce (.variableChanged name value)) :=
      .of_same rfl rfl rfl rfl rfl rfl
    apply told.trans
    exact Enters.foldl fun play entry _ => entering play entry.1 entry.2 time

theorem enters_effectWith {speaker : String} {time : Nat} {effect : Effect}
    (silent : effect.isBubble = false) (done : a.effectWith? again speaker time effect = some b) :
    Enters nobody nobody a b := by
  cases effect with
  | setVariable name value =>
    cases done
    exact enters_assignWith entering name value time
  | delayedMessage | sendPhoto | sendVideo | dropPin | typingIndicator => cases silent
  | unlockContact | setContactStatus | openThread =>
    simp only [effectWith?] at done
    split at done
    · cases done
      exact .of_same rfl rfl rfl rfl rfl rfl
    · cases done
  | _ =>
    cases done
    exact .of_same rfl rfl rfl rfl rfl rfl

theorem enters_runWith (speaker : String) {action : Action} (silent : action.effect.isBubble = false)
    (time : Nat) : Enters nobody nobody a (a.runWith again speaker action time) := by
  unfold runWith
  split
  · rename_i after done
    have effect := enters_effectWith entering silent done
    split
    · exact effect
    · exact effect.trans (.announce _ _ _ _)
  · exact .refl _ _ a

theorem enters_planWith (speaker : String) (time : Nat) (actions : List Action) :
    Enters nobody nobody a (a.planWith again speaker time actions).1 := by
  induction actions generalizing a with
  | nil => exact .refl _ _ a
  | cons action rest ih =>
    simp only [planWith]
    split
    · rename_i held
      have silent : action.effect.isBubble = false := by
        rw [Bool.eq_false_iff]
        intro bubble
        rw [Effect.not_heldBack_of_bubble bubble] at held
        cases held
      exact (enters_runWith entering speaker silent time).trans ih
    · split
      · exact ih
      · rename_i now
        simp only [Bool.or_eq_true, not_or] at now
        exact (enters_runWith entering speaker (Bool.eq_false_iff.2 now.1) time).trans ih

omit entering

theorem enters_reply (a : Play) (speaker text : String) (time : Nat) (tempo : Tempo) :
    Enters (only speaker) (only speaker) a (a.reply speaker text time tempo).1 := by
  cases tempo with
  | immediate =>
    simp only [reply]
    split
    · exact .refl _ _ a
    · exact .say _ a speaker _ time
  | typed =>
    have typing : Enters (only speaker) (only speaker) a (if 0 < a.progress.typingDelay then
        a.schedule speaker (time + a.progress.typingDelay) .typing else a) := by
      split
      · exact .schedule _ a speaker _ _
      · exact .refl _ _ a
    simp only [reply]
    split
    · exact typing
    · exact typing.trans (.schedule _ _ speaker _ _)

theorem enters_schedulePayloads (a : Play) (speaker : String) (replyTime last : Nat)
    (payloads : List Action) : Enters (only speaker) (only speaker) a
      (a.schedulePayloads speaker replyTime last payloads).1 := by
  induction payloads generalizing a last with
  | nil => exact .refl _ _ a
  | cons action rest ih =>
    have first : Enters (only speaker) (only speaker) a
        (a.schedule speaker (replyTime + action.delay) (.payload action)) := .schedule _ a speaker _ _
    exact first.trans (ih _ _)

theorem enters_layOut (a : Play) (speaker text : String) (plan : Plan) (time : Nat) (tempo : Tempo) :
    Enters (only speaker) (only speaker) a (a.layOut speaker text plan time tempo) := by
  have replied := enters_reply a speaker text time tempo
  unfold layOut
  dsimp only
  generalize a.reply speaker text time tempo = answer at replied
  have laid := replied.trans
    (enters_schedulePayloads answer.1 speaker answer.2 answer.2 plan.payloads)
  split
  · exact laid.trans (.schedule _ _ speaker _ _)
  · exact laid

include entering

theorem enters_prepared (a : Play) (speaker : String) (key : RoundKey) (round : Round) (time : Nat)
    (leading : Option Action) : Enters nobody nobody (a.placed speaker key)
      (a.prepared again speaker key round time leading).1 := by
  have set : Enters nobody nobody (a.placed speaker key) ((a.evaluation round).assignments.foldl
      (fun play (a : Assignment) => play.assignWith again a.name a.value time)
      (a.placed speaker key)) :=
    .foldl fun play assignment _ => enters_assignWith entering assignment.name assignment.value time
  exact set.trans (enters_planWith entering speaker time _)

/- Once a contact has been put into a round, the round enters only others. -/
theorem enters_enterWith {speaker : String} {key : RoundKey} {round : Round}
    (found : a.program.round? speaker key = some round) (time : Nat) (tempo : Tempo)
    (leading : Option Action) : Enters (only speaker) (only speaker) (a.placed speaker key)
      (a.enterWith again speaker key time tempo leading) := by
  rw [enterWith_eq again found]
  exact (enters_prepared entering a speaker key round time leading).spread.trans
    (enters_layOut _ _ _ _ _ _)

/- A contact that has been opened is entered. -/
theorem enters_of_entered {speaker : String} (closed : ¬a.Open speaker)
    (first : Enters nobody nobody a b) (opened : b.Open speaker) (key : RoundKey) (time : Nat)
    (tempo : Tempo) (leading : Option Action) :
    Enters nobody nobody a (b.enterWith again speaker key time tempo leading) := by
  cases found : b.program.round? speaker key with
  | none =>
    unfold enterWith
    rw [found]
    exact first
  | some round =>
    have entered := enters_enterWith entering found time tempo leading
    exact ((first.place closed opened key).spread.trans entered).settle closed
      (entered.opened opened)

end Cascade

/- By induction on how deep reopenings go. -/
theorem entering_reopen (depth : Nat) : Entering (reopen depth) := by
  induction depth with
  | zero => exact fun play _ _ _ => .refl _ _ play
  | succ depth ih =>
    intro play contact key time
    unfold reopen
    split
    · rename_i closed
      let freed := play.revise fun p => { p with endings := p.endings.remove contact }
      have put := fun c => history_putThread freed contact .active c
      have shown := fun c => history_setUnlocked (freed.putThread contact .active) contact c
      have inactive := not_open_of_closed closed
      obtain ⟨enters, opened⟩ : Enters nobody nobody play
            ((freed.putThread contact .active).setUnlocked contact) ∧
          ((freed.putThread contact .active).setUnlocked contact).Open contact := by
        apply enters_of_opened inactive
        · rw [(program_setUnlocked _ _).1, (program_putThread _ _ _).1]
          rfl
        · rw [(shown contact).2.2, (put contact).2.2]
          rfl
        · intro c
          rw [(shown c).1, (put c).1]
          rfl
        · rw [(shown contact).2.1, (put contact).2.1]
          rfl
        · intro c
          rw [Progress.thread?, (program_setUnlocked _ _).2.2]
          exact thread?_putThread_of freed contact .active c
        · intro c
          rw [unlocked_setUnlocked, unlocked_putThread]
          rfl
      exact enters_of_entered ih inactive enters opened key time .typed none
    · exact .refl _ _ play

theorem enters_enter (a : Play) {contact : String} {key : RoundKey} {round : Round}
    (found : a.program.round? contact key = some round) (time : Nat) (tempo : Tempo)
    (leading : Option Action) : Enters (only contact) (only contact) (a.placed contact key)
      (a.enter contact key time tempo leading) :=
  enters_enterWith (entering_reopen a.closedThreads) found time tempo leading

theorem enters_assign (a : Play) (name : String) (value : Value) (time : Nat) :
    Enters nobody nobody a (a.assign name value time) :=
  enters_assignWith (entering_reopen a.closedThreads) name value time

/- An unlock is told to the one who asked for it. -/
theorem enters_unlock (a : Play) (contact target : String) (time : Nat) :
    Enters (only contact) nobody a (a.unlock contact target time) := by
  unfold unlock
  split
  · exact .refl _ _ a
  · rename_i entry found
    split
    · exact .refl _ _ a
    · rename_i free
      have can : a.canUnlock target = true := by
        rw [canUnlock, Bool.eq_false_iff.2 free]
        rfl
      have said : Enters (only contact) nobody a (a.say contact (.ofUnlock target) time) :=
        .say _ a contact _ time
      have closed : ¬(a.say contact (.ofUnlock target) time).Open target := not_open_of_can can
      dsimp only
      generalize a.say contact (.ofUnlock target) time = before at said closed
      have shown := fun c => history_setUnlocked before target c
      have put := fun c => history_putThread (before.setUnlocked target) target .active c
      obtain ⟨enters, opened⟩ : Enters nobody nobody before
            ((before.setUnlocked target).putThread target .active) ∧
          ((before.setUnlocked target).putThread target .active).Open target := by
        apply enters_of_opened closed
        · rw [(program_putThread _ _ _).1, (program_setUnlocked _ _).1]
        · rw [(put target).2.2, (shown target).2.2]
        · intro c
          rw [(put c).1, (shown c).1]
        · rw [(put target).2.1, (shown target).2.1]
        · intro c
          rw [thread?_putThread_of, Progress.thread?, (program_setUnlocked _ _).2.2]
          rfl
        · intro c
          rw [unlocked_putThread, unlocked_setUnlocked]
      have told := enters.trans (.announce _ _ _ (.actionExecuted contact
        { effect := .unlockContact target }))
      split
      · exact said.trans (enters_of_entered (entering_reopen _) closed told opened _ time .immediate
          none).spread
      · exact said.trans told.spread

theorem enters_unlockHeld (a : Play) (contact : String) (time : Nat) :
    Enters (only contact) nobody a (a.unlockHeld contact time) := by
  have released : Enters (only contact) nobody a
      (a.revise fun p => { p with unlocks := p.unlocks.erase contact }) :=
    .of_same rfl rfl rfl rfl rfl rfl
  exact released.trans (.foldl fun play target _ => enters_unlock play contact target time)

/-- The end of a thread is told in it, unless it has ended before. -/
structure Ends (contact : String) (a b : Play) : Prop extends Closes contact a b where
  rounds : b.progress.rounds = a.progress.rounds
  queue : b.queue = a.queue
  grown : ∀ c, a.progress.history c <+: b.progress.history c
  history : ∀ c, c ≠ contact → b.progress.history c = a.progress.history c
  told : ¬a.Ended contact → b.EndTold contact

theorem ends_finishThread (a : Play) (contact : String) (time : Nat) :
    Ends contact a (a.finishThread contact time) := by
  refine { closes_finishThread a contact time with
    rounds := ?_, queue := ?_, grown := ?_, history := ?_, told := ?_ }
  all_goals
    unfold finishThread
    split
  · rfl
  · exact (history_putThread _ _ _ contact).2.1
  · rfl
  · exact (history_putThread _ _ _ contact).2.2
  · exact fun _ => List.prefix_rfl
  · intro c
    rw [(history_putThread _ _ _ c).1]
    exact (Enters.say nobody a contact .ofEnd time).grown c
  · exact fun _ _ => rfl
  · intro c other
    rw [(history_putThread _ _ _ c).1, Speaks.history_say, if_neg other]
  · rename_i ended
    exact fun opened => absurd ended opened
  · intro _
    refine ⟨Saying.ofEnd.message a contact time, ?_, rfl⟩
    rw [(history_putThread _ _ _ contact).1, Speaks.history_say, if_pos rfl]
    exact List.mem_append_right _ List.mem_cons_self

theorem progress_endPending (a : Play) {contact : String} (time : Nat)
    (asked : a.progress.endings.has contact = true) :
    (a.endPending contact time).progress = ((a.revise fun p => { p with
        endings := p.endings.remove contact }).finishThread contact time).progress ∧
      (a.endPending contact time).queue = ((a.revise fun p => { p with
        endings := p.endings.remove contact }).finishThread contact time).queue := by
  unfold endPending
  rw [if_pos asked]
  dsimp only
  split <;> exact ⟨rfl, rfl⟩

theorem ends_endPending (a : Play) {contact : String} (time : Nat)
    (asked : a.progress.endings.has contact = true) : Ends contact a (a.endPending contact time) := by
  obtain ⟨progress, queue⟩ := progress_endPending a time asked
  have ends := ends_finishThread (a.revise fun p => { p with endings := p.endings.remove contact })
    contact time
  refine { closes_endPending a time asked with
    rounds := ?_, queue := queue.trans ends.queue, grown := ?_, history := ?_, told := ?_ }
  · rw [progress]
    exact ends.rounds
  · rw [progress]
    exact ends.grown
  · rw [progress]
    exact ends.history
  · rw [EndTold, progress]
    exact ends.told

end Play

/-- The task sends a message to another contact than its own. -/
def Slot.Addresses (slot : Slot) (c : String) : Prop := ∃ action text,
  slot.task.delivery = .payload action ∧ action.effect = .delayedMessage text (some c)

namespace Play

theorem addressed {a : Play} {contact c : String} {effect : Effect}
    (found : a.addressee? contact effect = some c) :
    c = contact ∨ ∃ text, effect = .delayedMessage text (some c) := by
  cases effect with
  | delayedMessage text target =>
    simp only [addressee?] at found
    split at found
    · obtain rfl := Option.some.inj found
      cases target with
      | none => exact .inl rfl
      | some other => exact .inr ⟨text, rfl⟩
    · cases found
  | sendPhoto | sendVideo | dropPin => exact .inl (Option.some.inj found).symm
  | _ => cases found

/- A task speaks for its own contact, or to the one to whom its message is addressed, and enters others.
   Notices may end their thread behind that. -/
theorem enters_fire (a : Play) (slot : Slot) : ∃ mid,
    Enters (fun c => c = slot.task.contact ∨ slot.Addresses c) nobody a mid ∧
      (a.fire slot = mid ∨ Ends slot.task.contact mid (a.fire slot)) := by
  have own : ∀ {b}, Enters (Stirs.only slot.task.contact) nobody a b →
      Enters (fun c => c = slot.task.contact ∨ slot.Addresses c) nobody a b :=
    fun enters => enters.widen (fun _ => .inl) fun _ => id
  unfold fire
  split
  · cases delivery : slot.task.delivery with
    | typing => exact ⟨_, .announce _ _ a _, .inl rfl⟩
    | reply text => exact ⟨_, own (.say _ a _ _ _), .inl rfl⟩
    | payload action =>
      refine ⟨_, ?_, .inl rfl⟩
      cases bubble : action.effect.isBubble with
      | false => exact (enters_runWith (entering_reopen a.closedThreads) _ bubble slot.time).spread
      | true =>
        rcases run_bubble bubble a slot.task.contact slot.time with
          ⟨c, saying, found, _, same⟩ | ⟨_, _, same⟩
        · dsimp only
          rw [same]
          apply Enters.trans (b := a.say c saying slot.time) _ (.announce _ _ _ _)
          apply (Enters.say nobody a c saying slot.time).widen _ fun _ => id
          intro d named
          rw [named]
          refine (addressed found).imp_right fun ⟨text, sends⟩ => ⟨action, text, delivery, sends⟩
        · dsimp only
          rw [same]
          exact .of_same rfl rfl rfl rfl rfl rfl
    | notices =>
      dsimp only
      rw [deliverHeld_eq]
      refine ⟨a.unlockHeld slot.task.contact slot.time, own (enters_unlockHeld a _ _), ?_⟩
      by_cases asked : (a.unlockHeld slot.task.contact slot.time).progress.endings.has
          slot.task.contact = true
      · exact .inr (ends_endPending _ slot.time asked)
      · exact .inl (endPending_of_not _ slot.time asked)
  · exact ⟨a, .refl _ _ a, .inl rfl⟩

end Play
end ChatStory
