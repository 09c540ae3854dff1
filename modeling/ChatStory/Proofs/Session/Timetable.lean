import ChatStory.Proofs.Session.Arising
import ChatStory.Proofs.Session.Asking

/-!
Timetables. A round that is entered while nothing waits for its contact puts its sequence on the
timeline at times that follow from the typing delay and the delays of its actions alone: the bubble
first, the reply behind it, each payload behind the largest delay up to its own, and the notices
behind all of them.
-/
namespace ChatStory

namespace Queue

/- The time noted for a contact for which nothing waits has been reached. -/
theorem latest_of_idle {q : Queue} {clock : Nat} {contact : String} (floored : q.Floored clock)
    (idle : q.lane contact = []) : q.latest.getD contact 0 ≤ clock := by
  rcases floored contact with reached | ⟨slot, last, _⟩
  · exact reached
  · rw [idle] at last
    cases last

end Queue

namespace Play

/-- When the reply of a round comes that is entered at a time. -/
def replyTime (play : Play) (time : Nat) : Nat :=
  if 0 < play.progress.typingDelay then time + play.progress.typingDelay + play.indicator else time

/-- Some actions ask for an unlock or for the end of a thread. -/
def isAsked (program : Program) (actions : List Action) : Bool :=
  !(actions.filterMap (Action.unlocks? program)).isEmpty || actions.any Action.endsThread

/-- The sequence of a round that is entered at a time, when nothing has waited for its contact. -/
def timetable (play : Play) (contact : String) (time : Nat) (text : String) (actions : List Action) :
    List Slot :=
  let slot (time : Nat) (delivery : Delivery) : Slot := ⟨time, ⟨contact, play.epoch, delivery⟩⟩
  let payloads := actions.filter Action.isScheduled
  (if 0 < play.progress.typingDelay then [slot (time + play.progress.typingDelay) .typing] else []) ++
    ((if text = "" then [] else [slot (play.replyTime time) (.reply text)]) ++
      (payloads.mapIdx (fun k action =>
          slot (play.replyTime time + Action.largestDelay (payloads.take (k + 1))) (.payload action)) ++
        (if isAsked play.program actions then
          [slot (max (play.replyTime time + Action.largestDelay payloads)
            (play.replyTime time + Action.largestDelay (actions.filter (·.effect.isHeldBack)))) .notices]
        else [])))

/-- The lane of the contact is longer by some slots. -/
structure Lays (contact : String) (slots : List Slot) (a b : Play) : Prop where
  bounded : b.queue.Bounded
  epoch : b.epoch = a.epoch
  lane : b.queue.lane contact = a.queue.lane contact ++ slots

variable {a b c : Play} {contact : String}

namespace Lays

theorem refl (bounded : a.queue.Bounded) (contact : String) : Lays contact [] a a :=
  ⟨bounded, rfl, (List.append_nil _).symm⟩

theorem trans {first second : List Slot} (before : Lays contact first a b)
    (after : Lays contact second b c) : Lays contact (first ++ second) a c := by
  refine ⟨after.bounded, after.epoch.trans before.epoch, ?_⟩
  rw [after.lane, before.lane, List.append_assoc]

theorem schedule (bounded : a.queue.Bounded) (contact : String) (time : Nat) (delivery : Delivery) :
    Lays contact [⟨a.timeFor contact time, ⟨contact, a.epoch, delivery⟩⟩] a
      (a.schedule contact time delivery) :=
  ⟨Queue.bounded_schedule bounded _ _, rfl,
    Queue.lane_schedule bounded time ⟨contact, a.epoch, delivery⟩⟩

end Lays

/-- Nothing in the lane of the contact holds up a task for that time or a later one. -/
def FreeFrom (play : Play) (contact : String) (time : Nat) : Prop :=
  play.queue.latest.getD contact 0 ≤ time

theorem FreeFrom.later {time later : Nat} (free : a.FreeFrom contact time) (behind : time ≤ later) :
    a.FreeFrom contact later :=
  Nat.le_trans free behind

theorem FreeFrom.timeFor {time : Nat} (free : a.FreeFrom contact time) :
    a.timeFor contact time = time :=
  Nat.max_eq_left free

theorem timeFor_schedule (a : Play) (contact : String) (time : Nat) (delivery : Delivery) (later : Nat) :
    (a.schedule contact time delivery).timeFor contact later = max later (a.timeFor contact time) := by
  change max later ((a.queue.schedule time ⟨contact, a.epoch, delivery⟩).latest.getD contact 0) = _
  rw [Queue.latest_schedule, if_pos rfl]
  rfl

theorem lays_schedule_free (bounded : a.queue.Bounded) {time : Nat} (free : a.FreeFrom contact time)
    (delivery : Delivery) :
    Lays contact [⟨time, ⟨contact, a.epoch, delivery⟩⟩] a (a.schedule contact time delivery) ∧
      (a.schedule contact time delivery).FreeFrom contact time := by
  have lays := Lays.schedule bounded contact time delivery
  rw [free.timeFor] at lays
  refine ⟨lays, ?_⟩
  change (a.queue.schedule time ⟨contact, a.epoch, delivery⟩).latest.getD contact 0 ≤ time
  rw [Queue.latest_schedule, if_pos rfl]
  exact Nat.le_of_eq free.timeFor

/- A bubble and a reply come when they are asked for. -/
theorem lays_reply (bounded : a.queue.Bounded) {time : Nat} (free : a.FreeFrom contact time)
    (text : String) :
    Lays contact ((if 0 < a.progress.typingDelay then
        [⟨time + a.progress.typingDelay, ⟨contact, a.epoch, .typing⟩⟩] else []) ++
      (if text = "" then [] else [⟨a.replyTime time, ⟨contact, a.epoch, .reply text⟩⟩])) a
      (a.reply contact text time .typed).1 ∧
    (a.reply contact text time .typed).1.FreeFrom contact (a.replyTime time) := by
  have typing : ∃ typed, (if 0 < a.progress.typingDelay then
        a.schedule contact (time + a.progress.typingDelay) .typing else a) = typed ∧
      Lays contact (if 0 < a.progress.typingDelay then
        [⟨time + a.progress.typingDelay, ⟨contact, a.epoch, .typing⟩⟩] else []) a typed ∧
      typed.FreeFrom contact (a.replyTime time) := by
    refine ⟨_, rfl, ?_⟩
    unfold replyTime
    split
    · obtain ⟨lays, behind⟩ :=
        lays_schedule_free bounded (free.later (Nat.le_add_right time a.progress.typingDelay)) .typing
      exact ⟨lays, behind.later (Nat.le_add_right _ _)⟩
    · exact ⟨.refl bounded contact, free⟩
  obtain ⟨typed, same, lays, behind⟩ := typing
  have replies : (a.reply contact text time .typed).1 = if text = "" then typed else
      typed.schedule contact (a.replyTime time) (.reply text) := by
    rw [← same]
    rfl
  rw [replies]
  by_cases silent : text = ""
  · rw [if_pos silent, if_pos silent, List.append_nil]
    exact ⟨lays, behind⟩
  · rw [if_neg silent, if_neg silent]
    obtain ⟨replied, later⟩ := lays_schedule_free lays.bounded behind (.reply text)
    rw [lays.epoch] at replied
    exact ⟨lays.trans replied, later⟩

theorem reply_typed_snd (a : Play) (contact text : String) (time : Nat) :
    (a.reply contact text time .typed).2 = a.replyTime time := rfl

/- By induction on the payloads; `peak` is the largest delay of those before. -/
theorem lays_schedulePayloads (bounded : a.queue.Bounded) {replyTime peak : Nat}
    (held : ∀ delay, a.timeFor contact (replyTime + delay) = replyTime + max peak delay)
    (payloads : List Action) :
    Lays contact (payloads.mapIdx fun k action =>
        ⟨replyTime + max peak (Action.largestDelay (payloads.take (k + 1))),
          ⟨contact, a.epoch, .payload action⟩⟩) a
      (a.schedulePayloads contact replyTime (replyTime + peak) payloads).1 ∧
    (a.schedulePayloads contact replyTime (replyTime + peak) payloads).2 =
      replyTime + max peak (Action.largestDelay payloads) ∧
    ∀ delay, (a.schedulePayloads contact replyTime (replyTime + peak) payloads).1.timeFor contact
      (replyTime + delay) = replyTime + max (max peak (Action.largestDelay payloads)) delay := by
  induction payloads generalizing a peak with
  | nil =>
    refine ⟨.refl bounded contact, ?_, ?_⟩
    · rw [Action.largestDelay, Nat.max_zero]
      rfl
    · rw [Action.largestDelay, Nat.max_zero]
      exact held
  | cons action rest ih =>
    have first := Lays.schedule bounded contact (replyTime + action.delay) (.payload action)
    have behind : ∀ delay,
        (a.schedule contact (replyTime + action.delay) (.payload action)).timeFor contact
          (replyTime + delay) = replyTime + max (max peak action.delay) delay := by
      intro delay
      rw [timeFor_schedule, held]
      omega
    have last : max (replyTime + peak) (a.timeFor contact (replyTime + action.delay)) =
        replyTime + max peak action.delay := by
      rw [held]
      omega
    obtain ⟨lays, latest, later⟩ := ih first.bounded behind
    simp only [schedulePayloads]
    rw [last]
    rw [held] at first
    refine ⟨?_, ?_, ?_⟩
    · rw [List.mapIdx_cons]
      simp only [List.take_succ_cons, List.take_zero, Action.largestDelay, Nat.max_zero]
      have both := first.trans lays
      rw [first.epoch] at both
      simpa only [Nat.max_assoc, List.singleton_append] using both
    · rw [latest, Action.largestDelay, Nat.max_assoc]
    · intro delay
      rw [later, Action.largestDelay, Nat.max_assoc peak]

/- What the contact waits for when the round has been prepared is delivered by the notices behind. -/
theorem lays_layOut (bounded : a.queue.Bounded) {time : Nat} (free : a.FreeFrom contact time)
    (text : String) {plan : Plan} {actions : List Action}
    (payloads : plan.payloads = actions.filter Action.isScheduled)
    (holding : plan.holding = Action.largestDelay (actions.filter (·.effect.isHeldBack)))
    (waits : (a.progress.unlocks.contains contact || a.progress.endings.has contact) =
      isAsked a.program actions) :
    Lays contact (a.timetable contact time text actions) a
      (a.layOut contact text plan time .typed) := by
  obtain ⟨replied, behind⟩ := lays_reply bounded free text
  have same := progress_reply_typed a contact text time
  have at_reply := reply_typed_snd a contact text time
  unfold layOut timetable
  dsimp only
  rw [payloads, holding]
  generalize a.reply contact text time .typed = answer at replied behind same at_reply
  rw [at_reply]
  have held : ∀ delay, answer.1.timeFor contact (a.replyTime time + delay) =
      a.replyTime time + max 0 delay := by
    intro delay
    rw [Nat.zero_max]
    exact (behind.later (Nat.le_add_right _ _)).timeFor
  obtain ⟨scheduled, latest, later⟩ := lays_schedulePayloads replied.bounded held
    (actions.filter Action.isScheduled)
  have still := progress_schedulePayloads answer.1 contact (a.replyTime time) (a.replyTime time)
    (actions.filter Action.isScheduled)
  simp only [Nat.zero_max, Nat.add_zero] at scheduled latest later
  generalize answer.1.schedulePayloads contact (a.replyTime time) (a.replyTime time)
    (actions.filter Action.isScheduled) = laid at scheduled latest later still
  rw [still, same, waits, latest]
  rw [replied.epoch] at scheduled
  have whole := replied.trans scheduled
  rw [List.append_assoc] at whole
  by_cases asked : isAsked a.program actions = true
  · rw [if_pos asked, if_pos asked]
    have noticed := Lays.schedule whole.bounded contact
      (max (a.replyTime time + Action.largestDelay (actions.filter Action.isScheduled))
        (a.replyTime time + Action.largestDelay (actions.filter (·.effect.isHeldBack)))) .notices
    have on_time : laid.1.timeFor contact
        (max (a.replyTime time + Action.largestDelay (actions.filter Action.isScheduled))
          (a.replyTime time + Action.largestDelay (actions.filter (·.effect.isHeldBack)))) =
        max (a.replyTime time + Action.largestDelay (actions.filter Action.isScheduled))
          (a.replyTime time + Action.largestDelay (actions.filter (·.effect.isHeldBack))) := by
      rw [Nat.add_max_add_left, later]
      omega
    rw [on_time, whole.epoch] at noticed
    have all := whole.trans noticed
    rw [List.append_assoc, List.append_assoc] at all
    exact all
  · rw [if_neg asked, if_neg asked, List.append_nil]
    exact whole

theorem timetable_of_same (program : b.program = a.program) (epoch : b.epoch = a.epoch)
    (indicator : b.indicator = a.indicator) (progress : b.progress = a.progress) (contact : String)
    (time : Nat) (text : String) (actions : List Action) :
    b.timetable contact time text actions = a.timetable contact time text actions := by
  unfold timetable replyTime
  rw [program, epoch, indicator, progress]

/-- What has come of a play in which a round was entered in an open thread: the contact has asked for
what the actions of the round ask for, and has said nothing yet. -/
structure Entered (contact : String) (actions : List Action) (a b : Play) : Prop extends
    Asks contact actions a b where
  epoch : b.epoch = a.epoch
  history : b.progress.history contact = a.progress.history contact

/- The sequence of a round that is entered while nothing waits for its contact. -/
theorem lane_enter_idle (coherent : a.Coherent) {time : Nat} (floored : a.queue.Floored time)
    (opened : a.progress.isClosed contact = false) (idle : a.queue.lane contact = [])
    (unasked : a.progress.unlocks.contains contact = false)
    (unended : a.progress.endings.has contact = false) {key : RoundKey} {round : Round}
    (found : a.program.round? contact key = some round) (leading : Option Action) :
    let start := a.enter contact key time .typed leading
    let actions := leading.toList ++ (a.evaluation round).actions
    Entered contact actions a start ∧
      start.queue.lane contact = start.timetable contact time (a.evaluation round).text actions := by
  dsimp only
  obtain ⟨stirred, _⟩ := stirs_prepared (quiet_reopen a.closedThreads) coherent.formed found time leading
  have asks := asks_prepared (sparing_reopen contact a.closedThreads) opened key round time leading
  have payloads : (a.prepared (reopen a.closedThreads) contact key round time leading).2.payloads =
      (leading.toList ++ (a.evaluation round).actions).filter Action.isScheduled :=
    payloads_planWith _ _ _ _ _
  have holding : (a.prepared (reopen a.closedThreads) contact key round time leading).2.holding =
      Action.largestDelay
        ((leading.toList ++ (a.evaluation round).actions).filter (·.effect.isHeldBack)) :=
    holding_planWith _ _ _ _ _
  unfold enter
  rw [enterWith_eq _ found]
  generalize a.prepared (reopen a.closedThreads) contact key round time leading = ready
    at stirred asks payloads holding
  have empty : ready.1.queue.lane contact = [] := (stirred.lanes contact id opened).trans idle
  have free : ready.1.FreeFrom contact time :=
    Queue.latest_of_idle (floored_moves coherent floored stirred.toMoves) empty
  have waits : (ready.1.progress.unlocks.contains contact || ready.1.progress.endings.has contact) =
      isAsked ready.1.program (leading.toList ++ (a.evaluation round).actions) := by
    rw [asks.waits, asks.endings, unasked, unended, Bool.false_or, Bool.false_or, asks.program]
    rfl
  have lays := lays_layOut (stirred.queue.bounded coherent.bounded) free (a.evaluation round).text
    payloads holding waits
  have same := progress_layOut_typed ready.1 contact (a.evaluation round).text ready.2 time
  have spares : Spares contact ready.1
      (ready.1.layOut contact (a.evaluation round).text ready.2 time .typed) :=
    spares_layOut _ _ _ _ _ _
  have spared := spares asks.opened
  refine ⟨⟨⟨spared.program.trans asks.program, spared.indicator.trans asks.indicator, ?_, ?_, ?_, ?_⟩,
    lays.epoch.trans stirred.epoch, ?_⟩, ?_⟩
  · rw [same]
    exact asks.opened
  · rw [same]
    exact asks.targets
  · rw [same]
    exact asks.waits
  · rw [same]
    exact asks.endings
  · rw [same, Progress.history, stirred.histories]
    rfl
  · rw [lays.lane, empty, List.nil_append]
    exact (timetable_of_same spared.program lays.epoch spared.indicator same _ _ _ _).symm

/- A timeline that is put back holds nobody up but by the tasks on it. -/
theorem floored_foldl_schedule {α : Type} (contact : α → String) (time : α → Nat)
    (delivery : α → Delivery) (bounded : a.queue.Bounded) {clock : Nat}
    (floored : a.queue.Floored clock) (items : List α) :
    let after := items.foldl
      (fun play item => play.schedule (contact item) (time item) (delivery item)) a
    after.queue.Bounded ∧ after.queue.Floored clock := by
  induction items generalizing a with
  | nil => exact ⟨bounded, floored⟩
  | cons item rest ih =>
    exact ih (Queue.bounded_schedule bounded _ _) (Queue.floored_schedule bounded floored _ _)

theorem floored_resumed (program : Program) (options : Options) (saved : Progress) (now : Nat) :
    (Play.resumed program options saved now).queue.Floored now := by
  unfold resumed resumeTimeline
  dsimp only
  obtain ⟨bounded, floored⟩ := floored_foldl_schedule SavedTask.contact SavedTask.time
    SavedTask.delivery (a := (Play.mk program (saved.fitTo program) ∅ 0 options.indicator #[]).revise
      fun p => { p with deliveries := [] }) Queue.bounded_empty (Queue.floored_empty now)
    (saved.fitTo program).deliveries
  exact (floored_foldl_schedule id (fun _ => now) (fun _ => .notices) bounded floored _).2

end Play

namespace Session

open Play

variable {s : Session} {clock now : Nat}

/-- A session that can come about by a time, from a store that may hold anything and by operations that
wait for the times of the tasks, at readings of the clock of which none is before an earlier one. -/
inductive ArisesBy : Nat → Session → Prop where
  | start {program : Program} (options : Options) (store : Store) (now : Nat) :
    program.Scripted → ArisesBy now (start program options store now)
  | perform {s : Session} {clock now : Nat} {operation : Operation} :
    ArisesBy clock s → clock ≤ now → operation.Scripted → operation ≠ .flush →
      ArisesBy now (s.perform now operation)

theorem ArisesBy.arises (by_clock : ArisesBy clock s) : s.Arises := by
  induction by_clock with
  | start options store now scripted => exact .start options store now scripted
  | perform _ _ scripted _ ih => exact ih.perform _ scripted

theorem ArisesBy.floored (by_clock : ArisesBy clock s) : s.play.queue.Floored clock := by
  induction by_clock with
  | @start program options store now scripted =>
    cases restored : restored? store with
    | some saved =>
      rw [start_of_restored restored, play_settle]
      exact floored_fireDue (coherent_resumed scripted.wellFormed options saved now)
        (floored_resumed program options saved now)
    | none =>
      rw [start_of_fresh restored, play_settle]
      have begun := coherent_beginStory (sound_initial scripted.wellFormed options.typingDelay 0
        options.indicator #[]).coherent now
      exact floored_fireDue begun (floored_beginStory scripted.wellFormed rfl now)
  | perform before later scripted waits ih =>
    exact floored_perform before.arises.coherent ih later scripted waits

/- A choice that leads to a round, for a contact for which nothing waits. -/
theorem Picks.timed (coherent : s.play.Coherent) (floored : s.play.queue.Floored now)
    {contact : String} (idle : s.play.queue.lane contact = [])
    (unasked : s.play.progress.unlocks.contains contact = false)
    (unended : s.play.progress.endings.has contact = false) {index : Nat} {choice : Choice}
    {said : Play} {key : RoundKey} {round : Round}
    (picks : Picks s now contact index choice said key round) :
    let start := said.enter contact key now .typed choice.action
    let actions := choice.action.toList ++ (said.evaluation round).actions
    Entered contact actions said start ∧
      start.queue.lane contact = start.timetable contact now (said.evaluation round).text actions := by
  have active := active_of_choice picks.offered
  obtain ⟨offered, rfl, leads, found⟩ := picks
  have heard := coherent.moves (.say _ (coherent.known_of_thread active)
    { text := choice.text, fromPlayer := true } now)
  exact lane_enter_idle heard floored (active_not_closed active) idle unasked unended found
    choice.action

end Session
end ChatStory
