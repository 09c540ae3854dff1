import ChatStory.Proofs.Session.Computed
import ChatStory.Proofs.Session.Requests

/-!
Sequences. A round that the player has chosen puts a bubble, a reply, payloads and notices behind all
that waits for its contact. What it has asked for goes out with the first notices of the contact
that come up: with its own, behind the rest of its sequence, unless earlier ones still wait.
-/
namespace ChatStory

/-- The action makes a bubble or is delayed, and is not held back. -/
def Action.isScheduled (action : Action) : Bool :=
  !action.effect.isHeldBack && (action.effect.isBubble || 0 < action.delay)

namespace Play

/-- What a round puts on the timeline for its contact, when a play has been left in it. -/
def sequence (play : Play) (contact text : String) (actions : List Action) : List Delivery :=
  (if 0 < play.progress.typingDelay then [.typing] else []) ++
    ((if text = "" then [] else [.reply text]) ++
      ((actions.filter Action.isScheduled).map .payload ++
        (if play.progress.unlocks.contains contact || play.progress.endings.has contact then [.notices]
          else [])))

/-- The lane of the contact is longer by tasks with these deliveries. -/
structure Appends (contact : String) (deliveries : List Delivery) (a b : Play) : Prop where
  bounded : b.queue.Bounded
  lane : ∃ own, b.queue.lane contact = a.queue.lane contact ++ own ∧
    own.map (·.task.delivery) = deliveries

variable {a b c : Play} {contact : String}

namespace Appends

theorem refl (bounded : a.queue.Bounded) (contact : String) : Appends contact [] a a :=
  ⟨bounded, [], (List.append_nil _).symm, rfl⟩

theorem trans {first second : List Delivery} (before : Appends contact first a b)
    (after : Appends contact second b c) : Appends contact (first ++ second) a c := by
  obtain ⟨own, lane, deliveries⟩ := before.lane
  obtain ⟨more, longer, others⟩ := after.lane
  refine ⟨after.bounded, own ++ more, ?_, ?_⟩
  · rw [longer, lane, List.append_assoc]
  · rw [List.map_append, deliveries, others]

theorem schedule (bounded : a.queue.Bounded) (contact : String) (time : Nat) (delivery : Delivery) :
    Appends contact [delivery] a (a.schedule contact time delivery) :=
  ⟨Queue.bounded_schedule bounded _ _, _, Queue.lane_schedule bounded time ⟨contact, a.epoch, delivery⟩,
    rfl⟩

end Appends

theorem appends_reply (bounded : a.queue.Bounded) (contact text : String) (time : Nat) :
    Appends contact ((if 0 < a.progress.typingDelay then [.typing] else []) ++
      (if text = "" then [] else [.reply text])) a (a.reply contact text time .typed).1 := by
  simp only [reply]
  have typing : Appends contact (if 0 < a.progress.typingDelay then [.typing] else []) a
      (if 0 < a.progress.typingDelay then
        a.schedule contact (time + a.progress.typingDelay) .typing else a) := by
    split
    · exact .schedule bounded _ _ _
    · exact .refl bounded contact
  apply typing.trans
  split
  · exact .refl typing.bounded contact
  · exact .schedule typing.bounded _ _ _

theorem appends_schedulePayloads (bounded : a.queue.Bounded) (contact : String) (replyTime last : Nat)
    (payloads : List Action) : Appends contact (payloads.map .payload) a
      (a.schedulePayloads contact replyTime last payloads).1 := by
  induction payloads generalizing a last with
  | nil => exact .refl bounded contact
  | cons action rest ih =>
    have first : Appends contact [.payload action] a
        (a.schedule contact (replyTime + action.delay) (.payload action)) := .schedule bounded _ _ _
    exact first.trans (ih first.bounded _)

theorem progress_layOut_typed (a : Play) (contact text : String) (plan : Plan) (time : Nat) :
    (a.layOut contact text plan time .typed).progress = a.progress :=
  (progress_layOut a contact text plan time .typed).trans (progress_reply_typed a contact text time)

theorem appends_layOut (bounded : a.queue.Bounded) (contact text : String) (plan : Plan) (time : Nat) :
    Appends contact ((if 0 < a.progress.typingDelay then [.typing] else []) ++
      ((if text = "" then [] else [.reply text]) ++ (plan.payloads.map .payload ++
        (if a.progress.unlocks.contains contact || a.progress.endings.has contact then [.notices]
          else [])))) a (a.layOut contact text plan time .typed) := by
  have replied := appends_reply bounded contact text time
  have same := progress_reply_typed a contact text time
  unfold layOut
  dsimp only
  generalize a.reply contact text time .typed = answer at replied same
  have scheduled := appends_schedulePayloads replied.bounded contact answer.2 answer.2 plan.payloads
  have still := progress_schedulePayloads answer.1 contact answer.2 answer.2 plan.payloads
  generalize answer.1.schedulePayloads contact answer.2 answer.2 plan.payloads = laid at scheduled still
  rw [← List.append_assoc]
  apply replied.trans
  apply scheduled.trans
  rw [still, same]
  split
  · exact .schedule scheduled.bounded _ _ _
  · exact .refl scheduled.bounded contact

/- Of the actions that a round runs, those that are scheduled are left to be laid out. -/
theorem payloads_planWith (again : Reopening) (a : Play) (contact : String) (time : Nat)
    (actions : List Action) :
    (a.planWith again contact time actions).2.payloads = actions.filter Action.isScheduled := by
  induction actions generalizing a with
  | nil => rfl
  | cons action rest ih =>
    unfold planWith
    by_cases held : action.effect.isHeldBack = true
    · rw [if_pos held, List.filter_cons_of_neg (by simp [Action.isScheduled, held])]
      exact ih _
    · rw [if_neg held]
      have free : action.effect.isHeldBack = false := Bool.eq_false_iff.2 held
      by_cases waits : (action.effect.isBubble || decide (0 < action.delay)) = true
      · rw [if_pos waits, List.filter_cons_of_pos (by simp [Action.isScheduled, free, waits])]
        exact congrArg (action :: ·) (ih _)
      · rw [if_neg waits, List.filter_cons_of_neg (by simp [Action.isScheduled, waits])]
        exact ih _

/- A round that is entered in an open thread goes behind all that waits for its contact. -/
theorem lane_enter (coherent : a.Coherent) (opened : a.progress.isClosed contact = false)
    {key : RoundKey} {round : Round} (found : a.program.round? contact key = some round) (time : Nat)
    (leading : Option Action) : ∃ own,
      (a.enter contact key time .typed leading).queue.lane contact = a.queue.lane contact ++ own ∧
      own.map (·.task.delivery) = (a.enter contact key time .typed leading).sequence contact
        (a.evaluation round).text (leading.toList ++ (a.evaluation round).actions) := by
  obtain ⟨stirred, _⟩ := stirs_prepared (quiet_reopen a.closedThreads) coherent.formed found time leading
  have payloads : (a.prepared (reopen a.closedThreads) contact key round time leading).2.payloads =
      (leading.toList ++ (a.evaluation round).actions).filter Action.isScheduled :=
    payloads_planWith _ _ _ _ _
  unfold enter
  rw [enterWith_eq _ found]
  generalize a.prepared (reopen a.closedThreads) contact key round time leading = ready
    at stirred payloads
  have bounded := stirred.queue.bounded coherent.bounded
  obtain ⟨own, lane, deliveries⟩ :=
    (appends_layOut bounded contact (a.evaluation round).text ready.2 time).lane
  refine ⟨own, ?_, ?_⟩
  · rw [lane, stirred.lanes contact id opened]
  · rw [deliveries, sequence, progress_layOut_typed, payloads]

end Play

/- The first item of a kind has one place in a list. -/
theorem first_unique {p : α → Prop} {front other : List α} {a b : α} {rest more : List α}
    (plain : ∀ x ∈ front, ¬p x) (others : ∀ x ∈ other, ¬p x) (first : p a) (second : p b)
    (same : front ++ a :: rest = other ++ b :: more) : front = other ∧ a = b := by
  induction front generalizing other with
  | nil =>
    cases other with
    | nil => exact ⟨rfl, (List.cons.inj same).1⟩
    | cons x tail =>
      have head : a = x := (List.cons.inj same).1
      rw [head] at first
      exact absurd first (others x List.mem_cons_self)
  | cons x tail ih =>
    cases other with
    | nil =>
      have head : x = b := (List.cons.inj same).1
      rw [← head] at second
      exact absurd second (plain x List.mem_cons_self)
    | cons y tail' =>
      obtain ⟨heads, tails⟩ := List.cons.inj same
      obtain ⟨fronts, items⟩ := ih (fun z member => plain z (List.mem_cons_of_mem x member))
        (fun z member => others z (List.mem_cons_of_mem y member)) tails
      rw [heads, fronts]
      exact ⟨rfl, items⟩

theorem exists_first {p : α → Prop} {items : List α} (some : ∃ x ∈ items, p x) :
    ∃ front a rest, items = front ++ a :: rest ∧ p a ∧ ∀ x ∈ front, ¬p x := by
  induction items with
  | nil =>
    obtain ⟨_, member, _⟩ := some
    cases member
  | cons x tail ih =>
    by_cases here : p x
    · exact ⟨[], x, tail, rfl, here, List.forall_mem_nil _⟩
    · obtain ⟨y, member, found⟩ := some
      have behind : ∃ z ∈ tail, p z := by
        rcases List.mem_cons.1 member with same | member
        · rw [same] at found
          exact absurd found here
        · exact ⟨y, member, found⟩
      obtain ⟨front, a, rest, split, first, others⟩ := ih behind
      exact ⟨x :: front, a, rest, by rw [split]; rfl, first, List.forall_mem_cons.2 ⟨here, others⟩⟩

/- A lane in which the first notices are the last of its tasks, behind one that may have some. -/
theorem fired_iff_unnoticed {contact : String} {lane own front rest : List Slot} {slot : Slot}
    {deliveries : List Delivery} (laid : own.map (·.task.delivery) = deliveries ++ [.notices])
    (plain : .notices ∉ deliveries) (mine : ∀ other ∈ lane ++ own, other.task.contact = contact)
    (whole : lane ++ own <+: front ++ slot :: rest) (notices : slot.NoticesOf contact)
    (first : ∀ other ∈ front, ¬other.NoticesOf contact) :
    (front ++ [slot] = lane ++ own ↔ ¬∃ other ∈ lane, other.NoticesOf contact) ∧
      ((∃ other ∈ lane, other.NoticesOf contact) → front ++ [slot] <+: lane) := by
  obtain ⟨before, last, rfl, head, tail⟩ := List.map_eq_append_iff.1 laid
  obtain ⟨final, rfl, ends⟩ := List.map_eq_singleton_iff.1 tail
  obtain ⟨more, whole⟩ := whole
  have final_notices : final.NoticesOf contact :=
    ⟨mine final (by simp), ends⟩
  have earlier : (∃ other ∈ lane, other.NoticesOf contact) → front ++ [slot] <+: lane := by
    intro some
    obtain ⟨quiet, a, behind, split, found, others⟩ := exists_first some
    rw [split, List.append_assoc, List.append_assoc] at whole
    obtain ⟨fronts, items⟩ := first_unique others first found notices whole
    rw [← fronts, ← items, split]
    exact ⟨behind, by simp⟩
  refine ⟨?_, earlier⟩
  constructor
  · intro same some
    have short := (earlier some).length_le
    rw [same] at short
    simp only [List.length_append, List.length_cons, List.length_nil] at short
    omega
  · intro none
    have quiet : ∀ other ∈ lane ++ before, ¬other.NoticesOf contact := by
      intro other member found
      rcases List.mem_append.1 member with waits | laid_out
      · exact none ⟨other, waits, found⟩
      · apply plain
        rw [← head, ← found.2]
        exact List.mem_map_of_mem laid_out
    have same : (lane ++ before) ++ final :: more = front ++ slot :: rest := by
      rw [← whole]
      simp only [List.append_assoc, List.cons_append, List.nil_append]
    obtain ⟨fronts, items⟩ := first_unique quiet first final_notices notices same
    rw [← fronts, ← items, List.append_assoc]

namespace Session

open Play

variable {s : Session} {now : Nat}

theorem sequence_notices {play : Play} {contact : String} (text : String) (actions : List Action)
    (asked : (play.progress.unlocks.contains contact || play.progress.endings.has contact) = true) :
    ∃ deliveries, play.sequence contact text actions = deliveries ++ [.notices] ∧
      .notices ∉ deliveries := by
  refine ⟨(if 0 < play.progress.typingDelay then [.typing] else []) ++
    ((if text = "" then [] else [.reply text]) ++
      (actions.filter Action.isScheduled).map .payload), ?_, ?_⟩
  · rw [Play.sequence, if_pos asked]
    simp only [List.append_assoc]
  · simp only [List.mem_append, List.mem_map, not_or]
    refine ⟨?_, ?_, ?_⟩
    · split <;> simp
    · split <;> simp
    · rintro ⟨action, _, same⟩
      cases same

theorem noticed_iff {play : Play} {contact : String} : play.Noticed contact ↔
    ∃ slot ∈ play.queue.lane contact, slot.NoticesOf contact := by
  constructor
  · rintro ⟨slot, member, own, notices⟩
    exact ⟨slot, Queue.mem_lane.2 ⟨member, own⟩, own, notices⟩
  · rintro ⟨slot, member, own, notices⟩
    exact ⟨slot, (Queue.mem_lane.1 member).1, own, notices⟩

theorem unnoticed_firedFor {contact : String} {moments : List Moment}
    (unnoticed : Unnoticed contact moments) :
    ∀ slot ∈ firedFor contact moments, ¬slot.NoticesOf contact := by
  intro slot member
  obtain ⟨fired, _⟩ := List.mem_filter.1 member
  obtain ⟨m, inside, same⟩ := List.mem_filterMap.1 fired
  exact unnoticed m inside slot same

/-- The player picks a choice, and what is said then leads to a round. -/
structure Picks (s : Session) (now : Nat) (contact : String) (index : Nat) (choice : Choice)
    (said : Play) (key : RoundKey) (round : Round) : Prop where
  offered : (s.play.choices contact)[index]? = some choice
  spoken : said = s.play.say contact { text := choice.text, fromPlayer := true } now
  leads : said.target? contact choice = some key
  found : s.play.program.round? contact key = some round

theorem Picks.acted {contact : String} {index : Nat} {choice : Choice} {said : Play} {key : RoundKey}
    {round : Round} (picks : Picks s now contact index choice said key round) :
    s.acted? now (.choose contact index) =
      some (said.enter contact key now .typed choice.action) := by
  change s.play.choose? contact index now = _
  unfold choose?
  rw [picks.offered, Option.bind_eq_bind, Option.bind_some]
  dsimp only
  rw [← picks.spoken, picks.leads]
  rfl

theorem Picks.starts {contact : String} {index : Nat} {choice : Choice} {said : Play} {key : RoundKey}
    {round : Round} (picks : Picks s now contact index choice said key round)
    {steps : List (Nat × Operation)} {start : Play} {moments : List Moment}
    (run : s.allMoments ((now, .choose contact index) :: steps) = .acted start :: moments) :
    start = said.enter contact key now .typed choice.action := by
  rw [allMoments, moments_of_acted picks.acted] at run
  exact (Moment.acted.inj (List.cons.inj run).1).symm

/- The round that is entered then lays out its sequence behind what waits for its contact. -/
theorem Picks.lays (coherent : s.play.Coherent) {contact : String} {index : Nat} {choice : Choice}
    {said : Play} {key : RoundKey} {round : Round}
    (picks : Picks s now contact index choice said key round) : ∃ own,
      (said.enter contact key now .typed choice.action).queue.lane contact =
        s.play.queue.lane contact ++ own ∧
      own.map (·.task.delivery) =
        (said.enter contact key now .typed choice.action).sequence contact
          (said.evaluation round).text (choice.action.toList ++ (said.evaluation round).actions) := by
  have active := active_of_choice picks.offered
  have heard : said.Coherent := by
    rw [picks.spoken]
    exact coherent.moves (.say _ (coherent.known_of_thread active) _ _)
  have opened : said.progress.isClosed contact = false := by
    rw [picks.spoken]
    exact active_not_closed active
  have round_of : said.program.round? contact key = some round := by
    rw [picks.spoken]
    exact picks.found
  have waiting : said.queue.lane contact = s.play.queue.lane contact := by
    rw [picks.spoken]
    rfl
  rw [← waiting]
  exact lane_enter heard opened round_of now choice.action

/- A round that the player chooses lays out its sequence behind what waits for its contact. What it
   has asked for is delivered by the next notices of the contact that come up, and these come
   behind all of its sequence exactly if none were waiting when the round was chosen; otherwise
   none of the sequence has been delivered by then. -/
theorem requests_follow_own_sequence_iff (reached : s.Reached) {contact : String} {index : Nat}
    {choice : Choice} {said : Play} {key : RoundKey} {round : Round}
    (picks : Picks s now contact index choice said key round)
    {steps : List (Nat × Operation)} (ongoing : ∀ step ∈ steps, step.2.Ongoing)
    {start play : Play} {before later : List Moment} {slot : Slot}
    (run : s.allMoments ((now, .choose contact index) :: steps) =
      .acted start :: (before ++ .fired play slot :: later))
    (asked : (start.progress.unlocks.contains contact || start.progress.endings.has contact) = true)
    (notices : slot.NoticesOf contact) (first : Unnoticed contact before) :
    start.progress.unlocks.getD contact [] <+: play.progress.unlocks.getD contact [] ∧
    (∀ target ∈ start.progress.unlocks.getD contact [], start.program.has target = true →
      (play.fire slot).canUnlock target = false) ∧
    (OpenThroughout contact start before → start.progress.endings.has contact = true →
      play.progress.endings.has contact = true ∧ (play.fire slot).Ended contact) ∧
    ∃ own, start.queue.lane contact = s.play.queue.lane contact ++ own ∧
      own.map (·.task.delivery) = start.sequence contact (said.evaluation round).text
        (choice.action.toList ++ (said.evaluation round).actions) ∧
      (firedFor contact before ++ [slot] = s.play.queue.lane contact ++ own ↔
        ¬s.play.Noticed contact) ∧
      (s.play.Noticed contact → firedFor contact before ++ [slot] <+: s.play.queue.lane contact) := by
  have coherent := reached.sound.coherent
  have entered := picks.starts run
  obtain ⟨own, lane, laid⟩ := picks.lays coherent
  rw [← entered] at lane laid
  have every : ∀ step ∈ (now, .choose contact index) :: steps, step.2.Ongoing :=
    List.forall_mem_cons.2 ⟨rfl, ongoing⟩
  have follows := (follows_allMoments Operation.Ongoing s every).1
  rw [run] at follows
  cases follows with
  | acted acts rest =>
    have after : start.Coherent := coherent.moves (moves_acts coherent acts)
    obtain ⟨front, behind⟩ := rest.split
    obtain ⟨targets, ending⟩ := holds_follows front after first
    obtain ⟨still, program, fired⟩ := lane_follows front after contact
    cases behind with
    | fired next _ =>
      obtain ⟨unlocks, ends⟩ := delivered_fire still next notices
      refine ⟨targets, ?_, ?_, own, lane, laid, ?_⟩
      · intro target member known
        apply unlocks target (targets.subset member)
        rw [program]
        exact known
      · intro throughout asked_end
        have waits := ending throughout asked_end
        exact ⟨waits, ends throughout.last waits⟩
      obtain ⟨deliveries, same, plain⟩ := sequence_notices (said.evaluation round).text
        (choice.action.toList ++ (said.evaluation round).actions) asked
      have mine : ∀ other ∈ s.play.queue.lane contact ++ own, other.task.contact = contact := by
        intro other member
        rw [← lane] at member
        exact (Queue.mem_lane.1 member).2
      have whole : s.play.queue.lane contact ++ own <+:
          firedFor contact before ++ slot :: (start.last before).queue.rest.lane contact := by
        rw [Queue.lane_rest next, if_pos notices.1] at fired
        rw [← lane]
        exact fired
      rw [noticed_iff]
      exact fired_iff_unnoticed (laid.trans same) plain mine whole notices (unnoticed_firedFor first)

def overlapping : String :=
  ":: A-Round-1 [initial_contact]\nHi\n[[Go|A-Round-2]]\n\n" ++
  ":: A-Round-2 [chat]\nFirst reply.\n[Action: unlock_contact: B]\n[[Bye|A-Round-3]]\n\n" ++
  ":: A-Round-3 [chat]\nLast words.\n[Action: end_thread]\n\n" ++
  ":: B-Round-1 [chat]\nB here.\n"

def pickOnce : List (Nat × Operation) := [(1000, .choose "A" 0)]

/-- The player picks again before the first reply has come, and then waits. -/
def pickAgain : List (Nat × Operation) := [(1000, .choose "A" 0), (3400, .tick)]

def endsBeforeReply (s : Session) : Bool :=
  (s.play.progress.history "A").map (fun m => (m.kind, m.text)) = [(.text, "Hi"), (.text, "Go"),
    (.text, "Bye"), (.text, "First reply."), (.unlockContact, Message.unlockText "B"),
    (.endThread, Message.endText), (.text, "Last words.")]

/-- The player picks again while notices wait, and then all that waits is fired. -/
def picksBehindNotices (s : Session) : Bool :=
  (s.play.choices "A")[0]?.any fun choice =>
    let said := s.play.say "A" { text := choice.text, fromPlayer := true } 1000
    (said.target? "A" choice).any fun key =>
      let start := said.enter "A" key 1000 .typed choice.action
      (s.play.program.round? "A" key).isSome && decide (start.queue.due? 1000 = none) &&
        (start.progress.unlocks.contains "A" || start.progress.endings.has "A") &&
        (start.recordTimeline.firingsUpTo Play.fireLimit).any fun m =>
          m.slot?.any fun slot => decide (slot.NoticesOf "A")

theorem played_overlapping : (playedWithin 0 overlapping 1000 pickOnce).any (fun s =>
    (s.performAllWithin 6 pickAgain).any endsBeforeReply && s.picksBehindNotices) = true := by
  decide +kernel

/- The end that the second round asks for is delivered before its reply, by the notices of the
   round before it. -/
theorem end_before_own_reply : ∃ program : Program, (compile overlapping).result = .ok program ∧
    (((start program {} .empty 1000).performAll (pickOnce ++ pickAgain)).play.progress.history "A").map
      (fun m => (m.kind, m.text)) = [(.text, "Hi"), (.text, "Go"), (.text, "Bye"),
        (.text, "First reply."), (.unlockContact, Message.unlockText "B"),
        (.endThread, Message.endText), (.text, "Last words.")] := by
  obtain ⟨program, compiled, shown⟩ := played_of_any played_overlapping
  obtain ⟨t, within, last⟩ := (Option.any_eq_true _ _).1 (Bool.and_eq_true_iff.1 shown).1
  refine ⟨program, compiled, ?_⟩
  change ((((start program {} .empty 1000).performAll pickOnce).performAll
    pickAgain).play.progress.history "A").map _ = _
  rw [performAll_of_performAllWithin within]
  exact of_decide_eq_true last

theorem Unnoticed.acted {contact : String} {moments : List Moment}
    (unnoticed : Unnoticed contact moments) (play : Play) : Unnoticed contact (.acted play :: moments) :=
  List.forall_mem_cons.2 ⟨nofun, unnoticed⟩

theorem exists_first_notices {contact : String} {moments : List Moment}
    (some : (moments.any fun m => m.slot?.any fun slot => decide (slot.NoticesOf contact)) = true) :
    ∃ before play slot later, moments = before ++ .fired play slot :: later ∧
      slot.NoticesOf contact ∧ Unnoticed contact before := by
  obtain ⟨m, member, shown⟩ := List.any_eq_true.1 some
  obtain ⟨slot, found, notices⟩ := (Option.any_eq_true _ _).1 shown
  have exists_one : ∃ m ∈ moments, ∃ slot, m.slot? = Option.some slot ∧ slot.NoticesOf contact :=
    ⟨m, member, slot, found, of_decide_eq_true notices⟩
  obtain ⟨before, first, later, split, ⟨slot, same, own⟩, others⟩ := exists_first exists_one
  cases first with
  | acted play => cases same
  | fired play other =>
    cases same
    exact ⟨before, play, slot, later, split, own, fun m inside slot found own =>
      others m inside ⟨slot, found, own⟩⟩

/- Where nothing is due after a choice, it leaves what it does at once. -/
theorem play_choose_of_idle {contact : String} {index : Nat} {start : Play}
    (acted : s.acted? now (.choose contact index) = some start)
    (idle : start.queue.due? now = none) :
    (s.perform now (.choose contact index)).play = start.recordTimeline := by
  rw [perform, choose_eq, show s.play.choose? contact index now = some start from acted]
  change (start.fireDue now).1.recordTimeline = _
  rw [fireDue_of_none idle]

/- Where nothing is due after a choice, flushing fires all that waits then. -/
theorem allMoments_choose_flush {contact : String} {index : Nat} {start : Play}
    (acted : s.acted? now (.choose contact index) = some start)
    (idle : start.queue.due? now = none) : ∃ more,
      s.allMoments [(now, .choose contact index), (now, .flush)] = .acted start ::
        .acted start.recordTimeline :: (start.recordTimeline.firingsUpTo Play.fireLimit ++ more) := by
  have left := play_choose_of_idle acted idle
  refine ⟨[.acted ((s.perform now (.choose contact index)).perform now .flush).play], ?_⟩
  unfold allMoments moments
  rw [acted, firings_of_acted acted, firings_of_none idle, left]
  unfold allMoments moments
  simp only [acted?, firings, left, Option.toList_some, Option.toList_none, List.map_cons,
    List.map_nil, List.nil_append, List.cons_append, allMoments, List.append_nil]

/- The equivalence, for that second pick. -/
theorem requests_follow_own_sequence_iff_overlapping : ∃ (s : Session) (choice : Choice)
    (said : Play) (key : RoundKey) (round : Round) (start play : Play) (before later : List Moment)
    (slot : Slot), s.Reached ∧ Picks s 1000 "A" 0 choice said key round ∧
    (∀ step ∈ [(1000, Operation.flush)], step.2.Ongoing) ∧
    s.allMoments [(1000, .choose "A" 0), (1000, .flush)] =
      .acted start :: (before ++ .fired play slot :: later) ∧
    (start.progress.unlocks.contains "A" || start.progress.endings.has "A") = true ∧
    slot.NoticesOf "A" ∧ Unnoticed "A" before ∧
    (start.progress.unlocks.getD "A" [] <+: play.progress.unlocks.getD "A" [] ∧
    (∀ target ∈ start.progress.unlocks.getD "A" [], start.program.has target = true →
      (play.fire slot).canUnlock target = false) ∧
    (OpenThroughout "A" start before → start.progress.endings.has "A" = true →
      play.progress.endings.has "A" = true ∧ (play.fire slot).Ended "A") ∧
    ∃ own, start.queue.lane "A" = s.play.queue.lane "A" ++ own ∧
      own.map (·.task.delivery) = start.sequence "A" (said.evaluation round).text
        (choice.action.toList ++ (said.evaluation round).actions) ∧
      (firedFor "A" before ++ [slot] = s.play.queue.lane "A" ++ own ↔ ¬s.play.Noticed "A") ∧
      (s.play.Noticed "A" → firedFor "A" before ++ [slot] <+: s.play.queue.lane "A")) := by
  obtain ⟨program, compiled, both⟩ := played_of_any played_overlapping
  have shown := (Bool.and_eq_true_iff.1 both).2
  have reached : ((start program {} .empty 1000).performAll pickOnce).Reached := by
    apply Reached.performAll (.start {} 1000 ⟨overlapping, compiled⟩ rfl)
    exact List.forall_mem_singleton.2 trivial
  generalize (start program {} .empty 1000).performAll pickOnce = s at shown reached
  obtain ⟨choice, offered, shown⟩ := (Option.any_eq_true _ _).1 shown
  obtain ⟨key, leads, shown⟩ := (Option.any_eq_true _ _).1 shown
  simp only [Bool.and_eq_true, decide_eq_true_eq] at shown
  obtain ⟨⟨⟨exists_round, idle⟩, asked⟩, notified⟩ := shown
  obtain ⟨round, found⟩ := Option.isSome_iff_exists.1 exists_round
  have picks : Picks s 1000 "A" 0 choice _ key round := ⟨offered, rfl, leads, found⟩
  obtain ⟨before, play, slot, later, fires, notices, first⟩ := exists_first_notices notified
  obtain ⟨more, whole⟩ := allMoments_choose_flush picks.acted idle
  rw [fires, List.append_assoc, List.cons_append] at whole
  have ongoing : ∀ step ∈ [(1000, Operation.flush)], step.2.Ongoing := List.forall_mem_singleton.2 rfl
  exact ⟨s, choice, _, key, round, _, play, _, _, slot, reached, picks, ongoing, whole, asked, notices,
    first.acted _, requests_follow_own_sequence_iff reached picks ongoing whole asked notices
      (first.acted _)⟩

end Session
end ChatStory
