import ChatStory.Proofs.Session.Clock
import ChatStory.Proofs.Session.Speech

/-!
Requests. What a contact has asked for, an unlock or the end of its thread, waits for notices of the
contact, whichever come up first. Nothing else delivers it, and only the end of a thread that was
left and opened again is forgotten.
-/
namespace ChatStory

/-- Notices of a contact. -/
def Slot.NoticesOf (contact : String) (slot : Slot) : Prop :=
  slot.task.contact = contact ∧ slot.task.delivery = .notices

instance (contact : String) (slot : Slot) : Decidable (slot.NoticesOf contact) :=
  inferInstanceAs (Decidable (_ ∧ _))

namespace Play

/-- What the contact has asked for still waits; the end of a closed thread need not. -/
structure Holds (contact : String) (a b : Play) : Prop where
  targets : a.progress.unlocks.getD contact [] <+: b.progress.unlocks.getD contact []
  ending : a.progress.isClosed contact = false → a.progress.endings.has contact = true →
    b.progress.endings.has contact = true

variable {a b : Play} {contact : String} {now : Nat}

theorem Speaks.holds {holder : String → Prop} (speaks : Speaks holder a b) (free : ¬holder contact) :
    Holds contact a b :=
  ⟨speaks.targets contact free, speaks.endings contact⟩

theorem holds_of_same (unlocks : b.progress.unlocks = a.progress.unlocks)
    (endings : b.progress.endings = a.progress.endings) : Holds contact a b := by
  refine ⟨unlocks ▸ List.prefix_rfl, fun _ => ?_⟩
  rw [endings]
  exact id

theorem finishThread_requests (a : Play) (contact : String) (time : Nat) :
    (a.finishThread contact time).progress.unlocks = a.progress.unlocks ∧
      (a.finishThread contact time).progress.endings = a.progress.endings := by
  unfold finishThread putThread
  dsimp only
  split
  · exact ⟨rfl, rfl⟩
  · split
    · exact ⟨rfl, rfl⟩
    · exact ⟨rfl, rfl⟩

theorem layOut_requests (a : Play) (contact text : String) (plan : Plan) (time : Nat)
    (tempo : Tempo) :
    (a.layOut contact text plan time tempo).progress.unlocks = a.progress.unlocks ∧
      (a.layOut contact text plan time tempo).progress.endings = a.progress.endings := by
  rw [progress_layOut]
  cases tempo with
  | immediate =>
    simp only [reply]
    split <;> exact ⟨rfl, rfl⟩
  | typed =>
    rw [progress_reply_typed]
    exact ⟨rfl, rfl⟩

theorem active_not_closed (active : a.progress.thread? contact = some .active) :
    a.progress.isClosed contact = false := by
  rw [Progress.isClosed, active]
  rfl

/- A payload says something, or stirs. -/
theorem holds_run (formed : a.program.WellFormed) {speaker : String}
    (known : a.program.has speaker = true) (action : Action) (time : Nat) :
    Holds contact a (a.run speaker action time) := by
  cases bubble : action.effect.isBubble with
  | false =>
    have stirs := (stirs_runWith (quiet_reopen a.closedThreads) formed known bubble time).1
    have speaks : Speaks nobody a (a.run speaker action time) := .of_stirs stirs
    exact speaks.holds id
  | true =>
    rcases run_bubble bubble a speaker time with ⟨_, _, _, _, same⟩ | ⟨_, _, same⟩
    · rw [same]
      exact holds_of_same rfl rfl
    · rw [same]
      exact holds_of_same rfl rfl

/- Notices deliver what their own contact has asked for. -/
theorem holds_deliverHeld (formed : a.program.WellFormed) {other : String} (different : contact ≠ other)
    (time : Nat) : Holds contact a (a.deliverHeld other time) := by
  have unlocked : Holds contact a (a.unlockHeld other time) :=
    (speaks_unlockHeld formed other time).1.holds different
  rw [deliverHeld_eq]
  generalize a.unlockHeld other time = middle at unlocked
  unfold endPending
  split
  · obtain ⟨unlocks, endings⟩ := finishThread_requests
      (middle.revise fun p => { p with endings := p.endings.remove other }) other time
    have ended : Holds contact a ((middle.revise fun p => { p with
        endings := p.endings.remove other }).finishThread other time) := by
      refine ⟨?_, ?_⟩
      · rw [unlocks]
        exact unlocked.targets
      · intro opened asked
        rw [endings]
        exact (NameSet.has_remove _ _ _).2 ⟨different, unlocked.ending opened asked⟩
    dsimp only
    split
    · exact ended
    · exact ⟨ended.targets, ended.ending⟩
  · exact unlocked

/- Who cannot be unlocked stays so. -/
theorem Grows.cannot {time : Nat} (grows : Grows time a b) {target : String}
    (cannot : a.canUnlock target = false) : b.canUnlock target = false := by
  apply Bool.eq_false_iff.2
  intro can
  exact Bool.eq_false_iff.1 cannot (grows.unlocking target can)

theorem used_unlock {target : String} (known : a.program.has target = true) (contact : String)
    (time : Nat) : (a.unlock contact target time).canUnlock target = false := by
  obtain ⟨entry, found⟩ := Table.contains_eq_true.1 known
  unfold unlock
  rw [Program.contact?, found]
  dsimp only
  split
  · rename_i had
    rw [canUnlock, had]
    rfl
  · have opened : (((a.say contact (.ofUnlock target) time).setUnlocked target).putThread target
        .active).canUnlock target = false := by
      rw [canUnlock, unlocked_putThread, has_setUnlocked, thread?_putThread]
      rfl
    generalize ((a.say contact (.ofUnlock target) time).setUnlocked target).putThread target
      .active = ready at opened
    split
    · rename_i key _
      have grows : Grows time ready ((ready.announce (.actionExecuted contact
          { effect := .unlockContact target })).enter target key time .immediate none) :=
        (Grows.announce _ _).trans (.enter _ target key .immediate none)
      exact grows.cannot opened
    · exact opened

/- By induction on the targets: none of them can be unlocked again. -/
theorem used_unlocks {target : String} (known : a.program.has target = true) (contact : String)
    (time : Nat) {targets : List String} (member : target ∈ targets) :
    (targets.foldl (fun play target => play.unlock contact target time) a).canUnlock target = false := by
  induction targets generalizing a with
  | nil => cases member
  | cons first rest ih =>
    rw [List.foldl_cons]
    have grows : Grows time a (a.unlock contact first time) := .unlock a contact first
    by_cases here : target ∈ rest
    · apply ih _ here
      rw [grows.program]
      exact known
    · have own : target = first := (List.mem_cons.1 member).resolve_right here
      have others : Grows time (a.unlock contact first time) (rest.foldl
          (fun play target => play.unlock contact target time) (a.unlock contact first time)) :=
        (Grows.spans time).foldl (fun play target => .unlock play contact target) _ _
      rw [own] at known ⊢
      exact others.cannot (used_unlock known contact time)

/- Notices deliver all that their contact has asked for. -/
theorem delivered_deliverHeld (formed : a.program.WellFormed) (contact : String) (time : Nat) :
    (∀ target ∈ a.progress.unlocks.getD contact [], a.program.has target = true →
      (a.deliverHeld contact time).canUnlock target = false) ∧
    (a.progress.isClosed contact = false → a.progress.endings.has contact = true →
      (a.deliverHeld contact time).Ended contact) := by
  rw [deliverHeld_eq]
  constructor
  · intro target member known
    have unlocked : (a.unlockHeld contact time).canUnlock target = false := by
      apply used_unlocks _ contact time member
      exact known
    have ended : Grows time (a.unlockHeld contact time) _ := .endPending _ contact
    exact ended.cannot unlocked
  · intro opened asked
    have still := (speaks_unlockHeld formed contact time).1.endings contact opened asked
    have ended := thread?_finishThread ((a.unlockHeld contact time).revise fun p => { p with
      endings := p.endings.remove contact }) contact time
    unfold endPending
    rw [if_pos still]
    dsimp only
    split
    · exact ended
    · exact ended

theorem holds_fire (coherent : a.Coherent) {slot : Slot} (next : a.queue.next? = some slot)
    (other : ¬slot.NoticesOf contact) : Holds contact a (a.dropFirst.fire slot) := by
  have fired : Holds contact a.dropFirst (a.dropFirst.fire slot) := by
    unfold fire
    rw [if_pos (coherent.epoch_first next)]
    cases delivery : slot.task.delivery with
    | typing => exact holds_of_same rfl rfl
    | reply text => exact holds_of_same rfl rfl
    | payload action =>
      exact holds_run (a := a.dropFirst) coherent.formed (coherent.known_first next) action slot.time
    | notices =>
      apply holds_deliverHeld (a := a.dropFirst) coherent.formed
      intro same
      exact other ⟨same.symm, delivery⟩
  exact ⟨fired.targets, fired.ending⟩

theorem delivered_fire (coherent : a.Coherent) {slot : Slot} (next : a.queue.next? = some slot)
    (notices : slot.NoticesOf contact) :
    (∀ target ∈ a.progress.unlocks.getD contact [], a.program.has target = true →
      (a.dropFirst.fire slot).canUnlock target = false) ∧
    (a.progress.isClosed contact = false → a.progress.endings.has contact = true →
      (a.dropFirst.fire slot).Ended contact) := by
  unfold fire
  rw [if_pos (coherent.epoch_first next), notices.1, notices.2]
  exact delivered_deliverHeld (a := a.dropFirst) coherent.formed contact slot.time

theorem holds_choose (coherent : a.Coherent) {speaker : String} {index : Nat}
    (chosen : a.choose? speaker index now = some b) : Holds contact a b := by
  obtain ⟨choice, offered, done⟩ := Option.bind_eq_some_iff.1 chosen
  have opened : ¬a.Ended speaker := by
    intro ended
    rw [Ended, active_of_choice offered] at ended
    cases ended
  have plain : ({ text := choice.text, fromPlayer := true } : Saying).kind ≠ .endThread :=
    show MessageKind.text ≠ .endThread by decide
  have said : Speaks nobody a (a.say speaker { text := choice.text, fromPlayer := true } now) :=
    .say a plain now (.inr opened)
  cases done
  split
  · rename_i key _
    have formed : (a.say speaker { text := choice.text, fromPlayer := true } now).program.WellFormed :=
      coherent.formed
    exact (said.trans (speaks_enter formed opened key now .typed choice.action)).holds id
  · obtain ⟨unlocks, endings⟩ := finishThread_requests
      ((a.say speaker { text := choice.text, fromPlayer := true } now).revise fun p => { p with
        rounds := p.rounds.erase speaker }) speaker now
    exact holds_of_same unlocks endings

theorem holds_acted {s : Session} (coherent : s.play.Coherent) {operation : Operation}
    (ongoing : operation.Ongoing) (acted : s.acted? now operation = some a) :
    Holds contact s.play a := by
  cases operation with
  | choose speaker index => exact holds_choose coherent acted
  | setVariable name value =>
    cases acted
    have speaks : Speaks nobody s.play (s.play.assign name value now) :=
      .of_stirs (stirs_assign coherent.formed name value now)
    exact speaks.holds id
  | execute speaker actions =>
    unfold Session.acted? execute? at acted
    dsimp only at acted
    split at acted
    · rename_i known
      cases acted
      have planned :=
        (stirs_planWith (quiet_reopen s.play.closedThreads) coherent.formed known now actions).1
      have speaks : Speaks nobody s.play (s.play.plan speaker actions now).1 := .of_stirs planned
      have kept : Holds contact s.play (s.play.plan speaker actions now).1 := speaks.holds id
      obtain ⟨unlocks, endings⟩ := layOut_requests (s.play.plan speaker actions now).1 speaker ""
        (s.play.plan speaker actions now).2 now .immediate
      refine ⟨?_, ?_⟩
      · rw [unlocks]
        exact kept.targets
      · rw [endings]
        exact kept.ending
    · cases acted
  | tick =>
    cases acted
    exact holds_of_same rfl rfl
  | switchProgram program | reset => cases ongoing
  | setTypingDelay delay | flush | view speaker | collectNotifications | takeEvents => cases acted

end Play

namespace Session

open Play

variable {a b : Play} {contact : String}

theorem holds_acts (coherent : a.Coherent) (acts : Acts Operation.Ongoing a b) : Holds contact a b := by
  cases acts with
  | acted ongoing acted => exact holds_acted coherent ongoing acted
  | unacted ongoing unacted waits =>
    have rests := rests_of_unacted unacted waits ongoing
    exact holds_of_same rests.unlocks rests.endings
  | noted => exact holds_of_same rfl rfl
  | still => exact holds_of_same rfl rfl

/-- No notices of the contact have come up. -/
def Unnoticed (contact : String) (moments : List Moment) : Prop :=
  ∀ m ∈ moments, ∀ slot, m.slot? = some slot → ¬slot.NoticesOf contact

/-- The thread of the contact has been open all the time. -/
def OpenThroughout (contact : String) (a : Play) (moments : List Moment) : Prop :=
  a.progress.isClosed contact = false ∧ ∀ m ∈ moments, m.play.progress.isClosed contact = false

theorem OpenThroughout.last {moments : List Moment} (throughout : OpenThroughout contact a moments) :
    (a.last moments).progress.isClosed contact = false := by
  rcases last_mem a moments with same | ⟨m, member, same⟩
  · rw [same]
    exact throughout.1
  · rw [← same]
    exact throughout.2 m member

/- By induction on the moments: until notices of the contact come up, what it has asked for waits. -/
theorem holds_follows {moments : List Moment} (follows : Follows Operation.Ongoing a moments)
    (coherent : a.Coherent) (unnoticed : Unnoticed contact moments) :
    a.progress.unlocks.getD contact [] <+: (a.last moments).progress.unlocks.getD contact [] ∧
      (OpenThroughout contact a moments → a.progress.endings.has contact = true →
        (a.last moments).progress.endings.has contact = true) := by
  induction follows with
  | nil => exact ⟨List.prefix_rfl, fun _ => id⟩
  | @acted a b rest acts _ ih =>
    have held : Holds contact a b := holds_acts coherent acts
    obtain ⟨targets, ending⟩ := ih (coherent.moves (moves_acts coherent acts))
      fun m member => unnoticed m (List.mem_cons_of_mem _ member)
    refine ⟨held.targets.trans targets, ?_⟩
    rintro ⟨opened, throughout⟩ asked
    obtain ⟨first, others⟩ := List.forall_mem_cons.1 throughout
    exact ending ⟨first, others⟩ (held.ending opened asked)
  | @fired a slot rest next _ ih =>
    have held := holds_fire coherent next (unnoticed _ List.mem_cons_self slot rfl)
    obtain ⟨targets, ending⟩ := ih (coherent_fire coherent next)
      fun m member => unnoticed m (List.mem_cons_of_mem _ member)
    refine ⟨held.targets.trans targets, ?_⟩
    rintro ⟨opened, throughout⟩ asked
    obtain ⟨first, others⟩ := List.forall_mem_cons.1 throughout
    exact ending ⟨first, others⟩ (held.ending opened asked)

/-- The tasks of a contact among those that were fired. -/
def firedFor (contact : String) (moments : List Moment) : List Slot :=
  (moments.filterMap Moment.slot?).filter (·.task.contact == contact)

/- By induction on the moments: a lane is fired from its front, and added to at its end. -/
theorem lane_follows {moments : List Moment} (follows : Follows Operation.Ongoing a moments)
    (coherent : a.Coherent) (contact : String) :
    (a.last moments).Coherent ∧ (a.last moments).program = a.program ∧
      a.queue.lane contact <+: firedFor contact moments ++ (a.last moments).queue.lane contact := by
  induction follows with
  | nil => exact ⟨coherent, rfl, List.prefix_rfl⟩
  | @acted a b rest acts _ ih =>
    have moves := moves_acts coherent acts
    obtain ⟨after, program, lane⟩ := ih (coherent.moves moves)
    exact ⟨after, program.trans moves.program, (moves.queue.lane coherent.bounded contact).trans lane⟩
  | @fired a slot rest next _ ih =>
    have moves := (moves_fire_busy (a := a.dropFirst) coherent.formed (coherent.known_first next)).1
    obtain ⟨after, program, lane⟩ := ih (coherent_fire coherent next)
    have rests := (moves.queue.lane (Queue.bounded_rest coherent.bounded) contact).trans lane
    refine ⟨after, program.trans moves.program, ?_⟩
    rw [Queue.lane_rest next]
    have split : firedFor contact (.fired a.dropFirst slot :: rest) =
        (if slot.task.contact = contact then [slot] else []) ++ firedFor contact rest := by
      unfold firedFor
      rw [List.filterMap_cons]
      simp only [Moment.slot?, List.filter_cons, beq_iff_eq]
      split <;> rfl
    rw [split, List.append_assoc]
    exact (List.prefix_append_right_inj _).2 rests

end Session
end ChatStory
