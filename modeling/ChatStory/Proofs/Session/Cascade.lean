import ChatStory.Proofs.Session.Stir

/-!
Cascades. An assignment, the rounds it reopens, and the assignments of these rounds say nothing and
leave nobody behind. What is asked for while a round is entered is on the timeline once the
round has been laid out.
-/
namespace ChatStory.Play

open Stirs (only)

/-- Everything that waits for the contact's notices has them, and an open thread is in a round. -/
structure Settled (play : Play) (contact : String) : Prop where
  rounded : ¬play.Unrounded contact
  unlocks : ¬play.StrandsUnlocks contact
  ending : ¬play.StrandsEnding contact

variable {a b c : Play} {laying : String → Prop}

theorem Moves.settle {contact : String} (moves : Moves (only contact) a b)
    (settled : b.Settled contact) : Moves nobody a b := by
  refine { moves with unrounded := ?_, unlocks := ?_, ending := ?_ }
  · intro other _ loose
    by_cases own : other = contact
    · subst own
      exact absurd loose settled.rounded
    · exact moves.unrounded other own loose
  · intro other _ loose
    by_cases own : other = contact
    · subst own
      exact absurd loose settled.unlocks
    · exact moves.unlocks other own loose
  · intro other _ loose
    by_cases own : other = contact
    · subst own
      exact absurd loose settled.ending
    · exact moves.ending other own loose

/- A closed thread may be busy while it is opened, and has its own lane. -/
theorem Stirs.settle {contact : String} (stirs : Stirs (only contact) (only contact) a b)
    (closed : a.progress.isClosed contact = true) (settled : b.Settled contact) :
    Stirs nobody nobody a b := by
  refine { stirs with toMoves := stirs.toMoves.settle settled, lanes := ?_ }
  intro other _ opened
  apply stirs.lanes other _ opened
  rintro rfl
  rw [closed] at opened
  cases opened

theorem Stirs.spread {contact : String} (stirs : Stirs nobody nobody a b) :
    Stirs (only contact) laying a b :=
  stirs.widen (fun _ => False.elim) fun _ => False.elim

/-- Reopening a thread in a round that it has leaves nobody behind. -/
def Quiet (again : Reopening) : Prop :=
  ∀ play contact key time, play.program.WellFormed →
    (play.program.round? contact key).isSome = true →
    Stirs nobody nobody play (again play contact key time)

theorem round_of_nowOpen (formed : a.program.WellFormed) {before : Variables}
    {entry : String × RoundKey} (member : entry ∈ a.nowOpen before) :
    (a.program.round? entry.1 entry.2).isSome = true := by
  obtain ⟨contact, listed, opened⟩ := List.mem_filterMap.1 member
  obtain ⟨key, newly, rfl⟩ := Option.map_eq_some_iff.1 opened
  obtain ⟨round, found, rfl⟩ := Option.map_eq_some_iff.1 newly
  exact formed.round_of_conditional (List.mem_filter.1 listed).1 (List.mem_of_find?_eq_some found)

variable {again : Reopening} (quiet : Quiet again)

include quiet

theorem stirs_assignWith (formed : a.program.WellFormed) (name : String) (value : Value)
    (time : Nat) : Stirs nobody nobody a (a.assignWith again name value time) := by
  unfold assignWith
  dsimp only
  split
  · exact .refl _ _ a
  · let valued := a.revise fun p => { p with values := a.progress.values.insert name value }
    have assigned : Stirs nobody nobody a valued := by
      refine .revise ?_ rfl rfl rfl rfl rfl
      intro kept
      refine { kept with values := ?_ }
      intro other known
      exact (Table.contains_insert _ _ _ _).2 (.inr (kept.values other known))
    have told := assigned.trans (.announce nobody nobody valued (.variableChanged name value))
    apply told.trans
    apply Stirs.foldl
    intro play same entry member
    have found := round_of_nowOpen (a := valued.announce (.variableChanged name value)) formed member
    apply quiet
    · rw [same]
      exact formed
    · rw [same]
      exact found

/- Only an effect that is held back makes its contact wait. -/
theorem stirs_effectWith (formed : a.program.WellFormed) {contact : String}
    (known : a.program.has contact = true) {time : Nat} {effect : Effect}
    (silent : effect.isBubble = false) (done : a.effectWith? again contact time effect = some b) :
    Stirs (only contact) nobody a b ∧ (∀ c, b.Unrounded c → a.Unrounded c) ∧
      (effect.isHeldBack = false → Stirs nobody nobody a b) := by
  have plain : Stirs nobody nobody a b → Stirs (only contact) nobody a b ∧
      (∀ c, b.Unrounded c → a.Unrounded c) ∧
        (effect.isHeldBack = false → Stirs nobody nobody a b) := by
    intro stirs
    exact ⟨stirs.spread, fun c => stirs.unrounded c id, fun _ => stirs⟩
  cases effect with
  | unlockContact target =>
    simp only [effectWith?] at done
    split at done
    · cases done
      exact ⟨.askUnlock nobody a known target, fun _ => id, fun now => by cases now⟩
    · cases done
  | endThread =>
    cases done
    exact ⟨.askEnding nobody a known, fun _ => id, fun now => by cases now⟩
  | delayedMessage text target => cases silent
  | sendPhoto media caption => cases silent
  | sendVideo media caption => cases silent
  | dropPin pin => cases silent
  | typingIndicator duration => cases silent
  | setTypingDelay delay =>
    cases done
    exact plain (.revise (fun kept => { kept with }) rfl rfl rfl rfl rfl)
  | setVariable name value =>
    cases done
    exact plain (stirs_assignWith quiet formed name value time)
  | setContactStatus target status =>
    simp only [effectWith?] at done
    split at done
    · rename_i has
      cases done
      refine plain (.revise ?_ rfl rfl rfl rfl rfl)
      intro kept
      refine { kept with statuses := ?_ }
      intro other had
      rcases (Table.contains_insert _ _ _ _).1 had with same | had
      · rw [same]
        exact has
      · exact kept.statuses other had
    · cases done
  | showNotification title text =>
    cases done
    exact plain (.revise (fun kept => { kept with }) rfl rfl rfl rfl rfl)
  | openThread target =>
    simp only [effectWith?] at done
    split at done
    · rename_i has
      cases done
      refine plain (.revise ?_ rfl rfl rfl rfl rfl)
      intro kept
      refine { kept with viewed := ?_ }
      intro other had
      rcases (NameSet.has_add _ _ _).1 had with same | had
      · rw [same]
        exact (Bool.and_eq_true_iff.1 has).1
      · exact kept.viewed other had
    · cases done
  | vibrate duration =>
    cases done
    exact plain (.refl _ _ a)
  | callEmergency =>
    cases done
    exact plain (.refl _ _ a)
  | needCode =>
    cases done
    exact plain (.refl _ _ a)
  | triggerCall number =>
    cases done
    exact plain (.refl _ _ a)

theorem stirs_runWith (formed : a.program.WellFormed) {contact : String}
    (known : a.program.has contact = true) {action : Action}
    (silent : action.effect.isBubble = false) (time : Nat) :
    Stirs (only contact) nobody a (a.runWith again contact action time) ∧
      (∀ c, (a.runWith again contact action time).Unrounded c → a.Unrounded c) ∧
        (action.effect.isHeldBack = false →
          Stirs nobody nobody a (a.runWith again contact action time)) := by
  unfold runWith
  split
  · rename_i after done
    obtain ⟨busy, rounded, free⟩ := stirs_effectWith quiet formed known silent done
    split
    · rename_i held
      refine ⟨busy, rounded, fun now => ?_⟩
      rw [held] at now
      cases now
    · exact ⟨busy.trans (.announce _ _ _ _), rounded, fun now => (free now).trans (.announce _ _ _ _)⟩
  · exact ⟨.refl _ _ a, fun _ => id, fun _ => .refl _ _ a⟩

theorem stirs_planWith (formed : a.program.WellFormed) {contact : String}
    (known : a.program.has contact = true) (time : Nat) (actions : List Action) :
    Stirs (only contact) nobody a (a.planWith again contact time actions).1 ∧
      ∀ c, (a.planWith again contact time actions).1.Unrounded c → a.Unrounded c := by
  induction actions generalizing a with
  | nil => exact ⟨.refl _ _ a, fun _ => id⟩
  | cons action rest ih =>
    have next : action.effect.isBubble = false →
        let after := ((a.runWith again contact action time).planWith again contact time rest).1
        Stirs (only contact) nobody a after ∧ ∀ c, after.Unrounded c → a.Unrounded c := by
      intro silent
      obtain ⟨first, rounded, _⟩ := stirs_runWith quiet formed known silent time
      obtain ⟨others, kept⟩ := ih (a := a.runWith again contact action time)
        (by rw [first.program]; exact formed) (by rw [first.program]; exact known)
      exact ⟨first.trans others, fun c loose => rounded c (kept c loose)⟩
    simp only [planWith]
    split
    · rename_i held
      apply next
      rw [Bool.eq_false_iff]
      intro bubble
      rw [Effect.not_heldBack_of_bubble bubble] at held
      cases held
    · split
      · exact ih formed known
      · rename_i now
        apply next
        simp only [Bool.or_eq_true, not_or] at now
        exact Bool.eq_false_iff.2 now.1

omit quiet

/- A payload is never held back: it is put on the timeline as it is. -/
theorem payload_of_planWith (again : Reopening) (a : Play) (contact : String) (time : Nat)
    (actions : List Action) : ∀ action ∈ (a.planWith again contact time actions).2.payloads,
      action.effect.isHeldBack = false := by
  induction actions generalizing a with
  | nil => simp [planWith]
  | cons first rest ih =>
    simp only [planWith]
    split
    · exact ih _
    · rename_i now
      split
      · intro action member
        rcases List.mem_cons.1 member with rfl | member
        · exact Bool.eq_false_iff.2 now
        · exact ih a action member
      · exact ih _

theorem accepts_typing (a : Play) {contact : String} (known : a.program.has contact = true) :
    a.Accepts ⟨contact, a.epoch, .typing⟩ :=
  ⟨rfl, known, fun _ other => by cases other⟩

theorem accepts_reply (a : Play) {contact : String} (known : a.program.has contact = true)
    (text : String) : a.Accepts ⟨contact, a.epoch, .reply text⟩ :=
  ⟨rfl, known, fun _ other => by cases other⟩

theorem accepts_notices (a : Play) {contact : String} (known : a.program.has contact = true) :
    a.Accepts ⟨contact, a.epoch, .notices⟩ :=
  ⟨rfl, known, fun _ other => by cases other⟩

theorem accepts_payload (a : Play) {contact : String} (known : a.program.has contact = true)
    {action : Action} (now : action.effect.isHeldBack = false) :
    a.Accepts ⟨contact, a.epoch, .payload action⟩ :=
  ⟨rfl, known, fun _ same => by cases same; exact now⟩

theorem stirs_reply {contact : String} (known : a.program.has contact = true) (text : String)
    (time : Nat) : Stirs (only contact) (only contact) a (a.reply contact text time .typed).1 := by
  have typing : Stirs (only contact) (only contact) a (if 0 < a.progress.typingDelay then
      a.schedule contact (time + a.progress.typingDelay) .typing else a) := by
    split
    · exact .schedule a _ (accepts_typing a known)
    · exact .refl _ _ a
  simp only [reply]
  split
  · exact typing
  · apply typing.trans
    apply Stirs.schedule
    apply accepts_reply
    rw [typing.program]
    exact known

theorem stirs_schedulePayloads {contact : String} (known : a.program.has contact = true)
    (replyTime last : Nat) {payloads : List Action}
    (now : ∀ action ∈ payloads, action.effect.isHeldBack = false) :
    Stirs (only contact) (only contact) a (a.schedulePayloads contact replyTime last payloads).1 := by
  induction payloads generalizing a last with
  | nil => exact .refl _ _ a
  | cons action rest ih =>
    simp only [schedulePayloads]
    have first : Stirs (only contact) (only contact) a
        (a.schedule contact (replyTime + action.delay) (.payload action)) :=
      .schedule a _ (accepts_payload a known (now action List.mem_cons_self))
    apply first.trans
    apply ih
    · exact known
    · intro other member
      exact now other (List.mem_cons_of_mem action member)

theorem noticed_schedule (a : Play) (contact : String) (time : Nat) :
    (a.schedule contact time .notices).Noticed contact :=
  ⟨_, Queue.mem_schedule.2 (.inl rfl), rfl, rfl⟩

/- The last step of laying out: whoever waits gets notices. -/
theorem stirs_notices {contact : String} (known : a.program.has contact = true) (time : Nat)
    (rounded : ¬a.Unrounded contact) :
    let after := if a.progress.unlocks.contains contact || a.progress.endings.has contact then
      a.schedule contact time .notices else a
    Stirs (only contact) (only contact) a after ∧ after.Settled contact := by
  dsimp only
  split
  · refine ⟨.schedule a _ (accepts_notices a known), rounded, ?_, ?_⟩
    · rintro ⟨_, lost⟩
      exact lost (noticed_schedule a contact time)
    · rintro ⟨_, lost⟩
      exact lost (noticed_schedule a contact time)
  · rename_i none
    simp only [Bool.or_eq_true, not_or] at none
    exact ⟨.refl _ _ a, rounded, fun strands => none.1 strands.1, fun strands => none.2 strands.1⟩

theorem progress_reply_typed (a : Play) (contact text : String) (time : Nat) :
    (a.reply contact text time .typed).1.progress = a.progress := by
  simp only [reply]
  split <;> split <;> rfl

theorem moves_reply {contact : String} (known : a.program.has contact = true) (text : String)
    (time : Nat) (tempo : Tempo) : Moves (only contact) a (a.reply contact text time tempo).1 := by
  cases tempo with
  | immediate =>
    simp only [reply]
    split
    · exact .refl _ a
    · exact .say a known _ _
  | typed => exact (stirs_reply known text time).toMoves

/- A reply changes nothing but histories and the timeline. -/
theorem unrounded_reply (a : Play) (contact text : String) (time : Nat) (tempo : Tempo)
    (other : String) :
    (a.reply contact text time tempo).1.Unrounded other ↔ a.Unrounded other := by
  cases tempo with
  | immediate =>
    simp only [reply]
    split <;> exact .rfl
  | typed => rw [Unrounded, Unrounded, progress_reply_typed]

theorem progress_schedulePayloads (a : Play) (contact : String) (replyTime last : Nat)
    (payloads : List Action) :
    (a.schedulePayloads contact replyTime last payloads).1.progress = a.progress := by
  induction payloads generalizing a last with
  | nil => rfl
  | cons action rest ih =>
    simp only [schedulePayloads]
    rw [ih]
    rfl

theorem rounded_of_contains {contact : String} (had : a.progress.rounds.contains contact = true) :
    ¬a.Unrounded contact := by
  rintro ⟨_, none⟩
  rw [Table.contains, none] at had
  cases had

theorem progress_layOut (a : Play) (contact text : String) (plan : Plan) (time : Nat)
    (tempo : Tempo) : (a.layOut contact text plan time tempo).progress =
      (a.reply contact text time tempo).1.progress := by
  have same := progress_schedulePayloads (a.reply contact text time tempo).1 contact
    (a.reply contact text time tempo).2 (a.reply contact text time tempo).2 plan.payloads
  unfold layOut
  dsimp only
  split <;> exact same

/- Whatever is asked for while a round is entered is on the timeline when it has been laid out. -/
theorem moves_layOut {contact : String} (known : a.program.has contact = true) (text : String)
    {plan : Plan} (now : ∀ action ∈ plan.payloads, action.effect.isHeldBack = false) (time : Nat)
    (tempo : Tempo) (rounded : ¬a.Unrounded contact) :
    Moves (only contact) a (a.layOut contact text plan time tempo) ∧
      (a.layOut contact text plan time tempo).Settled contact ∧
      (tempo = .typed →
        Stirs (only contact) (only contact) a (a.layOut contact text plan time tempo)) := by
  have replied := moves_reply known text time tempo
  have same := unrounded_reply a contact text time tempo contact
  unfold layOut
  dsimp only
  generalize said : a.reply contact text time tempo = answer at replied same
  have known' : answer.1.program.has contact = true := by
    rw [replied.program]
    exact known
  have laid := stirs_schedulePayloads known' answer.2 answer.2 now
  have quiet := progress_schedulePayloads answer.1 contact answer.2 answer.2 plan.payloads
  generalize answer.1.schedulePayloads contact answer.2 answer.2 plan.payloads = payloads at laid quiet
  have known'' : payloads.1.program.has contact = true := by
    rw [laid.program]
    exact known'
  have stays : ¬payloads.1.Unrounded contact := by
    rw [Unrounded, quiet]
    exact fun loose => rounded (same.1 loose)
  obtain ⟨noticed, settled⟩ := stirs_notices known'' (max payloads.2 (answer.2 + plan.holding)) stays
  refine ⟨(replied.trans laid.toMoves).trans noticed.toMoves, settled, ?_⟩
  intro typed
  subst typed
  have first := stirs_reply known text time
  rw [said] at first
  exact (first.trans laid).trans noticed

/-- A contact whose thread has been put into a round, before anything of the round is done. -/
def placed (play : Play) (contact : String) (key : RoundKey) : Play :=
  play.revise fun p => { p with rounds := p.rounds.insert contact key }

/-- A round that has been entered but not laid out yet, and what is left to lay out. -/
def prepared (again : Reopening) (a : Play) (contact : String) (key : RoundKey) (round : Round)
    (time : Nat) (leading : Option Action) : Play × Plan :=
  ((a.evaluation round).assignments.foldl
    (fun play (a : Assignment) => play.assignWith again a.name a.value time)
    (a.revise fun p => { p with rounds := p.rounds.insert contact key })).planWith again contact time
      (leading.toList ++ (a.evaluation round).actions)

theorem enterWith_eq (again : Reopening) {contact : String} {key : RoundKey} {round : Round}
    (found : a.program.round? contact key = some round) (time : Nat) (tempo : Tempo)
    (leading : Option Action) : a.enterWith again contact key time tempo leading =
      (a.prepared again contact key round time leading).1.layOut contact (a.evaluation round).text
        (a.prepared again contact key round time leading).2 time tempo := by
  unfold enterWith
  rw [found]
  rfl

theorem stirs_prepared (quiet : Quiet again) (formed : a.program.WellFormed) {contact : String}
    {key : RoundKey} {round : Round} (found : a.program.round? contact key = some round)
    (time : Nat) (leading : Option Action) :
    Stirs (only contact) nobody a (a.prepared again contact key round time leading).1 ∧
      (a.prepared again contact key round time leading).1.progress.rounds.contains contact = true := by
  have has : (a.program.round? contact key).isSome = true := Option.isSome_of_eq_some found
  have known := Program.has_of_round has
  let entered := a.revise fun p => { p with rounds := p.rounds.insert contact key }
  have placed : Stirs nobody nobody a entered := .putRound nobody nobody a has
  let assigned := (a.evaluation round).assignments.foldl
    (fun play (a : Assignment) => play.assignWith again a.name a.value time) entered
  have set : Stirs nobody nobody entered assigned := by
    apply Stirs.foldl
    intro play unchanged assignment _
    apply stirs_assignWith quiet
    rw [unchanged]
    exact formed
  have before := placed.trans set
  have formed' : assigned.program.WellFormed := by
    rw [before.program]
    exact formed
  have known' : assigned.program.has contact = true := by
    rw [before.program]
    exact known
  have planned := (stirs_planWith quiet formed' known' time
    (leading.toList ++ (a.evaluation round).actions)).1
  refine ⟨before.spread.trans planned, ?_⟩
  apply planned.rounds
  apply set.rounds
  exact (Table.contains_insert _ _ _ _).2 (.inl rfl)

theorem payload_of_prepared (again : Reopening) (a : Play) (contact : String) (key : RoundKey)
    (round : Round) (time : Nat) (leading : Option Action) :
    ∀ action ∈ (a.prepared again contact key round time leading).2.payloads,
      action.effect.isHeldBack = false :=
  payload_of_planWith again _ contact time _

/- A round that is entered leaves nobody behind; behind the typing bubble it says nothing yet. -/
theorem enterWith_settles (quiet : Quiet again) (formed : a.program.WellFormed) {contact : String}
    {key : RoundKey} (found : (a.program.round? contact key).isSome = true) (time : Nat)
    (tempo : Tempo) (leading : Option Action) :
    Moves (only contact) a (a.enterWith again contact key time tempo leading) ∧
      (a.enterWith again contact key time tempo leading).Settled contact ∧
      (tempo = .typed → Stirs (only contact) (only contact) a
        (a.enterWith again contact key time tempo leading)) := by
  obtain ⟨round, same⟩ := Option.isSome_iff_exists.1 found
  obtain ⟨stirred, had⟩ := stirs_prepared quiet formed same time leading
  have known : (a.prepared again contact key round time leading).1.program.has contact = true := by
    rw [stirred.program]
    exact Program.has_of_round found
  obtain ⟨moves, settled, typed⟩ := moves_layOut known (a.evaluation round).text
    (payload_of_prepared again a contact key round time leading) time tempo (rounded_of_contains had)
  rw [enterWith_eq again same]
  refine ⟨stirred.toMoves.trans moves, settled, ?_⟩
  intro behind
  exact (stirred.widen (fun _ => id) fun _ => False.elim).trans (typed behind)

theorem quiet_reopen (depth : Nat) : Quiet (reopen depth) := by
  induction depth with
  | zero =>
    intro play contact key time _ _
    exact .refl _ _ play
  | succ depth ih =>
    intro play contact key time formed found
    have known := Program.has_of_round found
    unfold reopen
    split
    · rename_i closed
      have opened := Stirs.opening (only contact) play known closed
      dsimp only
      generalize ((play.revise fun p => { p with endings := p.endings.remove contact }).putThread
        contact .active).setUnlocked contact = ready at opened
      have formed' : ready.program.WellFormed := by
        rw [opened.program]
        exact formed
      have found' : (ready.program.round? contact key).isSome = true := by
        rw [opened.program]
        exact found
      obtain ⟨_, settled, stirs⟩ := enterWith_settles ih formed' found' time .typed none
      exact (opened.trans (stirs rfl)).settle closed settled
    · exact .refl _ _ play

theorem moves_enter (formed : a.program.WellFormed) (contact : String) (key : RoundKey) (time : Nat)
    (tempo : Tempo) (leading : Option Action) :
    Moves nobody a (a.enter contact key time tempo leading) := by
  unfold enter
  cases found : a.program.round? contact key with
  | none =>
    unfold enterWith
    rw [found]
    exact .refl _ a
  | some round =>
    obtain ⟨moves, settled, _⟩ := enterWith_settles (quiet_reopen a.closedThreads) formed
      (Option.isSome_of_eq_some found) time tempo leading
    exact moves.settle settled

theorem stirs_assign (formed : a.program.WellFormed) (name : String) (value : Value) (time : Nat) :
    Stirs nobody nobody a (a.assign name value time) :=
  stirs_assignWith (quiet_reopen a.closedThreads) formed name value time

end ChatStory.Play
