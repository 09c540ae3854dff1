import ChatStory.Proofs.Session.Cascade

/-!
Tasks that are fired. In a sound play every contact that waits for notices has them on the timeline
and every open thread is in a round; firing a task keeps it so.
-/
namespace ChatStory.Play

open Stirs (only)

/-- A play that keeps to its program and leaves nobody behind. -/
structure Sound (play : Play) : Prop where
  formed : play.program.WellFormed
  kept : play.progress.KeptFor play.program
  tasks : ∀ slot ∈ play.queue.slots, play.Accepts slot.task
  bounded : play.queue.Bounded
  rounded : ∀ c, ¬play.Unrounded c
  unlocks : ∀ c, ¬play.StrandsUnlocks c
  ending : ∀ c, ¬play.StrandsEnding c

variable {a b : Play}

/- What is held back for a contact has its notices on the timeline. -/
theorem Sound.noticed (sound : a.Sound) {contact : String}
    (asked : a.progress.unlocks.contains contact = true ∨ a.progress.endings.has contact = true) :
    a.Noticed contact := by
  apply Classical.byContradiction
  intro unnoticed
  rcases asked with unlocks | ending
  · exact sound.unlocks contact ⟨unlocks, unnoticed⟩
  · exact sound.ending contact ⟨ending, unnoticed⟩

theorem Moves.formed {busy : String → Prop} (moves : Moves busy a b)
    (formed : a.program.WellFormed) : b.program.WellFormed := by
  rw [moves.program]
  exact formed

theorem Moves.known {busy : String → Prop} (moves : Moves busy a b) {contact : String}
    (known : a.program.has contact = true) : b.program.has contact = true := by
  rw [moves.program]
  exact known

theorem Moves.tasks {busy : String → Prop} (moves : Moves busy a b)
    (tasks : ∀ slot ∈ a.queue.slots, a.Accepts slot.task) :
    ∀ slot ∈ b.queue.slots, b.Accepts slot.task := by
  intro slot member
  rcases moves.queue.mem member with old | accepts
  · exact (tasks slot old).of_same moves.program moves.epoch
  · exact accepts.of_same moves.program moves.epoch

theorem Moves.foldl {busy : String → Prop} {α : Type} {step : Play → α → Play} {items : List α}
    (each : ∀ play, play.program = a.program → ∀ item ∈ items, Moves busy play (step play item)) :
    Moves busy a (items.foldl step a) := by
  apply List.foldlRecOn items step (.refl busy a)
  intro play moves item member
  exact moves.trans (each play moves.program item member)

theorem Sound.moves (sound : a.Sound) (moves : Moves nobody a b) : b.Sound := by
  refine ⟨moves.formed sound.formed, ?_, moves.tasks sound.tasks, moves.queue.bounded sound.bounded,
    ?_, ?_, ?_⟩
  · rw [moves.program]
    exact moves.kept sound.kept
  · intro contact loose
    exact sound.rounded contact (moves.unrounded contact id loose)
  · intro contact loose
    exact sound.unlocks contact (moves.unlocks contact id loose)
  · intro contact loose
    exact sound.ending contact (moves.ending contact id loose)

theorem moves_finishThread (a : Play) {contact : String} (known : a.program.has contact = true)
    (time : Nat) : Moves nobody a (a.finishThread contact time) := by
  unfold finishThread
  split
  · exact .refl _ a
  · have said : Moves nobody a (a.say contact .ofEnd time) := .say a known _ _
    apply said.trans
    generalize a.say contact .ofEnd time = after at said
    have ended : Moves nobody after (after.revise fun p => { p with
        threads := p.threads.insert contact .ended }) := by
      refine ⟨rfl, rfl, .refl, ?_, ?_, fun _ _ => id, fun _ _ => id⟩
      · intro kept
        refine { kept with threads := ?_ }
        intro other
        change (after.progress.threads.insert contact _).contains other = true ↔ _
        rw [Table.contains_insert, kept.threads]
        constructor
        · rintro (same | had)
          · rw [same]
            exact said.known known
          · exact had
        · exact .inr
      · rintro other _ ⟨active, roundless⟩
        change (after.progress.threads.insert contact _).get? other = _ at active
        rw [Table.get?_insert] at active
        split at active
        · cases active
        · exact ⟨active, roundless⟩
    unfold putThread
    dsimp only
    split
    · exact ended
    · exact ended.trans (.announce _ _ _)

/- An unlocked contact is in a round, since every contact has a first one. -/
theorem moves_unlock (formed : a.program.WellFormed) {contact : String}
    (known : a.program.has contact = true) (target : String) (time : Nat) :
    Moves nobody a (a.unlock contact target time) := by
  unfold unlock
  split
  · exact .refl _ a
  · rename_i entry found
    split
    · exact .refl _ a
    · dsimp only
      have here : a.program.has target = true := Option.isSome_of_eq_some found
      have said : Moves (only target) a (a.say contact (.ofUnlock target) time) := .say a known _ _
      have shown := said.trans (Stirs.setUnlocked (only target) nobody _ (said.known here)).toMoves
      have opened := shown.trans (Stirs.putActive nobody _ (shown.known here)).toMoves
      have told :=
        opened.trans (.announce _ _ (.actionExecuted contact { effect := .unlockContact target }))
      generalize (((a.say contact (.ofUnlock target) time).setUnlocked target).putThread target
        .active).announce (.actionExecuted contact { effect := .unlockContact target }) = ready at told
      have listed := formed.inOrder_of_contact found
      obtain ⟨key, first, round⟩ := formed.firstKey listed
      rw [formed.names target entry found, ← told.program] at round
      rw [first]
      dsimp only
      obtain ⟨moves, settled, _⟩ := enterWith_settles (quiet_reopen ready.closedThreads)
        (told.formed formed) round time .immediate none
      exact (told.trans moves).settle settled

theorem moves_endPending (a : Play) {contact : String} (known : a.program.has contact = true)
    (time : Nat) : Moves nobody a (a.endPending contact time) ∧
      (a.endPending contact time).progress.endings.has contact = false := by
  unfold endPending
  split
  · let dropped := a.revise fun p => { p with endings := p.endings.remove contact }
    have drop : Moves nobody a dropped := by
      refine ⟨rfl, rfl, .refl, ?_, fun _ _ => id, fun _ _ => id, ?_⟩
      · intro kept
        refine { kept with endings := ?_ }
        intro other had
        exact kept.endings other ((NameSet.has_remove _ _ _).1 had).2
      · rintro other _ ⟨waits, lost⟩
        exact ⟨((NameSet.has_remove _ _ _).1 waits).2, lost⟩
    have finished := drop.trans (moves_finishThread dropped (drop.known known) time)
    have none : dropped.progress.endings.has contact = false := by
      rw [Bool.eq_false_iff]
      intro had
      exact ((NameSet.has_remove _ _ _).1 had).1 rfl
    have stays : (dropped.finishThread contact time).progress.endings = dropped.progress.endings := by
      unfold finishThread putThread
      dsimp only
      split
      · rfl
      · split <;> rfl
    dsimp only
    split
    · refine ⟨finished, ?_⟩
      rw [stays]
      exact none
    · refine ⟨finished.trans (.announce _ _ _), ?_⟩
      change (dropped.finishThread contact time).progress.endings.has contact = false
      rw [stays]
      exact none
  · rename_i none
    exact ⟨.refl _ a, Bool.eq_false_iff.2 none⟩

/-- The contact in whose thread an action puts a message, if it does. -/
def addressee? (play : Play) (contact : String) : Effect → Option String
  | .delayedMessage _ target =>
    if play.program.has (target.getD contact) then some (target.getD contact) else none
  | .sendPhoto .. | .sendVideo .. | .dropPin _ => some contact
  | _ => none

theorem has_of_addressee {contact : String} (known : a.program.has contact = true) {effect : Effect}
    {c : String} (found : a.addressee? contact effect = some c) : a.program.has c = true := by
  cases effect with
  | delayedMessage text target =>
    simp only [addressee?] at found
    split at found
    · rename_i has
      cases found
      exact has
    · cases found
  | sendPhoto media caption | sendVideo media caption | dropPin pin =>
    cases found
    exact known
  | _ => cases found

/- What makes a bubble says something in one thread, or only announces. -/
theorem run_bubble {action : Action} (bubble : action.effect.isBubble = true) (a : Play)
    (contact : String) (time : Nat) :
    (∃ c saying, a.addressee? contact action.effect = some c ∧ saying.kind ≠ .endThread ∧
      a.run contact action time =
        (a.say c saying time).announce (.actionExecuted contact action)) ∨
    (a.addressee? contact action.effect = none ∧
      ∃ events, a.run contact action time = { a with events := events }) := by
  obtain ⟨effect, delay⟩ := action
  unfold run runWith
  cases effect with
  | delayedMessage text target =>
    by_cases has : a.program.has (target.getD contact) = true
    · left
      simp only [effectWith?, has, if_true]
      exact ⟨target.getD contact, { text := text }, if_pos has,
        show MessageKind.text ≠ .endThread by decide, rfl⟩
    · right
      simp only [effectWith?, has]
      exact ⟨if_neg has, a.events, rfl⟩
  | sendPhoto media caption =>
    exact .inl ⟨contact, _, rfl, show MessageKind.photo ≠ .endThread by decide, rfl⟩
  | sendVideo media caption =>
    exact .inl ⟨contact, _, rfl, show MessageKind.video ≠ .endThread by decide, rfl⟩
  | dropPin pin =>
    exact .inl ⟨contact, _, rfl, show MessageKind.location ≠ .endThread by decide, rfl⟩
  | typingIndicator duration => exact .inr ⟨rfl, _, rfl⟩
  | _ => cases bubble

theorem moves_run (formed : a.program.WellFormed) {contact : String}
    (known : a.program.has contact = true) {action : Action}
    (now : action.effect.isHeldBack = false) (time : Nat) :
    Moves nobody a (a.run contact action time) := by
  cases bubble : action.effect.isBubble with
  | false =>
    exact ((stirs_runWith (quiet_reopen a.closedThreads) formed known bubble time).2.2 now).toMoves
  | true =>
    rcases run_bubble bubble a contact time with ⟨c, saying, found, _, same⟩ | ⟨_, events, same⟩
    · rw [same]
      exact (Moves.say a (has_of_addressee known found) saying time).trans (.announce _ _ _)
    · rw [same]
      exact .of_same rfl rfl rfl id rfl rfl rfl rfl

/- What is held back for a contact is delivered all at once, and what is asked for on the way gets
   notices of its own. -/
theorem moves_deliverHeld (formed : a.program.WellFormed) {contact : String}
    (known : a.program.has contact = true) (time : Nat) :
    Moves nobody a (a.deliverHeld contact time) ∧
      ¬(a.deliverHeld contact time).StrandsUnlocks contact ∧
      ¬(a.deliverHeld contact time).StrandsEnding contact := by
  unfold deliverHeld
  dsimp only
  let taken := a.revise fun p => { p with unlocks := p.unlocks.erase contact }
  have take : Moves nobody a taken := by
    refine ⟨rfl, rfl, .refl, ?_, fun _ _ => id, ?_, fun _ _ => id⟩
    · intro kept
      refine { kept with unlocks := ?_ }
      intro other had
      apply kept.unlocks other
      obtain ⟨targets, found⟩ := Table.contains_eq_true.1 had
      change (a.progress.unlocks.erase contact).get? other = _ at found
      rw [Table.get?_erase] at found
      split at found
      · cases found
      · exact Table.contains_eq_true.2 ⟨targets, found⟩
    · rintro other _ ⟨waits, lost⟩
      obtain ⟨targets, found⟩ := Table.contains_eq_true.1 waits
      change (a.progress.unlocks.erase contact).get? other = _ at found
      rw [Table.get?_erase] at found
      split at found
      · cases found
      · exact ⟨Table.contains_eq_true.2 ⟨targets, found⟩, lost⟩
  have none : ¬taken.StrandsUnlocks contact := by
    rintro ⟨waits, _⟩
    obtain ⟨targets, found⟩ := Table.contains_eq_true.1 waits
    change (a.progress.unlocks.erase contact).get? contact = _ at found
    rw [Table.get?_erase, if_pos rfl] at found
    cases found
  have unlocked : Moves nobody taken ((a.progress.unlocks.getD contact []).foldl
      (fun play target => play.unlock contact target time) taken) := by
    apply Moves.foldl
    intro play same target _
    apply moves_unlock
    · rw [same]
      exact formed
    · rw [same]
      exact known
  obtain ⟨ended, quiet⟩ := moves_endPending _ (unlocked.known (take.known known)) time
  have after := unlocked.trans ended
  refine ⟨take.trans after, ?_, ?_⟩
  · intro strands
    exact none (after.unlocks contact id strands)
  · rintro ⟨waits, _⟩
    rw [quiet] at waits
    cases waits

/- Apart from the notices that come first, dropping a task leaves nobody behind. -/
theorem noticed_dropFirst {slot : Slot} (next : a.queue.next? = some slot) {contact : String}
    (noticed : a.Noticed contact)
    (other : slot.task.contact ≠ contact ∨ slot.task.delivery ≠ .notices) :
    a.dropFirst.Noticed contact := by
  obtain ⟨found, member, own, notices⟩ := noticed
  rw [Queue.slots_of_next next] at member
  rcases List.mem_cons.1 member with same | member
  · subst same
    rcases other with other | other
    · exact absurd own other
    · exact absurd notices other
  · exact ⟨found, member, own, notices⟩

theorem Sound.accepts_first (sound : a.Sound) {slot : Slot} (next : a.queue.next? = some slot) :
    a.dropFirst.Accepts slot.task := by
  have first : slot ∈ a.queue.slots := by
    rw [Queue.slots_of_next next]
    exact List.mem_cons_self
  exact (sound.tasks slot first).of_same rfl rfl

theorem moves_fire (sound : a.Sound) {slot : Slot} (next : a.queue.next? = some slot) :
    Moves nobody a.dropFirst (a.dropFirst.fire slot) := by
  have accepts := sound.accepts_first next
  unfold fire
  rw [if_pos accepts.epoch]
  cases delivery : slot.task.delivery with
  | typing => exact .announce _ _ _
  | reply text => exact .say _ accepts.known _ _
  | payload action =>
    exact moves_run (a := a.dropFirst) sound.formed accepts.known (accepts.payload action delivery)
      slot.time
  | notices => exact (moves_deliverHeld (a := a.dropFirst) sound.formed accepts.known slot.time).1

/- A task that is fired leaves nobody behind: notices deliver all that waits for them, and those of
   other contacts are still on the timeline. -/
theorem sound_fire (sound : a.Sound) {slot : Slot} (next : a.queue.next? = some slot) :
    (a.dropFirst.fire slot).Sound := by
  have accepts := sound.accepts_first next
  have moves := moves_fire sound next
  have tasks : ∀ other ∈ a.dropFirst.queue.slots, a.dropFirst.Accepts other.task := by
    intro other member
    exact (sound.tasks other (List.mem_of_mem_tail member)).of_same rfl rfl
  have delivered : slot.task.delivery = .notices →
      ¬(a.dropFirst.fire slot).StrandsUnlocks slot.task.contact ∧
        ¬(a.dropFirst.fire slot).StrandsEnding slot.task.contact := by
    intro notices
    unfold fire
    rw [if_pos accepts.epoch, notices]
    exact (moves_deliverHeld (a := a.dropFirst) sound.formed accepts.known slot.time).2
  refine ⟨moves.formed sound.formed, ?_, moves.tasks tasks,
    moves.queue.bounded (Queue.bounded_rest sound.bounded), ?_, ?_, ?_⟩
  · rw [moves.program]
    exact moves.kept sound.kept
  · intro contact loose
    exact sound.rounded contact (moves.unrounded contact id loose)
  · intro contact loose
    by_cases own : slot.task.contact = contact ∧ slot.task.delivery = .notices
    · obtain ⟨same, notices⟩ := own
      subst same
      exact (delivered notices).1 loose
    · obtain ⟨waits, lost⟩ := moves.unlocks contact id loose
      have other := Classical.not_and_iff_not_or_not.1 own
      exact sound.unlocks contact ⟨waits, fun noticed => lost (noticed_dropFirst next noticed other)⟩
  · intro contact loose
    by_cases own : slot.task.contact = contact ∧ slot.task.delivery = .notices
    · obtain ⟨same, notices⟩ := own
      subst same
      exact (delivered notices).2 loose
    · obtain ⟨waits, lost⟩ := moves.ending contact id loose
      have other := Classical.not_and_iff_not_or_not.1 own
      exact sound.ending contact ⟨waits, fun noticed => lost (noticed_dropFirst next noticed other)⟩

end ChatStory.Play
