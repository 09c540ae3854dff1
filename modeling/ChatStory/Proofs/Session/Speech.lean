import ChatStory.Proofs.Session.Reached

/-!
Who is spoken to. Entering rounds and unlocking contacts opens threads and closes none, and adds
messages to open threads only; an unlock is announced in the thread of the contact that asked for
it, whatever its state. On the way nothing is taken back that a contact has asked for, except by
the delivery itself.
-/
namespace ChatStory.Play

def Ended (play : Play) (contact : String) : Prop := play.progress.thread? contact = some .ended

/-- The message that a saying becomes. -/
def Saying.message (saying : Saying) (play : Play) (contact : String) (time : Nat) : Message where
  id := contact ++ "-" ++ toString play.progress.nextId
  contact := contact
  text := saying.text
  timestamp := time
  fromPlayer := saying.fromPlayer
  kind := saying.kind
  media := saying.media
  location := saying.location
  read := saying.fromPlayer

/-- The last message of the contact is another one than an end notice. -/
def SpeaksLast (play : Play) (contact : String) : Prop :=
  ∃ m, (play.progress.history contact).getLast? = some m ∧ m.kind ≠ .endThread

/-- Opens threads and closes none, speaks to open threads only, and takes back no request of an open
thread. A holder is spoken to in any state, and its unlocks may be taken. -/
structure Speaks (holder : String → Prop) (a b : Play) : Prop where
  program : b.program = a.program
  threads : ∀ c, b.progress.thread? c = a.progress.thread? c ∨ b.progress.thread? c = some .active
  histories : ∀ c, b.progress.history c = a.progress.history c ∨
    (holder c ∨ ¬b.Ended c) ∧ b.SpeaksLast c
  targets : ∀ c, ¬holder c → a.progress.unlocks.getD c [] <+: b.progress.unlocks.getD c []
  endings : ∀ c, a.progress.isClosed c = false → a.progress.endings.has c = true →
    b.progress.endings.has c = true

variable {holder : String → Prop} {a b c : Play}

namespace Speaks

theorem ended (speaks : Speaks holder a b) {contact : String} (ended : b.Ended contact) :
    a.Ended contact := by
  rcases speaks.threads contact with same | active
  · rw [Ended, ← same]
    exact ended
  · rw [Ended, active] at ended
    cases ended

theorem speaksLast (speaks : Speaks holder a b) {contact : String} (last : a.SpeaksLast contact) :
    b.SpeaksLast contact := by
  rcases speaks.histories contact with same | ⟨_, other⟩
  · rw [SpeaksLast, same]
    exact last
  · exact other

theorem opened (speaks : Speaks holder a b) {contact : String}
    (opened : a.progress.isClosed contact = false) : b.progress.isClosed contact = false := by
  unfold Progress.isClosed at opened ⊢
  rcases speaks.threads contact with same | active
  · rw [same]
    exact opened
  · rw [active]
    rfl

theorem refl (holder : String → Prop) (a : Play) : Speaks holder a a :=
  ⟨rfl, fun _ => .inl rfl, fun _ => .inl rfl, fun _ _ => List.prefix_rfl, fun _ _ => id⟩

theorem trans (first : Speaks holder a b) (second : Speaks holder b c) : Speaks holder a c := by
  refine ⟨second.program.trans first.program, ?_, ?_, ?_, ?_⟩
  · intro contact
    rcases second.threads contact with same | active
    · rw [same]
      exact first.threads contact
    · exact .inr active
  · intro contact
    rcases second.histories contact with same | other
    · rcases first.histories contact with before | ⟨allowed, last⟩
      · exact .inl (same.trans before)
      · right
        refine ⟨?_, second.speaksLast last⟩
        rcases allowed with holds | opened
        · exact .inl holds
        · exact .inr fun ended => opened (second.ended ended)
    · exact .inr other
  · intro contact free
    exact (first.targets contact free).trans (second.targets contact free)
  · intro contact opened asked
    exact second.endings contact (first.opened opened) (first.endings contact opened asked)

theorem of_stirs {busy laying : String → Prop} (stirs : Stirs busy laying a b) : Speaks holder a b := by
  refine ⟨stirs.program, stirs.threads, ?_, fun contact _ => stirs.targets contact, stirs.endings⟩
  intro contact
  left
  rw [Progress.history, stirs.histories]
  rfl

theorem of_same (program : b.program = a.program) (progress : b.progress = a.progress) :
    Speaks holder a b := by
  refine ⟨program, fun _ => .inl ?_, fun _ => .inl ?_, fun _ _ => progress ▸ List.prefix_rfl,
    fun _ _ => progress ▸ id⟩ <;> rw [progress]

theorem announce (holder : String → Prop) (a : Play) (event : Event) :
    Speaks holder a (a.announce event) :=
  of_same rfl rfl

theorem history_say (a : Play) (contact : String) (saying : Saying) (time : Nat) (other : String) :
    (a.say contact saying time).progress.history other =
      if other = contact then a.progress.history contact ++ [saying.message a contact time]
      else a.progress.history other := by
  change (a.progress.histories.insert contact
    (a.progress.history contact ++ [saying.message a contact time])).getD other [] = _
  rw [Table.getD, Table.get?_insert]
  split <;> rfl

theorem speaksLast_say (a : Play) (contact : String) {saying : Saying}
    (plain : saying.kind ≠ .endThread) (time : Nat) :
    (a.say contact saying time).SpeaksLast contact := by
  refine ⟨saying.message a contact time, ?_, plain⟩
  rw [history_say, if_pos rfl, List.getLast?_concat]

theorem say (a : Play) {contact : String} {saying : Saying} (plain : saying.kind ≠ .endThread)
    (time : Nat) (allowed : holder contact ∨ ¬a.Ended contact) :
    Speaks holder a (a.say contact saying time) := by
  refine ⟨rfl, fun _ => .inl rfl, ?_, fun _ _ => List.prefix_rfl, fun _ _ => id⟩
  intro other
  by_cases own : other = contact
  · subst own
    exact .inr ⟨allowed, speaksLast_say a other plain time⟩
  · left
    rw [history_say, if_neg own]

theorem foldl {α : Type} {step : Play → α → Play} {items : List α}
    (each : ∀ play, play.program = a.program → ∀ item ∈ items, Speaks holder play (step play item)) :
    Speaks holder a (items.foldl step a) := by
  apply List.foldlRecOn items step (refl holder a)
  intro play speaks item member
  exact speaks.trans (each play speaks.program item member)

end Speaks

/- Who is entered at once is spoken to at once, and open then. -/
theorem speaks_enter (formed : a.program.WellFormed) {contact : String} (opened : ¬a.Ended contact)
    (key : RoundKey) (time : Nat) (tempo : Tempo) (leading : Option Action) :
    Speaks holder a (a.enter contact key time tempo leading) := by
  unfold enter
  cases found : a.program.round? contact key with
  | none =>
    unfold enterWith
    rw [found]
    exact .refl _ a
  | some round =>
    obtain ⟨stirred, had⟩ := stirs_prepared (quiet_reopen a.closedThreads) formed found time leading
    have known : (a.prepared (reopen a.closedThreads) contact key round time leading).1.program.has
        contact = true := by
      rw [stirred.program]
      exact Program.has_of_round (Option.isSome_of_eq_some found)
    have laid := (moves_layOut known (a.evaluation round).text
      (payload_of_prepared (reopen a.closedThreads) a contact key round time leading) time tempo
      (rounded_of_contains had)).1
    rw [enterWith_eq _ found]
    generalize a.prepared (reopen a.closedThreads) contact key round time leading = ready at stirred laid
    have first : Speaks holder a ready.1 := .of_stirs stirred
    apply first.trans
    have still : ¬ready.1.Ended contact := fun ended => opened (first.ended ended)
    have replied : Speaks holder ready.1
        (ready.1.reply contact (a.evaluation round).text time tempo).1 := by
      cases tempo with
      | typed =>
        apply Speaks.of_same
        · simp only [reply]
          split <;> split <;> rfl
        · exact progress_reply_typed _ _ _ _
      | immediate =>
        simp only [reply]
        split
        · exact .refl _ _
        · exact .say _ (show MessageKind.text ≠ .endThread by decide) _ (.inr still)
    apply replied.trans
    apply Speaks.of_same
    · rw [laid.program, replied.program]
    · exact progress_layOut _ _ _ _ _ _

theorem not_ended_putActive (a : Play) (contact : String) :
    ¬(a.putThread contact .active).Ended contact := by
  intro ended
  rw [Ended, thread?_putThread] at ended
  cases ended

/- An unlock is announced in the thread of the one who asked for it. -/
theorem speaks_unlock (formed : a.program.WellFormed) (contact target : String) (time : Nat) :
    Speaks (Stirs.only contact) a (a.unlock contact target time) ∧
      (a.program.has target = true → a.canUnlock target = true →
        (a.unlock contact target time).SpeaksLast contact) := by
  unfold unlock
  split
  · rename_i none
    refine ⟨.refl _ a, ?_⟩
    intro has _
    obtain ⟨entry, found⟩ := Table.contains_eq_true.1 has
    rw [Program.contact?, found] at none
    cases none
  · rename_i entry found
    split
    · rename_i had
      refine ⟨.refl _ a, ?_⟩
      intro _ can
      rw [canUnlock, had] at can
      cases can
    · dsimp only
      have here : a.program.has target = true := Option.isSome_of_eq_some found
      have plain : (Saying.ofUnlock target).kind ≠ .endThread :=
        show MessageKind.unlockContact ≠ .endThread by decide
      have said : Speaks (Stirs.only contact) a (a.say contact (.ofUnlock target) time) :=
        .say a plain time (.inl rfl)
      have last := Speaks.speaksLast_say a contact plain time
      generalize a.say contact (.ofUnlock target) time = first at said last
      have shown : Stirs nobody nobody first (first.setUnlocked target) :=
        .setUnlocked _ _ first (by rw [said.program]; exact here)
      have opened : Stirs (Stirs.only target) nobody (first.setUnlocked target)
          ((first.setUnlocked target).putThread target .active) :=
        .putActive _ _ (by rw [shown.program, said.program]; exact here)
      have active := not_ended_putActive (first.setUnlocked target) target
      have told : Speaks (Stirs.only contact) first
          (((first.setUnlocked target).putThread target .active).announce
            (.actionExecuted contact { effect := .unlockContact target })) :=
        ((Speaks.of_stirs shown).trans (.of_stirs opened)).trans (.announce _ _ _)
      have still : ¬(((first.setUnlocked target).putThread target .active).announce
          (.actionExecuted contact { effect := .unlockContact target })).Ended target := active
      generalize ((first.setUnlocked target).putThread target .active).announce
        (.actionExecuted contact { effect := .unlockContact target }) = ready at told still
      have formed' : ready.program.WellFormed := by
        rw [told.program, said.program]
        exact formed
      split
      · rename_i key _
        have entered : Speaks (Stirs.only contact) ready
            (ready.enter target key time .immediate none) :=
          speaks_enter formed' still key time .immediate none
        exact ⟨(said.trans told).trans entered, fun _ _ => (told.trans entered).speaksLast last⟩
      · exact ⟨said.trans told, fun _ _ => told.speaksLast last⟩

/-- The play after the unlocks that were held back for a contact have been delivered. -/
def unlockHeld (play : Play) (contact : String) (time : Nat) : Play :=
  (play.progress.unlocks.getD contact []).foldl (fun play target => play.unlock contact target time)
    (play.revise fun p => { p with unlocks := p.unlocks.erase contact })

theorem deliverHeld_eq (play : Play) (contact : String) (time : Nat) :
    play.deliverHeld contact time = (play.unlockHeld contact time).endPending contact time := rfl

/-- The notices of the contact have someone to unlock. -/
def UnlocksSomeone (play : Play) (contact : String) : Prop :=
  ∃ target ∈ play.progress.unlocks.getD contact [],
    play.program.has target = true ∧ play.canUnlock target = true

theorem canUnlock_of_not (a : Play) (contact target : String) (time : Nat)
    (cannot : ¬(a.program.has target = true ∧ a.canUnlock target = true)) :
    a.unlock contact target time = a := by
  unfold unlock
  split
  · rfl
  · rename_i entry found
    split
    · rfl
    · rename_i can
      have here : a.program.has target = true := Option.isSome_of_eq_some found
      refine absurd ⟨here, ?_⟩ cannot
      rw [canUnlock, Bool.eq_false_iff.2 can]
      rfl

theorem speaks_unlocks (formed : a.program.WellFormed) (contact : String) (time : Nat)
    (targets : List String) :
    let after := targets.foldl (fun play target => play.unlock contact target time) a
    Speaks (Stirs.only contact) a after ∧
      ((∃ target ∈ targets, a.program.has target = true ∧ a.canUnlock target = true) →
        after.SpeaksLast contact) ∧
      ((¬∃ target ∈ targets, a.program.has target = true ∧ a.canUnlock target = true) →
        after = a) := by
  induction targets with
  | nil =>
    refine ⟨.refl _ a, ?_, fun _ => rfl⟩
    rintro ⟨_, none, _⟩
    cases none
  | cons first rest ih =>
    dsimp only at ih ⊢
    rw [List.foldl_cons]
    by_cases can : a.program.has first = true ∧ a.canUnlock first = true
    · obtain ⟨speaks, last⟩ := speaks_unlock formed contact first time
      have others : Speaks (Stirs.only contact) (a.unlock contact first time) (rest.foldl
          (fun play target => play.unlock contact target time) (a.unlock contact first time)) := by
        apply Speaks.foldl
        intro play same target _
        refine (speaks_unlock ?_ contact target time).1
        rw [same, speaks.program]
        exact formed
      refine ⟨speaks.trans others, fun _ => others.speaksLast (last can.1 can.2), ?_⟩
      intro none
      exact absurd ⟨first, List.mem_cons_self, can⟩ none
    · rw [canUnlock_of_not a contact first time can]
      obtain ⟨speaks, last, same⟩ := ih
      refine ⟨speaks, ?_, ?_⟩
      · rintro ⟨target, member, can'⟩
        apply last
        rcases List.mem_cons.1 member with rfl | member
        · exact absurd can' can
        · exact ⟨target, member, can'⟩
      · intro none
        apply same
        rintro ⟨target, member, can'⟩
        exact none ⟨target, List.mem_cons_of_mem first member, can'⟩

/- Whether someone is unlocked shows in the thread of the one who asked for it. -/
theorem speaks_unlockHeld (formed : a.program.WellFormed) (contact : String) (time : Nat) :
    Speaks (Stirs.only contact) a (a.unlockHeld contact time) ∧
      (a.UnlocksSomeone contact → (a.unlockHeld contact time).SpeaksLast contact) ∧
      (¬a.UnlocksSomeone contact →
        (a.unlockHeld contact time).progress.history contact = a.progress.history contact) := by
  let taken := a.revise fun p => { p with unlocks := p.unlocks.erase contact }
  have take : Speaks (Stirs.only contact) a taken := by
    refine ⟨rfl, fun _ => .inl rfl, fun _ => .inl rfl, ?_, fun _ _ => id⟩
    intro other different
    have same : (a.progress.unlocks.erase contact).getD other [] = a.progress.unlocks.getD other [] := by
      rw [Table.getD, Table.getD, Table.get?_erase, if_neg different]
    exact same ▸ List.prefix_rfl
  obtain ⟨speaks, last, same⟩ := speaks_unlocks (a := taken) formed contact time
    (a.progress.unlocks.getD contact [])
  refine ⟨take.trans speaks, last, ?_⟩
  intro none
  have unchanged : a.unlockHeld contact time = taken := same none
  rw [unchanged]
  rfl
end ChatStory.Play
