import ChatStory.Proofs.Session.Computed
import ChatStory.Proofs.Session.Deeds
import ChatStory.Proofs.Session.Reached

/-!
Actions are neither lost nor run twice. Whatever is handed over and not held back has been run or waits
on the timeline, as often as it was handed over. What is held back is asked for, and each
request waits until the notices of its contact take it.
-/
namespace ChatStory

/-- An action, with the contact for whom it is run. -/
abbrev Errand := String × Action

namespace Deed

/-- What is handed over to be run in its time; what is held back is not. -/
def errands : Deed → List Errand
  | handed contact actions => (actions.map (contact, ·)).filter (!·.2.effect.isHeldBack)
  | _ => []

def run? : Deed → Option Errand
  | ran contact action _ => if action.effect.isHeldBack then none else some (contact, action)
  | _ => none

def done? : Deed → Option Errand
  | ran contact action true => if action.effect.isHeldBack then none else some (contact, action)
  | _ => none

/-- The contact that is to be unlocked for another one. -/
def request? (c : String) : Deed → Option String
  | ran contact action true => match action.effect with
    | .unlockContact target => if contact = c then some target else none
    | _ => none
  | _ => none

def deliveries (c : String) : Deed → List String
  | delivered contact targets => if contact = c then targets else []
  | _ => []

end Deed

def Event.executed? : Event → Option Errand
  | .actionExecuted contact action =>
    if action.effect.isHeldBack then none else some (contact, action)
  | _ => none

def Slot.errand? (slot : Slot) : Option Errand :=
  match slot.task.delivery with
  | .payload action => some (slot.task.contact, action)
  | _ => none

/-- What was handed over. -/
def handedErrands (deeds : List Deed) : List Errand := deeds.flatMap Deed.errands

/-- What was run, whether it was done or failed. -/
def ranErrands (deeds : List Deed) : List Errand := deeds.filterMap Deed.run?

def doneErrands (deeds : List Deed) : List Errand := deeds.filterMap Deed.done?

/-- The unlocks that were asked for in a contact's name. -/
def requestsOf (c : String) (deeds : List Deed) : List String := deeds.filterMap (Deed.request? c)

/-- The unlocks that the contact's notices took. -/
def deliveriesOf (c : String) (deeds : List Deed) : List String := deeds.flatMap (Deed.deliveries c)

namespace Play

/-- What waits on the timeline to be run. -/
def waiting (play : Play) : List Errand := play.queue.slots.filterMap Slot.errand?

/-- The unlocks that wait for the contact's notices. -/
def unlocksOf (play : Play) (c : String) : List String := play.progress.unlocks.getD c []

/-- What is `owed` has been run in the end or waits, but for what is still `due`; the news tell of all
that was done, and what waited for notices has been taken by them or waits. -/
structure Squares (owed due : List Errand) (a : Play) (deeds : List Deed) (news : List Event)
    (b : Play) : Prop where
  balance : ∀ x : Errand, x.2.effect.isHeldBack = false →
    (ranErrands deeds).count x + b.waiting.count x + due.count x =
      (handedErrands deeds).count x + a.waiting.count x + owed.count x
  told : news.filterMap Event.executed? = doneErrands deeds
  unlocks : ∀ c, a.unlocksOf c ++ requestsOf c deeds = deliveriesOf c deeds ++ b.unlocksOf c

/-- The news that square the books are those that are announced. -/
def Accounts (owed due : List Errand) (a : Play) (deeds : List Deed) (b : Play) : Prop :=
  ∃ news, b.events.toList = a.events.toList ++ news ∧ Squares owed due a deeds news b

/-- Nothing is lost on the way, and nothing is run twice. -/
abbrev Balanced (a : Play) (deeds : List Deed) (b : Play) : Prop := Accounts [] [] a deeds b

variable {owed due later : List Errand} {a b c : Play} {deeds more : List Deed} {news others : List Event}

namespace Squares

theorem of_same (owed : List Errand) (waiting : b.waiting = a.waiting)
    (silent : news.filterMap Event.executed? = []) (unlocks : b.progress.unlocks = a.progress.unlocks) :
    Squares owed owed a [] news b := by
  refine ⟨fun x _ => by rw [waiting]; rfl, silent, fun c => ?_⟩
  rw [unlocksOf, unlocksOf, unlocks]
  exact List.append_nil _

theorem trans (first : Squares owed due a deeds news b) (second : Squares due later b more others c) :
    Squares owed later a (deeds ++ more) (news ++ others) c := by
  refine ⟨fun x prompt => ?_, ?_, fun d => ?_⟩
  · have before := first.balance x prompt
    have after := second.balance x prompt
    simp only [ranErrands, handedErrands, List.filterMap_append, List.flatMap_append,
      List.count_append] at before after ⊢
    omega
  · rw [doneErrands, List.filterMap_append, List.filterMap_append, first.told, second.told]
    rfl
  · have before := first.unlocks d
    have after := second.unlocks d
    simp only [requestsOf, deliveriesOf, List.filterMap_append, List.flatMap_append] at before after ⊢
    rw [← List.append_assoc, before, List.append_assoc, after, List.append_assoc]

/- What is owed besides stays due. -/
theorem besides (squares : Squares owed due a deeds news b) {owed' due' : List Errand}
    (extra : ∀ x, owed'.count x + due.count x = due'.count x + owed.count x) :
    Squares owed' due' a deeds news b := by
  refine { squares with balance := fun x prompt => ?_ }
  have balance := squares.balance x prompt
  have same := extra x
  omega

end Squares

namespace Accounts

/- What runs nothing and leaves alone what waits. -/
theorem of_same (owed : List Errand) (waiting : b.waiting = a.waiting)
    (events : b.events.toList = a.events.toList ++ news)
    (silent : news.filterMap Event.executed? = []) (unlocks : b.progress.unlocks = a.progress.unlocks) :
    Accounts owed owed a [] b :=
  ⟨news, events, .of_same owed waiting silent unlocks⟩

theorem refl (owed : List Errand) (a : Play) : Accounts owed owed a [] a :=
  of_same owed rfl (List.append_nil _).symm rfl rfl

theorem revise (a : Play) {change : Progress → Progress}
    (unlocks : (change a.progress).unlocks = a.progress.unlocks) : Balanced a [] (a.revise change) :=
  of_same [] rfl (List.append_nil _).symm rfl unlocks

theorem announce (a : Play) {event : Event} (silent : event.executed? = none) :
    Balanced a [] (a.announce event) := by
  refine of_same [] rfl (Array.toList_push ..) ?_ rfl
  rw [List.filterMap_cons_none silent]
  rfl

theorem trans (first : Accounts owed due a deeds b) (second : Accounts due later b more c) :
    Accounts owed later a (deeds ++ more) c := by
  obtain ⟨news, events, squares⟩ := first
  obtain ⟨others, events', squares'⟩ := second
  refine ⟨news ++ others, ?_, squares.trans squares'⟩
  rw [events', events, List.append_assoc]

theorem besides (accounts : Accounts owed due a deeds b) {owed' due' : List Errand}
    (extra : ∀ x, owed'.count x + due.count x = due'.count x + owed.count x) :
    Accounts owed' due' a deeds b := by
  obtain ⟨news, events, squares⟩ := accounts
  exact ⟨news, events, squares.besides extra⟩

theorem append (accounts : Accounts owed due a deeds b) (others : List Errand) :
    Accounts (owed ++ others) (due ++ others) a deeds b :=
  accounts.besides fun x => by rw [List.count_append, List.count_append]; omega

theorem cons (accounts : Accounts owed due a deeds b) (other : Errand) :
    Accounts (other :: owed) (other :: due) a deeds b :=
  accounts.besides fun x => by rw [List.count_cons, List.count_cons]; omega

theorem quiet (first : Accounts owed due a deeds b) (second : Accounts due later b [] c) :
    Accounts owed later a deeds c := by
  have both := first.trans second
  rwa [List.append_nil] at both

theorem foldl {α : Type} {step : Play → α → Play} {told : Play → α → List Deed}
    (each : ∀ play item, Balanced play (told play item) (step play item)) (items : List α) (a : Play) :
    Balanced a (eachDeeds step told a items) (items.foldl step a) := by
  induction items generalizing a with
  | nil => exact .refl [] a
  | cons item rest ih => exact (each a item).trans (ih (step a item))

theorem say (a : Play) (contact : String) (saying : Saying) (time : Nat) :
    Balanced a [] (a.say contact saying time) :=
  of_same [] rfl (Array.toList_push ..) rfl rfl

/- An errand that is put on the timeline is no longer owed. -/
theorem schedule (a : Play) (contact : String) (time : Nat) {delivery : Delivery}
    (fits : ∀ t, (Slot.errand? ⟨t, contact, a.epoch, delivery⟩).toList = owed) :
    Accounts owed [] a [] (a.schedule contact time delivery) := by
  refine ⟨[], (List.append_nil _).symm, fun x _ => ?_, rfl, fun c => List.append_nil _⟩
  have placed := ((a.queue.schedule_perm time ⟨contact, a.epoch, delivery⟩).filterMap
    Slot.errand?).count_eq x
  change (a.schedule contact time delivery).waiting.count x = _ at placed
  rw [placed, ← fits (a.queue.effectiveTime contact time), List.filterMap_cons]
  cases Slot.errand? ⟨a.queue.effectiveTime contact time, contact, a.epoch, delivery⟩ with
  | none => rfl
  | some errand =>
    dsimp only
    rw [List.count_cons, Option.toList_some, List.count_singleton]
    change 0 + (a.waiting.count x + _) + 0 = 0 + a.waiting.count x + _
    omega

end Accounts

theorem balanced_recordTimeline (a : Play) : Balanced a [] a.recordTimeline := .revise a rfl

theorem balanced_putThread (a : Play) (contact : String) (thread : ThreadState) :
    Balanced a [] (a.putThread contact thread) := by
  unfold putThread
  dsimp only
  split
  · exact .revise a rfl
  · exact (Accounts.revise a rfl).trans (.announce _ rfl)

theorem balanced_setUnlocked (a : Play) (contact : String) :
    Balanced a [] (a.setUnlocked contact) := by
  unfold setUnlocked
  split
  · exact .refl [] a
  · exact (Accounts.revise a rfl).trans (.announce _ rfl)

theorem balanced_finishThread (a : Play) (contact : String) (time : Nat) :
    Balanced a [] (a.finishThread contact time) := by
  unfold finishThread
  split
  · exact .refl [] a
  · exact (Accounts.say a contact _ time).trans (balanced_putThread _ _ _)

theorem balanced_reopened (a : Play) (contact : String) : Balanced a [] (a.reopened contact) :=
  ((Accounts.revise a rfl).trans (balanced_putThread _ _ _)).trans (balanced_setUnlocked _ _)

theorem accounts_reply (a : Play) (contact text : String) (time : Nat) (tempo : Tempo) :
    Balanced a [] (a.reply contact text time tempo).1 := by
  cases tempo with
  | immediate =>
    simp only [reply]
    split
    · exact .refl [] a
    · exact .say a contact _ time
  | typed =>
    have typing : Balanced a [] (if 0 < a.progress.typingDelay then
        a.schedule contact (time + a.progress.typingDelay) .typing else a) := by
      split
      · exact .schedule a contact _ fun _ => rfl
      · exact .refl [] a
    simp only [reply]
    split
    · exact typing
    · exact typing.trans (.schedule _ contact _ fun _ => rfl)

theorem accounts_schedulePayloads (a : Play) (contact : String) (replyTime last : Nat)
    (payloads : List Action) : Accounts (payloads.map (contact, ·)) [] a []
      (a.schedulePayloads contact replyTime last payloads).1 := by
  induction payloads generalizing a last with
  | nil => exact .refl [] a
  | cons action rest ih =>
    have first : Accounts [(contact, action)] [] a []
        (a.schedule contact (replyTime + action.delay) (.payload action)) :=
      .schedule a contact _ fun _ => rfl
    exact (first.append (rest.map (contact, ·))).trans (ih _ _)

/- What was planned is on the timeline once it has been laid out. -/
theorem accounts_layOut (a : Play) (contact text : String) (plan : Plan) (time : Nat) (tempo : Tempo) :
    Accounts (plan.payloads.map (contact, ·)) [] a [] (a.layOut contact text plan time tempo) := by
  have replied := (accounts_reply a contact text time tempo).append (plan.payloads.map (contact, ·))
  unfold layOut
  dsimp only
  generalize a.reply contact text time tempo = answer at replied
  have laid := replied.trans
    (accounts_schedulePayloads answer.1 contact answer.2 answer.2 plan.payloads)
  split
  · exact laid.trans (.schedule _ contact _ fun _ => rfl)
  · exact laid

/-- A reopening loses nothing and runs nothing twice. -/
def Balancing (again : Reopening) (told : Retelling) : Prop :=
  ∀ play contact key time, Balanced play (told play contact key time) (again play contact key time)

/- An action that is run is no longer owed, whether it is done or fails. -/
theorem accounts_ran (a : Play) (contact : String) {action : Action}
    (prompt : action.effect.isHeldBack = false) (done : Bool) :
    Accounts [(contact, action)] [] a [.ran contact action done]
      (if done then a.announce (.actionExecuted contact action) else a) := by
  have other : ∀ c, Deed.request? c (.ran contact action done) = none := by
    intro c
    obtain ⟨effect, delay⟩ := action
    cases done with
    | false => rfl
    | true =>
      cases effect with
      | unlockContact target => cases prompt
      | _ => rfl
  refine ⟨if done then [.actionExecuted contact action] else [], ?_, fun x _ => ?_, ?_, fun c => ?_⟩
  · cases done with
    | false => exact (List.append_nil _).symm
    | true => exact Array.toList_push ..
  · cases done <;>
      simp [ranErrands, handedErrands, Deed.run?, Deed.errands, prompt, waiting, announce, Nat.add_comm]
  · cases done <;> simp [Event.executed?, doneErrands, Deed.done?, prompt]
  · cases done <;> simp [requestsOf, deliveriesOf, other, Deed.deliveries, unlocksOf, announce]

/- An action that is held back is not accounted for by its run. -/
theorem accounts_held (a : Play) (contact : String) {action : Action}
    (held : action.effect.isHeldBack = true) {done : Bool}
    (asks : ∀ c, a.unlocksOf c ++ requestsOf c [.ran contact action done] = b.unlocksOf c)
    (queue : b.queue = a.queue) (events : b.events = a.events) :
    Accounts [(contact, action)] [] a [.ran contact action done] b := by
  refine ⟨[], ?_, fun x prompt => ?_, ?_, asks⟩
  · rw [events, List.append_nil]
  · have other : (contact, action) ≠ x := by
      rintro rfl
      rw [held] at prompt
      cases prompt
    simp [ranErrands, handedErrands, Deed.run?, Deed.errands, held, waiting, queue, other]
  · cases done <;> simp [doneErrands, Deed.done?, held]

theorem accounts_handed (a : Play) (contact : String) (actions : List Action) :
    Accounts [] (actions.map (contact, ·)) a [.handed contact actions] a := by
  refine ⟨[], (List.append_nil _).symm, fun x prompt => ?_, rfl, fun c => List.append_nil _⟩
  have counted : (handedErrands [.handed contact actions]).count x =
      (actions.map (contact, ·)).count x := by
    rw [handedErrands, List.flatMap_singleton]
    exact List.count_filter (by rw [prompt]; rfl)
  rw [counted]
  change 0 + a.waiting.count x + _ = _ + a.waiting.count x + 0
  omega

section Cascade

variable {again : Reopening} {told : Retelling} (balancing : Balancing again told)

include balancing

theorem accounts_assignWith (a : Play) (name : String) (value : Value) (time : Nat) :
    Balanced a (a.assignDeeds again told name value time) (a.assignWith again name value time) := by
  unfold assignDeeds assignWith
  dsimp only
  split
  · exact .refl [] a
  · have set : Balanced a [.assigned a name value] (a.setVariable name value) :=
      ⟨_, Array.toList_push .., fun _ _ => rfl, rfl, fun _ => List.append_nil _⟩
    exact set.trans (.foldl (fun play (entry : String × RoundKey) =>
      balancing play entry.1 entry.2 time) _ _)

theorem accounts_effectWith {contact : String} {time : Nat} {effect : Effect}
    (prompt : effect.isHeldBack = false) (done : a.effectWith? again contact time effect = some b) :
    Balanced a (a.effectDeeds again told time effect) b := by
  cases effect with
  | setVariable name value =>
    cases done
    exact accounts_assignWith balancing a name value time
  | unlockContact | endThread => cases prompt
  | sendPhoto | sendVideo | dropPin =>
    cases done
    exact .say a contact _ time
  | typingIndicator =>
    cases done
    exact .announce a rfl
  | delayedMessage =>
    simp only [effectWith?] at done
    split at done
    · cases done
      exact .say a _ _ time
    · cases done
  | setContactStatus | openThread =>
    simp only [effectWith?] at done
    split at done
    · cases done
      exact .revise a rfl
    · cases done
  | setTypingDelay | showNotification =>
    cases done
    exact .revise a rfl
  | _ =>
    cases done
    exact .refl [] a

theorem accounts_runWith (a : Play) (contact : String) (action : Action) (time : Nat) :
    Accounts [(contact, action)] [] a (a.runDeeds again told contact action time)
      (a.runWith again contact action time) := by
  unfold runDeeds runWith
  cases held : action.effect.isHeldBack with
  | false =>
    cases done : a.effectWith? again contact time action.effect with
    | none =>
      rw [effectDeeds_of_failed done]
      exact accounts_ran a contact held false
    | some after =>
      have effect := (accounts_effectWith balancing held done).append [(contact, action)]
      exact effect.trans (accounts_ran after contact held true)
  | true =>
    obtain ⟨effect, delay⟩ := action
    cases effect with
    | endThread => exact accounts_held a contact held (fun c => List.append_nil _) rfl rfl
    | unlockContact target =>
      simp only [effectWith?, effectDeeds, if_true]
      split
      · refine accounts_held a contact held (fun c => ?_) rfl rfl
        by_cases own : c = contact
        · subst own
          simp [requestsOf, Deed.request?, unlocksOf, revise, Table.getD, Table.get?_insert]
        · simp [requestsOf, Deed.request?, unlocksOf, revise, Table.getD, Table.get?_insert, own,
            Ne.symm own]
      · exact accounts_held a contact held (fun c => List.append_nil _) rfl rfl
    | _ => cases held

/- What is handed over is run at once or left to be laid out. -/
theorem accounts_planWith (a : Play) (contact : String) (time : Nat) (actions : List Action) :
    Accounts (actions.map (contact, ·)) ((a.planWith again contact time actions).2.payloads.map (contact, ·))
      a (a.planDeeds again told contact time actions) (a.planWith again contact time actions).1 := by
  induction actions generalizing a with
  | nil => exact .refl [] a
  | cons action rest ih =>
    have ran := (accounts_runWith balancing a contact action time).append (rest.map (contact, ·))
    simp only [planWith, planDeeds]
    split
    · exact ran.trans (ih _)
    · split
      · exact (ih a).cons (contact, action)
      · exact ran.trans (ih _)

theorem accounts_handOver (a : Play) (contact text : String) (actions : List Action) (time : Nat)
    (tempo : Tempo) : Balanced a (a.handDeeds again told contact time actions)
      ((a.planWith again contact time actions).1.layOut contact text
        (a.planWith again contact time actions).2 time tempo) :=
  ((accounts_handed a contact actions).trans (accounts_planWith balancing a contact time actions)).quiet
    (accounts_layOut _ contact text _ time tempo)

theorem accounts_enterWith (a : Play) (contact : String) (key : RoundKey) (time : Nat) (tempo : Tempo)
    (leading : Option Action) : Balanced a (a.enterDeeds again told contact key time leading)
      (a.enterWith again contact key time tempo leading) := by
  cases found : a.program.round? contact key with
  | none =>
    unfold enterDeeds enterWith
    rw [found]
    exact .refl [] a
  | some round =>
    unfold enterDeeds
    rw [enterWith_eq again found, found]
    have placed : Balanced a [] (a.placed contact key) := .revise a rfl
    have set := Accounts.foldl (fun play (s : Assignment) =>
      accounts_assignWith balancing play s.name s.value time) (a.evaluation round).assignments
        (a.placed contact key)
    exact (placed.trans set).trans (accounts_handOver balancing _ contact _ _ time tempo)

end Cascade

/- By induction on how deep reopenings go. -/
theorem balancing_reopen (depth : Nat) : Balancing (reopen depth) (reopenDeeds depth) := by
  induction depth with
  | zero => exact fun play _ _ _ => .refl [] play
  | succ depth ih =>
    intro play contact key time
    rw [reopen_succ, reopenDeeds]
    split
    · have noted : Balanced play [.reopened play contact key] play :=
        ⟨[], (List.append_nil _).symm, fun _ _ => rfl, rfl, fun _ => List.append_nil _⟩
      exact (noted.quiet (balanced_reopened play contact)).trans (accounts_enterWith ih _ contact key time .typed none)
    · exact .refl [] play

theorem balanced_assign (a : Play) (name : String) (value : Value) (time : Nat) :
    Balanced a (a.assigning name value time) (a.assign name value time) :=
  accounts_assignWith (balancing_reopen _) a name value time

theorem accounts_run (a : Play) (contact : String) (action : Action) (time : Nat) :
    Accounts [(contact, action)] [] a (a.running contact action time) (a.run contact action time) :=
  accounts_runWith (balancing_reopen _) a contact action time

theorem balanced_enter (a : Play) (contact : String) (key : RoundKey) (time : Nat) (tempo : Tempo)
    (leading : Option Action) : Balanced a (a.entering contact key time leading)
      (a.enter contact key time tempo leading) :=
  accounts_enterWith (balancing_reopen _) a contact key time tempo leading

theorem balanced_unlock (a : Play) (contact target : String) (time : Nat) :
    Balanced a (a.unlockDeeds contact target time) (a.unlock contact target time) := by
  unfold unlockDeeds unlock
  cases a.program.contact? target with
  | none => exact .refl [] a
  | some entry =>
    dsimp only
    split
    · exact .refl [] a
    · have said : Balanced a [] (a.say contact (.ofUnlock target) time) := .say a contact _ time
      have opened := (said.trans (balanced_setUnlocked _ target)).trans
        (balanced_putThread _ target .active)
      have silent : (Event.actionExecuted contact { effect := .unlockContact target }).executed? = none :=
        rfl
      have told := opened.trans (.announce _ silent)
      cases entry.firstKey? with
      | none => exact told
      | some key => exact told.trans (balanced_enter _ target key time .immediate none)

theorem balanced_endPending (a : Play) (contact : String) (time : Nat) :
    Balanced a [] (a.endPending contact time) := by
  unfold endPending
  split
  · have finished : Balanced a [] ((a.revise fun p => { p with
        endings := p.endings.remove contact }).finishThread contact time) :=
      (Accounts.revise a rfl).trans (balanced_finishThread _ contact time)
    dsimp only
    split
    · exact finished
    · exact finished.trans (.announce _ rfl)
  · exact .refl [] a

/- Notices take all that waits for them. -/
theorem balanced_deliverHeld (a : Play) (contact : String) (time : Nat) :
    Balanced a (a.heldDeeds contact time) (a.deliverHeld contact time) := by
  have taken : Balanced a [.delivered contact (a.unlocksOf contact)]
      (a.revise fun p => { p with unlocks := p.unlocks.erase contact }) := by
    refine ⟨[], (List.append_nil _).symm, fun _ _ => rfl, rfl, fun c => ?_⟩
    by_cases own : c = contact
    · subst own
      simp [requestsOf, deliveriesOf, Deed.deliveries, Deed.request?, unlocksOf, revise, Table.getD,
        Table.get?_erase]
    · simp [requestsOf, deliveriesOf, Deed.deliveries, Deed.request?, unlocksOf, revise, Table.getD,
        Table.get?_erase, own, Ne.symm own]
  have unlocked := Accounts.foldl (fun play target => balanced_unlock play contact target time)
    (a.unlocksOf contact) (a.revise fun p => { p with unlocks := p.unlocks.erase contact })
  exact (taken.trans unlocked).quiet (balanced_endPending _ contact time)

/- A task that is fired no longer waits: what it brings has been run. -/
theorem balanced_fire (sound : a.Sound) {slot : Slot} (next : a.queue.next? = some slot) :
    Balanced a (a.dropFirst.fireDeeds slot) (a.dropFirst.fire slot) := by
  have accepts := sound.accepts_first next
  have dropped : ∀ x, a.waiting.count x =
      slot.errand?.toList.count x + a.dropFirst.waiting.count x := by
    intro x
    rw [waiting, Queue.slots_of_next next, List.filterMap_cons]
    cases slot.errand? with
    | none => exact (Nat.zero_add _).symm
    | some errand =>
      dsimp only
      rw [List.count_cons, Option.toList_some, List.count_singleton, Nat.add_comm]
      rfl
  have fired : Accounts slot.errand?.toList [] a.dropFirst (a.dropFirst.fireDeeds slot)
      (a.dropFirst.fire slot) := by
    unfold fireDeeds fire Slot.errand?
    rw [if_pos accepts.epoch, if_pos accepts.epoch]
    cases slot.task.delivery with
    | typing => exact .announce _ rfl
    | reply text => exact .say _ _ _ _
    | payload action => exact accounts_run _ _ action _
    | notices => exact balanced_deliverHeld _ _ _
  obtain ⟨news, events, squares⟩ := fired
  refine ⟨news, events, { squares with balance := fun x prompt => ?_ }⟩
  have balance := squares.balance x prompt
  rw [dropped, balance, List.count_nil]
  omega

theorem balanced_fireDue {a : Play} (sound : a.Sound) (now : Nat) :
    Balanced a ((a.firings now).flatMap Moment.deeds) (a.fireDue now).1 := by
  cases due : a.queue.due? now with
  | none =>
    rw [firings_of_none due, fireDue_of_none due]
    exact .refl [] a
  | some slot =>
    have next := (next_of_due due).1
    rw [firings_of_some due, fireDue_of_some due]
    exact (balanced_fire sound next).trans (balanced_fireDue (sound_fire sound next) now)
termination_by a.rank now
decreasing_by exact rank_fire_lt due

theorem balanced_fireUpTo (sound : a.Sound) (limit : Nat) :
    Balanced a ((a.firingsUpTo limit).flatMap Moment.deeds) (fireUpTo limit a).1 := by
  induction limit generalizing a with
  | zero => exact .refl [] a
  | succ limit ih =>
    unfold firingsUpTo fireUpTo
    cases next : a.queue.next? with
    | none => exact .refl [] a
    | some slot => exact (balanced_fire sound next).trans (ih (sound_fire sound next))

theorem balanced_beginStory (a : Play) (now : Nat) : Balanced a (a.beginning now) (a.beginStory now) := by
  unfold beginning beginStory
  cases a.program.opening? with
  | none => exact .refl [] a
  | some contact =>
    dsimp only
    cases contact.firstKey? with
    | none => exact .refl [] a
    | some key => exact balanced_enter a contact.name key now .immediate none

theorem balanced_choose {contact : String} {index now : Nat}
    (chosen : a.choose? contact index now = some b) : Balanced a (a.choosing contact index now) b := by
  unfold choose? at chosen
  obtain ⟨choice, offered, followed⟩ := Option.bind_eq_some_iff.1 chosen
  cases followed
  unfold choosing
  rw [offered]
  dsimp only
  have said : Balanced a [] (a.say contact { text := choice.text, fromPlayer := true } now) :=
    .say a contact _ now
  cases (a.say contact { text := choice.text, fromPlayer := true } now).target? contact choice with
  | some key => exact said.trans (balanced_enter _ contact key now .typed choice.action)
  | none =>
    have left : ∀ play : Play, Balanced play []
        (play.revise fun p => { p with rounds := p.rounds.erase contact }) := fun _ => .revise _ rfl
    exact (said.trans (left _)).trans (balanced_finishThread _ contact now)

end Play

namespace Session

open Play

theorem balanced_acted {s : Session} {now : Nat} {operation : Operation} {start : Play}
    (ongoing : operation.Ongoing) (acted : s.acted? now operation = some start) :
    Balanced s.play (s.actedDeeds now operation) start := by
  cases operation with
  | choose contact index => exact balanced_choose acted
  | setVariable name value =>
    cases acted
    exact balanced_assign s.play name value now
  | execute contact actions =>
    simp only [acted?, execute?] at acted
    simp only [actedDeeds]
    split at acted
    · rename_i known
      cases acted
      rw [if_pos known]
      exact accounts_handOver (balancing_reopen _) s.play contact "" actions now .immediate
    · cases acted
  | tick =>
    cases acted
    exact .refl [] s.play
  | switchProgram program | reset => cases ongoing
  | setTypingDelay delay | flush | view contact | collectNotifications | takeEvents => cases acted

/- What does nothing at once does nothing that is accounted for, unless it fires all tasks. -/
theorem deeds_of_unacted {s : Session} {now : Nat} {operation : Operation}
    (unacted : s.acted? now operation = none) (waits : operation ≠ .flush)
    (ongoing : operation.Ongoing) : s.deeds now operation = [] := by
  rw [deeds, firings_of_unacted unacted waits, List.flatMap_nil, List.append_nil]
  cases operation with
  | choose contact index =>
    change (s.play.choices contact)[index]?.bind _ = none at unacted
    cases offered : (s.play.choices contact)[index]? with
    | none =>
      simp only [actedDeeds, choosing]
      rw [offered]
    | some choice =>
      rw [offered] at unacted
      cases unacted
  | execute contact actions =>
    simp only [acted?, execute?] at unacted
    simp only [actedDeeds]
    split at unacted
    · cases unacted
    · rename_i unknown
      rw [if_neg unknown]
  | setVariable name value | tick => cases unacted
  | switchProgram program | reset => cases ongoing
  | _ => rfl

theorem Aside.events {a b : Play} (aside : Aside a b) : b.events = a.events ∨ b.events = #[] := by
  cases aside with
  | taken => exact .inr rfl
  | _ => exact .inl rfl

/-- What an operation announces. -/
def announced (s : Session) (now : Nat) (operation : Operation) : List Event :=
  (s.perform now operation).play.events.toList.drop s.play.events.size

def allAnnounced (s : Session) : List (Nat × Operation) → List Event
  | [] => []
  | (now, operation) :: rest => s.announced now operation ++ (s.perform now operation).allAnnounced rest

/-- What is announced in a story, whether it has been taken since or not. -/
def storyAnnounced (program : Program) (options : Options) (store : Store) (now : Nat)
    (steps : List (Nat × Operation)) : List Event :=
  let first := start program options store now
  first.play.events.toList ++ first.allAnnounced steps

theorem squares_of_balanced {a b : Play} {deeds : List Deed} (balanced : Balanced a deeds b) :
    Squares [] [] a deeds (b.events.toList.drop a.events.size) b := by
  obtain ⟨news, events, squares⟩ := balanced
  rw [events, ← Array.length_toList, List.drop_left]
  exact squares

theorem compiled_of_ongoing {operation : Operation} (ongoing : operation.Ongoing) :
    operation.Compiled := by
  cases operation with
  | switchProgram program => cases ongoing
  | _ => trivial

theorem squares_perform {s : Session} (sound : s.play.Sound) {operation : Operation}
    (ongoing : operation.Ongoing) (now : Nat) : Squares [] [] s.play (s.deeds now operation)
      (s.announced now operation) (s.perform now operation).play := by
  cases acted : s.acted? now operation with
  | some start =>
    have started := sound_acted sound (compiled_of_ongoing ongoing) acted
    have fired := (balanced_acted ongoing acted).trans (balanced_fireDue started now)
    rw [← firings_of_acted acted] at fired
    apply squares_of_balanced
    rcases play_perform_of_acted acted with same | same
    · rw [same]
      exact fired
    · rw [same]
      exact fired.quiet (balanced_recordTimeline _)
  | none =>
    by_cases flush : operation = .flush
    · subst flush
      have fired := balanced_fireUpTo sound fireLimit
      apply squares_of_balanced
      change Balanced s.play ([] ++ _) s.flush.1.play
      unfold Session.flush
      dsimp only
      split
      · exact fired
      · exact fired.quiet (balanced_recordTimeline _)
    · have aside := aside_of_unacted ongoing acted flush
      rw [deeds_of_unacted acted flush ongoing]
      refine .of_same [] (by rw [waiting, aside.rests.queue]; rfl) ?_ aside.rests.unlocks
      unfold announced
      rcases aside.events with same | none
      · rw [same, ← Array.length_toList, List.drop_length]
        rfl
      · rw [none, List.drop_nil]
        rfl

theorem squares_performAll {s : Session} (sound : s.play.Sound) {steps : List (Nat × Operation)}
    (ongoing : ∀ step ∈ steps, step.2.Ongoing) : Squares [] [] s.play (s.allDeeds steps)
      (s.allAnnounced steps) (s.performAll steps).play ∧ (s.performAll steps).play.Sound := by
  induction steps generalizing s with
  | nil => exact ⟨.of_same [] rfl rfl rfl, sound⟩
  | cons step rest ih =>
    obtain ⟨now, operation⟩ := step
    obtain ⟨first, others⟩ := List.forall_mem_cons.1 ongoing
    have after := sound_perform sound (compiled_of_ongoing first) now
    obtain ⟨later, ends⟩ := ih after others
    exact ⟨(squares_perform sound first now).trans later, ends⟩

/- A run that is prompt is one of what was handed over; nothing that is held back comes to the timeline. -/
theorem perm_of_squares {a b : Play} {deeds : List Deed} {news : List Event}
    (squares : Squares [] [] a deeds news b) (empty : a.waiting = []) (sound : b.Sound) :
    (ranErrands deeds ++ b.waiting).Perm (handedErrands deeds) := by
  have waits : ∀ x ∈ b.waiting, x.2.effect.isHeldBack = false := by
    intro x member
    obtain ⟨slot, listed, brings⟩ := List.mem_filterMap.1 member
    have accepts := sound.tasks slot listed
    unfold Slot.errand? at brings
    split at brings
    · rename_i action delivery
      cases brings
      exact accepts.payload action delivery
    · cases brings
  have runs : ∀ x ∈ ranErrands deeds, x.2.effect.isHeldBack = false := by
    intro x member
    obtain ⟨deed, _, brings⟩ := List.mem_filterMap.1 member
    unfold Deed.run? at brings
    split at brings
    · split at brings
      · cases brings
      · rename_i prompt
        cases brings
        exact Bool.eq_false_iff.2 prompt
    · cases brings
  have hands : ∀ x ∈ handedErrands deeds, x.2.effect.isHeldBack = false := by
    intro x member
    obtain ⟨deed, _, brings⟩ := List.mem_flatMap.1 member
    unfold Deed.errands at brings
    split at brings
    · simpa using (List.mem_filter.1 brings).2
    · cases brings
  rw [List.perm_iff_count]
  intro x
  cases prompt : x.2.effect.isHeldBack with
  | false =>
    have balance := squares.balance x prompt
    rw [empty] at balance
    rw [List.count_append]
    exact balance
  | true =>
    have out : ∀ xs : List Errand, (∀ x ∈ xs, x.2.effect.isHeldBack = false) → xs.count x = 0 := by
      intro xs prompts
      refine List.count_eq_zero.2 fun member => ?_
      rw [prompts x member] at prompt
      cases prompt
    rw [List.count_append, out _ waits, out _ runs, out _ hands]

/- In a new story that goes on, whatever was handed over has been run or waits on the timeline; each run
   that was done was announced, in order; and what was asked for a contact to unlock is what its notices
   took, and behind that what still waits for them. -/
theorem story_accounted_for {program : Program} (scripted : program.Scripted) (options : Options)
    {store : Store} (fresh : restored? store = none) (now : Nat) {steps : List (Nat × Operation)}
    (ongoing : ∀ step ∈ steps, step.2.Ongoing) :
    let deeds := storyDeeds program options store now steps
    let last := ((start program options store now).performAll steps).play
    (ranErrands deeds ++ last.waiting).Perm (handedErrands deeds) ∧
      (storyAnnounced program options store now steps).filterMap Event.executed? = doneErrands deeds ∧
      ∀ c, requestsOf c deeds = deliveriesOf c deeds ++ last.unlocksOf c := by
  intro deeds last
  have formed := scripted.wellFormed
  have begun : (Play.begun program options now).Sound :=
    sound_beginStory (sound_initial formed _ _ _ _) now
  have started : Balanced (unbegun program options) (startDeeds program options store now)
      (start program options store now).play := by
    rw [start_of_fresh fresh, play_settle, startDeeds, fresh]
    exact ((balanced_beginStory _ now).trans (balanced_fireDue begun now)).quiet
      (balanced_recordTimeline _)
  have sound : (start program options store now).play.Sound := by
    rw [start_of_fresh fresh]
    exact settle_keeps lasting_sound _ begun now
  obtain ⟨goes_on, ends⟩ := squares_performAll sound ongoing
  have squares := (squares_of_balanced started).trans goes_on
  refine ⟨perm_of_squares squares rfl ends, squares.told, fun c => ?_⟩
  have unlocks := squares.unlocks c
  rwa [show (unbegun program options).unlocksOf c = [] by
    rw [unlocksOf, unbegun, (Progress.unlocks_initial program options.typingDelay).1]; rfl] at unlocks

/-- A photo comes later, and somebody is unlocked behind it. -/
def introduceWithPhoto : List (Nat × Operation) :=
  [(1000, .execute "A" [⟨.sendPhoto "p" none, 500⟩, ⟨.unlockContact "B", 0⟩]), (1200, .tick)]

def photoWaits (s : Session) : Bool :=
  s.play.waiting.contains ("A", ⟨.sendPhoto "p" none, 500⟩) && decide (s.play.unlocksOf "A" = ["B"])

theorem played_introduceWithPhoto :
    (playedWithin 1 unmet 1000 introduceWithPhoto).any photoWaits = true := by
  decide +kernel

/- The books of that story are square while the photo waits, and the unlock behind it. -/
theorem story_accounted_for_photo : ∃ program : Program, program.Scripted ∧
    restored? Store.empty = none ∧ (∀ step ∈ introduceWithPhoto, step.2.Ongoing) ∧
    let deeds := storyDeeds program {} .empty 1000 introduceWithPhoto
    let last := ((start program {} .empty 1000).performAll introduceWithPhoto).play
    ("A", ⟨.sendPhoto "p" none, 500⟩) ∈ last.waiting ∧ last.unlocksOf "A" = ["B"] ∧
      (ranErrands deeds ++ last.waiting).Perm (handedErrands deeds) ∧
      (storyAnnounced program {} .empty 1000 introduceWithPhoto).filterMap Event.executed? =
        doneErrands deeds ∧
      ∀ c, requestsOf c deeds = deliveriesOf c deeds ++ last.unlocksOf c := by
  have ongoing : ∀ step ∈ introduceWithPhoto, step.2.Ongoing := by
    simp only [introduceWithPhoto, List.forall_mem_cons]
    exact ⟨rfl, rfl, List.forall_mem_nil _⟩
  obtain ⟨program, compiled, shown⟩ := played_of_any played_introduceWithPhoto
  obtain ⟨waits, asked⟩ := Bool.and_eq_true_iff.1 shown
  have scripted : program.Scripted := Program.Compiled.scripted ⟨unmet, compiled⟩
  exact ⟨program, scripted, rfl, ongoing, List.contains_iff_mem.1 waits, of_decide_eq_true asked,
    story_accounted_for scripted {} rfl 1000 ongoing⟩

end Session
end ChatStory
