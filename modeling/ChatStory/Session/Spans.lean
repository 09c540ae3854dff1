import ChatStory.Session.Firing

/-!
What happens in a story is made of single writes. A relation that leads from every play to what each of
these writes makes of it leads as well to what comes of an assignment, of a round that is entered and of
a task that is fired.
-/
namespace ChatStory

/-- The task assigns a variable. -/
def Slot.isAssigning (slot : Slot) : Bool :=
  match slot.task.delivery with
  | .payload action => match action.effect with
    | .setVariable .. => true
    | _ => false
  | _ => false

namespace Play

/-- It leads to whatever a single write at some time makes of a play, as long as no thread ends. -/
structure Spans (time : Nat) (R : Play → Play → Prop) : Prop where
  refl (a : Play) : R a a
  trans {a b c : Play} : R a b → R b c → R a c
  /-- Nothing is said or announced, and no thread, no unlock and no variable changes. -/
  noted (a : Play) {change : Progress → Progress} :
    (change a.progress).histories = a.progress.histories →
    (change a.progress).nextId = a.progress.nextId →
    (change a.progress).threads = a.progress.threads →
    (change a.progress).unlocked = a.progress.unlocked →
    (change a.progress).values = a.progress.values → R a (a.revise change)
  /-- What comes to the timeline comes in time, and later if it assigns a variable. -/
  scheduled (a : Play) (contact : String) {moment : Nat} (delivery : Delivery) : time ≤ moment →
    (∀ t, (Slot.mk t ⟨contact, a.epoch, delivery⟩).isAssigning = true → time < moment) →
    R a (a.schedule contact moment delivery)
  said (a : Play) (contact : String) {saying : Saying} :
    saying.kind ≠ .typing → R a (a.say contact saying time)
  typed (a : Play) (contact : String) : R a (a.announceTyping contact time)
  opened (a : Play) (contact : String) : R a (a.putThread contact .active)
  unlocked (a : Play) (contact : String) : R a (a.setUnlocked contact)
  assigned (a : Play) {name : String} {value : Value} :
    (a.progress.values.get? name).any (·.same value) = false →
    R a ((a.revise fun p => { p with values := a.progress.values.insert name value }).announce
      (.variableChanged name value))
  told (a : Play) (contact : String) (action : Action) :
    R a (a.announce (.actionExecuted contact action))

/-- It leads there also where threads end. -/
structure SpansAll (time : Nat) (R : Play → Play → Prop) : Prop extends Spans time R where
  ended (a : Play) (contact : String) : R a (a.putThread contact .ended)

/-- Payloads that assign a variable are delayed. -/
def Delayed (payloads : List Action) : Prop :=
  ∀ action ∈ payloads, ∀ name value, action.effect = .setVariable name value → 0 < action.delay

variable {time : Nat} {R : Play → Play → Prop} {again : Reopening}

theorem delayed_planWith (play : Play) (contact : String) (actions : List Action) :
    Delayed (play.planWith again contact time actions).2.payloads := by
  induction actions generalizing play with
  | nil => exact fun _ none => nomatch none
  | cons action rest ih =>
    simp only [planWith]
    split
    · exact ih _
    · split
      · rename_i bubble
        intro payload listed name value assigns
        rcases List.mem_cons.1 listed with rfl | listed
        · simpa [assigns, Effect.isBubble] using bubble
        · exact ih play payload listed name value assigns
      · exact ih _

theorem le_reply (play : Play) (contact text : String) (tempo : Tempo) :
    time ≤ (play.reply contact text time tempo).2 := by
  cases tempo with
  | immediate => exact Nat.le_refl _
  | typed =>
    simp only [reply]
    split <;> omega

namespace Spans

variable (spans : Spans time R)

include spans

theorem foldl {α : Type} {step : Play → α → Play} (each : ∀ play item, R play (step play item))
    (items : List α) (a : Play) : R a (items.foldl step a) := by
  apply List.foldlRecOn items step (spans.refl a)
  intro play leads item _
  exact spans.trans leads (each play item)

theorem reply (a : Play) (contact text : String) (tempo : Tempo) :
    R a (a.reply contact text time tempo).1 := by
  cases tempo with
  | immediate =>
    simp only [Play.reply]
    split
    · exact spans.refl a
    · exact spans.said a contact nofun
  | typed =>
    have typing : R a (if 0 < a.progress.typingDelay then
        a.schedule contact (time + a.progress.typingDelay) .typing else a) := by
      split
      · exact spans.scheduled a contact .typing (Nat.le_add_right ..) nofun
      · exact spans.refl a
    simp only [Play.reply]
    split
    · exact typing
    · refine spans.trans typing (spans.scheduled _ contact (.reply text) ?_ nofun)
      split <;> omega

theorem schedulePayloads (a : Play) (contact : String) {replyTime : Nat} (last : Nat)
    {payloads : List Action} (late : time ≤ replyTime) (delayed : Delayed payloads) :
    R a (a.schedulePayloads contact replyTime last payloads).1 := by
  induction payloads generalizing a last with
  | nil => exact spans.refl a
  | cons action rest ih =>
    have put : R a (a.schedule contact (replyTime + action.delay) (.payload action)) := by
      apply spans.scheduled a contact _ (Nat.le_trans late (Nat.le_add_right ..))
      intro _ assigning
      have positive : 0 < action.delay := by
        cases effect : action.effect <;> simp [Slot.isAssigning, effect] at assigning
        exact delayed action List.mem_cons_self _ _ effect
      omega
    exact spans.trans put (ih _ _ fun other listed => delayed other (List.mem_cons_of_mem _ listed))

theorem layOut (a : Play) (contact text : String) {plan : Plan} (tempo : Tempo)
    (delayed : Delayed plan.payloads) : R a (a.layOut contact text plan time tempo) := by
  have late : time ≤ (a.reply contact text time tempo).2 := le_reply a contact text tempo
  have laid := spans.trans (spans.reply a contact text tempo)
    (spans.schedulePayloads _ contact (a.reply contact text time tempo).2 late delayed)
  simp only [Play.layOut]
  split
  · exact spans.trans laid (spans.scheduled _ contact .notices (by omega) nofun)
  · exact laid

section Cascade

variable (reopens : ∀ play contact key, R play (again play contact key time))

include reopens

theorem assignWith (a : Play) (name : String) (value : Value) :
    R a (a.assignWith again name value time) := by
  unfold Play.assignWith
  dsimp only
  split
  · exact spans.refl a
  · rename_i fresh
    apply spans.trans (spans.assigned a (Bool.eq_false_iff.2 fresh))
    exact spans.foldl (fun play (entry : String × RoundKey) => reopens play entry.1 entry.2) _ _

theorem effectWith {a b : Play} {contact : String} {effect : Effect}
    (done : a.effectWith? again contact time effect = some b) : R a b := by
  cases effect with
  | setVariable name value =>
    cases done
    exact spans.assignWith reopens a name value
  | delayedMessage text target =>
    simp only [effectWith?] at done
    split at done
    · cases done
      exact spans.said a _ nofun
    · cases done
  | sendPhoto media caption | sendVideo media caption | dropPin pin =>
    cases done
    exact spans.said a contact nofun
  | typingIndicator duration =>
    cases done
    exact spans.typed a contact
  | unlockContact target | setContactStatus target status | openThread target =>
    simp only [effectWith?] at done
    split at done
    · cases done
      exact spans.noted a rfl rfl rfl rfl rfl
    · cases done
  | endThread | setTypingDelay delay | showNotification title text =>
    cases done
    exact spans.noted a rfl rfl rfl rfl rfl
  | vibrate pattern | callEmergency | needCode | triggerCall caller =>
    cases done
    exact spans.refl a

theorem runWith (a : Play) (contact : String) (action : Action) :
    R a (a.runWith again contact action time) := by
  unfold Play.runWith
  split
  · rename_i after done
    have led := spans.effectWith reopens done
    split
    · exact led
    · exact spans.trans led (spans.told after contact action)
  · exact spans.refl a

theorem planWith (a : Play) (contact : String) (actions : List Action) :
    R a (a.planWith again contact time actions).1 := by
  induction actions generalizing a with
  | nil => exact spans.refl a
  | cons action rest ih =>
    simp only [Play.planWith]
    split
    · exact spans.trans (spans.runWith reopens a contact action) (ih _)
    · split
      · exact ih a
      · exact spans.trans (spans.runWith reopens a contact action) (ih _)

theorem enterWith (a : Play) (contact : String) (key : RoundKey) (tempo : Tempo)
    (leading : Option Action) : R a (a.enterWith again contact key time tempo leading) := by
  unfold Play.enterWith
  split
  · exact spans.refl a
  · rename_i round _
    let entered := a.revise fun p => { p with rounds := p.rounds.insert contact key }
    have enters : R a entered := spans.noted a rfl rfl rfl rfl rfl
    have assigned := spans.foldl
      (fun play (s : Assignment) => spans.assignWith reopens play s.name s.value)
      (a.evaluation round).assignments entered
    have planned := spans.trans (spans.trans enters assigned)
      (spans.planWith reopens _ contact (leading.toList ++ (a.evaluation round).actions))
    exact spans.trans planned
      (spans.layOut _ contact (a.evaluation round).text tempo (delayed_planWith _ contact _))

end Cascade

theorem reopen (depth : Nat) (a : Play) (contact : String) (key : RoundKey) :
    R a (Play.reopen depth a contact key time) := by
  induction depth generalizing a contact key with
  | zero => exact spans.refl a
  | succ depth ih =>
    simp only [Play.reopen]
    split
    · let dropped := a.revise fun p => { p with endings := p.endings.remove contact }
      have drops : R a dropped := spans.noted a rfl rfl rfl rfl rfl
      have opened := spans.trans (spans.opened dropped contact) (spans.unlocked _ contact)
      exact spans.trans (spans.trans drops opened) (spans.enterWith ih _ contact key .typed none)
    · exact spans.refl a

theorem assign (a : Play) (name : String) (value : Value) : R a (a.assign name value time) :=
  spans.assignWith (spans.reopen _) a name value

theorem run (a : Play) (contact : String) (action : Action) : R a (a.run contact action time) :=
  spans.runWith (spans.reopen _) a contact action

theorem plan (a : Play) (contact : String) (actions : List Action) :
    R a (a.plan contact actions time).1 :=
  spans.planWith (spans.reopen _) a contact actions

theorem enter (a : Play) (contact : String) (key : RoundKey) (tempo : Tempo) (leading : Option Action) :
    R a (a.enter contact key time tempo leading) :=
  spans.enterWith (spans.reopen _) a contact key tempo leading

theorem unlock (a : Play) (contact target : String) : R a (a.unlock contact target time) := by
  unfold Play.unlock
  split
  · exact spans.refl a
  · split
    · exact spans.refl a
    · dsimp only
      have said : R a (a.say contact (.ofUnlock target) time) := spans.said a contact nofun
      have noticed := spans.trans said (spans.unlocked _ target)
      have told := spans.trans (spans.trans noticed (spans.opened _ target))
        (spans.told _ contact { effect := .unlockContact target })
      split
      · exact spans.trans told (spans.enter _ target _ .immediate none)
      · exact told

end Spans

namespace SpansAll

variable (spans : SpansAll time R)

include spans

theorem finishThread (a : Play) (contact : String) : R a (a.finishThread contact time) := by
  unfold Play.finishThread
  split
  · exact spans.refl a
  · have said : R a (a.say contact .ofEnd time) := spans.said a contact nofun
    exact spans.trans said (spans.ended _ contact)

theorem endPending (a : Play) (contact : String) : R a (a.endPending contact time) := by
  have dropped : R a (a.revise fun p => { p with endings := p.endings.remove contact }) :=
    spans.noted a rfl rfl rfl rfl rfl
  have finished := spans.trans dropped (spans.finishThread _ contact)
  simp only [Play.endPending]
  split
  · split
    · exact finished
    · exact spans.trans finished (spans.told _ contact { effect := .endThread })
  · exact spans.refl a

theorem deliverHeld (a : Play) (contact : String) : R a (a.deliverHeld contact time) := by
  have taken : R a (a.revise fun p => { p with unlocks := p.unlocks.erase contact }) :=
    spans.noted a rfl rfl rfl rfl rfl
  have unlocks := spans.foldl (fun play target => spans.unlock play contact target)
    (a.progress.unlocks.getD contact []) (a.revise fun p => { p with unlocks := p.unlocks.erase contact })
  exact spans.trans (spans.trans taken unlocks) (spans.endPending _ contact)

end SpansAll

/-- What a task does it does at the time at which it comes up. -/
theorem SpansAll.fire {slot : Slot} (spans : SpansAll slot.time R) (a : Play) : R a (a.fire slot) := by
  unfold Play.fire
  split
  · split
    · exact spans.typed a _
    · exact spans.said a _ nofun
    · exact spans.run a _ _
    · exact spans.deliverHeld a _
  · exact spans.refl a

end Play
end ChatStory
