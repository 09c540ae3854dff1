import ChatStory.Proofs.Evaluation
import ChatStory.Proofs.Literals
import ChatStory.Proofs.Session.Arising
import ChatStory.Proofs.Session.Walk

/-!
Stories without numbers that are not finite. The numbers of a story come from its script, from what the
host hands in and from the save that it goes on from; none is ever computed, so a story with finite
numbers goes on with finite numbers for as long as the host hands in no other.
-/
namespace ChatStory

namespace Round

variable {round : Round} {values : Variables}

theorem isFinite_of_assignment (finite : ∀ fragment ∈ round.body, fragment.isFinite = true)
    {a : Assignment} (member : a ∈ (round.evaluation values).assignments) :
    a.value.isFinite = true := by
  obtain ⟨sight, listed, found⟩ := List.mem_filterMap.1 member
  have named := finite _ (fragment_of_sights listed)
  unfold Sight.assignment? at found
  split at found
  · rename_i name value same
    split at found <;> cases found
    rw [same] at named
    exact named
  · cases found

theorem isFinite_of_action (finite : ∀ fragment ∈ round.body, fragment.isFinite = true)
    {action : Action} (member : action ∈ (round.evaluation values).actions) :
    action.isFinite = true := by
  obtain ⟨sight, listed, found⟩ := List.mem_filterMap.1 member
  have named := finite _ (fragment_of_sights listed)
  unfold Sight.action? at found
  split at found
  · rename_i other same
    split at found <;> cases found
    rw [same] at named
    exact named
  · cases found

end Round

namespace Progress

theorem values_initial (program : Program) (typingDelay : Nat) :
    (initial program typingDelay).values = program.defaults := by
  obtain ⟨_, _, _, _, values⟩ := foldl_apart openContact program.inOrder apart_openContact
    (p := blank program typingDelay)
  exact values

end Progress

/-- The numbers that the host hands in are finite. -/
def Operation.isFinite : Operation → Bool
  | setVariable _ value => value.isFinite
  | execute _ actions => actions.all Action.isFinite
  | _ => true

namespace Play

/-- No variable, no task on the timeline and no part of the program holds a number that is not finite. -/
structure Finite (play : Play) : Prop where
  program : play.program.Finite
  values : ∀ value ∈ play.progress.values.values, value.isFinite = true
  waiting : ∀ slot ∈ play.queue.slots, slot.task.delivery.isFinite = true

variable {a b : Play}

theorem Finite.of_same (finite : a.Finite) (program : b.program = a.program)
    (values : b.progress.values = a.progress.values) (queue : b.queue = a.queue) : b.Finite := by
  refine ⟨?_, ?_, ?_⟩
  · rw [program]
    exact finite.program
  · rw [values]
    exact finite.values
  · rw [queue]
    exact finite.waiting

theorem Finite.revise (finite : a.Finite) {change : Progress → Progress}
    (values : (change a.progress).values = a.progress.values) : (a.revise change).Finite :=
  finite.of_same rfl values rfl

theorem Finite.foldl {α : Type} {step : Play → α → Play} {items : List α} (finite : a.Finite)
    (each : ∀ play : Play, ∀ item ∈ items, play.Finite → (step play item).Finite) :
    (items.foldl step a).Finite := by
  apply List.foldlRecOn items step finite
  intro play before item listed
  exact each play item listed before

theorem finite_schedule (finite : a.Finite) (contact : String) (time : Nat) {delivery : Delivery}
    (named : delivery.isFinite = true) : (a.schedule contact time delivery).Finite := by
  refine ⟨finite.program, finite.values, ?_⟩
  intro slot member
  rcases Queue.mem_schedule.1 member with rfl | old
  · exact named
  · exact finite.waiting slot old

theorem finite_dropFirst (finite : a.Finite) : a.dropFirst.Finite :=
  ⟨finite.program, finite.values, fun slot member => finite.waiting slot (List.mem_of_mem_tail member)⟩

theorem finite_say (finite : a.Finite) (contact : String) (saying : Saying) (time : Nat) :
    (a.say contact saying time).Finite :=
  finite.of_same rfl rfl rfl

theorem finite_putThread (finite : a.Finite) (contact : String) (thread : ThreadState) :
    (a.putThread contact thread).Finite := by
  unfold putThread
  dsimp only
  split <;> exact finite.of_same rfl rfl rfl

theorem finite_setUnlocked (finite : a.Finite) (contact : String) :
    (a.setUnlocked contact).Finite := by
  unfold setUnlocked
  split
  · exact finite
  · exact finite.of_same rfl rfl rfl

theorem finite_finishThread (finite : a.Finite) (contact : String) (time : Nat) :
    (a.finishThread contact time).Finite := by
  unfold finishThread
  split
  · exact finite
  · exact finite_putThread (finite_say finite _ _ _) _ _

section Cascade

variable {again : Reopening}
  (stays : ∀ play contact key time, Finite play → (again play contact key time).Finite)

include stays

theorem finite_assignWith (finite : a.Finite) (name : String) {value : Value}
    (named : value.isFinite = true) (time : Nat) : (a.assignWith again name value time).Finite := by
  unfold assignWith
  dsimp only
  split
  · exact finite
  · apply Finite.foldl
    · refine ⟨finite.program, ?_, finite.waiting⟩
      intro other member
      rcases Table.mem_values_insert member with rfl | old
      · exact named
      · exact finite.values other old
    · exact fun play entry _ before => stays play entry.1 entry.2 time before

theorem finite_effectWith (finite : a.Finite) {contact : String} {time : Nat} {effect : Effect}
    (named : effect.isFinite = true) (done : a.effectWith? again contact time effect = some b) :
    b.Finite := by
  cases effect with
  | setVariable name value =>
    cases done
    exact finite_assignWith stays finite name named time
  | delayedMessage text target =>
    simp only [effectWith?] at done
    split at done <;> cases done
    exact finite_say finite _ _ _
  | sendPhoto media caption | sendVideo media caption | dropPin pin =>
    cases done
    exact finite_say finite _ _ _
  | unlockContact target | setContactStatus target status | openThread target =>
    simp only [effectWith?] at done
    split at done <;> cases done
    exact finite.of_same rfl rfl rfl
  | _ =>
    cases done
    exact finite.of_same rfl rfl rfl

theorem finite_runWith (finite : a.Finite) (contact : String) {action : Action}
    (named : action.isFinite = true) (time : Nat) : (a.runWith again contact action time).Finite := by
  unfold runWith
  split
  · rename_i after done
    have changed := finite_effectWith stays finite named done
    split
    · exact changed
    · exact changed.of_same rfl rfl rfl
  · exact finite

/- What is planned leaves finite numbers, and is itself some of the actions. -/
theorem finite_planWith (finite : a.Finite) (contact : String) (time : Nat) {actions : List Action}
    (named : ∀ action ∈ actions, action.isFinite = true) :
    (a.planWith again contact time actions).1.Finite ∧
      ∀ action ∈ (a.planWith again contact time actions).2.payloads, action.isFinite = true := by
  induction actions generalizing a with
  | nil => exact ⟨finite, List.forall_mem_nil _⟩
  | cons action rest ih =>
    obtain ⟨own, others⟩ := List.forall_mem_cons.1 named
    simp only [planWith]
    split
    · exact ih (finite_runWith stays finite contact own time) others
    · split
      · obtain ⟨kept, payloads⟩ := ih finite others
        exact ⟨kept, List.forall_mem_cons.2 ⟨own, payloads⟩⟩
      · exact ih (finite_runWith stays finite contact own time) others

omit stays

theorem finite_reply (finite : a.Finite) (contact text : String) (time : Nat) (tempo : Tempo) :
    (a.reply contact text time tempo).1.Finite := by
  cases tempo with
  | immediate =>
    simp only [reply]
    split
    · exact finite
    · exact finite_say finite _ _ _
  | typed =>
    have typing : Finite (if 0 < a.progress.typingDelay then
        a.schedule contact (time + a.progress.typingDelay) .typing else a) := by
      split
      · exact finite_schedule finite _ _ rfl
      · exact finite
    simp only [reply]
    split
    · exact typing
    · exact finite_schedule typing _ _ rfl

theorem finite_schedulePayloads (finite : a.Finite) (contact : String) (replyTime last : Nat)
    {payloads : List Action} (named : ∀ action ∈ payloads, action.isFinite = true) :
    (a.schedulePayloads contact replyTime last payloads).1.Finite := by
  induction payloads generalizing a last with
  | nil => exact finite
  | cons action rest ih =>
    obtain ⟨own, others⟩ := List.forall_mem_cons.1 named
    have scheduled : Finite (a.schedule contact (replyTime + action.delay) (.payload action)) :=
      finite_schedule finite contact _ own
    exact ih scheduled _ others

theorem finite_layOut (finite : a.Finite) (contact text : String) {plan : Plan}
    (named : ∀ action ∈ plan.payloads, action.isFinite = true) (time : Nat) (tempo : Tempo) :
    (a.layOut contact text plan time tempo).Finite := by
  have laid := finite_schedulePayloads (finite_reply finite contact text time tempo) contact
    (a.reply contact text time tempo).2 (a.reply contact text time tempo).2 named
  unfold layOut
  dsimp only
  split
  · exact finite_schedule laid _ _ rfl
  · exact laid

include stays

theorem finite_enterWith (finite : a.Finite) (contact : String) (key : RoundKey) (time : Nat)
    (tempo : Tempo) {leading : Option Action} (named : ∀ action ∈ leading, action.isFinite = true) :
    (a.enterWith again contact key time tempo leading).Finite := by
  unfold enterWith
  split
  · exact finite
  · rename_i round found
    have body := finite.program.bodies contact key round found
    dsimp only
    have placed : Finite (a.revise fun p => { p with rounds := p.rounds.insert contact key }) :=
      finite.revise rfl
    have assigned := placed.foldl fun play (s : Assignment)
        (listed : s ∈ (a.evaluation round).assignments) before =>
      finite_assignWith stays before s.name (Round.isFinite_of_assignment body listed) time
    have actions : ∀ action ∈ leading.toList ++ (a.evaluation round).actions,
        action.isFinite = true := by
      apply List.forall_mem_append.2 ⟨fun action first => named action (Option.mem_toList.1 first), ?_⟩
      exact fun action listed => Round.isFinite_of_action body listed
    obtain ⟨planned, payloads⟩ := finite_planWith stays assigned contact time actions
    exact finite_layOut planned contact _ payloads time tempo

omit stays

end Cascade

/- Where no action leads, none names a number. -/
theorem isFinite_of_none : ∀ action ∈ (none : Option Action), action.isFinite = true := nofun

theorem finite_reopen (depth : Nat) (play : Play) (contact : String) (key : RoundKey) (time : Nat)
    (finite : play.Finite) : (reopen depth play contact key time).Finite := by
  induction depth generalizing play contact key time with
  | zero => exact finite
  | succ depth ih =>
    unfold reopen
    split
    · have cleared : Finite (play.revise fun p => { p with endings := p.endings.remove contact }) :=
        finite.revise rfl
      have opened := finite_setUnlocked (finite_putThread cleared contact .active) contact
      exact finite_enterWith ih opened contact key time .typed isFinite_of_none
    · exact finite

theorem finite_assign (finite : a.Finite) (name : String) {value : Value}
    (named : value.isFinite = true) (time : Nat) : (a.assign name value time).Finite :=
  finite_assignWith (finite_reopen a.closedThreads) finite name named time

theorem finite_enter (finite : a.Finite) (contact : String) (key : RoundKey) (time : Nat)
    (tempo : Tempo) {leading : Option Action} (named : ∀ action ∈ leading, action.isFinite = true) :
    (a.enter contact key time tempo leading).Finite :=
  finite_enterWith (finite_reopen a.closedThreads) finite contact key time tempo named

theorem finite_unlock (finite : a.Finite) (contact target : String) (time : Nat) :
    (a.unlock contact target time).Finite := by
  unfold unlock
  split
  · exact finite
  · split
    · exact finite
    · have told : Finite ((((a.say contact (.ofUnlock target) time).setUnlocked target).putThread target
          .active).announce (.actionExecuted contact { effect := .unlockContact target })) :=
        (finite_putThread (finite_setUnlocked (finite_say finite _ _ _) _) _ _).of_same rfl rfl rfl
      dsimp only
      split
      · exact finite_enter told target _ time .immediate isFinite_of_none
      · exact told

theorem finite_endPending (finite : a.Finite) (contact : String) (time : Nat) :
    (a.endPending contact time).Finite := by
  unfold endPending
  split
  · have cleared : Finite (a.revise fun p => { p with endings := p.endings.remove contact }) :=
      finite.revise rfl
    have finished := finite_finishThread cleared contact time
    dsimp only
    split
    · exact finished
    · exact finished.of_same rfl rfl rfl
  · exact finite

theorem finite_deliverHeld (finite : a.Finite) (contact : String) (time : Nat) :
    (a.deliverHeld contact time).Finite := by
  unfold deliverHeld
  dsimp only
  have released : Finite (a.revise fun p => { p with unlocks := p.unlocks.erase contact }) :=
    finite.revise rfl
  apply finite_endPending
  apply released.foldl
  exact fun play target _ before => finite_unlock before contact target time

/- A task leaves finite numbers. -/
theorem finite_fire (finite : a.Finite) {slot : Slot}
    (named : slot.task.delivery.isFinite = true) : (a.fire slot).Finite := by
  unfold fire
  split
  · split
    · exact finite.of_same rfl rfl rfl
    · exact finite_say finite _ _ _
    · rename_i action same
      rw [same] at named
      exact finite_runWith (finite_reopen a.closedThreads) finite _ named _
    · exact finite_deliverHeld finite _ _
  · exact finite

theorem finite_fire_next (finite : a.Finite) {slot : Slot} (next : a.queue.next? = some slot) :
    (a.dropFirst.fire slot).Finite :=
  finite_fire (finite_dropFirst finite) (finite.waiting slot (List.mem_of_head? next))

theorem finite_beginStory (finite : a.Finite) (now : Nat) : (a.beginStory now).Finite := by
  unfold beginStory
  split
  · exact finite
  · split
    · exact finite_enter finite _ _ now .immediate isFinite_of_none
    · exact finite

theorem lasting_finite : Lasting Finite where
  fires finite next := finite_fire_next finite next
  notes finite := finite.revise rfl

/- The tasks of a save are finite again once they are on the timeline. -/
theorem finite_resumeTimeline (finite : a.Finite)
    (saved : ∀ pending ∈ a.progress.deliveries, pending.delivery.isFinite = true) (now : Nat) :
    (a.resumeTimeline now).Finite := by
  have cleared : Finite (a.revise fun p => { p with deliveries := [] }) := finite.revise rfl
  have put := cleared.foldl fun play (pending : SavedTask) listed before =>
    finite_schedule before pending.contact pending.time (saved pending listed)
  rw [resumeTimeline_eq]
  exact put.foldl fun play contact _ before => finite_schedule before contact now rfl

theorem finite_initial {program : Program} (named : program.Finite) (typingDelay epoch indicator : Nat)
    (events : Array Event) :
    Finite ⟨program, .initial program typingDelay, ∅, epoch, indicator, events⟩ := by
  refine ⟨named, ?_, nofun⟩
  rw [Progress.values_initial]
  exact named.defaults

theorem finite_resumed {program : Program} (named : program.Finite) (options : Options)
    {saved : Progress} (read : saved.isFinite = true) (now : Nat) :
    (Play.resumed program options saved now).Finite := by
  obtain ⟨known, waiting⟩ := Progress.isFinite_iff.1 read
  apply finite_resumeTimeline
  · refine ⟨named, ?_, nofun⟩
    intro value member
    rw [Progress.values_fitTo] at member
    rcases Table.mem_values_insertMany member with ⟨entry, listed, rfl⟩ | default
    · exact known entry.2 (List.mem_map_of_mem listed)
    · exact named.defaults value default
  · intro pending member
    rw [Progress.deliveries_fitTo] at member
    exact waiting pending (List.mem_filter.1 member).1

theorem finite_follow (finite : a.Finite) (contact : String) {choice : Choice} (now : Nat)
    (named : ∀ action ∈ choice.action, action.isFinite = true) :
    (a.follow contact choice now).Finite := by
  unfold follow
  split
  · exact finite_enter finite contact _ now .typed named
  · have left : Finite (a.revise fun p => { p with rounds := p.rounds.erase contact }) :=
      finite.revise rfl
    exact finite_finishThread left contact now

/- The actions that come with choices are named by the program. -/
theorem finite_choose (finite : a.Finite) {contact : String} {index now : Nat}
    (picked : a.choose? contact index now = some b) : b.Finite := by
  rw [choose?_eq] at picked
  obtain ⟨choice, offered, rfl⟩ := Option.map_eq_some_iff.1 picked
  apply finite_follow (finite_say finite _ _ _)
  obtain ⟨round, current, shown⟩ := round_of_offer (List.mem_of_getElem? offered)
  obtain ⟨key, _, found⟩ := Option.bind_eq_some_iff.1 current
  have named := finite.program.bodies contact key round found _ (fragment_of_choice shown)
  exact (Option.all_eq_true _ _).1 named

theorem finite_execute (finite : a.Finite) {contact : String} {actions : List Action} {now : Nat}
    (named : ∀ action ∈ actions, action.isFinite = true)
    (done : a.execute? contact actions now = some b) : b.Finite := by
  unfold execute? at done
  split at done <;> cases done
  obtain ⟨planned, payloads⟩ := finite_planWith (finite_reopen a.closedThreads) finite contact now named
  exact finite_layOut planned contact "" payloads now .immediate

theorem finite_switched (finite : a.Finite) {program : Program} (named : program.Finite) :
    (a.switched program).Finite := by
  refine ⟨named, ?_, nofun⟩
  intro value member
  rcases Table.mem_values_insertMany member with ⟨entry, listed, rfl⟩ | default
  · exact finite.values entry.2 (Table.mem_values_filter (List.mem_map_of_mem listed))
  · exact named.defaults value default

theorem finite_acted {s : Session} (finite : s.play.Finite) {now : Nat} {operation : Operation}
    (scripted : operation.Scripted) (named : operation.isFinite = true)
    (acted : s.acted? now operation = some a) : a.Finite := by
  cases operation with
  | choose contact index => exact finite_choose finite acted
  | setVariable name value =>
    cases acted
    exact finite_assign finite name named now
  | execute contact actions => exact finite_execute finite (List.all_eq_true.1 named) acted
  | tick =>
    cases acted
    exact finite
  | switchProgram program =>
    obtain ⟨rfl, _⟩ := Session.begun_of_switch acted
    exact finite_beginStory (finite_switched finite (Program.Scripted.finite scripted)) now
  | reset =>
    cases acted
    exact finite_beginStory (finite_initial finite.program _ _ _ _) now
  | _ => cases acted

end Play

namespace Session

open Play

variable {s : Session}

theorem isFinite_of_restored {store : Store} {saved : Progress} (restored : restored? store = some saved) :
    saved.isFinite = true := by
  obtain ⟨document, _, decoded⟩ := decoded_of_restored restored
  exact Save.isFinite_of_decode decoded

theorem finite_start {program : Program} (scripted : program.Scripted) (options : Options)
    (store : Store) (now : Nat) : (start program options store now).play.Finite := by
  have named := scripted.finite
  apply start_keeps lasting_finite
  · exact fun saved restored => finite_resumed named options (isFinite_of_restored restored) now
  · exact fun _ => finite_beginStory (finite_initial named _ _ _ _) now

theorem Aside.finite {a b : Play} (aside : Aside a b) (finite : a.Finite) : b.Finite := by
  cases aside <;> exact finite.of_same rfl rfl rfl

theorem finite_perform (finite : s.play.Finite) (now : Nat) {operation : Operation}
    (scripted : operation.Scripted) (named : operation.isFinite = true) :
    (s.perform now operation).play.Finite := by
  refine perform_keeps lasting_finite finite (fun start => finite_acted finite scripted named) ?_ ?_
  · rintro program rfl
    exact finite_switched finite (Program.Scripted.finite scripted)
  · intro ongoing unacted waits
    exact (aside_of_unacted ongoing unacted waits).finite finite

/- As long as the host hands in no number that is not finite, the story has none. -/
theorem finite_performAll (finite : s.play.Finite) {steps : List (Nat × Operation)}
    (scripted : ∀ step ∈ steps, step.2.Scripted) (named : ∀ step ∈ steps, step.2.isFinite = true) :
    (s.performAll steps).play.Finite := by
  induction steps generalizing s with
  | nil => exact finite
  | cons step rest ih =>
    obtain ⟨first, others⟩ := List.forall_mem_cons.1 scripted
    obtain ⟨own, later⟩ := List.forall_mem_cons.1 named
    exact ih (finite_perform finite step.1 first own) others later

end Session
end ChatStory
