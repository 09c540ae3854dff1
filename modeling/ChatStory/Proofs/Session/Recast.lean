import ChatStory.Proofs.Session.Run

/-!
What does not bear on how a story goes on: how many epochs came before, what was announced and has not
been taken yet, and what is noted of the timeline for the next save. A play that is recast in these
goes on in the same way.
-/
namespace ChatStory

/-- A task of so many epochs later. -/
def Slot.later (epochs : Nat) (slot : Slot) : Slot :=
  { slot with task := { slot.task with epoch := slot.task.epoch + epochs } }

namespace Queue

variable (q : Queue) (epochs : Nat)

/-- The same tasks so many epochs later. -/
def later : Queue := ⟨q.slots.map (Slot.later epochs), q.latest, List.pairwise_map.2 q.ascending⟩

theorem later_zero : q.later 0 = q := by
  have slots : q.slots.map (Slot.later 0) = q.slots := List.map_id q.slots
  obtain ⟨_, _, _⟩ := q
  unfold later
  rw [Queue.mk.injEq]
  exact ⟨slots, rfl⟩

theorem place_later (slot : Slot) (slots : List Slot) :
    place (slot.later epochs) (slots.map (Slot.later epochs)) =
      (place slot slots).map (Slot.later epochs) := by
  induction slots with
  | nil => rfl
  | cons first rest ih =>
    simp only [List.map_cons, place]
    rw [ih, apply_ite (List.map (Slot.later epochs))]
    rfl

theorem schedule_later (time : Nat) (task : Task) :
    (q.later epochs).schedule time { task with epoch := task.epoch + epochs } =
      (q.schedule time task).later epochs := by
  unfold later schedule
  rw [Queue.mk.injEq]
  exact ⟨place_later epochs ⟨q.effectiveTime task.contact time, task⟩ q.slots, rfl⟩

theorem rest_later : (q.later epochs).rest = q.rest.later epochs := by
  unfold later rest
  rw [Queue.mk.injEq]
  exact ⟨List.map_tail.symm, rfl⟩

theorem next?_later : (q.later epochs).next? = q.next?.map (Slot.later epochs) :=
  List.head?_map

theorem due?_later (now : Nat) : (q.later epochs).due? now = (q.due? now).map (Slot.later epochs) := by
  unfold due?
  rw [next?_later, Option.filter_map]
  rfl

end Queue

namespace Play

/-- What may be otherwise in a play that goes on in the same way. -/
structure Guise where
  /-- The epochs that came before. -/
  epochs : Nat
  /-- What was announced before. -/
  past : Array Event
  /-- What is noted of the timeline, in place of what the play has noted. -/
  noted : List SavedTask → List SavedTask

def recast (play : Play) (guise : Guise) : Play := { play with
  progress := { play.progress with deliveries := guise.noted play.progress.deliveries }
  queue := play.queue.later guise.epochs
  epoch := play.epoch + guise.epochs
  events := guise.past ++ play.events }

variable (play : Play) (guise : Guise)

theorem dropFirst_recast : (play.recast guise).dropFirst = play.dropFirst.recast guise := by
  unfold dropFirst recast
  dsimp only
  rw [Queue.rest_later]

theorem schedule_recast (contact : String) (time : Nat) (delivery : Delivery) :
    (play.recast guise).schedule contact time delivery =
      (play.schedule contact time delivery).recast guise := by
  have queue := play.queue.schedule_later guise.epochs time ⟨contact, play.epoch, delivery⟩
  unfold schedule recast
  dsimp only at queue ⊢
  rw [queue]

theorem announce_recast (event : Event) :
    (play.recast guise).announce event = (play.announce event).recast guise := by
  unfold announce recast
  dsimp only
  rw [Array.append_push]

theorem say_recast (contact : String) (saying : Saying) (time : Nat) :
    (play.recast guise).say contact saying time = (play.say contact saying time).recast guise := by
  unfold say
  dsimp only
  rw [← announce_recast]
  rfl

theorem putThread_recast (contact : String) (thread : ThreadState) :
    (play.recast guise).putThread contact thread = (play.putThread contact thread).recast guise := by
  unfold putThread
  dsimp only
  rw [apply_ite (recast · guise), ← announce_recast]
  rfl

theorem setUnlocked_recast (contact : String) :
    (play.recast guise).setUnlocked contact = (play.setUnlocked contact).recast guise := by
  unfold setUnlocked
  rw [apply_ite (recast · guise), ← announce_recast]
  rfl

theorem finishThread_recast (contact : String) (time : Nat) :
    (play.recast guise).finishThread contact time = (play.finishThread contact time).recast guise := by
  unfold finishThread
  rw [say_recast, putThread_recast]
  exact (apply_ite (recast · guise) _ _ _).symm

theorem foldl_recast {α : Type} {step : Play → α → Play}
    (each : ∀ play item, step (recast play guise) item = (step play item).recast guise)
    (items : List α) : items.foldl step (play.recast guise) = (items.foldl step play).recast guise := by
  induction items generalizing play with
  | nil => rfl
  | cons item rest ih => rw [List.foldl_cons, each, ih, List.foldl_cons]

/-- The guise does not matter to a reopening. -/
def Unguised (again : Reopening) : Prop :=
  ∀ play guise contact key time,
    again (recast play guise) contact key time = (again play contact key time).recast guise

variable {again : Reopening} (unguised : Unguised again)

include unguised

theorem assignWith_recast (name : String) (value : Value) (time : Nat) :
    (play.recast guise).assignWith again name value time =
      (play.assignWith again name value time).recast guise := by
  unfold assignWith
  dsimp only
  rw [apply_ite (recast · guise), ← foldl_recast, ← announce_recast]
  · rfl
  · intro play item
    exact unguised play guise item.1 item.2 time

theorem effectWith?_recast (contact : String) (time : Nat) (effect : Effect) :
    (play.recast guise).effectWith? again contact time effect =
      (play.effectWith? again contact time effect).map (recast · guise) := by
  cases effect with
  | setVariable name value =>
    exact congrArg some (assignWith_recast play guise unguised name value time)
  | sendPhoto | sendVideo | dropPin => exact congrArg some (say_recast play guise _ _ _)
  | typingIndicator => exact congrArg some (announce_recast play guise _)
  | delayedMessage =>
    simp only [effectWith?, say_recast]
    rw [apply_ite (Option.map (recast · guise))]
    rfl
  | unlockContact | setContactStatus | openThread =>
    simp only [effectWith?]
    rw [apply_ite (Option.map (recast · guise))]
    rfl
  | _ => rfl

theorem runWith_recast (contact : String) (action : Action) (time : Nat) :
    (play.recast guise).runWith again contact action time =
      (play.runWith again contact action time).recast guise := by
  unfold runWith
  rw [effectWith?_recast play guise unguised]
  cases play.effectWith? again contact time action.effect with
  | none => rfl
  | some after =>
    dsimp only [Option.map_some]
    rw [announce_recast]
    exact (apply_ite (recast · guise) _ _ _).symm

theorem planWith_recast (contact : String) (time : Nat) (actions : List Action) :
    (play.recast guise).planWith again contact time actions =
      ((play.planWith again contact time actions).1.recast guise,
        (play.planWith again contact time actions).2) := by
  induction actions generalizing play with
  | nil => rfl
  | cons action rest ih =>
    simp only [planWith, runWith_recast play guise unguised, ih]
    split
    · rfl
    · split <;> rfl

omit unguised

theorem reply_recast (contact text : String) (time : Nat) (tempo : Tempo) :
    (play.recast guise).reply contact text time tempo =
      ((play.reply contact text time tempo).1.recast guise,
        (play.reply contact text time tempo).2) := by
  cases tempo with
  | immediate =>
    simp only [reply, say_recast]
    rw [apply_ite (recast · guise)]
  | typed =>
    have delay : (play.recast guise).progress.typingDelay = play.progress.typingDelay := rfl
    simp only [reply, delay, schedule_recast]
    rw [← apply_ite (recast · guise), schedule_recast, ← apply_ite (recast · guise)]
    rfl

theorem schedulePayloads_recast (contact : String) (replyTime last : Nat) (payloads : List Action) :
    (play.recast guise).schedulePayloads contact replyTime last payloads =
      ((play.schedulePayloads contact replyTime last payloads).1.recast guise,
        (play.schedulePayloads contact replyTime last payloads).2) := by
  induction payloads generalizing play last with
  | nil => rfl
  | cons action rest ih =>
    simp only [schedulePayloads, schedule_recast, ih]
    rfl

theorem layOut_recast (contact text : String) (plan : Plan) (time : Nat) (tempo : Tempo) :
    (play.recast guise).layOut contact text plan time tempo =
      (play.layOut contact text plan time tempo).recast guise := by
  unfold layOut
  simp only [reply_recast, schedulePayloads_recast, schedule_recast]
  exact (apply_ite (recast · guise) _ _ _).symm

include unguised

theorem enterWith_recast (contact : String) (key : RoundKey) (time : Nat) (tempo : Tempo)
    (leading : Option Action) :
    (play.recast guise).enterWith again contact key time tempo leading =
      (play.enterWith again contact key time tempo leading).recast guise := by
  unfold enterWith
  have program : (play.recast guise).program = play.program := rfl
  rw [program]
  cases play.program.round? contact key with
  | none => rfl
  | some round =>
    dsimp only
    have shown : (play.recast guise).evaluation round = play.evaluation round := rfl
    have entered :
        ((play.recast guise).revise fun p => { p with rounds := p.rounds.insert contact key }) =
          (play.revise fun p => { p with rounds := p.rounds.insert contact key }).recast guise := rfl
    rw [shown, entered, foldl_recast]
    · rw [planWith_recast _ _ unguised, layOut_recast]
    · intro play assignment
      exact assignWith_recast play guise unguised assignment.name assignment.value time

omit unguised

theorem unguised_reopen (depth : Nat) : Unguised (reopen depth) := by
  induction depth with
  | zero => exact fun _ _ _ _ _ => rfl
  | succ depth ih =>
    intro play guise contact key time
    unfold reopen
    dsimp only
    have freed :
        ((play.recast guise).revise fun p => { p with endings := p.endings.remove contact }) =
          (play.revise fun p => { p with endings := p.endings.remove contact }).recast guise := rfl
    rw [freed, putThread_recast, setUnlocked_recast, enterWith_recast _ _ ih]
    exact (apply_ite (recast · guise) _ _ _).symm

theorem assign_recast (name : String) (value : Value) (time : Nat) :
    (play.recast guise).assign name value time = (play.assign name value time).recast guise :=
  assignWith_recast play guise (unguised_reopen play.closedThreads) name value time

theorem plan_recast (contact : String) (actions : List Action) (time : Nat) :
    (play.recast guise).plan contact actions time =
      ((play.plan contact actions time).1.recast guise, (play.plan contact actions time).2) :=
  planWith_recast play guise (unguised_reopen play.closedThreads) contact time actions

theorem enter_recast (contact : String) (key : RoundKey) (time : Nat) (tempo : Tempo)
    (leading : Option Action) : (play.recast guise).enter contact key time tempo leading =
      (play.enter contact key time tempo leading).recast guise :=
  enterWith_recast play guise (unguised_reopen play.closedThreads) contact key time tempo leading

theorem run_recast (contact : String) (action : Action) (time : Nat) :
    (play.recast guise).run contact action time = (play.run contact action time).recast guise :=
  runWith_recast play guise (unguised_reopen play.closedThreads) contact action time

theorem unlock_recast (contact target : String) (time : Nat) :
    (play.recast guise).unlock contact target time =
      (play.unlock contact target time).recast guise := by
  unfold unlock
  have program : (play.recast guise).program = play.program := rfl
  rw [program]
  cases play.program.contact? target with
  | none => rfl
  | some entry =>
    dsimp only
    rw [say_recast, setUnlocked_recast, putThread_recast, announce_recast]
    cases entry.firstKey? with
    | none => exact (apply_ite (recast · guise) _ _ _).symm
    | some key =>
      dsimp only
      rw [enter_recast]
      exact (apply_ite (recast · guise) _ _ _).symm

theorem endPending_recast (contact : String) (time : Nat) :
    (play.recast guise).endPending contact time = (play.endPending contact time).recast guise := by
  unfold endPending
  have freed :
      ((play.recast guise).revise fun p => { p with endings := p.endings.remove contact }) =
        (play.revise fun p => { p with endings := p.endings.remove contact }).recast guise := rfl
  dsimp only
  rw [freed, finishThread_recast, announce_recast, apply_ite (recast · guise),
    apply_ite (recast · guise)]
  rfl

theorem deliverHeld_recast (contact : String) (time : Nat) :
    (play.recast guise).deliverHeld contact time = (play.deliverHeld contact time).recast guise := by
  unfold deliverHeld
  dsimp only
  rw [← endPending_recast, ← foldl_recast]
  · rfl
  · intro play target
    exact unlock_recast play guise contact target time

/- A task does the same in another guise, as a task of the epoch that it has then. -/
theorem fire_recast (slot : Slot) :
    (play.recast guise).fire (slot.later guise.epochs) = (play.fire slot).recast guise := by
  have current : (slot.later guise.epochs).task.epoch = (play.recast guise).epoch ↔
      slot.task.epoch = play.epoch := Nat.add_right_cancel_iff
  unfold fire
  by_cases fresh : slot.task.epoch = play.epoch
  · rw [if_pos fresh, if_pos (current.2 fresh)]
    dsimp only [Slot.later]
    cases slot.task.delivery with
    | typing => exact announce_recast play guise _
    | reply text => exact say_recast play guise _ _ _
    | payload action => exact run_recast play guise _ _ _
    | notices => exact deliverHeld_recast play guise _ _
  · rw [if_neg fresh, if_neg (mt current.1 fresh)]

theorem beginStory_recast (now : Nat) :
    (play.recast guise).beginStory now = (play.beginStory now).recast guise := by
  unfold beginStory
  have program : (play.recast guise).program = play.program := rfl
  rw [program]
  cases play.program.opening? with
  | none => rfl
  | some contact =>
    dsimp only
    cases contact.firstKey? with
    | none => rfl
    | some key => exact enter_recast play guise contact.name key now .immediate none

/-- Notes tasks for the next save. -/
def note (play : Play) (tasks : List SavedTask) : Play :=
  play.revise fun p => { p with deliveries := tasks }

theorem note_eq_recast (tasks : List SavedTask) :
    play.note tasks = play.recast ⟨0, #[], fun _ => tasks⟩ := by
  unfold recast
  rw [Queue.later_zero, Array.empty_append]
  rfl

/- The same tasks are fired by the same time. -/
theorem fireDue_recast (play : Play) (now : Nat) : (play.recast guise).fireDue now =
    ((play.fireDue now).1.recast guise, (play.fireDue now).2) := by
  have same := play.queue.due?_later guise.epochs now
  cases due : play.queue.due? now with
  | none =>
    rw [due] at same
    rw [fireDue_of_none due, fireDue_of_none same]
  | some slot =>
    rw [due] at same
    rw [fireDue_of_some due, fireDue_of_some same, dropFirst_recast, fire_recast,
      fireDue_recast (play.dropFirst.fire slot) now]
termination_by play.rank now
decreasing_by exact rank_fire_lt due

theorem fireUpTo_recast (limit : Nat) : fireUpTo limit (play.recast guise) =
    ((fireUpTo limit play).1.recast guise, (fireUpTo limit play).2) := by
  induction limit generalizing play with
  | zero => rfl
  | succ limit ih =>
    have same : (play.recast guise).queue.next? = play.queue.next?.map (Slot.later guise.epochs) :=
      play.queue.next?_later guise.epochs
    unfold fireUpTo
    rw [same]
    cases play.queue.next? with
    | none => rfl
    | some slot =>
      dsimp only [Option.map_some]
      rw [dropFirst_recast, fire_recast, ih]

theorem choose?_recast (contact : String) (index now : Nat) :
    (play.recast guise).choose? contact index now =
      (play.choose? contact index now).map (recast · guise) := by
  unfold choose?
  have offered : (play.recast guise).choices contact = play.choices contact := rfl
  rw [offered]
  cases (play.choices contact)[index]? with
  | none => rfl
  | some choice =>
    simp only [Option.bind_eq_bind, Option.bind_some, say_recast]
    generalize play.say contact { text := choice.text, fromPlayer := true } now = said
    have leads : (said.recast guise).target? contact choice = said.target? contact choice := rfl
    rw [leads]
    cases said.target? contact choice with
    | none =>
      exact congrArg some (finishThread_recast
        (said.revise fun p => { p with rounds := p.rounds.erase contact }) guise contact now)
    | some key => exact congrArg some (enter_recast said guise contact key now .typed choice.action)

theorem execute?_recast (contact : String) (actions : List Action) (now : Nat) :
    (play.recast guise).execute? contact actions now =
      (play.execute? contact actions now).map (recast · guise) := by
  unfold execute?
  rw [plan_recast, layOut_recast, apply_ite (Option.map (recast · guise))]
  rfl

/- What has been noted is noted anew by a save. -/
theorem recordTimeline_recast :
    (play.recast guise).recordTimeline = play.recordTimeline.recast { guise with noted := id } := by
  have tasks : (play.recast guise).savedTasks = play.savedTasks := List.map_map
  unfold recordTimeline
  rw [tasks]
  rfl

theorem nextEpoch_recast : (play.recast guise).nextEpoch = play.nextEpoch.recast guise := by
  unfold nextEpoch recast
  dsimp only
  rw [Nat.add_right_comm]
  rfl

end Play
end ChatStory
