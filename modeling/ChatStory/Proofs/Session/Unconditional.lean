import ChatStory.Proofs.Session.Sequence

/-!
Programs in which no round waits for a condition. Nothing that a variable is given reopens a thread there,
so nothing but a choice and an unlock puts tasks on the timeline, and the tasks of a choice are all of
the contact to whom it leads.
-/
namespace ChatStory

/-- No round waits for a condition. -/
def Program.Unconditional (program : Program) : Prop :=
  ∀ contact ∈ program.inOrder, ∀ round ∈ contact.conditionals, round.condition = none

instance (program : Program) : Decidable program.Unconditional :=
  inferInstanceAs (Decidable (∀ contact ∈ program.inOrder, ∀ round ∈ contact.conditionals,
    round.condition = none))

namespace Play

variable {a b c : Play}

/- What is kept by whatever is put on the timeline for a contact is kept when a typed round is laid out. -/
theorem layOut_keeps (holds : Play → Prop) {contact : String} (keeps : ∀ {play}, holds play →
    ∀ time delivery, holds (play.schedule contact time delivery)) (held : holds a) (text : String)
    (plan : Plan) (time : Nat) : holds (a.layOut contact text plan time .typed) := by
  have replied : holds (a.reply contact text time .typed).1 := by
    have typing : holds (if 0 < a.progress.typingDelay then
        a.schedule contact (time + a.progress.typingDelay) .typing else a) := by
      split
      · exact keeps held _ _
      · exact held
    simp only [reply]
    split
    · exact typing
    · exact keeps typing _ _
  have scheduled : ∀ (payloads : List Action) {play : Play} replyTime last, holds play →
      holds (play.schedulePayloads contact replyTime last payloads).1 := by
    intro payloads
    induction payloads with
    | nil => exact fun _ _ held => held
    | cons action rest ih => exact fun replyTime last held => ih replyTime _ (keeps held _ _)
  unfold layOut
  dsimp only
  split
  · exact keeps (scheduled plan.payloads _ _ replied) _ _
  · exact scheduled plan.payloads _ _ replied

/-- The timeline is left alone. -/
structure Idles (a b : Play) : Prop where
  program : b.program = a.program
  epoch : b.epoch = a.epoch
  queue : b.queue = a.queue

namespace Idles

theorem refl (a : Play) : Idles a a := ⟨rfl, rfl, rfl⟩

theorem trans (first : Idles a b) (second : Idles b c) : Idles a c :=
  ⟨second.program.trans first.program, second.epoch.trans first.epoch,
    second.queue.trans first.queue⟩

end Idles

theorem nowOpen_of_unconditional (unconditional : a.program.Unconditional) (before : Variables) :
    a.nowOpen before = [] := by
  unfold nowOpen
  rw [List.filterMap_eq_nil_iff]
  intro contact member
  have listed := (List.mem_filter.1 member).1
  have none : newlyOpen? contact before a.progress.values = none := by
    unfold newlyOpen?
    rw [Option.map_eq_none_iff, List.find?_eq_none]
    intro round among
    rw [unconditional contact listed round among]
    exact Bool.false_ne_true
  rw [none]
  rfl

section Cascade

variable (unconditional : a.program.Unconditional) (again : Reopening)

include unconditional

theorem idles_assignWith (name : String) (value : Value) (time : Nat) :
    Idles a (a.assignWith again name value time) := by
  unfold assignWith
  dsimp only
  split
  · exact .refl a
  · rw [nowOpen_of_unconditional (a := (a.revise _).announce _) unconditional]
    exact ⟨rfl, rfl, rfl⟩

theorem idles_effectWith {contact : String} {time : Nat} {effect : Effect}
    (done : a.effectWith? again contact time effect = some b) : Idles a b := by
  cases effect with
  | setVariable name value =>
    cases done
    exact idles_assignWith unconditional again name value time
  | unlockContact | delayedMessage | setContactStatus | openThread =>
    simp only [effectWith?] at done
    split at done
    · cases done
      exact ⟨rfl, rfl, rfl⟩
    · cases done
  | _ =>
    cases done
    exact ⟨rfl, rfl, rfl⟩

theorem idles_runWith (contact : String) (action : Action) (time : Nat) :
    Idles a (a.runWith again contact action time) := by
  unfold runWith
  split
  · rename_i after done
    have effect := idles_effectWith unconditional again done
    split
    · exact effect
    · exact effect.trans ⟨rfl, rfl, rfl⟩
  · exact .refl a

theorem idles_planWith (contact : String) (time : Nat) (actions : List Action) :
    Idles a (a.planWith again contact time actions).1 := by
  induction actions generalizing a with
  | nil => exact .refl a
  | cons action rest ih =>
    have ran := idles_runWith unconditional again contact action time
    have rests := ih (a := a.runWith again contact action time) (by rw [ran.program]; exact unconditional)
    simp only [planWith]
    split
    · exact ran.trans rests
    · split
      · exact ih unconditional
      · exact ran.trans rests

theorem idles_foldl (time : Nat) (assignments : List Assignment) :
    Idles a (assignments.foldl (fun play s => play.assignWith again s.name s.value time) a) := by
  induction assignments generalizing a with
  | nil => exact .refl a
  | cons first rest ih =>
    have assigned := idles_assignWith unconditional again first.name first.value time
    exact assigned.trans (ih (by rw [assigned.program]; exact unconditional))

theorem idles_prepared (contact : String) (key : RoundKey) (round : Round) (time : Nat)
    (leading : Option Action) : Idles a (a.prepared again contact key round time leading).1 := by
  have placed : Idles a (a.placed contact key) := ⟨rfl, rfl, rfl⟩
  have assigned := placed.trans (idles_foldl (a := a.placed contact key) unconditional again time
    (a.evaluation round).assignments)
  exact assigned.trans (idles_planWith (by rw [assigned.program]; exact unconditional) again contact time _)

/- A task that is no notice puts nothing on the timeline. -/
theorem idles_fire {slot : Slot} (plain : slot.task.delivery ≠ .notices) : Idles a (a.fire slot) := by
  unfold fire
  split
  · cases delivery : slot.task.delivery with
    | typing => exact ⟨rfl, rfl, rfl⟩
    | reply text => exact ⟨rfl, rfl, rfl⟩
    | payload action => exact idles_runWith unconditional _ slot.task.contact action slot.time
    | notices => exact absurd delivery plain
  · exact .refl a

/- Where nothing waits, a round that is entered in an open thread is all that is put on the timeline. -/
theorem tasks_enter (coherent : a.Coherent) {contact : String}
    (opened : a.progress.isClosed contact = false) {key : RoundKey} {round : Round}
    (found : a.program.round? contact key = some round) (rests : a.queue.slots = []) (time : Nat)
    (leading : Option Action) :
    (a.enter contact key time .typed leading).queue.slots.map (·.task) =
      ((a.enter contact key time .typed leading).sequence contact (a.evaluation round).text
        (leading.toList ++ (a.evaluation round).actions)).map (Task.mk contact a.epoch) := by
  have own : (a.enter contact key time .typed leading).epoch = a.epoch ∧
      ∀ slot ∈ (a.enter contact key time .typed leading).queue.slots,
        slot.task.contact = contact ∧ slot.task.epoch = a.epoch := by
    have idles := idles_prepared unconditional (reopen a.closedThreads) contact key round time leading
    unfold enter
    rw [enterWith_eq _ found]
    refine layOut_keeps (fun play => play.epoch = a.epoch ∧ ∀ slot ∈ play.queue.slots,
      slot.task.contact = contact ∧ slot.task.epoch = a.epoch) ?_ ⟨idles.epoch, ?_⟩ _ _ time
    · rintro play ⟨epoch, others⟩ time delivery
      refine ⟨epoch, fun slot member => ?_⟩
      rcases Queue.mem_schedule.1 member with rfl | old
      · exact ⟨rfl, epoch⟩
      · exact others slot old
    · rw [idles.queue, rests]
      exact List.forall_mem_nil _
  obtain ⟨laid, lane, deliveries⟩ := lane_enter coherent opened found time leading
  generalize a.enter contact key time .typed leading = after at own lane deliveries
  have none : a.queue.lane contact = [] := by
    rw [Queue.lane, rests]
    rfl
  have whole : after.queue.lane contact = after.queue.slots :=
    List.filter_eq_self.2 fun slot member => by simpa using (own.2 slot member).1
  rw [none, List.nil_append, whole] at lane
  rw [← deliveries, ← lane, List.map_map]
  refine List.map_congr_left fun slot member => ?_
  obtain ⟨named, aged⟩ := own.2 slot member
  rw [← named, ← aged]
  rfl

end Cascade
end Play
end ChatStory
