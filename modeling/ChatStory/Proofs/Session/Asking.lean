import ChatStory.Proofs.Session.Cascade

/-!
What a round asks for. While a round is entered, cascades leave the requests of open threads alone: the
contact then waits to unlock those whom the actions of the round name, in that order, and its thread
waits to end if one of them ends it.
-/
namespace ChatStory

/-- The contact whom an action asks to unlock, if a program has it. -/
def Action.unlocks? (program : Program) (action : Action) : Option String :=
  match action.effect with
  | .unlockContact target => if program.has target then some target else none
  | _ => none

def Action.endsThread (action : Action) : Bool := action.effect = .endThread

/-- The largest delay of some actions. -/
def Action.largestDelay : List Action → Nat
  | [] => 0
  | action :: rest => max action.delay (largestDelay rest)

namespace Play

/-- The thread of the contact is open, and what the contact has asked for is the same. -/
structure Spared (contact : String) (a b : Play) : Prop where
  program : b.program = a.program
  indicator : b.indicator = a.indicator
  opened : b.progress.isClosed contact = false
  unlocks : b.progress.unlocks.get? contact = a.progress.unlocks.get? contact
  endings : b.progress.endings.has contact = a.progress.endings.has contact

/-- A contact whose thread is open is spared. -/
def Spares (contact : String) (a b : Play) : Prop :=
  a.progress.isClosed contact = false → Spared contact a b

variable {a b c : Play} {contact speaker : String}

namespace Spares

theorem refl (contact : String) (a : Play) : Spares contact a a :=
  fun opened => ⟨rfl, rfl, opened, rfl, rfl⟩

theorem trans (first : Spares contact a b) (second : Spares contact b c) : Spares contact a c := by
  intro opened
  have before := first opened
  have after := second before.opened
  exact ⟨after.program.trans before.program, after.indicator.trans before.indicator, after.opened,
    after.unlocks.trans before.unlocks, after.endings.trans before.endings⟩

/-- A step that leaves threads and requests alone. -/
theorem of_same (program : b.program = a.program) (indicator : b.indicator = a.indicator)
    (threads : b.progress.threads = a.progress.threads)
    (unlocks : b.progress.unlocks = a.progress.unlocks)
    (endings : b.progress.endings = a.progress.endings) : Spares contact a b := by
  intro opened
  refine ⟨program, indicator, ?_, ?_, ?_⟩
  · rw [Progress.isClosed, Progress.thread?, threads]
    exact opened
  · rw [unlocks]
  · rw [endings]

theorem of_progress (program : b.program = a.program) (indicator : b.indicator = a.indicator)
    (progress : b.progress = a.progress) : Spares contact a b := by
  apply of_same program indicator <;> rw [progress]

theorem foldl {α : Type} {step : Play → α → Play} {items : List α}
    (each : ∀ play, ∀ item ∈ items, Spares contact play (step play item)) :
    Spares contact a (items.foldl step a) := by
  apply List.foldlRecOn items step (refl contact a)
  intro play spares item member
  exact spares.trans (each play item member)

theorem putThread (contact : String) (a : Play) (other : String) {thread : ThreadState}
    (free : thread = .active ∨ contact ≠ other) : Spares contact a (a.putThread other thread) := by
  have put : Spares contact a (a.revise fun p => { p with
      threads := p.threads.insert other thread }) := by
    intro opened
    refine ⟨rfl, rfl, ?_, rfl, rfl⟩
    change ((a.progress.threads.insert other thread).get? contact).any _ = false
    rw [Table.get?_insert]
    split
    · rename_i own
      rw [free.resolve_right fun different => different own]
      rfl
    · exact opened
  unfold Play.putThread
  dsimp only
  split
  · exact put
  · exact put.trans (of_same rfl rfl rfl rfl rfl)

theorem setUnlocked (contact : String) (a : Play) (other : String) :
    Spares contact a (a.setUnlocked other) := by
  unfold Play.setUnlocked
  split
  · exact refl contact a
  · exact of_same rfl rfl rfl rfl rfl

end Spares

/-- Reopening threads spares the contact. -/
def Sparing (contact : String) (again : Reopening) : Prop :=
  ∀ play speaker key time, Spares contact play (again play speaker key time)

section Cascade

variable {again : Reopening} (sparing : Sparing contact again)

include sparing

theorem spares_assignWith (name : String) (value : Value) (time : Nat) :
    Spares contact a (a.assignWith again name value time) := by
  unfold assignWith
  dsimp only
  split
  · exact .refl contact a
  · let valued := a.revise fun p => { p with values := a.progress.values.insert name value }
    have told : Spares contact a (valued.announce (.variableChanged name value)) :=
      .of_same rfl rfl rfl rfl rfl
    apply told.trans
    exact Spares.foldl fun play entry _ => sparing play entry.1 entry.2 time

/- An effect asks for something only if it is held back, and then for its own contact. -/
theorem spares_effectWith {time : Nat} {effect : Effect}
    (free : speaker ≠ contact ∨ effect.isHeldBack = false)
    (done : a.effectWith? again speaker time effect = some b) : Spares contact a b := by
  cases effect with
  | unlockContact target =>
    have other : contact ≠ speaker := (free.resolve_right fun now => by cases now).symm
    simp only [effectWith?] at done
    split at done
    · cases done
      refine fun opened => ⟨rfl, rfl, opened, ?_, rfl⟩
      change (a.progress.unlocks.insert speaker _).get? contact = _
      rw [Table.get?_insert, if_neg other]
    · cases done
  | endThread =>
    have other : contact ≠ speaker := (free.resolve_right fun now => by cases now).symm
    cases done
    refine fun opened => ⟨rfl, rfl, opened, rfl, ?_⟩
    rw [Bool.eq_iff_iff]
    exact (NameSet.has_add _ _ _).trans ⟨fun had => had.resolve_left other, .inr⟩
  | setVariable name value =>
    cases done
    exact spares_assignWith sparing name value time
  | delayedMessage | setContactStatus | openThread =>
    simp only [effectWith?] at done
    split at done
    · cases done
      exact .of_same rfl rfl rfl rfl rfl
    · cases done
  | _ =>
    cases done
    exact .of_same rfl rfl rfl rfl rfl

theorem spares_runWith {action : Action} (free : speaker ≠ contact ∨ action.effect.isHeldBack = false)
    (time : Nat) : Spares contact a (a.runWith again speaker action time) := by
  unfold runWith
  split
  · rename_i after done
    have effect := spares_effectWith sparing free done
    split
    · exact effect
    · exact effect.trans (.of_same rfl rfl rfl rfl rfl)
  · exact .refl contact a

theorem spares_planWith (other : speaker ≠ contact) (time : Nat) (actions : List Action) :
    Spares contact a (a.planWith again speaker time actions).1 := by
  induction actions generalizing a with
  | nil => exact .refl contact a
  | cons action rest ih =>
    simp only [planWith]
    split
    · exact (spares_runWith sparing (.inl other) time).trans ih
    · split
      · exact ih
      · exact (spares_runWith sparing (.inl other) time).trans ih

omit sparing

theorem spares_reply (a : Play) (speaker text : String) (time : Nat) (tempo : Tempo) :
    Spares contact a (a.reply speaker text time tempo).1 := by
  cases tempo with
  | immediate =>
    simp only [reply]
    split
    · exact .refl contact a
    · exact .of_same rfl rfl rfl rfl rfl
  | typed =>
    refine .of_progress ?_ ?_ (progress_reply_typed a speaker text time)
    all_goals
      simp only [reply]
      split <;> split <;> rfl

theorem spares_schedulePayloads (a : Play) (speaker : String) (replyTime last : Nat)
    (payloads : List Action) :
    Spares contact a (a.schedulePayloads speaker replyTime last payloads).1 := by
  induction payloads generalizing a last with
  | nil => exact .refl contact a
  | cons action rest ih =>
    have first : Spares contact a (a.schedule speaker (replyTime + action.delay) (.payload action)) :=
      .of_same rfl rfl rfl rfl rfl
    exact first.trans (ih _ _)

theorem spares_layOut (a : Play) (speaker text : String) (plan : Plan) (time : Nat) (tempo : Tempo) :
    Spares contact a (a.layOut speaker text plan time tempo) := by
  have replied : Spares contact a (a.reply speaker text time tempo).1 := spares_reply _ _ _ _ _
  unfold layOut
  dsimp only
  generalize a.reply speaker text time tempo = answer at replied
  have laid := replied.trans
    (spares_schedulePayloads answer.1 speaker answer.2 answer.2 plan.payloads)
  split
  · exact laid.trans (.of_same rfl rfl rfl rfl rfl)
  · exact laid

include sparing

theorem spares_assignments (a : Play) (assignments : List Assignment) (time : Nat) :
    Spares contact a (assignments.foldl
      (fun play (a : Assignment) => play.assignWith again a.name a.value time) a) :=
  .foldl fun _ assignment _ => spares_assignWith sparing assignment.name assignment.value time

theorem spares_enterWith (other : speaker ≠ contact) (key : RoundKey) (time : Nat) (tempo : Tempo)
    (leading : Option Action) :
    Spares contact a (a.enterWith again speaker key time tempo leading) := by
  cases found : a.program.round? speaker key with
  | none =>
    unfold enterWith
    rw [found]
    exact .refl contact a
  | some round =>
    rw [enterWith_eq again found]
    let entered := a.revise fun p => { p with rounds := p.rounds.insert speaker key }
    have placed : Spares contact a entered := .of_same rfl rfl rfl rfl rfl
    have set := placed.trans
      (spares_assignments sparing entered (a.evaluation round).assignments time)
    have planned := set.trans
      (spares_planWith sparing other time (leading.toList ++ (a.evaluation round).actions))
    exact planned.trans (spares_layOut _ _ _ _ _ _)

end Cascade

/- By induction on how deep reopenings go: each of them speaks for a contact whose thread is closed. -/
theorem sparing_reopen (contact : String) (depth : Nat) : Sparing contact (reopen depth) := by
  induction depth with
  | zero => exact fun play _ _ _ => .refl contact play
  | succ depth ih =>
    intro play speaker key time
    unfold reopen
    split
    · rename_i closed
      by_cases own : speaker = contact
      · subst own
        intro opened
        rw [closed] at opened
        cases opened
      · have freed : Spares contact play (play.revise fun p => { p with
            endings := p.endings.remove speaker }) := by
          refine fun opened => ⟨rfl, rfl, opened, rfl, ?_⟩
          rw [Bool.eq_iff_iff]
          exact (NameSet.has_remove _ _ _).trans ⟨And.right, fun had => ⟨Ne.symm own, had⟩⟩
        have opened := (freed.trans (.putThread contact _ speaker (.inl rfl))).trans
          (.setUnlocked contact _ speaker)
        exact opened.trans (spares_enterWith ih own key time .typed none)
    · exact .refl contact play

/-- The thread of the contact is open, and the contact has asked for what some actions ask for. -/
structure Asks (contact : String) (actions : List Action) (a b : Play) : Prop where
  program : b.program = a.program
  indicator : b.indicator = a.indicator
  opened : b.progress.isClosed contact = false
  targets : b.progress.unlocks.getD contact [] =
    a.progress.unlocks.getD contact [] ++ actions.filterMap (Action.unlocks? a.program)
  waits : b.progress.unlocks.contains contact =
    (a.progress.unlocks.contains contact || !(actions.filterMap (Action.unlocks? a.program)).isEmpty)
  endings : b.progress.endings.has contact =
    (a.progress.endings.has contact || actions.any Action.endsThread)

theorem Asks.trans {first second : List Action} (before : Asks contact first a b)
    (after : Asks contact second b c) : Asks contact (first ++ second) a c := by
  obtain ⟨program, indicator, opened, targets, waits, endings⟩ := after
  rw [before.program] at program targets waits
  refine ⟨program, indicator.trans before.indicator, opened, ?_, ?_, ?_⟩
  · rw [targets, before.targets, List.filterMap_append, List.append_assoc]
  · rw [waits, before.waits, List.filterMap_append, Bool.or_assoc]
    cases first.filterMap (Action.unlocks? a.program) <;> rfl
  · rw [endings, before.endings, List.any_append, Bool.or_assoc]

theorem Spared.asks (spared : Spared contact a b) : Asks contact [] a b := by
  refine ⟨spared.program, spared.indicator, spared.opened, ?_, ?_, ?_⟩
  · rw [Table.getD, spared.unlocks]
    exact (List.append_nil _).symm
  · rw [Table.contains, spared.unlocks]
    exact (Bool.or_false _).symm
  · rw [spared.endings]
    exact (Bool.or_false _).symm

/- Only an action that is held back asks for something. -/
theorem Spared.asks_free (spared : Spared contact a b) {action : Action}
    (free : action.effect.isHeldBack = false) : Asks contact [action] a b := by
  have none : [action].filterMap (Action.unlocks? a.program) = [] ∧
      [action].any Action.endsThread = false := by
    obtain ⟨effect, delay⟩ := action
    cases effect with
    | unlockContact | endThread => cases free
    | _ => exact ⟨rfl, rfl⟩
  have asks := spared.asks
  refine { asks with targets := ?_, waits := ?_, endings := ?_ }
  · rw [none.1]
    exact asks.targets
  · rw [none.1]
    exact asks.waits
  · rw [none.2]
    exact asks.endings

/- An action that is held back asks for its contact, unless it names a contact that does not exist. -/
theorem asks_runWith_held (again : Reopening) (opened : a.progress.isClosed contact = false)
    {action : Action} (held : action.effect.isHeldBack = true) (time : Nat) :
    Asks contact [action] a (a.runWith again contact action time) := by
  obtain ⟨effect, delay⟩ := action
  cases effect with
  | unlockContact target =>
    by_cases known : a.program.has target = true
    · have asked : [Action.mk (.unlockContact target) delay].filterMap (Action.unlocks? a.program) =
          [target] := by
        simp [Action.unlocks?, known]
      have done : a.runWith again contact ⟨.unlockContact target, delay⟩ time =
          a.revise fun p => { p with
            unlocks := p.unlocks.insert contact (p.unlocks.getD contact [] ++ [target]) } := by
        simp only [runWith, effectWith?, known, if_true, Effect.isHeldBack]
      have found : (a.progress.unlocks.insert contact
          (a.progress.unlocks.getD contact [] ++ [target])).get? contact =
            some (a.progress.unlocks.getD contact [] ++ [target]) := by
        rw [Table.get?_insert, if_pos rfl]
      rw [done]
      refine ⟨rfl, rfl, opened, ?_, ?_, (Bool.or_false _).symm⟩
      · rw [asked]
        exact congrArg (Option.getD · []) found
      · rw [asked]
        exact (congrArg Option.isSome found).trans (Bool.or_true _).symm
    · have asked : [Action.mk (.unlockContact target) delay].filterMap (Action.unlocks? a.program) =
          [] := by
        simp [Action.unlocks?, known]
      have done : a.runWith again contact ⟨.unlockContact target, delay⟩ time = a := by
        simp only [runWith, effectWith?, known]
        rfl
      rw [done]
      refine ⟨rfl, rfl, opened, ?_, ?_, (Bool.or_false _).symm⟩
      · rw [asked]
        exact (List.append_nil _).symm
      · rw [asked]
        exact (Bool.or_false _).symm
  | endThread =>
    refine ⟨rfl, rfl, opened, (List.append_nil _).symm, (Bool.or_false _).symm, ?_⟩
    change (a.progress.endings.add contact).has contact = _
    rw [(NameSet.has_add _ _ _).2 (.inl rfl)]
    exact (Bool.or_true _).symm
  | _ => cases held

section Cascade

variable {again : Reopening} (sparing : Sparing contact again)

include sparing

theorem asks_planWith (opened : a.progress.isClosed contact = false) (time : Nat)
    (actions : List Action) : Asks contact actions a (a.planWith again contact time actions).1 := by
  induction actions generalizing a with
  | nil => exact (Spares.refl contact a opened).asks
  | cons action rest ih =>
    simp only [planWith]
    split
    · rename_i held
      have first := asks_runWith_held again opened held time
      exact first.trans (ih first.opened)
    · rename_i now
      have free : action.effect.isHeldBack = false := Bool.eq_false_iff.2 now
      split
      · have first := (Spares.refl contact a opened).asks_free free
        exact first.trans (ih opened)
      · have spared : Spares contact a (a.runWith again contact action time) :=
          spares_runWith sparing (.inr free) time
        have first := (spared opened).asks_free free
        exact first.trans (ih first.opened)

theorem asks_prepared (opened : a.progress.isClosed contact = false) (key : RoundKey) (round : Round)
    (time : Nat) (leading : Option Action) :
    Asks contact (leading.toList ++ (a.evaluation round).actions) a
      (a.prepared again contact key round time leading).1 := by
  let entered := a.revise fun p => { p with rounds := p.rounds.insert contact key }
  have placed : Spares contact a entered := .of_same rfl rfl rfl rfl rfl
  have set := placed.trans
    (spares_assignments sparing entered (a.evaluation round).assignments time)
  have before := (set opened).asks
  exact before.trans (asks_planWith sparing before.opened time _)

omit sparing

/- The largest delay of what is held back is left to be laid out. -/
theorem holding_planWith (again : Reopening) (a : Play) (contact : String) (time : Nat)
    (actions : List Action) : (a.planWith again contact time actions).2.holding =
      Action.largestDelay (actions.filter (·.effect.isHeldBack)) := by
  induction actions generalizing a with
  | nil => rfl
  | cons action rest ih =>
    unfold planWith
    rw [List.filter_cons]
    by_cases held : action.effect.isHeldBack = true
    · rw [if_pos held, if_pos held]
      exact congrArg (max action.delay) (ih _)
    · rw [if_neg held, if_neg held]
      split
      · exact ih _
      · exact ih _

end Cascade

end Play
end ChatStory
