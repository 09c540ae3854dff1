import ChatStory.Proofs.Evaluation
import ChatStory.Proofs.Session.Reopening

/-!
Gates that are opened. An assignment lists the threads that it reopens before the first of them is, and
the rounds that are entered for those before may assign the same variable again. So a
gate opens under a condition that held when its thread was listed, but need not hold any more.
-/
namespace ChatStory

namespace Condition

/-- The condition holds once its variable has the value. -/
def accepts (condition : Condition) (value : Value) : Bool :=
  condition.holds (Table.empty.insert condition.name value)

theorem holds_insert (condition : Condition) (values : Variables) (name : String) (value : Value) :
    condition.holds (values.insert name value) =
      if condition.name = name then condition.accepts value else condition.holds values := by
  split
  · rename_i own
    subst own
    apply holds_of_same
    rw [Table.get?_insert, Table.get?_insert, if_pos rfl, if_pos rfl]
  · rename_i other
    apply holds_of_same
    rw [Table.get?_insert, if_neg other]

end Condition

/-- The value that a deed gives to a variable. -/
def Deed.given? (name : String) : Deed → Option Value
  | assigned _ other value => if name = other then some value else none
  | _ => none

/- Whether a condition holds behind some deeds is up to the last value that its variable was given. -/
theorem holds_after (condition : Condition) (values : Variables) (deeds : List Deed) :
    condition.holds (deeds.foldl Deed.apply values) =
      ((deeds.filterMap (Deed.given? condition.name)).getLast?.map condition.accepts).getD
        (condition.holds values) := by
  induction deeds using List.reverseRecOn with
  | nil => rfl
  | append_singleton deeds deed ih =>
    rw [List.foldl_append, List.filterMap_append]
    cases deed with
    | assigned before name value =>
      change condition.holds ((deeds.foldl Deed.apply values).insert name value) = _
      rw [Condition.holds_insert]
      by_cases own : condition.name = name
      · have given : Deed.given? condition.name (.assigned before name value) = some value := if_pos own
        rw [if_pos own, List.filterMap_cons_some given, List.filterMap_nil, List.getLast?_concat]
        rfl
      · have other : Deed.given? condition.name (.assigned before name value) = none := if_neg own
        rw [if_neg own, List.filterMap_cons_none other, List.filterMap_nil, List.append_nil, ih]
    | _ =>
      change condition.holds (deeds.foldl Deed.apply values) = _
      rw [ih, List.filterMap_cons_none rfl, List.filterMap_nil, List.append_nil]

/-- Each reopening was listed by an assignment. -/
def Grounded (deeds : List Deed) : Prop :=
  ∀ early now c key later, deeds = early ++ .reopened now c key :: later → Listed early c key now

namespace Grounded

theorem nil : Grounded [] := by
  intro early now c key later none
  cases early <;> cases none

theorem append {deeds more : List Deed} (first : Grounded deeds) (second : Grounded more) :
    Grounded (deeds ++ more) := by
  intro early now c key later same
  rcases split_append same with ⟨rest, before⟩ | ⟨others, rfl, after⟩
  · exact first early now c key rest before
  · exact (second others now c key later after).after deeds

theorem cons {deed : Deed} {deeds : List Deed} (plain : deed.reopened? = none)
    (grounded : Grounded deeds) : Grounded (deed :: deeds) := by
  intro early now c key later same
  cases early with
  | nil =>
    cases (List.cons.inj same).1
    cases plain
  | cons first early =>
    exact (grounded early now c key later (List.cons.inj same).2).after [first]

end Grounded

namespace Play

variable {a : Play}

theorem Cascades.grounded {b : Play} {deeds : List Deed} (cascades : Cascades undue a deeds b) :
    Grounded deeds := fun early now c key later same =>
  (cascades.grounds early now c key later same).resolve_right fun none => none.1

theorem grounded_assigning (formed : a.program.WellFormed) (name : String) (value : Value)
    (time : Nat) : Grounded (a.assigning name value time) :=
  (cascades_assignWith (turning_reopen _) formed (Nat.le_refl _) name value time).1.grounded

theorem grounded_running (formed : a.program.WellFormed) (contact : String) (action : Action)
    (time : Nat) : Grounded (a.running contact action time) :=
  (cascades_runWith (turning_reopen _) formed (Nat.le_refl _) contact action time).grounded

theorem grounded_handing (formed : a.program.WellFormed) (contact : String) (actions : List Action)
    (time : Nat) : Grounded (a.handing contact actions time) :=
  .cons rfl
    (cascades_planWith (turning_reopen _) formed (Nat.le_refl _) contact time actions).grounded

theorem grounded_entering (formed : a.program.WellFormed) (contact : String) (key : RoundKey)
    (time : Nat) (leading : Option Action) : Grounded (a.entering contact key time leading) := by
  cases found : a.program.round? contact key with
  | none =>
    unfold entering enterDeeds
    rw [found]
    exact .nil
  | some round =>
    exact (cascades_enterWith (turning_reopen a.closedThreads) found formed (Nat.le_refl _) time
      .immediate leading).grounded

theorem grounded_unlockDeeds (formed : a.program.WellFormed) (contact target : String) (time : Nat) :
    Grounded (a.unlockDeeds contact target time) := by
  unfold unlockDeeds
  cases a.program.contact? target with
  | none => exact .nil
  | some entry =>
    dsimp only
    split
    · exact .nil
    · cases entry.firstKey? with
      | none => exact .nil
      | some key =>
        apply grounded_entering
        change ((((a.say contact (.ofUnlock target) time).setUnlocked target).putThread target
          .active)).program.WellFormed
        rw [(program_putThread _ _ _).1, (program_setUnlocked _ _).1]
        exact formed

theorem grounded_heldDeeds (formed : a.program.WellFormed) (contact : String) (time : Nat) :
    Grounded (a.heldDeeds contact time) := by
  have each : ∀ (targets : List String) (play : Play), play.program.WellFormed → Grounded
      (eachDeeds (fun play target => play.unlock contact target time)
        (fun play target => play.unlockDeeds contact target time) play targets) := by
    intro targets
    induction targets with
    | nil => exact fun _ _ => .nil
    | cons target rest ih =>
      intro play formed
      apply (grounded_unlockDeeds formed contact target time).append
      apply ih
      rw [(enters_unlock play contact target time).program]
      exact formed
  exact .cons rfl (each _ _ formed)

theorem grounded_fireDeeds (formed : a.program.WellFormed) (slot : Slot) :
    Grounded (a.fireDeeds slot) := by
  unfold fireDeeds
  split
  · cases slot.task.delivery with
    | typing | reply => exact .nil
    | payload action => exact grounded_running formed _ action _
    | notices => exact grounded_heldDeeds formed _ _
  · exact .nil

theorem grounded_firings {a : Play} (coherent : a.Coherent) (now : Nat) :
    Grounded ((a.firings now).flatMap Moment.deeds) := by
  cases due : a.queue.due? now with
  | none =>
    rw [firings_of_none due]
    exact .nil
  | some slot =>
    have fired := coherent_fire coherent (next_of_due due).1
    rw [firings_of_some due]
    exact (grounded_fireDeeds (a := a.dropFirst) coherent.formed slot).append (grounded_firings fired now)
termination_by a.rank now
decreasing_by exact rank_fire_lt due

theorem grounded_firingsUpTo (coherent : a.Coherent) (limit : Nat) :
    Grounded ((a.firingsUpTo limit).flatMap Moment.deeds) := by
  induction limit generalizing a with
  | zero => exact .nil
  | succ limit ih =>
    unfold firingsUpTo
    cases next : a.queue.next? with
    | none => exact .nil
    | some slot =>
      exact (grounded_fireDeeds (a := a.dropFirst) coherent.formed slot).append
        (ih (coherent_fire coherent next))

theorem grounded_beginning (formed : a.program.WellFormed) (now : Nat) :
    Grounded (a.beginning now) := by
  unfold beginning
  split
  · exact .nil
  · split
    · exact grounded_entering formed _ _ now none
    · exact .nil

theorem grounded_choosing (formed : a.program.WellFormed) (contact : String) (index now : Nat) :
    Grounded (a.choosing contact index now) := by
  unfold choosing
  split
  · exact .nil
  · dsimp only
    split
    · exact grounded_entering (a := a.say contact _ now) formed contact _ now _
    · exact .nil

end Play

namespace Session

open Play

theorem grounded_actedDeeds {s : Session} (formed : s.play.program.WellFormed) {operation : Operation}
    (scripted : operation.Scripted) (now : Nat) : Grounded (s.actedDeeds now operation) := by
  cases operation with
  | choose contact index => exact grounded_choosing formed contact index now
  | setVariable name value => exact grounded_assigning formed name value now
  | execute contact actions =>
    simp only [actedDeeds]
    split
    · exact grounded_handing formed contact actions now
    · exact .nil
  | switchProgram program =>
    simp only [actedDeeds]
    split
    · exact grounded_beginning (a := s.play.switched program) scripted.wellFormed now
    · exact .nil
  | reset =>
    exact grounded_beginning (a := s.play.nextEpoch.revise fun _ =>
      .initial s.play.program s.options.typingDelay) formed now
  | _ => exact .nil

theorem grounded_deeds {s : Session} (coherent : s.play.Coherent) {operation : Operation}
    (scripted : operation.Scripted) (now : Nat) : Grounded (s.deeds now operation) := by
  apply (grounded_actedDeeds coherent.formed scripted now).append
  by_cases flush : operation = .flush
  · subst flush
    exact grounded_firingsUpTo coherent fireLimit
  · cases acted : s.acted? now operation with
    | some start =>
      rw [firings_of_acted acted]
      exact grounded_firings (coherent_acted coherent scripted acted) now
    | none =>
      rw [firings_of_unacted acted flush]
      exact .nil

theorem grounded_allDeeds {s : Session} (coherent : s.play.Coherent) {steps : List (Nat × Operation)}
    (scripted : ∀ step ∈ steps, step.2.Scripted) : Grounded (s.allDeeds steps) := by
  induction steps generalizing s with
  | nil => exact .nil
  | cons step rest ih =>
    obtain ⟨first, others⟩ := List.forall_mem_cons.1 scripted
    exact (grounded_deeds coherent first step.1).append (ih (coherent_perform coherent first) others)

theorem grounded_story {program : Program} (formed : program.WellFormed) (options : Options)
    (store : Store) (now : Nat) {steps : List (Nat × Operation)}
    (scripted : ∀ step ∈ steps, step.2.Scripted) :
    Grounded (storyDeeds program options store now steps) := by
  have started : Grounded (startDeeds program options store now) := by
    unfold startDeeds
    split
    · exact grounded_firings (coherent_resumed formed options _ now) now
    · apply (grounded_beginning (a := unbegun program options) formed now).append
      exact grounded_firings (coherent_beginStory (sound_initial formed _ _ _ _).coherent now) now
  exact started.append (grounded_allDeeds (coherent_start formed options store now) scripted)

/- Whenever a closed thread is reopened, the condition of its round held right after the assignment that
   listed it, and had not before; it still holds exactly if the last value that its variable was given
   since, if any, is one that the condition accepts. -/
theorem gate_holds_iff {program : Program} (scripted : program.Scripted) (options : Options)
    (store : Store) (now : Nat) {steps : List (Nat × Operation)}
    (allowed : ∀ step ∈ steps, step.2.Scripted) {early later : List Deed} {play : Play} {c : String}
    {key : RoundKey}
    (reopens : storyDeeds program options store now steps = early ++ .reopened play c key :: later) :
    ∃ round condition before listing value between,
      early = before ++ .assigned listing condition.name value :: between ∧
      play.program.round? c key = some round ∧ key.isConditional = true ∧
      round.condition = some condition ∧ condition.holds listing.progress.values = false ∧
      condition.holds (listing.progress.values.insert condition.name value) = true ∧
      (condition.holds play.progress.values = true ↔
        ∀ last ∈ (between.filterMap (Deed.given? condition.name)).getLast?,
          condition.accepts last = true) := by
  obtain ⟨before, listing, name, value, between, contact, split, found, opens, values⟩ :=
    grounded_story scripted.wellFormed options store now allowed early play c key later reopens
  obtain ⟨round, condition, own, conditional, guards, closed, holds⟩ := opens
  -- Only the assignment of its own variable can have changed what the condition says.
  have same : condition.name = name := by
    rw [Condition.holds_insert] at holds
    split at holds
    · assumption
    · rw [closed] at holds
      cases holds
  subst same
  refine ⟨round, condition, before, listing, value, between, split, ?_, conditional, guards, closed,
    holds, ?_⟩
  · rw [Program.round?, found]
    exact own
  · rw [values, holds_after, holds]
    cases (between.filterMap (Deed.given? condition.name)).getLast? with
    | none => exact ⟨fun _ last none => absurd none (Option.not_mem_none last), fun _ => rfl⟩
    | some last => simp

/-- A gate behind which the variable that opened it is set back, and another one of that variable. -/
def slamming : String :=
  ":: B-Round-1.0 [chat]\n(if: $x)(set: $x to false)(endif)\n\n:: C-Round-1.0 [chat]\n(if: $x)C(endif)\n"

/-- The deed reopens a contact's closed thread with a round whose condition does not hold. -/
def opensInVain (c : String) : Deed → Bool
  | .reopened play contact key => decide (contact = c) && play.progress.isClosed c &&
    (play.program.round? c key).any fun round =>
      round.condition.any fun condition => !condition.holds play.progress.values
  | _ => false

theorem reopened_of_vain {c : String} {deed : Deed} (vain : opensInVain c deed = true) :
    ∃ play key round condition, deed = .reopened play c key ∧ play.progress.isClosed c = true ∧
      play.program.round? c key = some round ∧ round.condition = some condition ∧
      condition.holds play.progress.values = false := by
  cases deed with
  | reopened play contact key =>
    simp only [opensInVain, Bool.and_eq_true, decide_eq_true_eq] at vain
    obtain ⟨⟨rfl, closed⟩, tests⟩ := vain
    obtain ⟨round, found, gated⟩ := (Option.any_eq_true _ _).1 tests
    obtain ⟨condition, guards, fails⟩ := (Option.any_eq_true _ _).1 gated
    exact ⟨play, key, round, condition, rfl, closed, found, guards, by simpa using fails⟩
  | _ => cases vain

def setTrue : List (Nat × Operation) := [(1000, .setVariable "x" (.bool true))]

def slams (s : Session) : Bool :=
  (s.actedDeeds 1000 (.setVariable "x" (.bool true))).any (opensInVain "C") &&
    (s.performAllWithin 0 setTrue).any fun t => decide (t.play.progress.thread? "C" = some .active)

theorem played_slamming : (playedWithin 0 slamming 1000 []).any slams = true := by decide +kernel

theorem slamming_opens : ∃ program : Program, (compile slamming).result = .ok program ∧
    (∃ deed ∈ storyDeeds program {} .empty 1000 setTrue, opensInVain "C" deed = true) ∧
    ((start program {} .empty 1000).performAll setTrue).play.progress.thread? "C" = some .active := by
  obtain ⟨program, compiled, shown⟩ := played_of_any played_slamming
  change slams (start program {} .empty 1000) = true at shown
  obtain ⟨done, performed⟩ := Bool.and_eq_true_iff.1 shown
  obtain ⟨deed, member, vain⟩ := List.any_eq_true.1 done
  obtain ⟨t, within, active⟩ := (Option.any_eq_true _ _).1 performed
  refine ⟨program, compiled, ⟨deed, ?_, vain⟩, ?_⟩
  · exact List.mem_append_right _ (List.mem_append_left _ (List.mem_append_left _ member))
  · rw [performAll_of_performAllWithin within]
    exact of_decide_eq_true active

/- A closed thread is opened with a round whose condition does not hold any more. -/
theorem gate_opened_in_vain : ∃ program : Program, (compile slamming).result = .ok program ∧
    ((start program {} .empty 1000).performAll setTrue).play.progress.thread? "C" = some .active ∧
    ∃ play key round condition, .reopened play "C" key ∈ storyDeeds program {} .empty 1000 setTrue ∧
      play.progress.isClosed "C" = true ∧ play.program.round? "C" key = some round ∧
      round.condition = some condition ∧ condition.holds play.progress.values = false := by
  obtain ⟨program, compiled, ⟨deed, member, vain⟩, active⟩ := slamming_opens
  obtain ⟨play, key, round, condition, rfl, rest⟩ := reopened_of_vain vain
  exact ⟨program, compiled, active, play, key, round, condition, member, rest⟩

/- There the last value that the variable was given is one that the condition does not accept. -/
theorem gate_holds_iff_slamming : ∃ program : Program, program.Scripted ∧
    (∀ step ∈ setTrue, step.2.Scripted) ∧ ∃ early play key later,
      storyDeeds program {} .empty 1000 setTrue = early ++ .reopened play "C" key :: later ∧
      ∃ round condition before listing value between,
        early = before ++ .assigned listing condition.name value :: between ∧
        play.program.round? "C" key = some round ∧ key.isConditional = true ∧
        round.condition = some condition ∧ condition.holds listing.progress.values = false ∧
        condition.holds (listing.progress.values.insert condition.name value) = true ∧
        (condition.holds play.progress.values = true ↔
          ∀ last ∈ (between.filterMap (Deed.given? condition.name)).getLast?,
            condition.accepts last = true) := by
  obtain ⟨program, compiled, ⟨deed, member, vain⟩, _⟩ := slamming_opens
  obtain ⟨play, key, round, condition, rfl, _⟩ := reopened_of_vain vain
  obtain ⟨early, later, split⟩ := List.append_of_mem member
  have scripted : program.Scripted := Program.Compiled.scripted ⟨slamming, compiled⟩
  have allowed : ∀ step ∈ setTrue, step.2.Scripted := List.forall_mem_singleton.2 trivial
  exact ⟨program, scripted, allowed, early, play, key, later, split,
    gate_holds_iff scripted {} .empty 1000 allowed split⟩

end Session
end ChatStory
