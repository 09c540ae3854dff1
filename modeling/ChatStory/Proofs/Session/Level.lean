import ChatStory.Proofs.Session.Entering
import ChatStory.Proofs.Session.Granularity
import ChatStory.Proofs.Session.Parallel
import ChatStory.Proofs.Session.Unconditional
import ChatStory.Scenario.Case
import Mathlib.Data.List.Forall2

/-!
Stories of which the same is observed, whatever their clocks read. As long as the tasks that wait in both
are the same and lie equally far behind one starting time each, they come up in the same order, so what
one story does the other one does too.
-/
namespace ChatStory

/-- Times that lie equally far behind two starting times. -/
def Shift (p q x y : Nat) : Prop := p ≤ x ∧ x + q = y + p

namespace Shift

variable {p q x y z w : Nat}

theorem start (p q : Nat) : Shift p q p q := ⟨Nat.le_refl p, Nat.add_comm p q⟩

theorem add (shift : Shift p q x y) (delay : Nat) : Shift p q (x + delay) (y + delay) := by
  unfold Shift at *
  omega

theorem max (first : Shift p q x y) (second : Shift p q z w) : Shift p q (max x z) (max y w) := by
  unfold Shift at *
  omega

theorem le_iff (first : Shift p q x y) (second : Shift p q z w) : x ≤ z ↔ y ≤ w := by
  unfold Shift at *
  omega

theorem eq_of_zero (shift : Shift 0 0 x y) : x = y := shift.2

end Shift

/-- The same task at shifted times. -/
def Slot.Shifted (p q : Nat) (slot other : Slot) : Prop :=
  slot.task = other.task ∧ Shift p q slot.time other.time

namespace Queue

variable {p q : Nat}

theorem place_shifted {slot other : Slot} (same : slot.Shifted p q other) {slots others : List Slot}
    (both : List.Forall₂ (Slot.Shifted p q) slots others) :
    List.Forall₂ (Slot.Shifted p q) (place slot slots) (place other others) := by
  induction both with
  | nil => exact .cons same .nil
  | @cons head _ _ _ first rest ih =>
    unfold place
    have order := first.2.le_iff same.2
    by_cases before : head.time ≤ slot.time
    · rw [if_pos before, if_pos (order.1 before)]
      exact .cons first ih
    · rw [if_neg before, if_neg fun after => before (order.2 after)]
      exact .cons same (.cons first rest)

/-- The same tasks wait at shifted times, and so will those that are added for the contacts that are free:
the last task of such a contact came no later than the start, or is shifted. -/
structure Shifted (p q : Nat) (free : String → Prop) (r s : Queue) : Prop where
  slots : List.Forall₂ (Slot.Shifted p q) r.slots s.slots
  latest : ∀ c, free c → (r.latest.getD c 0 ≤ p ∧ s.latest.getD c 0 ≤ q) ∨
    Shift p q (r.latest.getD c 0) (s.latest.getD c 0)

namespace Shifted

variable {free : String → Prop} {r s : Queue} {x y : Nat} (shifted : r.Shifted p q free s)

include shifted

theorem effectiveTime {contact : String} (may : free contact) (shift : Shift p q x y) :
    Shift p q (r.effectiveTime contact x) (s.effectiveTime contact y) := by
  unfold Queue.effectiveTime
  rcases shifted.latest contact may with ⟨early, early'⟩ | late
  · obtain ⟨behind, same⟩ := shift
    rw [Nat.max_eq_left (by omega), Nat.max_eq_left (by omega)]
    exact ⟨behind, same⟩
  · exact shift.max late

theorem schedule {task : Task} (may : free task.contact) (shift : Shift p q x y) :
    (r.schedule x task).Shifted p q free (s.schedule y task) := by
  have times := shifted.effectiveTime may shift
  have same : Slot.Shifted p q ⟨r.effectiveTime task.contact x, task⟩
      ⟨s.effectiveTime task.contact y, task⟩ := ⟨rfl, times⟩
  refine ⟨place_shifted same shifted.slots, fun c allowed => ?_⟩
  rw [latest_schedule, latest_schedule]
  split
  · exact .inr times
  · exact shifted.latest c allowed

theorem rest : r.rest.Shifted p q free s.rest := by
  have tails : ∀ {l m : List Slot}, List.Forall₂ (Slot.Shifted p q) l m →
      List.Forall₂ (Slot.Shifted p q) l.tail m.tail := by
    rintro _ _ (_ | ⟨_, rest⟩)
    · exact .nil
    · exact rest
  exact ⟨tails shifted.slots, shifted.latest⟩

theorem empty (idle : r.next? = none) : s.slots = [] := by
  have slots := shifted.slots
  rw [List.head?_eq_none_iff.1 idle] at slots
  exact List.forall₂_nil_left_iff.1 slots

/- The same task comes next in both. -/
theorem next {slot : Slot} (next : r.next? = some slot) :
    ∃ other, s.next? = some other ∧ slot.Shifted p q other := by
  have slots := shifted.slots
  rw [slots_of_next next] at slots
  obtain ⟨other, others, same, _, right⟩ := List.forall₂_cons_left_iff.1 slots
  exact ⟨other, by rw [next?, right]; rfl, same⟩

end Shifted
end Queue

namespace Play

open Scenario (Observation)

/-- What is observed of all that has been announced. -/
def observed (play : Play) : List Observation := play.events.toList.filterMap Observation.ofEvent?

theorem observed_announce (a : Play) (event : Event) :
    (a.announce event).observed = a.observed ++ (Observation.ofEvent? event).toList := by
  unfold observed announce
  rw [Array.toList_push, List.filterMap_append]
  cases shown : Observation.ofEvent? event with
  | none => rw [List.filterMap_cons_none shown]; rfl
  | some => rw [List.filterMap_cons_some shown]; rfl

theorem observed_announceTyping (a : Play) (contact : String) (time : Nat) :
    (a.announceTyping contact time).observed = a.observed :=
  (observed_announce a _).trans (List.append_nil _)

theorem observed_say (a : Play) (contact : String) (saying : Saying) (time : Nat) :
    (a.say contact saying time).observed = a.observed ++
      if saying.kind = .typing then [] else [.message contact saying.text saying.fromPlayer] := by
  unfold say
  rw [observed_announce, Observation.ofEvent?]
  by_cases typed : saying.kind = .typing
  · rw [if_pos typed, if_pos typed]
    rfl
  · rw [if_neg typed, if_neg typed]
    rfl

theorem observed_putThread (a : Play) (contact : String) (thread : ThreadState) :
    (a.putThread contact thread).observed = a.observed ++
      if a.progress.thread? contact = some thread then [] else [.thread contact thread] := by
  unfold putThread
  dsimp only
  split
  · exact (List.append_nil _).symm
  · exact observed_announce _ _

theorem observed_setUnlocked (a : Play) (contact : String) :
    (a.setUnlocked contact).observed = a.observed ++
      if a.progress.unlocked.has contact then [] else [.unlocked contact] := by
  unfold setUnlocked
  split
  · exact (List.append_nil _).symm
  · exact observed_announce _ _

/-- Stories that are alike, and of which the same has been observed. -/
structure Level (program : Program) (entering : Option String) (a b : Play) : Prop
    extends Alike program entering a b where
  observed : a.observed = b.observed

variable {program : Program} {entering : Option String} {a b : Play}

namespace Level

theorem symm (level : Level program none a b) : Level program none b a := by
  refine ⟨⟨?_, level.mind.symm, fun c free active => ?_⟩, level.observed.symm⟩
  · exact (congrArg Mind.program level.mind).symm.trans level.program
  · exact (level.rounds c free ((level.thread? c).trans active)).symm

theorem unconditional (level : Level program entering a b) (unconditional : program.Unconditional) :
    a.program.Unconditional := by
  rw [level.program]
  exact unconditional

theorem putThread (level : Level program none a b) (contact : String) {thread : ThreadState}
    (opens : thread = .active → entering = some contact) :
    Level program entering (a.putThread contact thread) (b.putThread contact thread) := by
  refine ⟨level.toAlike.putThread contact opens, ?_⟩
  rw [observed_putThread, observed_putThread, level.observed, level.thread?]

theorem setUnlocked (level : Level program entering a b) (contact : String) :
    Level program entering (a.setUnlocked contact) (b.setUnlocked contact) := by
  have unlocked : a.progress.unlocked = b.progress.unlocked := congrArg Mind.unlocked level.mind
  refine ⟨level.toAlike.setUnlocked contact, ?_⟩
  rw [observed_setUnlocked, observed_setUnlocked, level.observed, unlocked]

theorem announce (level : Level program entering a b) (event : Event) :
    Level program entering (a.announce event) (b.announce event) := by
  refine ⟨{ level.toAlike with }, ?_⟩
  rw [observed_announce, observed_announce, level.observed]

theorem announceTyping (level : Level program entering a b) (contact : String) (x y : Nat) :
    Level program entering (a.announceTyping contact x) (b.announceTyping contact y) := by
  refine ⟨{ level.toAlike with }, ?_⟩
  rw [observed_announceTyping, observed_announceTyping, level.observed]

theorem say (level : Level program entering a b) (contact : String) (saying : Saying) (x y : Nat) :
    Level program entering (a.say contact saying x) (b.say contact saying y) := by
  refine ⟨{ level.toAlike with }, ?_⟩
  rw [observed_say, observed_say, level.observed]

end Level

theorem timely_level (program : Program) (contact : String) :
    Timely (fun _ _ => True) (Level program none) contact where
  mind := fun level => level.mind
  add := fun _ _ => trivial
  max := fun _ _ => trivial
  say := fun level _ saying => level.say contact saying _ _
  schedule := fun level _ _ => { level with }
  timeFor := fun _ _ => trivial

/- What is put on the timeline does not count, so a reply may be typed longer in one of the stories. -/
theorem Level.layOut (level : Level program none a b) (contact text : String) (plan : Plan) (x y : Nat)
    (tempo : Tempo) : Level program none (a.layOut contact text plan x tempo)
      (b.layOut contact text plan y tempo) := by
  cases tempo with
  | immediate => exact (timely_level program contact).layOut level trivial text plan nofun
  | typed =>
    have left : Level program none (a.layOut contact text plan x .typed) b :=
      layOut_keeps (fun play => Level program none play b) (fun held _ _ => { held with }) level text plan x
    exact layOut_keeps (fun play => Level program none (a.layOut contact text plan x .typed) play)
      (fun held _ _ => { held with }) left text plan y

theorem parallel_level {program : Program} (formed : program.WellFormed) :
    Parallel program (fun _ _ => True) (fun _ _ => True) (Level program) where
  formed := formed
  program := fun level => level.program
  mind := fun level => level.mind
  rounds := fun level c => level.rounds c nofun
  reopens := fun _ _ _ _ => trivial
  opens := fun _ _ _ => trivial
  loosen := fun level c => { level with toAlike := level.toAlike.loosen c }
  placed := fun level key => { level with toAlike := level.toAlike.placed key }
  erased := fun level c => { level with toAlike := level.toAlike.erased c }
  putActive := fun level c => level.putThread c fun _ => rfl
  putEnded := fun level c => level.putThread c nofun
  setUnlocked := fun level c => level.setUnlocked c
  setTypingDelay := fun level _ => { level with }
  revise := fun level left right mind _ =>
    { level with toAlike := level.toAlike.revise left right mind }
  announce := fun level event => level.announce event
  announceTyping := fun level _ contact => level.announceTyping contact _ _
  say := fun level _ contact saying => level.say contact saying _ _
  layOut := fun level _ contact text plan tempo _ => level.layOut contact text plan _ _ tempo

/-- Level stories in which the same tasks wait at shifted times, and whoever can still be unlocked is free. -/
structure Shifted (program : Program) (p q : Nat) (free : String → Prop) (entering : Option String)
    (a b : Play) : Prop extends Level program entering a b where
  queues : a.queue.Shifted p q free b.queue
  free : ∀ c, a.canUnlock c = true → free c

variable {p q : Nat} {free : String → Prop}

namespace Shifted

/- What leaves the timeline alone, and makes nobody free. -/
theorem of_level {before : Option String} (shifted : Shifted program p q free before a b) {c d : Play}
    (level : Level program entering c d) (left : c.queue = a.queue) (right : d.queue = b.queue)
    (unlocking : ∀ contact, c.canUnlock contact = true → a.canUnlock contact = true) :
    Shifted program p q free entering c d := by
  refine ⟨level, ?_, fun contact can => shifted.free contact (unlocking contact can)⟩
  rw [left, right]
  exact shifted.queues

theorem putThread (shifted : Shifted program p q free none a b) (contact : String) {thread : ThreadState}
    (opens : thread = .active → entering = some contact) (unlocks : thread ≠ .locked) :
    Shifted program p q free entering (a.putThread contact thread) (b.putThread contact thread) := by
  have grows : Grows 0 a (a.putThread contact thread) := .putThread a contact unlocks
  exact shifted.of_level (shifted.toLevel.putThread contact opens)
    (history_putThread a contact thread contact).2.2 (history_putThread b contact thread contact).2.2
    grows.unlocking

theorem setUnlocked (shifted : Shifted program p q free entering a b) (contact : String) :
    Shifted program p q free entering (a.setUnlocked contact) (b.setUnlocked contact) := by
  have grows : Grows 0 a (a.setUnlocked contact) := .setUnlocked a contact
  exact shifted.of_level (shifted.toLevel.setUnlocked contact) (history_setUnlocked a contact contact).2.2
    (history_setUnlocked b contact contact).2.2 grows.unlocking

theorem revise (shifted : Shifted program p q free entering a b) {f g : Progress → Progress}
    (left : ∀ p, (f p).threadwise = p.threadwise) (right : ∀ p, (g p).threadwise = p.threadwise)
    (mind : (a.revise f).mind = (b.revise g).mind) :
    Shifted program p q free entering (a.revise f) (b.revise g) := by
  have level : Level program entering (a.revise f) (b.revise g) :=
    { shifted.toLevel with toAlike := shifted.toAlike.revise left right mind }
  have unlocked : (f a.progress).unlocked = a.progress.unlocked := congrArg (·.2.2.2.1) (left a.progress)
  have threads : (f a.progress).threads = a.progress.threads := congrArg (·.2.1) (left a.progress)
  have grows : Grows 0 a (a.revise f) := .revise unlocked threads
  exact shifted.of_level level rfl rfl grows.unlocking

theorem schedule (shifted : Shifted program p q free none a b) {x y : Nat} {contact : String}
    (may : free contact) (shift : Shift p q x y) (delivery : Delivery) :
    Shifted program p q free none (a.schedule contact x delivery) (b.schedule contact y delivery) := by
  have epoch : a.epoch = b.epoch := congrArg Mind.epoch shifted.mind
  refine ⟨{ shifted.toLevel with }, ?_, shifted.free⟩
  change (a.queue.schedule x ⟨contact, a.epoch, delivery⟩).Shifted p q free
    (b.queue.schedule y ⟨contact, b.epoch, delivery⟩)
  rw [epoch]
  exact shifted.queues.schedule may shift

end Shifted

theorem timely_shifted (program : Program) {contact : String} (may : free contact) :
    Timely (Shift p q) (Shifted program p q free none) contact where
  mind := fun shifted => shifted.mind
  add := Shift.add
  max := Shift.max
  say := fun shifted _ saying =>
    shifted.of_level (shifted.toLevel.say contact saying _ _) rfl rfl fun _ => id
  schedule := fun shifted shift delivery => shifted.schedule may shift delivery
  timeFor := fun shifted shift => shifted.queues.effectiveTime may shift

/- Where no round waits for a condition, stories stay shifted as long as only those are entered who are
   free, and at once. -/
theorem parallel_shifted (formed : program.WellFormed) (unconditional : program.Unconditional) (p q : Nat)
    (free : String → Prop) : Parallel program (fun tempo c => tempo = .immediate ∧ free c) (Shift p q)
      (Shifted program p q free) where
  formed := formed
  program := fun shifted => shifted.program
  mind := fun shifted => shifted.mind
  rounds := fun shifted c => shifted.rounds c nofun
  reopens := by
    intro a b shifted before entry member
    rw [nowOpen_of_unconditional (shifted.unconditional unconditional)] at member
    cases member
  opens := fun shifted c can => ⟨rfl, shifted.free c can⟩
  loosen := fun shifted c => { shifted with toAlike := shifted.toAlike.loosen c }
  placed := fun shifted key => { shifted with toAlike := shifted.toAlike.placed key }
  erased := fun shifted c => { shifted with toAlike := shifted.toAlike.erased c }
  putActive := fun shifted c => shifted.putThread c (fun _ => rfl) (by decide)
  putEnded := fun shifted c => shifted.putThread c nofun (by decide)
  setUnlocked := fun shifted c => shifted.setUnlocked c
  setTypingDelay := fun shifted _ => { shifted with }
  revise := fun shifted left right mind _ => shifted.revise left right mind
  announce := fun shifted event =>
    shifted.of_level (shifted.toLevel.announce event) rfl rfl fun _ => id
  announceTyping := fun shifted _ contact =>
    shifted.of_level (shifted.toLevel.announceTyping contact _ _) rfl rfl fun _ => id
  say := fun shifted _ contact saying =>
    shifted.of_level (shifted.toLevel.say contact saying _ _) rfl rfl fun _ => id
  layOut := by
    rintro a b x y shifted shift contact text plan tempo ⟨rfl, may⟩
    exact (timely_shifted program may).layOut shifted shift text plan nofun

/- By induction on the number of tasks that are fired: the next task is the same in both. -/
theorem Shifted.drained (formed : program.WellFormed) (unconditional : program.Unconditional)
    {limit other : Nat} (shifted : Shifted program p q free none a b)
    (first : (fireUpTo limit a).1.queue.slots = []) (second : (fireUpTo other b).1.queue.slots = []) :
    Shifted program p q free none (fireUpTo limit a).1 (fireUpTo other b).1 := by
  induction limit generalizing a b other with
  | zero =>
    have empty : b.queue.slots = [] := shifted.queues.empty (List.head?_eq_none_iff.2 first)
    rw [fireUpTo_of_empty empty]
    exact shifted
  | succ limit ih =>
    cases next : a.queue.next? with
    | none =>
      rw [fireUpTo_of_empty (List.head?_eq_none_iff.1 next), fireUpTo_of_empty (shifted.queues.empty next)]
      exact shifted
    | some slot =>
      obtain ⟨same, comes, task, shift⟩ := shifted.queues.next next
      obtain ⟨fewer, rfl⟩ := limit_of_drained comes second
      rw [fireUpTo_of_some next] at first ⊢
      rw [fireUpTo_of_some comes] at second ⊢
      have dropped : Shifted program p q free none a.dropFirst b.dropFirst :=
        { shifted with queues := shifted.queues.rest }
      exact ih ((parallel_shifted formed unconditional p q free).fire dropped task shift) first second

/- Without a shift, what is due in one of the stories is due in the other. -/
theorem Shifted.fireDue {a b : Play} (formed : program.WellFormed)
    (unconditional : program.Unconditional) (shifted : Shifted program 0 0 free none a b) (now : Nat) :
    Shifted program 0 0 free none (a.fireDue now).1 (b.fireDue now).1 := by
  cases next : a.queue.next? with
  | none =>
    have undue : a.queue.due? now = none := by
      rw [Queue.due?, next]
      rfl
    have undue' : b.queue.due? now = none := by
      rw [Queue.due?, Queue.next?, shifted.queues.empty next]
      rfl
    rw [fireDue_of_none undue, fireDue_of_none undue']
    exact shifted
  | some slot =>
    obtain ⟨same, comes, task, shift⟩ := shifted.queues.next next
    have time : slot.time = same.time := shift.eq_of_zero
    by_cases passed : slot.time ≤ now
    · have due : a.queue.due? now = some slot :=
        Option.filter_eq_some_iff.2 ⟨next, decide_eq_true passed⟩
      have due' : b.queue.due? now = some same :=
        Option.filter_eq_some_iff.2 ⟨comes, decide_eq_true (time ▸ passed)⟩
      rw [fireDue_of_some due, fireDue_of_some due']
      have dropped : Shifted program 0 0 free none a.dropFirst b.dropFirst :=
        { shifted with queues := shifted.queues.rest }
      exact Shifted.fireDue formed unconditional
        ((parallel_shifted formed unconditional 0 0 free).fire dropped task shift) now
    · have undue : a.queue.due? now = none := by
        rw [Queue.due?, next, Option.filter_some, if_neg (by simpa using passed)]
      have undue' : b.queue.due? now = none := by
        rw [Queue.due?, comes, Option.filter_some, if_neg (by simpa [← time] using passed)]
      rw [fireDue_of_none undue, fireDue_of_none undue']
      exact shifted
termination_by a.rank now
decreasing_by exact rank_fire_lt due

end Play
end ChatStory
