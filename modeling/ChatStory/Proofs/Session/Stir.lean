import ChatStory.Proofs.Progress
import ChatStory.Proofs.Queue
import ChatStory.Session.Timeline

/-!
What a story may do between two tasks. A move stays within the program, only adds to the timeline, and
leaves no contact behind without a round or without the notices it waits for. A stir moreover says
nothing: it opens threads, asks for things and schedules what the opened threads say later.
-/
namespace ChatStory

namespace Play

/-- A task that may stand on the timeline. -/
structure Accepts (play : Play) (task : Task) : Prop where
  epoch : task.epoch = play.epoch
  known : play.program.has task.contact = true
  payload : ∀ action, task.delivery = .payload action → action.effect.isHeldBack = false

/-- Notices of the contact are on the timeline. -/
def Noticed (play : Play) (c : String) : Prop :=
  ∃ slot ∈ play.queue.slots, slot.task.contact = c ∧ slot.task.delivery = .notices

/-- An open thread that is in no round. -/
def Unrounded (play : Play) (c : String) : Prop :=
  play.progress.thread? c = some .active ∧ play.progress.rounds.get? c = none

/-- Unlocks that no notices will deliver. -/
def StrandsUnlocks (play : Play) (c : String) : Prop :=
  play.progress.unlocks.contains c = true ∧ ¬play.Noticed c

/-- An ending that no notices will deliver. -/
def StrandsEnding (play : Play) (c : String) : Prop :=
  play.progress.endings.has c = true ∧ ¬play.Noticed c

/-- Only what is still being done for the busy contacts may be left behind. -/
structure Moves (busy : String → Prop) (a b : Play) : Prop where
  program : b.program = a.program
  epoch : b.epoch = a.epoch
  queue : Queue.Extended a.Accepts a.queue b.queue
  kept : a.progress.KeptFor a.program → b.progress.KeptFor a.program
  unrounded : ∀ c, ¬busy c → b.Unrounded c → a.Unrounded c
  unlocks : ∀ c, ¬busy c → b.StrandsUnlocks c → a.StrandsUnlocks c
  ending : ∀ c, ¬busy c → b.StrandsEnding c → a.StrandsEnding c

/-- Says nothing, closes no thread, and leaves the lanes of the open threads alone but for those in
which something is laid out. -/
structure Stirs (busy laying : String → Prop) (a b : Play) : Prop extends Moves busy a b where
  histories : b.progress.histories = a.progress.histories
  threads : ∀ c, b.progress.thread? c = a.progress.thread? c ∨ b.progress.thread? c = some .active
  rounds : ∀ c, a.progress.rounds.contains c = true → b.progress.rounds.contains c = true
  targets : ∀ c, a.progress.unlocks.getD c [] <+: b.progress.unlocks.getD c []
  endings : ∀ c, a.progress.isClosed c = false → a.progress.endings.has c = true →
    b.progress.endings.has c = true
  lanes : ∀ c, ¬laying c → a.progress.isClosed c = false → b.queue.lane c = a.queue.lane c

/-- Nobody is left behind. -/
def nobody : String → Prop := fun _ => False

variable {busy laying : String → Prop} {a b c : Play}

theorem Accepts.of_same {task : Task} (accepts : a.Accepts task) (program : b.program = a.program)
    (epoch : b.epoch = a.epoch) : b.Accepts task := by
  refine ⟨?_, ?_, accepts.payload⟩
  · rw [epoch]
    exact accepts.epoch
  · rw [program]
    exact accepts.known

theorem Noticed.extended {contact : String} (noticed : a.Noticed contact) {fit : Task → Prop}
    (queue : Queue.Extended fit a.queue b.queue) : b.Noticed contact := by
  obtain ⟨slot, member, own, notices⟩ := noticed
  exact ⟨slot, queue.stays member, own, notices⟩

/- Whether it is announced or not, to put a thread is to write the thread. -/
theorem putThread_eq (a : Play) (contact : String) (thread : ThreadState) :
    a.putThread contact thread =
      { a with
        progress := { a.progress with threads := a.progress.threads.insert contact thread }
        events := (a.putThread contact thread).events } := by
  unfold putThread
  dsimp only
  split <;> rfl

/- So is it with the unlocked contacts: one that is among them already could as well be added again. -/
theorem setUnlocked_eq (a : Play) (contact : String) :
    a.setUnlocked contact =
      { a with
        progress := { a.progress with unlocked := a.progress.unlocked.add contact }
        events := (a.setUnlocked contact).events } := by
  unfold setUnlocked
  split
  · rename_i had
    rw [NameSet.add_of_has had]
  · rfl

namespace Moves

theorem refl (busy : String → Prop) (a : Play) : Moves busy a a :=
  ⟨rfl, rfl, .refl, id, fun _ _ => id, fun _ _ => id, fun _ _ => id⟩

theorem trans (first : Moves busy a b) (second : Moves busy b c) : Moves busy a c := by
  refine ⟨second.program.trans first.program, second.epoch.trans first.epoch, ?_, ?_, ?_, ?_, ?_⟩
  · apply first.queue.trans
    apply second.queue.weaken
    intro task accepts
    exact accepts.of_same first.program.symm first.epoch.symm
  · intro kept
    have middle := first.kept kept
    rw [← first.program] at middle ⊢
    exact second.kept middle
  · intro contact free loose
    exact first.unrounded contact free (second.unrounded contact free loose)
  · intro contact free loose
    exact first.unlocks contact free (second.unlocks contact free loose)
  · intro contact free loose
    exact first.ending contact free (second.ending contact free loose)

theorem widen {wider : String → Prop} (moves : Moves busy a b) (more : ∀ c, busy c → wider c) :
    Moves wider a b := by
  refine ⟨moves.program, moves.epoch, moves.queue, moves.kept, ?_, ?_, ?_⟩
  · intro contact free
    exact moves.unrounded contact fun b => free (more contact b)
  · intro contact free
    exact moves.unlocks contact fun b => free (more contact b)
  · intro contact free
    exact moves.ending contact fun b => free (more contact b)

/- What leaves rounds, threads, requests and the timeline alone leaves nobody behind. -/
theorem of_same (program : b.program = a.program) (epoch : b.epoch = a.epoch)
    (queue : b.queue = a.queue) (kept : a.progress.KeptFor a.program → b.progress.KeptFor a.program)
    (threads : b.progress.threads = a.progress.threads)
    (rounds : b.progress.rounds = a.progress.rounds)
    (unlocks : b.progress.unlocks = a.progress.unlocks)
    (endings : b.progress.endings = a.progress.endings) : Moves busy a b := by
  refine ⟨program, epoch, ?_, kept, ?_, ?_, ?_⟩
  · rw [queue]
    exact .refl
  · intro contact _ loose
    simpa only [Unrounded, Progress.thread?, threads, rounds] using loose
  · intro contact _ loose
    simpa only [StrandsUnlocks, Noticed, unlocks, queue] using loose
  · intro contact _ loose
    simpa only [StrandsEnding, Noticed, endings, queue] using loose

theorem announce (busy : String → Prop) (a : Play) (event : Event) : Moves busy a (a.announce event) :=
  of_same rfl rfl rfl id rfl rfl rfl rfl

theorem say (a : Play) {contact : String} (known : a.program.has contact = true) (saying : Saying)
    (time : Nat) : Moves busy a (a.say contact saying time) := by
  refine of_same rfl rfl rfl ?_ rfl rfl rfl rfl
  intro kept
  refine { kept with histories := ?_ }
  intro other
  change (a.progress.histories.insert contact _).contains other = true ↔ _
  rw [Table.contains_insert, kept.histories]
  constructor
  · rintro (same | had)
    · rw [same]
      exact known
    · exact had
  · exact .inr

end Moves

namespace Stirs

theorem isClosed_of_threads (threads : ∀ c, b.progress.thread? c = a.progress.thread? c ∨
    b.progress.thread? c = some .active) {contact : String}
    (opened : a.progress.isClosed contact = false) : b.progress.isClosed contact = false := by
  rcases threads contact with same | active
  · rw [Progress.isClosed, same]
    exact opened
  · rw [Progress.isClosed, active]
    rfl

theorem refl (busy laying : String → Prop) (a : Play) : Stirs busy laying a a :=
  ⟨.refl busy a, rfl, fun _ => .inl rfl, fun _ => id, fun _ => List.prefix_rfl, fun _ _ => id,
    fun _ _ _ => rfl⟩

theorem trans (first : Stirs busy laying a b) (second : Stirs busy laying b c) :
    Stirs busy laying a c := by
  refine ⟨first.toMoves.trans second.toMoves, second.histories.trans first.histories, ?_, ?_, ?_, ?_,
    ?_⟩
  · intro contact
    rcases second.threads contact with same | active
    · rw [same]
      exact first.threads contact
    · exact .inr active
  · intro contact had
    exact second.rounds contact (first.rounds contact had)
  · intro contact
    exact (first.targets contact).trans (second.targets contact)
  · intro contact opened had
    exact second.endings contact (isClosed_of_threads first.threads opened)
      (first.endings contact opened had)
  · intro contact free opened
    rw [second.lanes contact free (isClosed_of_threads first.threads opened)]
    exact first.lanes contact free opened

theorem widen {wider broader : String → Prop} (stirs : Stirs busy laying a b)
    (more : ∀ c, busy c → wider c) (further : ∀ c, laying c → broader c) :
    Stirs wider broader a b := by
  refine { stirs with toMoves := stirs.toMoves.widen more, lanes := ?_ }
  intro contact free
  exact stirs.lanes contact fun b => free (further contact b)

theorem of_same (moves : Moves busy a b) (queue : b.queue = a.queue)
    (histories : b.progress.histories = a.progress.histories)
    (threads : b.progress.threads = a.progress.threads)
    (rounds : b.progress.rounds = a.progress.rounds)
    (unlocks : b.progress.unlocks = a.progress.unlocks)
    (endings : b.progress.endings = a.progress.endings) : Stirs busy laying a b := by
  refine ⟨moves, histories, ?_, ?_, ?_, ?_, ?_⟩
  · intro contact
    exact .inl (by rw [Progress.thread?, Progress.thread?, threads])
  · intro contact had
    rw [rounds]
    exact had
  · exact fun contact => unlocks ▸ List.prefix_rfl
  · intro contact _ had
    rw [endings]
    exact had
  · intro contact _ _
    rw [queue]

theorem announce (busy laying : String → Prop) (a : Play) (event : Event) :
    Stirs busy laying a (a.announce event) :=
  of_same (.announce busy a event) rfl rfl rfl rfl rfl rfl

/- A change of what is neither said nor waited for. -/
theorem revise {change : Progress → Progress}
    (kept : a.progress.KeptFor a.program → (change a.progress).KeptFor a.program)
    (histories : (change a.progress).histories = a.progress.histories)
    (threads : (change a.progress).threads = a.progress.threads)
    (rounds : (change a.progress).rounds = a.progress.rounds)
    (unlocks : (change a.progress).unlocks = a.progress.unlocks)
    (endings : (change a.progress).endings = a.progress.endings) :
    Stirs busy laying a (a.revise change) :=
  of_same (.of_same rfl rfl rfl kept threads rounds unlocks endings) rfl histories threads rounds
    unlocks endings

theorem foldl {α : Type} {step : Play → α → Play} {items : List α}
    (each : ∀ play, play.program = a.program → ∀ item ∈ items, Stirs busy laying play (step play item)) :
    Stirs busy laying a (items.foldl step a) := by
  apply List.foldlRecOn items step (refl busy laying a)
  intro play stirs item member
  exact stirs.trans (each play stirs.program item member)

/-- The contact that a turn is about. -/
abbrev only (contact : String) : String → Prop := (· = contact)

theorem schedule (a : Play) {contact : String} (time : Nat) {delivery : Delivery}
    (accepts : a.Accepts ⟨contact, a.epoch, delivery⟩) :
    Stirs (only contact) (only contact) a (a.schedule contact time delivery) := by
  have queue : Queue.Extended a.Accepts a.queue (a.schedule contact time delivery).queue :=
    .schedule time .refl accepts
  have moves : Moves (only contact) a (a.schedule contact time delivery) := by
    refine ⟨rfl, rfl, queue, id, fun _ _ => id, ?_, ?_⟩
    · rintro other _ ⟨waits, lost⟩
      exact ⟨waits, fun noticed => lost (noticed.extended queue)⟩
    · rintro other _ ⟨waits, lost⟩
      exact ⟨waits, fun noticed => lost (noticed.extended queue)⟩
  refine ⟨moves, rfl, fun _ => .inl rfl, fun _ => id, fun _ => List.prefix_rfl, fun _ _ => id, ?_⟩
  intro other free _
  exact Queue.lane_schedule_other _ _ fun same => free same.symm

theorem putActive (laying : String → Prop) (a : Play) {contact : String}
    (known : a.program.has contact = true) :
    Stirs (only contact) laying a (a.putThread contact .active) := by
  have step : Stirs (only contact) laying a (a.revise fun p => { p with
      threads := p.threads.insert contact .active }) := by
    have opened : ∀ other, (a.revise fun p => { p with
        threads := p.threads.insert contact .active }).progress.thread? other =
          if other = contact then some .active else a.progress.thread? other := by
      intro other
      exact Table.get?_insert _ _ _ _
    refine ⟨⟨rfl, rfl, .refl, ?_, ?_, fun _ _ => id, fun _ _ => id⟩, rfl, ?_, fun _ => id,
      fun _ => List.prefix_rfl, fun _ _ => id, fun _ _ _ => rfl⟩
    · intro kept
      refine { kept with threads := ?_ }
      intro other
      change (a.progress.threads.insert contact _).contains other = true ↔ _
      rw [Table.contains_insert, kept.threads]
      constructor
      · rintro (same | had)
        · rw [same]
          exact known
        · exact had
      · exact .inr
    · rintro other free ⟨active, roundless⟩
      rw [opened, if_neg free] at active
      exact ⟨active, roundless⟩
    · intro other
      rw [opened]
      split
      · exact .inr rfl
      · exact .inl rfl
  unfold putThread
  dsimp only
  split
  · exact step
  · exact step.trans (announce _ _ _ _)

theorem setUnlocked (busy laying : String → Prop) (a : Play) {contact : String}
    (known : a.program.has contact = true) : Stirs busy laying a (a.setUnlocked contact) := by
  unfold Play.setUnlocked
  split
  · exact refl busy laying a
  · refine Stirs.trans (b := a.revise fun p => { p with unlocked := p.unlocked.add contact })
      (revise ?_ rfl rfl rfl rfl rfl) (announce _ _ _ _)
    intro kept
    refine { kept with unlocked := ?_ }
    intro other had
    rcases (NameSet.has_add _ _ _).1 had with same | had
    · rw [same]
      exact known
    · exact kept.unlocked other had

/- A closed thread that is opened no longer waits to be ended. -/
theorem dropEnding (busy laying : String → Prop) (a : Play) {contact : String}
    (closed : a.progress.isClosed contact = true) :
    Stirs busy laying a (a.revise fun p => { p with endings := p.endings.remove contact }) := by
  refine ⟨⟨rfl, rfl, .refl, ?_, fun _ _ => id, fun _ _ => id, ?_⟩, rfl, fun _ => .inl rfl,
    fun _ => id, fun _ => List.prefix_rfl, ?_, fun _ _ _ => rfl⟩
  · intro kept
    refine { kept with endings := ?_ }
    intro other had
    exact kept.endings other ((NameSet.has_remove _ _ _).1 had).2
  · rintro other _ ⟨waits, lost⟩
    exact ⟨((NameSet.has_remove _ _ _).1 waits).2, lost⟩
  · intro other opened had
    refine (NameSet.has_remove _ _ _).2 ⟨?_, had⟩
    rintro rfl
    rw [closed] at opened
    cases opened

theorem opening (laying : String → Prop) (a : Play) {contact : String}
    (known : a.program.has contact = true) (closed : a.progress.isClosed contact = true) :
    Stirs (only contact) laying a (((a.revise fun p => { p with
      endings := p.endings.remove contact }).putThread contact .active).setUnlocked contact) := by
  have freed := dropEnding (only contact) laying a closed
  have active := putActive laying (a.revise fun p => { p with
    endings := p.endings.remove contact }) known
  apply (freed.trans active).trans
  apply setUnlocked
  rw [active.program]
  exact known

theorem putRound (busy laying : String → Prop) (a : Play) {contact : String} {key : RoundKey}
    (found : (a.program.round? contact key).isSome = true) :
    Stirs busy laying a (a.revise fun p => { p with rounds := p.rounds.insert contact key }) := by
  refine ⟨⟨rfl, rfl, .refl, ?_, ?_, fun _ _ => id, fun _ _ => id⟩, rfl, fun _ => .inl rfl, ?_,
    fun _ => List.prefix_rfl, fun _ _ => id, fun _ _ _ => rfl⟩
  · intro kept
    refine { kept with rounds := ?_ }
    intro other found' known
    change (a.progress.rounds.insert contact key).get? other = some found' at known
    rw [Table.get?_insert] at known
    split at known
    · rename_i same
      cases known
      rw [same]
      exact found
    · exact kept.rounds other found' known
  · rintro other _ ⟨active, roundless⟩
    change (a.progress.rounds.insert contact key).get? other = none at roundless
    rw [Table.get?_insert] at roundless
    split at roundless
    · cases roundless
    · exact ⟨active, roundless⟩
  · intro other had
    exact (Table.contains_insert _ _ _ _).2 (.inr had)

theorem askUnlock (laying : String → Prop) (a : Play) {contact : String}
    (known : a.program.has contact = true)
    (target : String) : Stirs (only contact) laying a (a.revise fun p => { p with
      unlocks := p.unlocks.insert contact (p.unlocks.getD contact [] ++ [target]) }) := by
  refine ⟨⟨rfl, rfl, .refl, ?_, fun _ _ => id, ?_, fun _ _ => id⟩, rfl, fun _ => .inl rfl,
    fun _ => id, ?_, fun _ _ => id, fun _ _ _ => rfl⟩
  · intro kept
    refine { kept with unlocks := ?_ }
    intro other had
    rcases (Table.contains_insert _ _ _ _).1 had with same | had
    · rw [same]
      exact known
    · exact kept.unlocks other had
  · rintro other free ⟨waits, lost⟩
    rcases (Table.contains_insert _ _ _ _).1 waits with same | had
    · exact absurd same free
    · exact ⟨had, lost⟩
  · intro other
    simp only [Play.revise, Table.getD, Table.get?_insert]
    split
    · rename_i same
      rw [same]
      exact List.prefix_append _ _
    · exact List.prefix_rfl

theorem askEnding (laying : String → Prop) (a : Play) {contact : String}
    (known : a.program.has contact = true) :
    Stirs (only contact) laying a (a.revise fun p => { p with endings := p.endings.add contact }) := by
  refine ⟨⟨rfl, rfl, .refl, ?_, fun _ _ => id, fun _ _ => id, ?_⟩, rfl, fun _ => .inl rfl,
    fun _ => id, fun _ => List.prefix_rfl, ?_, fun _ _ _ => rfl⟩
  · intro kept
    refine { kept with endings := ?_ }
    intro other had
    rcases (NameSet.has_add _ _ _).1 had with same | had
    · rw [same]
      exact known
    · exact kept.endings other had
  · rintro other free ⟨waits, lost⟩
    rcases (NameSet.has_add _ _ _).1 waits with same | had
    · exact absurd same free
    · exact ⟨had, lost⟩
  · intro other _ had
    exact (NameSet.has_add _ _ _).2 (.inr had)

end Stirs
end Play
end ChatStory
