import ChatStory.Proofs.Session.Parallel

/-!
Two stories that go on alike. What has been said in a thread, how the messages are numbered, and what
hosts show beside the threads do not bear on how a story goes on. So two stories that differ in these
only, and in tasks that wait before all others in one of them, do the same and say the same.
-/
namespace ChatStory

/-- A message without the number that it was given. -/
def Message.unnumbered (m : Message) : Message := { m with id := "" }

/-- Tasks that are placed behind all of some tasks are placed among the others. -/
theorem Queue.place_append {slot : Slot} {ahead : List Slot} (late : ∀ s ∈ ahead, s.time ≤ slot.time)
    (slots : List Slot) : place slot (ahead ++ slots) = ahead ++ place slot slots := by
  induction ahead with
  | nil => rfl
  | cons first rest ih =>
    obtain ⟨before, others⟩ := List.forall_mem_cons.1 late
    rw [List.cons_append, place, if_pos before, ih others, List.cons_append]

namespace Play

/-- What bears on how a story goes on, apart from the tasks on the timeline. -/
structure Core where
  program : Program
  epoch : Nat
  indicator : Nat
  rounds : Table String RoundKey
  threads : Table String ThreadState
  unlocked : NameSet
  typingDelay : Nat
  unlocks : Table String (List String)
  endings : NameSet
  values : Variables
  latest : Table String Nat

def core (play : Play) : Core where
  program := play.program
  epoch := play.epoch
  indicator := play.indicator
  rounds := play.progress.rounds
  threads := play.progress.threads
  unlocked := play.progress.unlocked
  typingDelay := play.progress.typingDelay
  unlocks := play.progress.unlocks
  endings := play.progress.endings
  values := play.progress.values
  latest := play.queue.latest

/-- What stands in a thread, whatever the numbers of its messages. -/
def story (play : Play) (contact : String) : List Message :=
  (play.progress.history contact).map Message.unnumbered

theorem story_of_histories {a b : Play} (histories : b.progress.histories = a.progress.histories)
    (c : String) : b.story c = a.story c :=
  congrArg (fun t => (Table.getD t c []).map Message.unnumbered) histories

/-- The unnumbered message that a saying becomes. -/
def Saying.line (saying : Saying) (contact : String) (time : Nat) : Message where
  id := ""
  contact := contact
  text := saying.text
  timestamp := time
  fromPlayer := saying.fromPlayer
  kind := saying.kind
  media := saying.media
  location := saying.location
  read := saying.fromPlayer

theorem story_say (a : Play) (contact : String) (saying : Saying) (time : Nat) (other : String) :
    (a.say contact saying time).story other =
      a.story other ++ if other = contact then [saying.line contact time] else [] := by
  unfold story
  rw [Speaks.history_say]
  split
  · rename_i own
    rw [own, List.map_append]
    rfl
  · rw [List.append_nil]

theorem core_putThread (a : Play) (contact : String) (thread : ThreadState) :
    (a.putThread contact thread).core =
      { a.core with threads := a.progress.threads.insert contact thread } := by
  rw [putThread_eq]
  rfl

theorem story_putThread (a : Play) (contact : String) (thread : ThreadState) (other : String) :
    (a.putThread contact thread).story other = a.story other := by
  rw [putThread_eq]
  rfl

theorem slots_putThread (a : Play) (contact : String) (thread : ThreadState) :
    (a.putThread contact thread).queue.slots = a.queue.slots := by
  rw [putThread_eq]

/-- Two stories with the same core, where the first one has some more tasks before all others, and in
every thread the stories have gone on alike from where they differed. -/
structure Twins (ahead : List Slot) (u v : String → List Message) (a b : Play) : Prop where
  core : a.core = b.core
  slots : a.queue.slots = ahead ++ b.queue.slots
  story : ∀ c, ∃ more, a.story c = u c ++ more ∧ b.story c = v c ++ more

namespace Twins

variable {ahead : List Slot} {u v : String → List Message} {a b : Play}

/- What leaves the timeline and the threads alone, and does the same to the cores. -/
theorem of_silent {c d : Play} (twins : Twins ahead u v a b) (core : c.core = d.core)
    (left : c.queue.slots = a.queue.slots) (right : d.queue.slots = b.queue.slots)
    (first : ∀ contact, c.story contact = a.story contact)
    (second : ∀ contact, d.story contact = b.story contact) : Twins ahead u v c d := by
  refine ⟨core, ?_, ?_⟩
  · rw [left, right]
    exact twins.slots
  · intro contact
    rw [first, second]
    exact twins.story contact

variable (twins : Twins ahead u v a b)

include twins

theorem mind : a.mind = b.mind :=
  congrArg (fun core : Core => (⟨core.program, core.epoch, core.indicator, core.threads, core.unlocked,
    core.unlocks, core.endings, core.values⟩ : Mind)) twins.core

theorem thread? (contact : String) : a.progress.thread? contact = b.progress.thread? contact :=
  congrArg (fun core => core.threads.get? contact) twins.core

/- A change of the core alone. -/
theorem change (change : Progress → Progress) (follow : Core → Core)
    (same : ∀ play : Play, (play.revise change).core = follow play.core)
    (histories : ∀ p, (change p).histories = p.histories) :
    Twins ahead u v (a.revise change) (b.revise change) := by
  have story : ∀ (play : Play) contact, (play.revise change).story contact = play.story contact :=
    fun play => story_of_histories (histories play.progress)
  exact twins.of_silent (by rw [same, same, twins.core]) rfl rfl (story a) (story b)

/- Changes that leave rounds alone, and do the same to what is known and asked for. -/
theorem revise {f g : Progress → Progress} (left : ∀ p, (f p).threadwise = p.threadwise)
    (right : ∀ p, (g p).threadwise = p.threadwise) (mind : (a.revise f).mind = (b.revise g).mind) :
    Twins ahead u v (a.revise f) (b.revise g) := by
  have core_eq : ∀ play : Play, play.core = ⟨play.mind.program, play.mind.epoch, play.mind.indicator,
      play.progress.rounds, play.mind.threads, play.mind.unlocked, play.progress.typingDelay,
      play.mind.unlocks, play.mind.endings, play.mind.values, play.queue.latest⟩ := fun _ => rfl
  have rounds : (f a.progress).rounds = (g b.progress).rounds := by
    have before : a.progress.rounds = b.progress.rounds := congrArg Core.rounds twins.core
    have first : (f a.progress).rounds = a.progress.rounds := congrArg (·.2.2.1) (left a.progress)
    have second : (g b.progress).rounds = b.progress.rounds := congrArg (·.2.2.1) (right b.progress)
    rw [first, second, before]
  have delay : (f a.progress).typingDelay = (g b.progress).typingDelay := by
    have before : a.progress.typingDelay = b.progress.typingDelay := congrArg Core.typingDelay twins.core
    have first : (f a.progress).typingDelay = a.progress.typingDelay :=
      congrArg (·.2.2.2.2) (left a.progress)
    have second : (g b.progress).typingDelay = b.progress.typingDelay :=
      congrArg (·.2.2.2.2) (right b.progress)
    rw [first, second, before]
  have latest : a.queue.latest = b.queue.latest := congrArg Core.latest twins.core
  apply twins.of_silent
  · rw [core_eq (a.revise f), core_eq (b.revise g), mind]
    change Core.mk _ _ _ (f a.progress).rounds _ _ (f a.progress).typingDelay _ _ _ a.queue.latest = _
    rw [rounds, delay, latest]
    rfl
  · rfl
  · rfl
  · exact story_of_histories (congrArg Prod.fst (left a.progress))
  · exact story_of_histories (congrArg Prod.fst (right b.progress))

theorem announce (first second : Event) : Twins ahead u v (a.announce first) (b.announce second) :=
  twins.of_silent twins.core rfl rfl (fun _ => rfl) fun _ => rfl

theorem setUnlocked (contact : String) :
    Twins ahead u v (a.setUnlocked contact) (b.setUnlocked contact) := by
  have unlocked : a.progress.unlocked = b.progress.unlocked := congrArg Core.unlocked twins.core
  unfold Play.setUnlocked
  rw [unlocked]
  split
  · exact twins
  · have shown := twins.change (fun p => { p with unlocked := p.unlocked.add contact })
      (fun core => { core with unlocked := core.unlocked.add contact }) (fun _ => rfl) fun _ => rfl
    exact shown.announce _ _

theorem say (contact : String) (saying : Saying) (time : Nat) :
    Twins ahead u v (a.say contact saying time) (b.say contact saying time) := by
  refine ⟨twins.core, twins.slots, ?_⟩
  intro other
  obtain ⟨more, left, right⟩ := twins.story other
  rw [story_say, story_say, left, right, List.append_assoc, List.append_assoc]
  exact ⟨_, rfl, rfl⟩

theorem putThread (contact : String) (thread : ThreadState) :
    Twins ahead u v (a.putThread contact thread) (b.putThread contact thread) := by
  have threads : a.progress.threads = b.progress.threads := congrArg Core.threads twins.core
  apply twins.of_silent
  · rw [core_putThread, core_putThread, twins.core, threads]
  · exact slots_putThread a contact thread
  · exact slots_putThread b contact thread
  · exact story_putThread a contact thread
  · exact story_putThread b contact thread

theorem timeFor (contact : String) (time : Nat) : a.timeFor contact time = b.timeFor contact time :=
  congrArg (fun core => max time (core.latest.getD contact 0)) twins.core

theorem schedule (contact : String) {time : Nat} (late : ∀ slot ∈ ahead, slot.time ≤ time)
    (delivery : Delivery) :
    Twins ahead u v (a.schedule contact time delivery) (b.schedule contact time delivery) := by
  have epoch : a.epoch = b.epoch := congrArg Core.epoch twins.core
  have latest : a.queue.latest = b.queue.latest := congrArg Core.latest twins.core
  have effective : a.queue.effectiveTime contact time = b.queue.effectiveTime contact time :=
    twins.timeFor contact time
  refine ⟨?_, ?_, twins.story⟩
  · have scheduled : ∀ play : Play, (play.schedule contact time delivery).core =
        { play.core with latest :=
            play.queue.latest.insert contact (play.queue.effectiveTime contact time) } :=
      fun _ => rfl
    rw [scheduled, scheduled, twins.core, latest, effective]
  -- The tasks ahead come up no later than the new one, which is therefore placed behind them.
  · have behind : ∀ slot ∈ ahead, slot.time ≤ b.queue.effectiveTime contact time := by
      intro slot member
      exact Nat.le_trans (late slot member) (b.queue.time_le_effectiveTime contact time)
    change Queue.place ⟨a.queue.effectiveTime contact time, _⟩ a.queue.slots =
      ahead ++ Queue.place ⟨b.queue.effectiveTime contact time, _⟩ b.queue.slots
    rw [effective, epoch, twins.slots, Queue.place_append behind]

end Twins

/-- The same time in both, at which everything ahead has come. -/
def Behind (ahead : List Slot) (x y : Nat) : Prop := x = y ∧ ∀ slot ∈ ahead, slot.time ≤ x

/-- Twins that are told on a program. -/
def TwinsOn (program : Program) (ahead : List Slot) (u v : String → List Message)
    (_ : Option String) (a b : Play) : Prop :=
  a.program = program ∧ Twins ahead u v a b

theorem timely_twins (program : Program) (ahead : List Slot) (u v : String → List Message)
    (contact : String) : Timely (Behind ahead) (TwinsOn program ahead u v none) contact where
  mind := fun pair => pair.2.mind
  add := fun ⟨same, late⟩ delay =>
    ⟨by rw [same], fun slot member => Nat.le_trans (late slot member) (Nat.le_add_right _ delay)⟩
  max := fun ⟨same, late⟩ ⟨same', _⟩ =>
    ⟨by rw [same, same'], fun slot member => Nat.le_trans (late slot member) (Nat.le_max_left _ _)⟩
  say := fun pair meet saying => ⟨pair.1, meet.1 ▸ pair.2.say contact saying _⟩
  schedule := fun pair meet delivery => ⟨pair.1, meet.1 ▸ pair.2.schedule contact meet.2 delivery⟩
  timeFor := fun {_ b x _} pair meet => by
    obtain ⟨rfl, late⟩ := meet
    refine ⟨pair.2.timeFor contact x, fun slot member => ?_⟩
    exact Nat.le_trans (late slot member) (Queue.time_le_effectiveTime _ contact x)

/- Twins stay twins in whatever is done behind the tasks ahead. -/
theorem parallel_twins {program : Program} (formed : program.WellFormed) (ahead : List Slot)
    (u v : String → List Message) :
    Parallel program (fun _ _ => True) (Behind ahead) (TwinsOn program ahead u v) where
  formed := formed
  program := And.left
  mind := fun pair => pair.2.mind
  rounds := fun pair c _ => congrArg (fun core => core.rounds.get? c) pair.2.core
  reopens := fun _ _ _ _ => trivial
  opens := fun _ _ _ => trivial
  loosen := fun pair _ => pair
  placed := fun {_ _ c} pair key => ⟨pair.1, pair.2.change _
    (fun core => { core with rounds := core.rounds.insert c key }) (fun _ => rfl) fun _ => rfl⟩
  erased := fun pair c => ⟨pair.1, pair.2.change _
    (fun core => { core with rounds := core.rounds.erase c }) (fun _ => rfl) fun _ => rfl⟩
  putActive := fun {a _} pair c =>
    ⟨(congrArg Mind.program (mind_putThread a c .active)).trans pair.1, pair.2.putThread c .active⟩
  putEnded := fun {a _} pair c =>
    ⟨(congrArg Mind.program (mind_putThread a c .ended)).trans pair.1, pair.2.putThread c .ended⟩
  setUnlocked := fun {_ a _} pair c =>
    ⟨(congrArg Mind.program (mind_setUnlocked a c)).trans pair.1, pair.2.setUnlocked c⟩
  setTypingDelay := fun pair delay => ⟨pair.1, pair.2.change _
    (fun core => { core with typingDelay := delay }) (fun _ => rfl) fun _ => rfl⟩
  revise := fun pair left right mind _ => ⟨pair.1, pair.2.revise left right mind⟩
  announce := fun pair event => ⟨pair.1, pair.2.announce event event⟩
  announceTyping := fun pair _ _ => ⟨pair.1, pair.2.announce _ _⟩
  say := fun pair meet contact saying => ⟨pair.1, meet.1 ▸ pair.2.say contact saying _⟩
  layOut := fun pair meet contact text plan _ _ =>
    (timely_twins program ahead u v contact).layOut pair meet text plan fun _ =>
      congrArg Core.typingDelay pair.2.core

/- Where no task waits before the others, both fire the same tasks. -/
theorem twins_fireDue {u v : String → List Message} {a b : Play} (formed : a.program.WellFormed)
    (twins : Twins [] u v a b) (now : Nat) : Twins [] u v (a.fireDue now).1 (b.fireDue now).1 := by
  have slots : a.queue.slots = b.queue.slots := twins.slots
  have same : a.queue.due? now = b.queue.due? now := by
    rw [Queue.due?, Queue.due?, Queue.next?, Queue.next?, slots]
  cases due : a.queue.due? now with
  | none =>
    rw [fireDue_of_none due, fireDue_of_none (same.symm.trans due)]
    exact twins
  | some slot =>
    rw [fireDue_of_some due, fireDue_of_some (same.symm.trans due)]
    have dropped : Twins [] u v a.dropFirst b.dropFirst :=
      ⟨twins.core, congrArg List.tail slots, twins.story⟩
    have pair : TwinsOn a.program [] u v none a.dropFirst b.dropFirst := ⟨rfl, dropped⟩
    have task : slot.task = slot.task := rfl
    obtain ⟨kept, fired⟩ := (parallel_twins formed [] u v).fire pair task
      ⟨rfl, List.forall_mem_nil _⟩
    exact twins_fireDue (kept ▸ formed) fired now
termination_by a.rank now
decreasing_by exact rank_fire_lt due

end Play
end ChatStory
