import ChatStory.Proofs.Session.Afresh
import ChatStory.Proofs.Session.Granularity
import ChatStory.Proofs.Session.Input
import ChatStory.Proofs.Session.Numbering

/-!
Looking at a story. To view a thread marks its messages as read, and to take the notifications leaves none;
a save on the way only notes what is on the timeline. Nothing that happens in a story depends on any of
that, so a run goes on in the same way wherever the player looks.
-/
namespace ChatStory

/-- What does not depend on what the player has looked at, nor on what was noted for a save. -/
def Progress.unseen (p : Progress) : Progress := { p with
  histories := p.histories.map (List.map Message.unread)
  viewed := Table.empty
  deliveries := []
  notifications := [] }

namespace Progress

theorem history_unseen (p : Progress) (c : String) :
    p.unseen.history c = (p.history c).map Message.unread := by
  unfold history unseen Table.getD
  dsimp only
  rw [Table.get?_map]
  cases p.histories.get? c <;> rfl

theorem unseen_fitContact (p : Progress) (contact : Contact) :
    (p.fitContact contact).unseen = p.unseen.fitContact contact := by
  have filled : (p.fillThread contact).unseen = p.unseen.fillThread contact := by
    unfold fillThread
    rw [apply_ite unseen, apply_ite unseen]
    rfl
  have told : ∀ q : Progress,
      (if q.histories.contains contact.name then q
        else { q with histories := q.histories.insert contact.name [] }).unseen =
      if q.unseen.histories.contains contact.name then q.unseen
        else { q.unseen with histories := q.unseen.histories.insert contact.name [] } := by
    intro q
    have known : q.unseen.histories.contains contact.name = q.histories.contains contact.name := by
      unfold Table.contains unseen
      rw [Table.get?_map, Option.isSome_map]
    rw [known]
    split
    · rfl
    · unfold unseen
      rw [Table.map_insert]
      rfl
  have placed : ∀ q : Progress, (q.fitRound contact).unseen = q.unseen.fitRound contact := by
    intro q
    unfold fitRound
    rw [apply_ite unseen]
    cases contact.firstKey? with
    | none => rfl
    | some key =>
      dsimp only
      rw [apply_ite unseen]
      rfl
  unfold fitContact
  dsimp only
  rw [placed, told, filled]

theorem unseen_restrict (p : Progress) (program : Program) :
    (p.restrict program).unseen = p.unseen.restrict program := by
  unfold restrict unseen
  dsimp only
  rw [Table.map_filter]
  rfl

theorem unseen_fitTo (p : Progress) (program : Program) :
    (p.fitTo program).unseen = p.unseen.fitTo program := by
  have folded : ∀ (contacts : List Contact) (q : Progress),
      (contacts.foldl fitContact q).unseen = contacts.foldl fitContact q.unseen := by
    intro contacts
    induction contacts with
    | nil => exact fun _ => rfl
    | cons contact rest ih =>
      intro q
      rw [List.foldl_cons, ih, unseen_fitContact, List.foldl_cons]
  have fitted := folded program.inOrder (p.restrict program)
  rw [unseen_restrict] at fitted
  unfold fitTo
  rw [← fitted]
  rfl

end Progress

namespace Play

/-- The story, whatever the player has looked at of it. -/
def unseen (play : Play) : Play := play.revise Progress.unseen

variable {a b : Play}

/- It is made of what is in the mind, the threads, the rest of the progress, the timeline and the events. -/
theorem unseen_of_parts (mind : a.mind = b.mind) (rounds : a.progress.rounds = b.progress.rounds)
    (histories : a.progress.unseen.histories = b.progress.unseen.histories)
    (delay : a.progress.typingDelay = b.progress.typingDelay)
    (remainder : a.progress.remainder = b.progress.remainder) (queue : a.queue = b.queue)
    (events : a.events = b.events) : a.unseen = b.unseen := by
  have whole : ∀ play : Play, play.unseen = ⟨play.mind.program, ⟨play.progress.rounds, play.mind.threads,
      play.progress.unseen.histories, play.mind.unlocked, Table.empty, play.progress.typingDelay,
      play.mind.unlocks, play.mind.endings, [], [], play.mind.values, play.progress.remainder.1,
      play.progress.remainder.2⟩, play.queue, play.mind.epoch, play.mind.indicator, play.events⟩ :=
    fun _ => rfl
  rw [whole, whole, mind, rounds, histories, delay, remainder, queue, events]

theorem unseen_putThread (a : Play) (contact : String) (thread : ThreadState) :
    (a.putThread contact thread).unseen = a.unseen.putThread contact thread := by
  unfold Play.putThread
  dsimp only
  rw [apply_ite unseen]
  rfl

theorem unseen_setUnlocked (a : Play) (contact : String) :
    (a.setUnlocked contact).unseen = a.unseen.setUnlocked contact := by
  unfold Play.setUnlocked
  rw [apply_ite unseen]
  rfl

/- What is said is said to whoever has looked at the thread. -/
theorem unseen_say (same : a.unseen = b.unseen) (contact : String) (saying : Saying) (time : Nat) :
    (a.say contact saying time).unseen = (b.say contact saying time).unseen := by
  have next : a.progress.nextId = b.progress.nextId := congrArg (·.progress.nextId) same
  have events : a.events = b.events := congrArg (·.events) same
  have histories : a.progress.unseen.histories = b.progress.unseen.histories :=
    congrArg (·.progress.histories) same
  have history : (a.progress.history contact).map Message.unread =
      (b.progress.history contact).map Message.unread := by
    rw [← Progress.history_unseen, ← Progress.history_unseen, Progress.history, histories]
    rfl
  have remainder : a.progress.remainder = b.progress.remainder := congrArg (·.progress.remainder) same
  apply unseen_of_parts
  · exact congrArg (·.mind) same
  · exact congrArg (·.progress.rounds) same
  · unfold Progress.unseen at histories ⊢
    unfold Play.say
    dsimp only [Play.announce, Play.revise] at histories ⊢
    rw [Table.map_insert, Table.map_insert, histories, List.map_append, List.map_append, history, next]
  · exact congrArg (·.progress.typingDelay) same
  · exact congrArg (fun rest => (rest.1, rest.2 + 1)) remainder
  · exact congrArg (·.queue) same
  · unfold Play.say Play.announce Play.revise
    dsimp only
    rw [next, events]

/-- Stories on a program that are told alike, whatever has been looked at. -/
def Unseen (program : Program) (_ : Option String) (a b : Play) : Prop :=
  a.program = program ∧ a.unseen = b.unseen

theorem Unseen.wellFormed {program : Program} {entering : Option String}
    (pair : Unseen program entering a b) (formed : program.WellFormed) : a.program.WellFormed := by
  rw [pair.1]
  exact formed

theorem timely_unseen (program : Program) (contact : String) :
    Timely Eq (Unseen program none) contact where
  mind := fun pair => congrArg (·.mind) pair.2
  add := fun same delay => congrArg (· + delay) same
  max := fun first second => congrArg₂ max first second
  say := fun pair same saying => ⟨pair.1, same ▸ unseen_say pair.2 contact saying _⟩
  schedule := fun {_ _ x _} pair same delivery =>
    ⟨pair.1, same ▸ congrArg (fun play => play.schedule contact x delivery) pair.2⟩
  timeFor := fun {_ _ x _} pair same => same ▸ congrArg (fun play => play.timeFor contact x) pair.2

/- No small step depends on what has been looked at. -/
theorem parallel_unseen {program : Program} (formed : program.WellFormed) :
    Parallel program (fun _ _ => True) Eq (Unseen program) where
  formed := formed
  program := And.left
  mind := fun pair => congrArg (·.mind) pair.2
  rounds := fun pair c _ => congrArg (fun play => play.progress.rounds.get? c) pair.2
  reopens := fun _ _ _ _ => trivial
  opens := fun _ _ _ => trivial
  loosen := fun pair _ => pair
  placed := fun {_ _ c} pair key => ⟨pair.1, congrArg (fun play => play.placed c key) pair.2⟩
  erased := fun pair c => ⟨pair.1, congrArg
    (fun play : Play => play.revise fun p => { p with rounds := p.rounds.erase c }) pair.2⟩
  putActive := fun {a _} pair c => ⟨(congrArg Mind.program (mind_putThread a c .active)).trans pair.1,
    by rw [unseen_putThread, unseen_putThread, pair.2]⟩
  putEnded := fun {a _} pair c => ⟨(congrArg Mind.program (mind_putThread a c .ended)).trans pair.1,
    by rw [unseen_putThread, unseen_putThread, pair.2]⟩
  setUnlocked := fun {_ a _} pair c => ⟨(congrArg Mind.program (mind_setUnlocked a c)).trans pair.1,
    by rw [unseen_setUnlocked, unseen_setUnlocked, pair.2]⟩
  setTypingDelay := fun pair delay => ⟨pair.1, congrArg
    (fun play : Play => play.revise fun p => { p with typingDelay := delay }) pair.2⟩
  revise := fun {_ a b f g} pair left right mind remainder => by
    have rounds : (f a.progress).rounds = (g b.progress).rounds := by
      have before : a.progress.rounds = b.progress.rounds := congrArg (·.progress.rounds) pair.2
      have first : (f a.progress).rounds = a.progress.rounds := congrArg (·.2.2.1) (left a.progress)
      have second : (g b.progress).rounds = b.progress.rounds := congrArg (·.2.2.1) (right b.progress)
      rw [first, second, before]
    have delay : (f a.progress).typingDelay = (g b.progress).typingDelay := by
      have before : a.progress.typingDelay = b.progress.typingDelay :=
        congrArg (·.progress.typingDelay) pair.2
      have first : (f a.progress).typingDelay = a.progress.typingDelay :=
        congrArg (·.2.2.2.2) (left a.progress)
      have second : (g b.progress).typingDelay = b.progress.typingDelay :=
        congrArg (·.2.2.2.2) (right b.progress)
      rw [first, second, before]
    have histories : (f a.progress).unseen.histories = (g b.progress).unseen.histories := by
      have before : a.progress.unseen.histories = b.progress.unseen.histories :=
        congrArg (·.progress.histories) pair.2
      have first : (f a.progress).histories = a.progress.histories := congrArg Prod.fst (left a.progress)
      have second : (g b.progress).histories = b.progress.histories :=
        congrArg Prod.fst (right b.progress)
      unfold Progress.unseen at before ⊢
      rw [first, second]
      exact before
    exact ⟨pair.1, unseen_of_parts mind rounds histories delay
      (remainder _ _ (congrArg (·.progress.remainder) pair.2)) (congrArg (·.queue) pair.2)
      (congrArg (·.events) pair.2)⟩
  announce := fun pair event => ⟨pair.1, congrArg (fun play => play.announce event) pair.2⟩
  announceTyping := fun {_ _ x _} pair same contact =>
    ⟨pair.1, same ▸ congrArg (fun play => play.announceTyping contact x) pair.2⟩
  say := fun pair same contact saying => ⟨pair.1, same ▸ unseen_say pair.2 contact saying _⟩
  layOut := fun pair same contact text plan _ _ =>
    (timely_unseen program contact).layOut pair same text plan fun _ =>
      congrArg (·.progress.typingDelay) pair.2

theorem unseen_dropFirst_fire (formed : a.program.WellFormed) (same : a.unseen = b.unseen) (slot : Slot) :
    Unseen a.program none (a.dropFirst.fire slot) (b.dropFirst.fire slot) := by
  have dropped : Unseen a.program none a.dropFirst b.dropFirst :=
    ⟨rfl, congrArg Play.dropFirst same⟩
  exact (parallel_unseen formed).fire dropped (show slot.task = slot.task from rfl) rfl

/- The same tasks come up, and equally many. -/
theorem unseen_fireDue {a b : Play} (formed : a.program.WellFormed) (same : a.unseen = b.unseen) (now : Nat) :
    (a.fireDue now).1.unseen = (b.fireDue now).1.unseen ∧ (a.fireDue now).2 = (b.fireDue now).2 := by
  have queue : a.queue = b.queue := congrArg (·.queue) same
  cases due : a.queue.due? now with
  | none =>
    have due' : b.queue.due? now = none := queue ▸ due
    rw [fireDue_of_none due, fireDue_of_none due']
    exact ⟨same, rfl⟩
  | some slot =>
    have due' : b.queue.due? now = some slot := queue ▸ due
    rw [fireDue_of_some due, fireDue_of_some due']
    have fired := unseen_dropFirst_fire formed same slot
    obtain ⟨ends, count⟩ := unseen_fireDue (fired.wellFormed formed) fired.2 now
    exact ⟨ends, congrArg (· + 1) count⟩
termination_by a.rank now
decreasing_by exact rank_fire_lt due

theorem unseen_fireUpTo (formed : a.program.WellFormed) (same : a.unseen = b.unseen) (limit : Nat) :
    (fireUpTo limit a).1.unseen = (fireUpTo limit b).1.unseen ∧
      (fireUpTo limit a).2 = (fireUpTo limit b).2 := by
  induction limit generalizing a b with
  | zero => exact ⟨same, rfl⟩
  | succ limit ih =>
    have queue : a.queue = b.queue := congrArg (·.queue) same
    unfold fireUpTo
    rw [queue]
    cases b.queue.next? with
    | none => exact ⟨same, rfl⟩
    | some slot =>
      have fired := unseen_dropFirst_fire formed same slot
      obtain ⟨ends, count⟩ := ih (fired.wellFormed formed) fired.2
      exact ⟨ends, congrArg (· + 1) count⟩

theorem unseen_switched (a : Play) (program : Program) :
    (a.switched program).unseen = a.unseen.switched program := by
  have fitted := a.progress.unseen_fitTo program
  have whole : (a.switched program).unseen = { a.nextEpoch with
      program := program
      progress := { (a.progress.fitTo program).unseen with
        values := program.defaults.insertMany (Session.changedVariables a).toList
        unlocks := ∅
        endings := Table.empty
        deliveries := [] } } := rfl
  rw [whole, fitted]
  rfl

/- A message that is read is still a message. -/
theorem unseen_viewed (a : Play) (contact : String) : (a.viewed contact).unseen = a.unseen := by
  unfold viewed unseen Play.revise Progress.unseen
  dsimp only
  cases found : a.progress.histories.get? contact with
  | none => rfl
  | some history =>
    dsimp only
    have unread : Message.unread ∘ (fun m : Message => { m with read := true }) = Message.unread := rfl
    have kept : (a.progress.histories.map (List.map Message.unread)).insert contact
        (history.map Message.unread) = a.progress.histories.map (List.map Message.unread) := by
      apply Table.ext_get?
      intro other
      rw [Table.get?_insert]
      split
      · rename_i own
        rw [own, Table.get?_map, found]
        rfl
      · rfl
    rw [Table.map_insert, List.map_map, unread, kept]

/-- Two plays that a player cannot tell apart by what happens in them: where every thread is, what it
offers, what is on the timeline, and what has been said, read or unread. -/
structure ToldAlike (a b : Play) : Prop where
  threads : a.progress.threads = b.progress.threads
  rounds : a.progress.rounds = b.progress.rounds
  unlocked : a.progress.unlocked = b.progress.unlocked
  values : a.progress.values = b.progress.values
  choices : ∀ c, a.choices c = b.choices c
  queue : a.queue = b.queue
  histories : ∀ c, (a.progress.history c).map Message.unread = (b.progress.history c).map Message.unread

end Play

/-- The player looks at a thread, or takes the notifications. -/
def Operation.looks : Operation → Bool
  | view _ | collectNotifications => true
  | _ => false

namespace Session

open Play

variable {s t : Session} {now : Nat} {operation : Operation}

/-- Sessions whose stories are told alike, whatever the player has looked at. -/
structure Unseen (s t : Session) : Prop where
  story : s.play.unseen = t.play.unseen
  options : s.options = t.options

namespace Unseen

theorem refl (s : Session) : s.Unseen s := ⟨rfl, rfl⟩

theorem symm (same : s.Unseen t) : t.Unseen s := ⟨same.story.symm, same.options.symm⟩

theorem trans {u : Session} (first : s.Unseen t) (second : t.Unseen u) : s.Unseen u :=
  ⟨first.story.trans second.story, first.options.trans second.options⟩

theorem settle (same : s.Unseen t) {start other : Play} (formed : start.program.WellFormed)
    (begun : start.unseen = other.unseen) (now : Nat) :
    (s.settle start now).Unseen (t.settle other now) :=
  ⟨(unseen_fireDue formed begun now).1, same.options⟩

/- What is taken in one session is taken in the other one. -/
theorem taken (same : s.Unseen t) (formed : s.play.program.WellFormed) {start other : Option Play}
    (acted : Option.Rel (Play.Unseen s.play.program none) start other) (now : Nat) :
    ((start.map (s.settle · now)).getD s).Unseen ((other.map (t.settle · now)).getD t) ∧
      (start.map (s.settle · now)).isSome = (other.map (t.settle · now)).isSome := by
  cases acted with
  | none => exact ⟨same, rfl⟩
  | some pair => exact ⟨same.settle (pair.wellFormed formed) pair.2 now, rfl⟩

/- To look at a story leaves it as it is. -/
theorem look (s : Session) (now : Nat) (looks : operation.looks = true) :
    (s.perform now operation).Unseen s := by
  cases operation with
  | view contact =>
    rw [perform, view]
    split
    · exact ⟨unseen_viewed s.play contact, rfl⟩
    · exact refl s
  | collectNotifications =>
    unfold perform collectNotifications
    dsimp only
    split
    · exact refl s
    · exact ⟨rfl, rfl⟩
  | _ => cases looks

theorem ofTick (same : s.Unseen t) (formed : s.play.program.WellFormed) (now : Nat) :
    (s.tick now).1.Unseen (t.tick now).1 ∧ (s.tick now).2 = (t.tick now).2 := by
  obtain ⟨fired, count⟩ := unseen_fireDue formed same.story now
  unfold tick
  dsimp only
  rw [count]
  refine ⟨?_, rfl⟩
  split
  · exact ⟨fired, same.options⟩
  · exact ⟨fired, same.options⟩

theorem ofFlush (same : s.Unseen t) (formed : s.play.program.WellFormed) :
    s.flush.1.Unseen t.flush.1 ∧ s.flush.2 = t.flush.2 := by
  obtain ⟨fired, count⟩ := unseen_fireUpTo formed same.story fireLimit
  unfold flush fireAll
  dsimp only
  rw [count]
  refine ⟨?_, rfl⟩
  split
  · exact ⟨fired, same.options⟩
  · exact ⟨fired, same.options⟩

theorem ofSwitch (same : s.Unseen t) {program : Program} (formed : program.WellFormed) (now : Nat) :
    (s.switchProgram program now).Unseen (t.switchProgram program now) := by
  have switched : (s.play.switched program).unseen = (t.play.switched program).unseen := by
    rw [unseen_switched, unseen_switched, same.story]
  have silent : ∀ play : Play, play.progress.histories.values.all (·.isEmpty) =
      play.unseen.progress.histories.values.all (·.isEmpty) := by
    intro play
    unfold Play.unseen Play.revise Progress.unseen
    rw [Table.values_map, List.all_map]
    congr 1
    exact funext fun messages => List.isEmpty_map.symm
  have pair : Play.Unseen program none (s.play.switched program) (t.play.switched program) :=
    ⟨rfl, switched⟩
  have begun := (parallel_unseen formed).beginStory (rfl : now = now) pair fun _ => trivial
  rw [switchProgram_eq, switchProgram_eq, silent (s.play.switched program),
    silent (t.play.switched program), switched]
  split
  · exact same.settle (begun.wellFormed formed) begun.2 now
  · exact ⟨switched, same.options⟩

theorem ofReset (same : s.Unseen t) (formed : s.play.program.WellFormed) (now : Nat) :
    (s.reset now).Unseen (t.reset now) := by
  have program : s.play.program = t.play.program := congrArg (·.program) same.story
  have silent : Play.Unseen s.play.program none
      (s.play.nextEpoch.revise fun _ => .initial s.play.program s.options.typingDelay)
      (t.play.nextEpoch.revise fun _ => .initial t.play.program t.options.typingDelay) := by
    refine ⟨rfl, ?_⟩
    rw [← program, ← same.options]
    have anew := congrArg (fun play : Play => (play.nextEpoch.revise fun _ =>
      .initial s.play.program s.options.typingDelay).unseen) same.story
    exact anew
  have begun := (parallel_unseen formed).beginStory (rfl : now = now) silent fun _ => trivial
  exact ⟨(unseen_fireDue (begun.wellFormed formed) begun.2 now).1, same.options⟩

/- What is done in both does the same in both. -/
theorem perform (same : s.Unseen t) (formed : s.play.program.WellFormed) (scripted : operation.Scripted)
    (now : Nat) : (s.perform now operation).Unseen (t.perform now operation) := by
  have pair : Play.Unseen s.play.program none s.play t.play := ⟨rfl, same.story⟩
  have parallel := parallel_unseen formed
  cases operation with
  | choose contact index =>
    rw [Session.perform, Session.perform, choose_eq, choose_eq]
    exact (same.taken formed (parallel.choose? rfl pair trivial index) now).1
  | execute contact actions =>
    rw [Session.perform, Session.perform, execute_eq, execute_eq]
    exact (same.taken formed (parallel.execute? rfl pair trivial actions) now).1
  | setVariable name value =>
    have assigned := parallel.assign (rfl : now = now) pair name value
    exact same.settle (assigned.wellFormed formed) assigned.2 now
  | setTypingDelay delay =>
    exact ⟨congrArg (fun play : Play => play.revise fun p => { p with typingDelay := delay }) same.story,
      same.options⟩
  | takeEvents => exact ⟨congrArg (fun play : Play => { play with events := #[] }) same.story, same.options⟩
  | tick => exact (same.ofTick formed now).1
  | flush => exact (same.ofFlush formed).1
  | switchProgram program => exact same.ofSwitch scripted.wellFormed now
  | reset => exact same.ofReset formed now
  | view contact | collectNotifications =>
    exact ((look s now rfl).trans same).trans (look t now rfl).symm

/- What is answered does not depend on where the player has looked, unless the player looks. -/
theorem response (same : s.Unseen t) (formed : s.play.program.WellFormed)
    (quiet : operation.looks = false) (now : Nat) :
    s.response now operation = t.response now operation := by
  have pair : Play.Unseen s.play.program none s.play t.play := ⟨rfl, same.story⟩
  have parallel := parallel_unseen formed
  cases operation with
  | choose contact index =>
    rw [Session.response, Session.response, choose_eq, choose_eq]
    exact congrArg _ (same.taken formed (parallel.choose? rfl pair trivial index) now).2
  | execute contact actions =>
    rw [Session.response, Session.response, execute_eq, execute_eq]
    exact congrArg _ (same.taken formed (parallel.execute? rfl pair trivial actions) now).2
  | tick => exact congrArg _ (same.ofTick formed now).2
  | flush => exact congrArg _ (same.ofFlush formed).2
  | takeEvents =>
    have events : s.play.events = t.play.events := congrArg (·.events) same.story
    rw [Session.response, Session.response, Session.takeEvents, Session.takeEvents, events]
  | view contact | collectNotifications => cases quiet
  | setVariable | setTypingDelay | switchProgram | reset => rfl

end Unseen

/-- What is done, with what it answers, but for the looks of the player. -/
def exchanges (s : Session) (steps : List (Nat × Operation)) : List ((Nat × Operation) × Answer) :=
  (steps.zip (s.responses steps)).filter fun exchange => !exchange.1.2.looks

/- A run goes on in the same way without the looks of the player. -/
theorem Unseen.performAll (same : s.Unseen t) (arises : s.Arises) {steps : List (Nat × Operation)}
    (scripted : ∀ step ∈ steps, step.2.Scripted) :
    (s.performAll steps).Unseen (t.performAll (steps.filter fun step => !step.2.looks)) ∧
      s.exchanges steps = t.exchanges (steps.filter fun step => !step.2.looks) := by
  induction steps generalizing s t with
  | nil => exact ⟨same, rfl⟩
  | cons step rest ih =>
    obtain ⟨now, operation⟩ := step
    obtain ⟨first, others⟩ := List.forall_mem_cons.1 scripted
    have later := arises.perform now first
    cases looks : operation.looks with
    | true =>
      obtain ⟨ends, answers⟩ := ih ((look s now looks).trans same) later others
      rw [List.filter_cons_of_neg (by simp [looks])]
      refine ⟨ends, Eq.trans ?_ answers⟩
      exact List.filter_cons_of_neg (by simp [looks])
    | false =>
      have formed := arises.coherent.formed
      obtain ⟨ends, answers⟩ := ih (same.perform formed first now) later others
      have answer := same.response formed looks now
      rw [List.filter_cons_of_pos (by simp [looks])]
      refine ⟨ends, ?_⟩
      unfold exchanges at answers ⊢
      rw [responses, responses, List.zip_cons_cons, List.zip_cons_cons,
        List.filter_cons_of_pos (by simp [looks]), List.filter_cons_of_pos (by simp [looks]), answers,
        answer]

theorem Unseen.toldAlike (same : s.Unseen t) (formed : s.play.program.WellFormed) :
    ToldAlike s.play t.play where
  threads := congrArg (·.progress.threads) same.story
  rounds := congrArg (·.progress.rounds) same.story
  unlocked := congrArg (·.progress.unlocked) same.story
  values := congrArg (·.progress.values) same.story
  choices := (parallel_unseen formed).choices ⟨rfl, same.story⟩
  queue := congrArg (·.queue) same.story
  histories := fun c => by
    rw [← Progress.history_unseen, ← Progress.history_unseen]
    exact congrArg (·.progress.history c) same.story

/- Two runs from one session that differ in where the player looks get the same answers to whatever else is
   done, and leave the same story. -/
theorem looking_leaves_story {program : Program} (known : program.Scripted) (options : Options)
    (store : Store) (now : Nat) {first second : List (Nat × Operation)}
    (scripted : ∀ step ∈ first, step.2.Scripted) (others : ∀ step ∈ second, step.2.Scripted)
    (same : first.filter (fun step => !step.2.looks) = second.filter fun step => !step.2.looks) :
    (start program options store now).exchanges first =
        (start program options store now).exchanges second ∧
      ToldAlike ((start program options store now).performAll first).play
        ((start program options store now).performAll second).play := by
  have arises := Arises.start options store now known
  obtain ⟨ends, answers⟩ := (Unseen.refl _).performAll arises scripted
  obtain ⟨ends', answers'⟩ := (Unseen.refl _).performAll arises others
  rw [same] at ends answers
  exact ⟨answers.trans answers'.symm,
    (ends.trans ends'.symm).toldAlike (arises.performAll scripted).coherent.formed⟩

/- A player who looks at the thread before a choice, while the reply is typed and behind it. -/
theorem looking_leaves_introducing : ∃ program : Program, program.Scripted ∧
    (∀ step ∈ [(1000, Operation.choose "A" 0), (4000, .tick)], step.2.Scripted) ∧
    (∀ step ∈ [(1000, Operation.view "A"), (1000, .choose "A" 0), (2000, .collectNotifications),
      (3000, .view "A"), (4000, .tick), (5000, .view "B")], step.2.Scripted) ∧
    (start program {} .empty 1000).exchanges [(1000, .choose "A" 0), (4000, .tick)] =
      (start program {} .empty 1000).exchanges [(1000, .view "A"), (1000, .choose "A" 0),
        (2000, .collectNotifications), (3000, .view "A"), (4000, .tick), (5000, .view "B")] ∧
    ToldAlike
      ((start program {} .empty 1000).performAll [(1000, .choose "A" 0), (4000, .tick)]).play
      ((start program {} .empty 1000).performAll [(1000, .view "A"), (1000, .choose "A" 0),
        (2000, .collectNotifications), (3000, .view "A"), (4000, .tick), (5000, .view "B")]).play := by
  have known : (compile introducing).program.Scripted := ⟨introducing, rfl⟩
  have scripted : ∀ step ∈ [(1000, Operation.choose "A" 0), (4000, .tick)], step.2.Scripted := by
    simp [Operation.Scripted]
  have others : ∀ step ∈ [(1000, Operation.view "A"), (1000, .choose "A" 0),
      (2000, .collectNotifications), (3000, .view "A"), (4000, .tick), (5000, .view "B")],
      step.2.Scripted := by
    simp [Operation.Scripted]
  exact ⟨_, known, scripted, others, looking_leaves_story known {} .empty 1000 scripted others rfl⟩

end Session
end ChatStory
