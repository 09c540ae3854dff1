import ChatStory.Proofs.Session.Depth

/-!
Stories in parallel. What is done in a story depends on little of it: on its program, on what is known and
asked for, on the rounds of the threads that are open, and on what is laid out for whom. So a relation
between two stories that is kept when the same small step is taken in both is kept by everything
that is made of such steps, a task that is fired and an input included.
-/
namespace ChatStory

/-- What has been said, in which state and round each thread is, who is unlocked, and how long a reply is
typed. -/
def Progress.threadwise (p : Progress) : Table String (List Message) × Table String ThreadState ×
    Table String RoundKey × NameSet × Nat :=
  (p.histories, p.threads, p.rounds, p.unlocked, p.typingDelay)

/-- What is noted of the contacts, and how the next message is numbered. -/
def Progress.remainder (p : Progress) : Table String String × Nat := (p.statuses, p.nextId)

namespace Play

/-- What bears on what happens in a story, apart from the rounds of its threads and from the timeline. -/
structure Mind where
  program : Program
  epoch : Nat
  indicator : Nat
  threads : Table String ThreadState
  unlocked : NameSet
  unlocks : Table String (List String)
  endings : NameSet
  values : Variables

def mind (play : Play) : Mind where
  program := play.program
  epoch := play.epoch
  indicator := play.indicator
  threads := play.progress.threads
  unlocked := play.progress.unlocked
  unlocks := play.progress.unlocks
  endings := play.progress.endings
  values := play.progress.values

theorem mind_putThread (a : Play) (contact : String) (thread : ThreadState) :
    (a.putThread contact thread).mind =
      { a.mind with threads := a.mind.threads.insert contact thread } := by
  rw [putThread_eq]
  rfl

theorem mind_setUnlocked (a : Play) (contact : String) :
    (a.setUnlocked contact).mind = { a.mind with unlocked := a.mind.unlocked.add contact } := by
  rw [setUnlocked_eq]
  rfl

/-- Two stories in which the same is known and asked for, and whose open threads are in the same rounds. While
a contact is entered, its thread may be in another round in each. -/
structure Alike (program : Program) (entering : Option String) (a b : Play) : Prop where
  program : a.program = program
  mind : a.mind = b.mind
  rounds : ∀ c, entering ≠ some c → a.progress.thread? c = some .active →
    a.progress.rounds.get? c = b.progress.rounds.get? c

namespace Alike

variable {program : Program} {entering : Option String} {a b : Play}

theorem thread? (alike : Alike program entering a b) (c : String) :
    a.progress.thread? c = b.progress.thread? c :=
  congrArg (fun mind => mind.threads.get? c) alike.mind

theorem loosen (alike : Alike program none a b) (c : String) : Alike program (some c) a b :=
  { alike with rounds := fun d _ => alike.rounds d nofun }

theorem placed {contact : String} (alike : Alike program (some contact) a b) (key : RoundKey) :
    Alike program none (a.placed contact key) (b.placed contact key) := by
  refine { alike with rounds := fun c _ active => ?_ }
  change (a.progress.rounds.insert contact key).get? c = (b.progress.rounds.insert contact key).get? c
  rw [Table.get?_insert, Table.get?_insert]
  split
  · rfl
  · rename_i other
    exact alike.rounds c (fun same => other (Option.some.inj same).symm) active

theorem erased (alike : Alike program none a b) (contact : String) :
    Alike program none (a.revise fun p => { p with rounds := p.rounds.erase contact })
      (b.revise fun p => { p with rounds := p.rounds.erase contact }) := by
  refine { alike with rounds := fun c free active => ?_ }
  change (a.progress.rounds.erase contact).get? c = (b.progress.rounds.erase contact).get? c
  rw [Table.get?_erase, Table.get?_erase, alike.rounds c free active]

/- A thread that is opened is about to be put into a round. -/
theorem putThread (alike : Alike program none a b) (contact : String) {thread : ThreadState}
    (opens : thread = .active → entering = some contact) :
    Alike program entering (a.putThread contact thread) (b.putThread contact thread) := by
  have mind : (a.putThread contact thread).mind = (b.putThread contact thread).mind := by
    rw [mind_putThread, mind_putThread, alike.mind]
  rw [putThread_eq a, putThread_eq b] at mind ⊢
  refine ⟨alike.program, mind, fun c free active => ?_⟩
  change (a.progress.threads.insert contact thread).get? c = some .active at active
  rw [Table.get?_insert] at active
  split at active
  · rename_i own
    exact absurd (own ▸ opens (Option.some.inj active)) free
  · exact alike.rounds c (Option.some_ne_none c).symm active

theorem setUnlocked (alike : Alike program entering a b) (contact : String) :
    Alike program entering (a.setUnlocked contact) (b.setUnlocked contact) := by
  have mind : (a.setUnlocked contact).mind = (b.setUnlocked contact).mind := by
    rw [mind_setUnlocked, mind_setUnlocked, alike.mind]
  rw [setUnlocked_eq a, setUnlocked_eq b] at mind ⊢
  exact ⟨alike.program, mind, alike.rounds⟩

theorem revise (alike : Alike program entering a b) {f g : Progress → Progress}
    (left : ∀ p, (f p).threadwise = p.threadwise) (right : ∀ p, (g p).threadwise = p.threadwise)
    (mind : (a.revise f).mind = (b.revise g).mind) :
    Alike program entering (a.revise f) (b.revise g) := by
  have rounds : ∀ {h : Progress → Progress}, (∀ p, (h p).threadwise = p.threadwise) →
      ∀ p, (h p).rounds = p.rounds := fun same p => congrArg (·.2.2.1) (same p)
  have threads : (f a.progress).threads = a.progress.threads := congrArg (·.2.1) (left a.progress)
  refine ⟨alike.program, mind, fun c free active => ?_⟩
  change (f a.progress).threads.get? c = some .active at active
  rw [threads] at active
  change (f a.progress).rounds.get? c = (g b.progress).rounds.get? c
  rw [rounds left, rounds right]
  exact alike.rounds c free active

end Alike

/-- A relation between stories, and one between the times at which something is done in them, that are kept
when something is said by a contact or put on the timeline for it. -/
structure Timely (meets : Nat → Nat → Prop) (pairs : Play → Play → Prop) (contact : String) : Prop where
  mind : ∀ {a b}, pairs a b → a.mind = b.mind
  add : ∀ {x y}, meets x y → ∀ delay, meets (x + delay) (y + delay)
  max : ∀ {x y z w}, meets x y → meets z w → meets (max x z) (max y w)
  say : ∀ {a b x y}, pairs a b → meets x y → ∀ saying,
    pairs (a.say contact saying x) (b.say contact saying y)
  schedule : ∀ {a b x y}, pairs a b → meets x y → ∀ delivery,
    pairs (a.schedule contact x delivery) (b.schedule contact y delivery)
  timeFor : ∀ {a b x y}, pairs a b → meets x y → meets (a.timeFor contact x) (b.timeFor contact y)

namespace Timely

variable {meets : Nat → Nat → Prop} {pairs : Play → Play → Prop} {contact : String} {a b : Play} {x y : Nat}
  (timely : Timely meets pairs contact)

include timely

/- A reply that is typed is typed equally long in both. -/
theorem reply (pair : pairs a b) (meet : meets x y) (text : String) {tempo : Tempo}
    (paced : tempo = .typed → a.progress.typingDelay = b.progress.typingDelay) :
    pairs (a.reply contact text x tempo).1 (b.reply contact text y tempo).1 ∧
      meets (a.reply contact text x tempo).2 (b.reply contact text y tempo).2 := by
  cases tempo with
  | immediate =>
    simp only [Play.reply]
    refine ⟨?_, meet⟩
    split
    · exact pair
    · exact timely.say pair meet _
  | typed =>
    have delay : a.progress.typingDelay = b.progress.typingDelay := paced rfl
    have indicator : a.indicator = b.indicator := congrArg Mind.indicator (timely.mind pair)
    have typing : pairs
        (if 0 < b.progress.typingDelay then
          a.schedule contact (x + b.progress.typingDelay) .typing else a)
        (if 0 < b.progress.typingDelay then
          b.schedule contact (y + b.progress.typingDelay) .typing else b) := by
      split
      · exact timely.schedule pair (timely.add meet _) .typing
      · exact pair
    have arrives : meets
        (if 0 < b.progress.typingDelay then x + b.progress.typingDelay + b.indicator else x)
        (if 0 < b.progress.typingDelay then y + b.progress.typingDelay + b.indicator else y) := by
      split
      · exact timely.add (timely.add meet _) _
      · exact meet
    simp only [Play.reply, delay, indicator]
    refine ⟨?_, arrives⟩
    split
    · exact typing
    · exact timely.schedule typing arrives (.reply text)

theorem schedulePayloads (pair : pairs a b) {z w : Nat} (meet : meets x y) (last : meets z w)
    (payloads : List Action) :
    pairs (a.schedulePayloads contact x z payloads).1 (b.schedulePayloads contact y w payloads).1 ∧
      meets (a.schedulePayloads contact x z payloads).2
        (b.schedulePayloads contact y w payloads).2 := by
  induction payloads generalizing a b z w with
  | nil => exact ⟨pair, last⟩
  | cons action rest ih =>
    have time := timely.add meet action.delay
    exact ih (timely.schedule pair time (.payload action)) (timely.max last (timely.timeFor pair time))

theorem layOut (pair : pairs a b) (meet : meets x y) (text : String) (plan : Plan) {tempo : Tempo}
    (paced : tempo = .typed → a.progress.typingDelay = b.progress.typingDelay) :
    pairs (a.layOut contact text plan x tempo) (b.layOut contact text plan y tempo) := by
  obtain ⟨replied, arrives⟩ := timely.reply pair meet text paced
  obtain ⟨laid, ends⟩ := timely.schedulePayloads replied arrives arrives plan.payloads
  have unlocks := congrArg Mind.unlocks (timely.mind laid)
  have endings := congrArg Mind.endings (timely.mind laid)
  simp only [Play.mind] at unlocks endings
  unfold Play.layOut
  dsimp only
  rw [unlocks, endings]
  split
  · exact timely.schedule laid (timely.max ends (timely.add arrives _)) .notices
  · exact laid

end Timely

/-- A relation between stories with a program, and one between the times at which something is done in them,
that are kept by small steps, as long as nobody is entered but those who may be, at the tempo at which
they may be. While a contact is entered, and before its thread is put into a round, its round is
left open. -/
structure Parallel (program : Program) (may : Tempo → String → Prop) (meets : Nat → Nat → Prop)
    (pairs : Option String → Play → Play → Prop) : Prop where
  formed : program.WellFormed
  program : ∀ {entering a b}, pairs entering a b → a.program = program
  mind : ∀ {entering a b}, pairs entering a b → a.mind = b.mind
  rounds : ∀ {a b}, pairs none a b → ∀ c, a.progress.thread? c = some .active →
    a.progress.rounds.get? c = b.progress.rounds.get? c
  reopens : ∀ {a b}, pairs none a b → ∀ before, ∀ entry ∈ a.nowOpen before, may .typed entry.1
  opens : ∀ {a b}, pairs none a b → ∀ c, a.canUnlock c = true → may .immediate c
  loosen : ∀ {a b}, pairs none a b → ∀ c, pairs (some c) a b
  placed : ∀ {a b c}, pairs (some c) a b → ∀ key, pairs none (a.placed c key) (b.placed c key)
  erased : ∀ {a b}, pairs none a b → ∀ c,
    pairs none (a.revise fun p => { p with rounds := p.rounds.erase c })
      (b.revise fun p => { p with rounds := p.rounds.erase c })
  putActive : ∀ {a b}, pairs none a b → ∀ c,
    pairs (some c) (a.putThread c .active) (b.putThread c .active)
  putEnded : ∀ {a b}, pairs none a b → ∀ c, pairs none (a.putThread c .ended) (b.putThread c .ended)
  setUnlocked : ∀ {entering a b}, pairs entering a b → ∀ c,
    pairs entering (a.setUnlocked c) (b.setUnlocked c)
  setTypingDelay : ∀ {a b}, pairs none a b → ∀ delay,
    pairs none (a.revise fun p => { p with typingDelay := delay })
      (b.revise fun p => { p with typingDelay := delay })
  revise : ∀ {entering a b f g}, pairs entering a b → (∀ p, (f p).threadwise = p.threadwise) →
    (∀ p, (g p).threadwise = p.threadwise) → (a.revise f).mind = (b.revise g).mind →
    (∀ p q, p.remainder = q.remainder → (f p).remainder = (g q).remainder) →
    pairs entering (a.revise f) (b.revise g)
  announce : ∀ {entering a b}, pairs entering a b → ∀ event,
    pairs entering (a.announce event) (b.announce event)
  announceTyping : ∀ {a b x y}, pairs none a b → meets x y → ∀ contact,
    pairs none (a.announceTyping contact x) (b.announceTyping contact y)
  say : ∀ {a b x y}, pairs none a b → meets x y → ∀ contact saying,
    pairs none (a.say contact saying x) (b.say contact saying y)
  layOut : ∀ {a b x y}, pairs none a b → meets x y → ∀ contact text plan tempo, may tempo contact →
    pairs none (a.layOut contact text plan x tempo) (b.layOut contact text plan y tempo)

namespace Parallel

variable {program : Program} {may : Tempo → String → Prop} {meets : Nat → Nat → Prop}
  {pairs : Option String → Play → Play → Prop} {entering : Option String} {a b : Play} {x y : Nat}

section Reading

variable (parallel : Parallel program may meets pairs) (pair : pairs entering a b)

include parallel pair

theorem program_eq : a.program = b.program := congrArg Mind.program (parallel.mind pair)

theorem values : a.progress.values = b.progress.values := congrArg Mind.values (parallel.mind pair)

theorem unlocked : a.progress.unlocked = b.progress.unlocked :=
  congrArg Mind.unlocked (parallel.mind pair)

theorem unlocks : a.progress.unlocks = b.progress.unlocks :=
  congrArg Mind.unlocks (parallel.mind pair)

theorem endings : a.progress.endings = b.progress.endings :=
  congrArg Mind.endings (parallel.mind pair)

theorem thread? (contact : String) : a.progress.thread? contact = b.progress.thread? contact :=
  congrArg (fun mind => mind.threads.get? contact) (parallel.mind pair)

theorem isClosed (contact : String) : a.progress.isClosed contact = b.progress.isClosed contact := by
  rw [Progress.isClosed, Progress.isClosed, parallel.thread? pair]

theorem closedThreads : a.closedThreads = b.closedThreads :=
  congrArg (fun mind => mind.threads.values.countP (·.isClosed)) (parallel.mind pair)

theorem evaluation (round : Round) : a.evaluation round = b.evaluation round :=
  congrArg round.evaluation (parallel.values pair)

theorem nowOpen (before : Variables) : a.nowOpen before = b.nowOpen before := by
  unfold Play.nowOpen
  rw [parallel.program_eq pair, parallel.values pair]
  simp only [parallel.isClosed pair]

theorem target? (contact : String) (choice : Choice) :
    a.target? contact choice = b.target? contact choice := by
  unfold Play.target?
  rw [parallel.program_eq pair, parallel.values pair]

/- A change of what is known or asked for, to be told apart by the mind only. -/
theorem change {f : Progress → Progress} (follow : Mind → Mind)
    (same : ∀ play : Play, (play.revise f).mind = follow play.mind)
    (threadwise : ∀ p, (f p).threadwise = p.threadwise)
    (remainder : ∀ p q, p.remainder = q.remainder → (f p).remainder = (f q).remainder) :
    pairs entering (a.revise f) (b.revise f) :=
  parallel.revise pair threadwise threadwise (by rw [same, same, parallel.mind pair]) remainder

theorem dropEnding (contact : String) :
    pairs entering (a.revise fun p => { p with endings := p.endings.remove contact })
      (b.revise fun p => { p with endings := p.endings.remove contact }) :=
  parallel.change pair (fun mind => { mind with endings := mind.endings.remove contact })
    (fun _ => rfl) (fun _ => rfl) fun _ _ => id

end Reading

section Cascade

variable {again : Reopening} (parallel : Parallel program may meets pairs)

include parallel

theorem choices (pair : pairs none a b) (contact : String) :
    a.choices contact = b.choices contact := by
  unfold Play.choices
  rw [parallel.thread? pair]
  split
  · rename_i active
    unfold roundOf?
    rw [parallel.rounds pair contact (by rw [parallel.thread? pair, active]), parallel.program_eq pair]
    simp only [parallel.evaluation pair]
  · rfl

theorem reopened (pair : pairs none a b) (contact : String) :
    pairs (some contact) (a.reopened contact) (b.reopened contact) :=
  parallel.setUnlocked (parallel.putActive (parallel.dropEnding pair contact) contact) contact

theorem finishThread (pair : pairs none a b) (meet : meets x y) (contact : String) :
    pairs none (a.finishThread contact x) (b.finishThread contact y) := by
  unfold Play.finishThread
  rw [parallel.thread? pair]
  split
  · exact pair
  · exact parallel.putEnded (parallel.say pair meet contact .ofEnd) contact

omit parallel

theorem foldl {α : Type} {step other : Play → α → Play} {items : List α}
    (each : ∀ {a b}, pairs none a b → ∀ item ∈ items, pairs none (step a item) (other b item))
    (pair : pairs none a b) : pairs none (items.foldl step a) (items.foldl other b) := by
  induction items generalizing a b with
  | nil => exact pair
  | cons item rest ih =>
    apply ih
    · exact fun pair other member => each pair other (List.mem_cons_of_mem item member)
    · exact each pair item List.mem_cons_self

/-- Reopening a thread in one of its rounds keeps what is parallel. -/
def Keeps (program : Program) (may : Tempo → String → Prop) (meets : Nat → Nat → Prop)
    (pairs : Option String → Play → Play → Prop) (again : Reopening) : Prop :=
  ∀ {a b x y}, pairs none a b → meets x y → ∀ contact key,
    (program.round? contact key).isSome = true → may .typed contact →
    pairs none (again a contact key x) (again b contact key y)

include parallel

variable (keeps : Keeps program may meets pairs again)

include keeps

theorem assignWith (pair : pairs none a b) (meet : meets x y) (name : String) (value : Value) :
    pairs none (a.assignWith again name value x) (b.assignWith again name value y) := by
  unfold Play.assignWith
  dsimp only
  rw [parallel.values pair]
  split
  · exact pair
  · have valued := parallel.change pair
      (f := fun p => { p with values := b.progress.values.insert name value })
      (fun mind => { mind with values := b.progress.values.insert name value }) (fun _ => rfl)
      (fun _ => rfl) fun _ _ => id
    have assigned := parallel.announce valued (.variableChanged name value)
    rw [parallel.nowOpen assigned]
    refine Parallel.foldl (fun pair entry member => ?_) assigned
    rw [← parallel.nowOpen assigned] at member
    have round := round_of_nowOpen (by rw [parallel.program assigned]; exact parallel.formed) member
    rw [parallel.program assigned] at round
    exact keeps pair meet entry.1 entry.2 round (parallel.reopens assigned _ entry member)

theorem effectWith? (pair : pairs none a b) (meet : meets x y) (contact : String) (effect : Effect) :
    Option.Rel (pairs none) (a.effectWith? again contact x effect)
      (b.effectWith? again contact y effect) := by
  have same := parallel.program_eq pair
  cases effect with
  | setVariable name value => exact .some (parallel.assignWith keeps pair meet name value)
  | unlockContact target =>
    simp only [Play.effectWith?, same]
    split
    · exact .some (parallel.change pair (fun mind => { mind with
        unlocks := mind.unlocks.insert contact (mind.unlocks.getD contact [] ++ [target]) })
        (fun _ => rfl) (fun _ => rfl) fun _ _ => id)
    · exact .none
  | endThread =>
    exact .some (parallel.change pair (fun mind => { mind with endings := mind.endings.add contact })
      (fun _ => rfl) (fun _ => rfl) fun _ _ => id)
  | delayedMessage text target =>
    simp only [Play.effectWith?, same]
    split
    · exact .some (parallel.say pair meet _ _)
    · exact .none
  | sendPhoto media caption | sendVideo media caption | dropPin pin =>
    exact .some (parallel.say pair meet contact _)
  | typingIndicator duration => exact .some (parallel.announceTyping pair meet contact)
  | setTypingDelay delay => exact .some (parallel.setTypingDelay pair delay)
  | setContactStatus target status =>
    simp only [Play.effectWith?, same]
    split
    · refine .some (parallel.change pair id (fun _ => rfl) (fun _ => rfl) fun p q same => ?_)
      have statuses : p.statuses = q.statuses := congrArg Prod.fst same
      have next : p.nextId = q.nextId := congrArg Prod.snd same
      rw [Progress.remainder, Progress.remainder, statuses, next]
    · exact .none
  | showNotification title text =>
    have same : a.mind = b.mind := parallel.mind pair
    exact .some (parallel.revise pair (fun _ => rfl) (fun _ => rfl) same fun _ _ => id)
  | openThread target =>
    simp only [Play.effectWith?, same, parallel.unlocked pair]
    split
    · exact .some (parallel.change pair id (fun _ => rfl) (fun _ => rfl) fun _ _ => id)
    · exact .none
  | vibrate duration | callEmergency | needCode | triggerCall number => exact .some pair

theorem runWith (pair : pairs none a b) (meet : meets x y) (contact : String) (action : Action) :
    pairs none (a.runWith again contact action x) (b.runWith again contact action y) := by
  have done := parallel.effectWith? keeps pair meet contact action.effect
  unfold Play.runWith
  generalize a.effectWith? again contact x action.effect = first at done
  generalize b.effectWith? again contact y action.effect = second at done
  cases done with
  | none => exact pair
  | some done =>
    dsimp only
    split
    · exact done
    · exact parallel.announce done _

theorem planWith (pair : pairs none a b) (meet : meets x y) (contact : String) (actions : List Action) :
    pairs none (a.planWith again contact x actions).1 (b.planWith again contact y actions).1 ∧
      (a.planWith again contact x actions).2 = (b.planWith again contact y actions).2 := by
  induction actions generalizing a b with
  | nil => exact ⟨pair, rfl⟩
  | cons action rest ih =>
    obtain ⟨ran, plans⟩ := ih (parallel.runWith keeps pair meet contact action)
    obtain ⟨idle, others⟩ := ih pair
    simp only [Play.planWith]
    split
    · rw [plans]
      exact ⟨ran, rfl⟩
    · split
      · rw [others]
        exact ⟨idle, rfl⟩
      · exact ⟨ran, plans⟩

/- The thread may be in different rounds before it is put into the one that is entered. -/
theorem enterWith {contact : String} (pair : pairs (some contact) a b) (meet : meets x y)
    {key : RoundKey} (found : (program.round? contact key).isSome = true) {tempo : Tempo}
    (allowed : may tempo contact) (leading : Option Action) :
    pairs none (a.enterWith again contact key x tempo leading)
      (b.enterWith again contact key y tempo leading) := by
  obtain ⟨round, here⟩ := Option.isSome_iff_exists.1 found
  rw [← parallel.program pair] at here
  have there : b.program.round? contact key = some round := by
    rw [← parallel.program_eq pair]
    exact here
  have assigned : pairs none
      ((b.evaluation round).assignments.foldl
        (fun play (s : Assignment) => play.assignWith again s.name s.value x) (a.placed contact key))
      ((b.evaluation round).assignments.foldl
        (fun play (s : Assignment) => play.assignWith again s.name s.value y) (b.placed contact key)) :=
    Parallel.foldl (fun pair s _ => parallel.assignWith keeps pair meet s.name s.value)
      (parallel.placed pair key)
  obtain ⟨planned, plans⟩ := parallel.planWith keeps assigned meet contact
    (leading.toList ++ (b.evaluation round).actions)
  rw [enterWith_eq again here, enterWith_eq again there, prepared, prepared, parallel.evaluation pair]
  unfold Play.placed at planned plans
  rw [plans]
  exact parallel.layOut planned meet contact _ _ tempo allowed

omit keeps

theorem keeps_reopen (depth : Nat) : Keeps program may meets pairs (reopen depth) := by
  induction depth with
  | zero => exact fun pair _ _ _ _ _ => pair
  | succ depth ih =>
    intro a b x y pair meet contact key found allowed
    rw [reopen_succ, reopen_succ, parallel.isClosed pair]
    split
    · exact parallel.enterWith ih (parallel.reopened pair contact) meet found allowed none
    · exact pair

end Cascade

section Firing

variable (parallel : Parallel program may meets pairs) (meet : meets x y)

include parallel meet

theorem assign (pair : pairs none a b) (name : String) (value : Value) :
    pairs none (a.assign name value x) (b.assign name value y) := by
  unfold Play.assign
  rw [parallel.closedThreads pair]
  exact parallel.assignWith (parallel.keeps_reopen _) pair meet name value

theorem run (pair : pairs none a b) (contact : String) (action : Action) :
    pairs none (a.run contact action x) (b.run contact action y) := by
  unfold Play.run
  rw [parallel.closedThreads pair]
  exact parallel.runWith (parallel.keeps_reopen _) pair meet contact action

theorem plan (pair : pairs none a b) (contact : String) (actions : List Action) :
    pairs none (a.plan contact actions x).1 (b.plan contact actions y).1 ∧
      (a.plan contact actions x).2 = (b.plan contact actions y).2 := by
  unfold Play.plan
  rw [parallel.closedThreads pair]
  exact parallel.planWith (parallel.keeps_reopen _) pair meet contact actions

theorem enter {contact : String} (pair : pairs (some contact) a b) {key : RoundKey}
    (found : (program.round? contact key).isSome = true) {tempo : Tempo} (allowed : may tempo contact)
    (leading : Option Action) :
    pairs none (a.enter contact key x tempo leading) (b.enter contact key y tempo leading) := by
  unfold Play.enter
  rw [parallel.closedThreads pair]
  exact parallel.enterWith (parallel.keeps_reopen _) pair meet found allowed leading

theorem beginStory (pair : pairs none a b) (allowed : ∀ contact, may .immediate contact) :
    pairs none (a.beginStory x) (b.beginStory y) := by
  unfold Play.beginStory
  rw [← parallel.program_eq pair]
  cases opens : a.program.opening? with
  | none => exact pair
  | some contact =>
    have formed : a.program.WellFormed := by
      rw [parallel.program pair]
      exact parallel.formed
    obtain ⟨key, first, found⟩ := formed.firstKey (List.mem_of_find?_eq_some opens)
    rw [parallel.program pair] at found
    dsimp only
    rw [first]
    exact parallel.enter meet (parallel.loosen pair contact.name) found (allowed contact.name) none

theorem unlock (pair : pairs none a b) (contact target : String) :
    pairs none (a.unlock contact target x) (b.unlock contact target y) := by
  unfold Play.unlock
  rw [← parallel.program_eq pair, ← parallel.unlocked pair, ← parallel.thread? pair]
  cases here : a.program.contact? target with
  | none => exact pair
  | some entry =>
    dsimp only
    split
    · exact pair
    · rename_i free
      have can : a.canUnlock target = true := by
        rw [canUnlock, Bool.eq_false_iff.2 free]
        rfl
      have formed : a.program.WellFormed := by
        rw [parallel.program pair]
        exact parallel.formed
      have own := formed.inOrder_of_contact here
      obtain ⟨key, first, found⟩ := formed.firstKey own
      have name : entry.name = target := formed.names target entry here
      rw [name, parallel.program pair] at found
      have told := parallel.announce (parallel.putActive (parallel.setUnlocked
        (parallel.say pair meet contact (.ofUnlock target)) target) target)
        (.actionExecuted contact { effect := .unlockContact target })
      rw [first]
      exact parallel.enter meet told found (parallel.opens pair target can) none

theorem endPending (pair : pairs none a b) (contact : String) :
    pairs none (a.endPending contact x) (b.endPending contact y) := by
  unfold Play.endPending
  rw [parallel.endings pair, parallel.thread? pair]
  split
  · have finished := parallel.finishThread (parallel.dropEnding pair contact) meet contact
    dsimp only
    split
    · exact finished
    · exact parallel.announce finished _
  · exact pair

theorem deliverHeld (pair : pairs none a b) (contact : String) :
    pairs none (a.deliverHeld contact x) (b.deliverHeld contact y) := by
  have taken := parallel.change pair (f := fun p => { p with unlocks := p.unlocks.erase contact })
    (fun mind => { mind with unlocks := mind.unlocks.erase contact }) (fun _ => rfl) (fun _ => rfl)
    fun _ _ => id
  unfold Play.deliverHeld
  dsimp only
  rw [parallel.unlocks pair]
  apply parallel.endPending meet
  exact Parallel.foldl (fun pair target _ => parallel.unlock meet pair contact target) taken

theorem follow (pair : pairs none a b) {contact : String} (allowed : may .typed contact)
    (choice : Choice) :
    pairs none (a.follow contact choice x) (b.follow contact choice y) := by
  unfold Play.follow
  rw [← parallel.target? pair]
  cases leads : a.target? contact choice with
  | some key =>
    obtain ⟨round, found, _⟩ := round_of_target leads
    rw [parallel.program pair] at found
    exact parallel.enter meet (parallel.loosen pair contact) (Option.isSome_of_eq_some found) allowed
      choice.action
  | none => exact parallel.finishThread (parallel.erased pair contact) meet contact

theorem choose? (pair : pairs none a b) {contact : String} (allowed : may .typed contact)
    (index : Nat) :
    Option.Rel (pairs none) (a.choose? contact index x) (b.choose? contact index y) := by
  rw [choose?_eq, choose?_eq, parallel.choices pair]
  cases (b.choices contact)[index]? with
  | none => exact .none
  | some choice =>
    exact .some (parallel.follow meet (parallel.say pair meet contact (.ofChoice choice)) allowed choice)

theorem execute? (pair : pairs none a b) {contact : String} (allowed : may .immediate contact)
    (actions : List Action) :
    Option.Rel (pairs none) (a.execute? contact actions x) (b.execute? contact actions y) := by
  obtain ⟨planned, plans⟩ := parallel.plan meet pair contact actions
  unfold Play.execute?
  rw [parallel.program_eq pair, plans]
  split
  · exact .some (parallel.layOut planned meet contact "" _ .immediate allowed)
  · exact .none

omit meet

/- The same task does the same in both. -/
theorem fire (pair : pairs none a b) {slot other : Slot} (task : slot.task = other.task)
    (meet : meets slot.time other.time) : pairs none (a.fire slot) (b.fire other) := by
  have epoch : a.epoch = b.epoch := congrArg Mind.epoch (parallel.mind pair)
  unfold Play.fire
  rw [epoch, task]
  split
  · cases other.task.delivery with
    | typing => exact parallel.announceTyping pair meet _
    | reply text => exact parallel.say pair meet _ _
    | payload action => exact parallel.run meet pair other.task.contact action
    | notices => exact parallel.deliverHeld meet pair other.task.contact
  · exact pair

end Firing

end Parallel
end Play
end ChatStory
