import ChatStory.Proofs.Session.Computed
import ChatStory.Proofs.Session.Opening
import Mathlib.Data.List.Chain

/-!
Which contacts are locked. A contact is unlocked when its thread is opened for the first time, no thread
is locked again, and a thread that has ended is opened by a satisfied condition only, unless somebody
ends the thread of a contact that was never unlocked.
-/
namespace ChatStory

namespace Play

/-- The contacts that are unlocked are those whose threads are not locked. -/
def Locking (play : Play) : Prop := ∀ c, play.program.has c = true →
  (play.progress.unlocked.has c = true ↔ play.progress.thread? c ≠ some .locked)

/-- No thread that was not locked is locked now. -/
def Forward (a b : Play) : Prop :=
  ∀ c, a.progress.thread? c ≠ some .locked → b.progress.thread? c ≠ some .locked

/-- A thread that had ended and is active now was reopened by a satisfied condition, and unlocked by
nobody. -/
def Reopens (a b : Play) : Prop :=
  ∀ c, a.Ended c → b.progress.thread? c = some .active →
    ∃ news, b.events.toList = a.events.toList ++ news ∧
      Satisfied a.program a.progress.values news c ∧
      ∀ source, .actionExecuted source { effect := .unlockContact c } ∉ news

/-- Notices end the thread of a contact that is still locked when they have unlocked whom they unlock. -/
def EndsLocked (play : Play) (slot : Slot) : Prop :=
  slot.task.epoch = play.epoch ∧ slot.task.delivery = .notices ∧
    (play.unlockHeld slot.task.contact slot.time).progress.endings.has slot.task.contact = true ∧
    (play.unlockHeld slot.task.contact slot.time).progress.thread? slot.task.contact = some .locked

/-- Ends the thread of one contact and leaves all others alone. -/
structure Closes (contact : String) (a b : Play) : Prop where
  program : b.program = a.program
  events : ∃ news, b.events.toList = a.events.toList ++ news ∧
    ∀ source target, .actionExecuted source { effect := .unlockContact target } ∉ news
  threads : ∀ c, b.progress.thread? c =
    if c = contact then some .ended else a.progress.thread? c
  unlocked : b.progress.unlocked = a.progress.unlocked

/-- What one moment may make of the next one. -/
structure Disciplines (a b : Play) : Prop where
  locking : b.Locking
  forward : Forward a b
  reopens : Reopens a b

variable {a b mid : Play} {news : List Event}

theorem Forward.trans {c : Play} (first : Forward a b) (second : Forward b c) : Forward a c :=
  fun contact free => second contact (first contact free)

theorem disciplines_of_same (locking : a.Locking) (program : b.program = a.program)
    (threads : b.progress.threads = a.progress.threads)
    (unlocked : b.progress.unlocked = a.progress.unlocked) : Disciplines a b := by
  refine ⟨?_, ?_, ?_⟩
  · intro c
    rw [program, unlocked, Progress.thread?, threads]
    exact locking c
  · intro c free
    rw [Progress.thread?, threads]
    exact free
  · intro c ended active
    rw [Progress.thread?, threads] at active
    rw [Ended, Progress.thread?, active] at ended
    cases ended

namespace Opens

theorem forward (opens : Opens nobody a b news) : Forward a b := by
  intro c free
  rcases opens.threads c with ⟨same, _⟩ | ⟨active, _⟩
  · rw [same]
    exact free
  · rw [active]
    decide

theorem locking (opens : Opens nobody a b news) (locking : a.Locking) : b.Locking := by
  intro c known
  rw [opens.program] at known
  rcases opens.threads c with ⟨same, unlocked⟩ | ⟨active, unlocked, _⟩
  · rw [same, unlocked]
    exact locking c known
  · rw [active, unlocked]
    decide

/- A contact whose thread has ended has been unlocked, so nobody can unlock it. -/
theorem reopened (opens : Opens nobody a b news) (kept : a.progress.KeptFor a.program)
    (locking : a.Locking) {c : String} (ended : a.Ended c)
    (active : b.progress.thread? c = some .active) : Satisfied a.program a.progress.values news c ∧
      ∀ source, .actionExecuted source { effect := .unlockContact c } ∉ news := by
  have known : a.program.has c = true := (kept.threads c).1 (Table.contains_eq_true.2 ⟨_, ended⟩)
  have unlocked : a.progress.unlocked.has c = true := (locking c known).2 (by rw [ended]; decide)
  have cannot : a.canUnlock c ≠ true := by
    rw [Play.canUnlock, unlocked, ended]
    decide
  constructor
  · rcases opens.threads c with ⟨same, _⟩ | ⟨_, _, reason⟩
    · rw [same, ended] at active
      cases active
    · rcases reason with can | ⟨none, _⟩ | satisfied
      · exact absurd can cannot
      · cases none
      · exact satisfied
  · intro source told
    exact cannot (opens.unlocks source c told)

theorem disciplines (opens : Opens nobody a b news) (kept : a.progress.KeptFor a.program)
    (locking : a.Locking) : Disciplines a b :=
  ⟨opens.locking locking, opens.forward, fun _ ended active =>
    ⟨news, opens.events, opens.reopened kept locking ended active⟩⟩

/- A thread that is ended last must not be locked. -/
theorem disciplines_closed (opens : Opens nobody a mid news) {contact : String}
    (closes : Closes contact mid b) (kept : a.progress.KeptFor a.program) (locking : a.Locking)
    (free : mid.progress.thread? contact ≠ some .locked) : Disciplines a b := by
  refine ⟨?_, ?_, ?_⟩
  · intro c known
    rw [closes.program] at known
    have before := opens.locking locking c known
    rw [closes.unlocked, closes.threads]
    by_cases own : c = contact
    · subst own
      rw [if_pos rfl, before]
      exact ⟨fun _ => by decide, fun _ => free⟩
    · rw [if_neg own]
      exact before
  · intro c before
    rw [closes.threads]
    split
    · decide
    · exact opens.forward c before
  · intro c ended active
    rw [closes.threads] at active
    split at active
    · cases active
    · obtain ⟨more, told, silent⟩ := closes.events
      obtain ⟨satisfied, unlocks⟩ := opens.reopened kept locking ended active
      refine ⟨news ++ more, ?_, satisfied.append more, ?_⟩
      · rw [told, opens.events, List.append_assoc]
      · intro source member
        rcases List.mem_append.1 member with early | late
        · exact unlocks source early
        · exact silent source c late

theorem not_locking_of_closed (opens : Opens nobody a mid news) {contact : String}
    (closes : Closes contact mid b) (known : a.program.has contact = true) (locking : a.Locking)
    (locked : mid.progress.thread? contact = some .locked) : ¬b.Locking := by
  intro after
  have here : mid.program.has contact = true := by
    rw [opens.program]
    exact known
  have ended := (after contact (by rw [closes.program]; exact here)).2 (by
    rw [closes.threads, if_pos rfl]
    decide)
  rw [closes.unlocked] at ended
  exact (opens.locking locking contact here).1 ended locked

end Opens

theorem closes_finishThread (a : Play) (contact : String) (time : Nat) :
    Closes contact a (a.finishThread contact time) := by
  unfold finishThread
  split
  · rename_i ended
    refine ⟨rfl, ⟨[], (List.append_nil _).symm, fun _ _ => List.not_mem_nil⟩, ?_, rfl⟩
    intro c
    split
    · rename_i own
      rw [own]
      exact ended
    · rfl
  · obtain ⟨news, told, plain, _⟩ := events_putThread (a.say contact .ofEnd time) contact .ended
    refine ⟨(program_putThread _ _ _).1, ⟨.messageAdded (Saying.ofEnd.message a contact time) :: news,
      ?_, ?_⟩, thread?_putThread_of _ contact .ended, unlocked_putThread _ contact .ended⟩
    · rw [told]
      change (a.events.push _).toList ++ news = _
      rw [Array.toList_push, List.append_assoc]
      rfl
    · intro source target member
      cases plain _ ((List.mem_cons.1 member).resolve_left nofun)

theorem closes_endPending (a : Play) {contact : String} (time : Nat)
    (asked : a.progress.endings.has contact = true) : Closes contact a (a.endPending contact time) := by
  unfold endPending
  rw [if_pos asked]
  have ends := closes_finishThread (a.revise fun p => { p with endings := p.endings.remove contact })
    contact time
  dsimp only
  split
  · exact ⟨ends.program, ends.events, ends.threads, ends.unlocked⟩
  · obtain ⟨news, told, silent⟩ := ends.events
    refine ⟨ends.program, ⟨news ++ [.actionExecuted contact { effect := .endThread }], ?_, ?_⟩,
      ends.threads, ends.unlocked⟩
    · simp only [Play.announce, Array.toList_push, told, List.append_assoc]
      rfl
    · intro source target member
      rcases List.mem_append.1 member with early | late
      · exact silent source target early
      · cases List.mem_singleton.1 late

theorem endPending_of_not (a : Play) {contact : String} (time : Nat)
    (none : ¬a.progress.endings.has contact = true) : a.endPending contact time = a := by
  unfold endPending
  rw [if_neg none]

/- A task keeps the discipline exactly if it does not end a locked thread. -/
theorem disciplines_fire (coherent : a.Coherent) {slot : Slot}
    (known : a.program.has slot.task.contact = true) (locking : a.Locking) :
    (¬a.EndsLocked slot → Disciplines a (a.fire slot)) ∧
      (a.EndsLocked slot → ¬(a.fire slot).Locking) := by
  by_cases fresh : slot.task.epoch = a.epoch
  · by_cases notices : slot.task.delivery = .notices
    · have fired : a.fire slot = (a.unlockHeld slot.task.contact slot.time).endPending slot.task.contact
          slot.time := by
        rw [fire, if_pos fresh, notices]
        exact deliverHeld_eq a slot.task.contact slot.time
      obtain ⟨news, opens⟩ := opens_unlockHeld coherent.formed slot.task.contact slot.time
      rw [fired]
      by_cases asked : (a.unlockHeld slot.task.contact slot.time).progress.endings.has
          slot.task.contact = true
      · have closes := closes_endPending (a.unlockHeld slot.task.contact slot.time) slot.time asked
        constructor
        · intro free
          exact opens.disciplines_closed closes coherent.kept locking fun locked =>
            free ⟨fresh, notices, asked, locked⟩
        · intro ends
          exact opens.not_locking_of_closed closes known locking ends.2.2.2
      · rw [endPending_of_not _ _ asked]
        exact ⟨fun _ => opens.disciplines coherent.kept locking, fun ends => absurd ends.2.2.1 asked⟩
    · have opens : ∃ news, Opens nobody a (a.fire slot) news := by
        rw [fire, if_pos fresh]
        cases delivery : slot.task.delivery with
        | typing => exact ⟨_, .announce nobody a rfl⟩
        | reply text => exact ⟨_, .say nobody a _ _ _⟩
        | payload action => exact opens_run coherent.formed _ _ _
        | notices => exact absurd delivery notices
      obtain ⟨news, opens⟩ := opens
      exact ⟨fun _ => opens.disciplines coherent.kept locking, fun ends => absurd ends.2.1 notices⟩
  · rw [fire, if_neg fresh]
    exact ⟨fun _ => disciplines_of_same locking rfl rfl rfl, fun ends => absurd ends.1 fresh⟩

theorem disciplines_choose (coherent : a.Coherent) (locking : a.Locking) {contact : String}
    {index now : Nat} (chosen : a.choose? contact index now = some b) : Disciplines a b := by
  obtain ⟨choice, offered, done⟩ := Option.bind_eq_some_iff.1 chosen
  have said := Opens.say nobody a contact { text := choice.text, fromPlayer := true } now
  have active : (a.say contact { text := choice.text, fromPlayer := true } now).progress.thread?
      contact = some .active := active_of_choice offered
  cases done
  split
  · rename_i key _
    obtain ⟨news, entered⟩ := opens_enter (by rw [said.program]; exact coherent.formed) contact key now
      .typed choice.action
    exact (said.trans entered).disciplines coherent.kept locking
  · generalize a.say contact { text := choice.text, fromPlayer := true } now = b at said active
    have left : Opens nobody a (b.revise fun p => { p with rounds := p.rounds.erase contact }) _ :=
      said.trans (.revise rfl rfl rfl)
    apply left.disciplines_closed (closes_finishThread _ contact now) coherent.kept locking
    change b.progress.thread? contact ≠ some .locked
    rw [active]
    decide

theorem disciplines_execute (coherent : a.Coherent) (locking : a.Locking) {contact : String}
    {actions : List Action} {now : Nat} (done : a.execute? contact actions now = some b) :
    Disciplines a b := by
  unfold execute? at done
  split at done
  · cases done
    obtain ⟨news, planned⟩ := opens_planWith (frank_reopen a.closedThreads) coherent.formed contact now
      actions
    obtain ⟨more, laid⟩ := opens_layOut (a.plan contact actions now).1 contact ""
      (a.plan contact actions now).2 now .immediate
    exact (planned.trans laid).disciplines coherent.kept locking
  · cases done

/- While a story goes on, what is done at once keeps the discipline. -/
theorem disciplines_acts (coherent : a.Coherent) (locking : a.Locking)
    (acts : Session.Acts Operation.Ongoing a b) : Disciplines a b := by
  cases acts with
  | @acted s now operation play ongoing acted =>
    cases operation with
    | choose contact index => exact disciplines_choose coherent locking acted
    | setVariable name value =>
      cases acted
      obtain ⟨news, opens⟩ := opens_assign coherent.formed name value now
      exact opens.disciplines coherent.kept locking
    | execute contact actions => exact disciplines_execute coherent locking acted
    | tick =>
      cases acted
      exact disciplines_of_same locking rfl rfl rfl
    | switchProgram program | reset => cases ongoing
    | setTypingDelay delay | flush | view contact | collectNotifications | takeEvents => cases acted
  | unacted ongoing unacted waits =>
    have rests := Session.rests_of_unacted unacted waits ongoing
    exact disciplines_of_same locking rests.program rests.threads rests.unlocked
  | noted => exact disciplines_of_same locking rfl rfl rfl
  | still => exact disciplines_of_same locking rfl rfl rfl

end Play

namespace Progress

/-- What holds of every contact that has its place while a new story is set up. -/
def Opening (program : Program) (p : Progress) : Prop := ∀ contact ∈ program.inOrder,
  (p.unlocked.has contact.name = true → contact.initiallyUnlocked = true) ∧
    ∀ thread, p.thread? contact.name = some thread → if contact.initiallyUnlocked then
      thread = .active ∧ p.unlocked.has contact.name = true else thread = .locked

theorem opening_openContact {program : Program} (formed : program.WellFormed) {p : Progress}
    (opening : Opening program p) {contact : Contact} (member : contact ∈ program.inOrder) :
    Opening program (p.openContact contact) := by
  intro other listed
  by_cases own : other.name = contact.name
  · have same : other = contact := by
      have one := formed.mem_inOrder listed
      rw [own, formed.mem_inOrder member] at one
      exact (Option.some.inj one).symm
    subst same
    unfold openContact thread?
    dsimp only
    split
    · rename_i unlocked
      refine ⟨fun _ => unlocked, ?_⟩
      intro thread found
      rw [Table.get?_insert, if_pos rfl] at found
      cases found
      exact ⟨rfl, (NameSet.has_add _ _ _).2 (.inl rfl)⟩
    · refine ⟨(opening other listed).1, ?_⟩
      intro thread found
      rw [Table.get?_insert, if_pos rfl] at found
      cases found
      rfl
  · have apart := apart_openContact p contact
    rw [thread?, apart.threads _ own, apart.unlocked _ own]
    exact opening other listed

theorem opening_initial {program : Program} (formed : program.WellFormed) (typingDelay : Nat) :
    Opening program (initial program typingDelay) := by
  have start : Opening program (blank program typingDelay) := fun _ _ => ⟨nofun, nofun⟩
  have every : ∀ contacts : List Contact, (∀ contact ∈ contacts, contact ∈ program.inOrder) → ∀ p,
      Opening program p → Opening program (contacts.foldl openContact p) := by
    intro contacts
    induction contacts with
    | nil => exact fun _ _ opening => opening
    | cons first rest ih =>
      intro listed p opening
      obtain ⟨here, others⟩ := List.forall_mem_cons.1 listed
      exact ih others _ (opening_openContact formed opening here)
  exact every program.inOrder (fun _ => id) _ start

end Progress

namespace Play

theorem locking_begun {program : Program} (formed : program.WellFormed) (options : Options)
    (now : Nat) : (begun program options now).Locking := by
  have start : Locking ⟨program, .initial program options.typingDelay, ∅, 0, options.indicator, #[]⟩ := by
    intro c known
    obtain ⟨contact, found⟩ := Table.contains_eq_true.1 known
    have listed := formed.inOrder_of_contact found
    obtain ⟨unlocked, threads⟩ := Progress.opening_initial formed options.typingDelay contact listed
    obtain ⟨thread, placed⟩ := Table.contains_eq_true.1
      (((Progress.kept_initial formed options.typingDelay).1.threads c).2 known)
    rw [formed.names c contact found] at unlocked threads
    have state := threads thread placed
    change _ ↔ (Progress.initial program options.typingDelay).threads.get? c ≠ some .locked
    rw [placed]
    cases initially : contact.initiallyUnlocked with
    | true =>
      rw [if_pos initially] at state
      rw [state.1]
      exact ⟨fun _ => by decide, fun _ => state.2⟩
    | false =>
      rw [initially, if_neg Bool.false_ne_true] at state
      rw [state]
      rw [initially] at unlocked
      exact ⟨fun had => absurd (unlocked had) Bool.false_ne_true, fun free => absurd rfl free⟩
  unfold begun beginStory
  split
  · exact start
  · split
    · obtain ⟨news, opens⟩ := opens_enter (a := ⟨program, .initial program options.typingDelay, ∅, 0,
        options.indicator, #[]⟩) formed _ _ now .immediate none
      exact opens.locking start
    · exact start

end Play

namespace Session

open Play

/-- Throughout, the unlocked contacts are those whose threads are not locked; no thread is locked
again; and an ended thread is reopened by satisfied conditions only. -/
structure Disciplined (moments : List Moment) : Prop where
  locking : ∀ m ∈ moments, m.play.Locking
  forward : moments.Pairwise fun m n => Forward m.play n.play
  reopens : moments.IsChain fun m n => Reopens m.play n.play

theorem Disciplined.tail {m : Moment} {moments : List Moment} (disciplined : Disciplined (m :: moments)) :
    Disciplined moments :=
  ⟨fun n member => disciplined.locking n (List.mem_cons_of_mem m member),
    (List.pairwise_cons.1 disciplined.forward).2, disciplined.reopens.tail⟩

theorem Disciplined.cons {m n : Moment} {moments : List Moment} (locking : m.play.Locking)
    (disciplines : Disciplines m.play n.play) (rest : Disciplined (n :: moments)) :
    Disciplined (m :: n :: moments) := by
  refine ⟨List.forall_mem_cons.2 ⟨locking, rest.locking⟩, ?_, ?_⟩
  · refine List.pairwise_cons.2 ⟨List.forall_mem_cons.2 ⟨disciplines.forward, ?_⟩, rest.forward⟩
    intro other member
    exact disciplines.forward.trans ((List.pairwise_cons.1 rest.forward).1 other member)
  · exact List.isChain_cons_cons.2 ⟨disciplines.reopens, rest.reopens⟩

/- By induction on the moments: up to the first task that ends a locked thread, all is in order. -/
theorem disciplined_follows {a : Play} {moments : List Moment}
    (follows : Follows Operation.Ongoing a moments) (coherent : a.Coherent) (locking : a.Locking)
    {m : Moment} (here : m.play = a) : Disciplined (m :: moments) ↔
      ∀ before slot, Moment.fired before slot ∈ moments → ¬before.EndsLocked slot := by
  induction follows generalizing m with
  | nil =>
    refine ⟨fun _ _ _ => nofun, fun _ => ⟨?_, List.pairwise_singleton _ _, List.isChain_singleton _⟩⟩
    rw [← here] at locking
    exact List.forall_mem_singleton.2 locking
  | @acted a b rest acts _ ih =>
    have disciplines := disciplines_acts coherent locking acts
    have later := ih (coherent.moves (moves_acts coherent acts)) disciplines.locking (m := .acted b) rfl
    rw [← here] at locking disciplines
    constructor
    · intro disciplined before slot member
      exact later.1 disciplined.tail before slot ((List.mem_cons.1 member).resolve_left nofun)
    · intro free
      exact .cons locking disciplines (later.2 fun before slot member =>
        free before slot (List.mem_cons_of_mem _ member))
  | @fired a slot rest next _ ih =>
    obtain ⟨keeps, breaks⟩ := disciplines_fire (a := a.dropFirst) coherent.dropFirst
      (coherent.known_first next) locking
    have later := fun after => ih (coherent_fire coherent next) after
      (m := .fired a.dropFirst slot) rfl
    constructor
    · intro disciplined before other member
      have after := disciplined.locking (.fired a.dropFirst slot)
        (List.mem_cons_of_mem m List.mem_cons_self)
      rcases List.mem_cons.1 member with same | member
      · cases same
        exact fun ends => breaks ends after
      · exact (later after).1 disciplined.tail before other member
    · intro free
      have disciplines := keeps (free _ _ List.mem_cons_self)
      refine .cons (by rw [here]; exact locking) (by rw [here]; exact ⟨disciplines.locking,
        disciplines.forward, disciplines.reopens⟩) ((later disciplines.locking).2 ?_)
      intro before other member
      exact free before other (List.mem_cons_of_mem _ member)

/- A story that goes on with its program keeps its contacts locked, unlocked and ended in order exactly
   as long as no notices end a thread that is still locked. -/
theorem locking_disciplined_iff {program : Program} (scripted : program.Scripted) (options : Options)
    {store : Store} (fresh : restored? store = none) (now : Nat) {steps : List (Nat × Operation)}
    (ongoing : ∀ step ∈ steps, step.2.Ongoing) :
    Disciplined (storyMoments program options store now steps) ↔
      ∀ before slot, Moment.fired before slot ∈ storyMoments program options store now steps →
        ¬before.EndsLocked slot := by
  have formed := scripted.wellFormed
  have coherent : (begun program options now).Coherent :=
    (sound_beginStory (sound_initial formed _ _ _ _) now).coherent
  obtain ⟨rest, whole, follows⟩ := follows_story options fresh now ongoing
  rw [whole, disciplined_follows follows coherent (locking_begun formed options now) rfl]
  constructor
  · intro free before slot member
    exact free before slot ((List.mem_cons.1 member).resolve_left nofun)
  · intro free before slot member
    exact free before slot (List.mem_cons_of_mem _ member)

/-- Nobody asks to unlock the second contact. -/
def unmet : String :=
  ":: A-Round-1 [initial_contact]\nHi\n\n:: B-Round-1 [chat]\nB here.\n"

def endUnmet : List (Nat × Operation) := [(1000, .execute "B" [{ effect := .endThread }])]

def unlockUnmet : List (Nat × Operation) := [(1000, .execute "A" [{ effect := .unlockContact "B" }])]

def endsUnmet (s : Session) : Bool :=
  s.play.program.has "B" && decide (s.play.progress.thread? "B" = some .ended) &&
    !s.play.progress.unlocked.has "B" &&
    (s.performAllWithin 1 unlockUnmet).any fun t =>
      decide (t.play.progress.thread? "B" = some .active) &&
        t.play.events.toList.contains (.actionExecuted "A" { effect := .unlockContact "B" })

theorem played_unmet : (playedWithin 1 unmet 1000 endUnmet).any endsUnmet = true := by
  decide +kernel

/- The thread of a contact that is still locked can be ended, and then an unlock opens an ended thread. -/
theorem unmet_contact_ended : ∃ program : Program, (compile unmet).result = .ok program ∧
    ¬Disciplined (storyMoments program {} .empty 1000 endUnmet) ∧
    ∃ s, s = (start program {} .empty 1000).performAll endUnmet ∧ s.play.Ended "B" ∧
      s.play.progress.unlocked.has "B" = false ∧
      (s.performAll unlockUnmet).play.progress.thread? "B" = some .active ∧
      .actionExecuted "A" { effect := .unlockContact "B" } ∈
        (s.performAll unlockUnmet).play.events.toList := by
  obtain ⟨program, compiled, shown⟩ := played_of_any played_unmet
  obtain ⟨m, member, same⟩ := performAll_mem_storyMoments program {} .empty 1000 endUnmet
  generalize defined : (start program {} .empty 1000).performAll endUnmet = s at shown same
  simp only [endsUnmet, Bool.and_eq_true, decide_eq_true_eq, Bool.not_eq_true'] at shown
  obtain ⟨⟨⟨known, ended⟩, locked⟩, unlocks⟩ := shown
  obtain ⟨t, within, shown⟩ := (Option.any_eq_true _ _).1 unlocks
  obtain ⟨active, told⟩ := Bool.and_eq_true_iff.1 shown
  refine ⟨program, compiled, ?_, s, defined.symm, ended, locked, ?_⟩
  · intro disciplined
    have locking := disciplined.locking m member
    rw [same] at locking
    have unlocked := (locking "B" known).2 (by rw [ended]; decide)
    rw [locked] at unlocked
    cases unlocked
  · rw [performAll_of_performAllWithin within]
    exact ⟨of_decide_eq_true active, List.contains_iff_mem.1 told⟩

/- The equivalence, for that story. -/
theorem locking_disciplined_iff_unmet : ∃ program : Program, program.Scripted ∧
    restored? Store.empty = none ∧ (∀ step ∈ endUnmet ++ unlockUnmet, step.2.Ongoing) ∧
      (Disciplined (storyMoments program {} .empty 1000 (endUnmet ++ unlockUnmet)) ↔
        ∀ before slot, Moment.fired before slot ∈
            storyMoments program {} .empty 1000 (endUnmet ++ unlockUnmet) →
          ¬before.EndsLocked slot) := by
  have ongoing : ∀ step ∈ endUnmet ++ unlockUnmet, step.2.Ongoing := by
    simp only [endUnmet, unlockUnmet, List.cons_append, List.nil_append, List.forall_mem_cons]
    exact ⟨rfl, rfl, List.forall_mem_nil _⟩
  have scripted : (compile unmet).program.Scripted := ⟨unmet, rfl⟩
  exact ⟨_, scripted, rfl, ongoing, locking_disciplined_iff scripted {} rfl 1000 ongoing⟩

end Session
end ChatStory
