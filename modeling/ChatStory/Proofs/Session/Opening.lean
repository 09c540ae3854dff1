import ChatStory.Proofs.Session.Speech

/-!
Why threads open. What a story announces tells the values of its variables, and with them for which
reason a thread was opened: its contact could still be unlocked, or the condition of one of the
contact's rounds did not hold before an assignment and holds after it.
-/
namespace ChatStory

/-- The variables after what an event announces. -/
def Variables.hear (values : Variables) : Event → Variables
  | .variableChanged name value => values.insert name value
  | _ => values

/-- The event tells of no assignment and of no unlock. -/
def Event.isPlain : Event → Bool
  | .variableChanged .. => false
  | .actionExecuted _ action => !action.effect.isHeldBack
  | _ => true

theorem foldl_hear_plain {news : List Event} (plain : ∀ event ∈ news, event.isPlain = true)
    (values : Variables) : news.foldl Variables.hear values = values := by
  induction news with
  | nil => rfl
  | cons event rest ih =>
    obtain ⟨first, others⟩ := List.forall_mem_cons.1 plain
    have same : values.hear event = values := by
      cases event with
      | variableChanged name value => cases first
      | _ => rfl
    rw [List.foldl_cons, same]
    exact ih others

namespace Play

/-- Among the news is an assignment that satisfies the condition of a round of the contact, which did
not hold before, and later that the contact's thread is active. -/
def Satisfied (program : Program) (values : Variables) (news : List Event) (c : String) : Prop :=
  ∃ before name value later contact,
    news = before ++ .variableChanged name value :: later ∧ program.contact? c = some contact ∧
      (newlyOpen? contact (before.foldl Variables.hear values)
        ((before.foldl Variables.hear values).insert name value)).isSome = true ∧
      .threadChanged c .active ∈ later

/-- Closes no thread and locks no contact, and opens a thread only if it may, if its contact can be
unlocked, or if a condition has been satisfied. -/
structure Opens (may : String → Prop) (a b : Play) (news : List Event) : Prop where
  program : b.program = a.program
  events : b.events.toList = a.events.toList ++ news
  values : b.progress.values = news.foldl Variables.hear a.progress.values
  threads : ∀ c,
    (b.progress.thread? c = a.progress.thread? c ∧
      b.progress.unlocked.has c = a.progress.unlocked.has c) ∨
    (b.progress.thread? c = some .active ∧ b.progress.unlocked.has c = true ∧
      (a.canUnlock c = true ∨ (may c ∧ .threadChanged c .active ∈ news) ∨
        Satisfied a.program a.progress.values news c))
  unlocks : ∀ source target, .actionExecuted source { effect := .unlockContact target } ∈ news →
    a.canUnlock target = true

variable {may : String → Prop} {a b c : Play} {news more : List Event}

theorem Satisfied.append {program : Program} {values : Variables} {contact : String}
    (satisfied : Satisfied program values news contact) (more : List Event) :
    Satisfied program values (news ++ more) contact := by
  obtain ⟨before, name, value, later, entry, rfl, found, opens, active⟩ := satisfied
  refine ⟨before, name, value, later ++ more, entry, ?_, found, opens, List.mem_append_left _ active⟩
  rw [List.append_assoc, List.cons_append]

theorem Satisfied.after {program : Program} {values : Variables} {contact : String} (news : List Event)
    (satisfied : Satisfied program (news.foldl Variables.hear values) more contact) :
    Satisfied program values (news ++ more) contact := by
  obtain ⟨before, name, value, later, entry, rfl, found, opens, active⟩ := satisfied
  refine ⟨news ++ before, name, value, later, entry, ?_, found, ?_, active⟩
  · rw [List.append_assoc]
  · rw [List.foldl_append]
    exact opens

/- A contact that is unlocked with a thread that is not locked cannot be unlocked. -/
theorem canUnlock_of_active {contact : String} (active : a.progress.thread? contact = some .active)
    (unlocked : a.progress.unlocked.has contact = true) : a.canUnlock contact = false := by
  rw [canUnlock, active, unlocked]
  rfl

namespace Opens

theorem canUnlock (opens : Opens may a b news) {contact : String}
    (can : b.canUnlock contact = true) : a.canUnlock contact = true := by
  rcases opens.threads contact with ⟨thread, unlocked⟩ | ⟨active, unlocked, _⟩
  · rw [Play.canUnlock, ← thread, ← unlocked]
    exact can
  · rw [canUnlock_of_active active unlocked] at can
    cases can

theorem refl (may : String → Prop) (a : Play) : Opens may a a [] :=
  ⟨rfl, (List.append_nil _).symm, rfl, fun _ => .inl ⟨rfl, rfl⟩, nofun⟩

theorem trans (first : Opens may a b news) (second : Opens may b c more) :
    Opens may a c (news ++ more) := by
  refine ⟨second.program.trans first.program, ?_, ?_, ?_, ?_⟩
  · rw [second.events, first.events, List.append_assoc]
  · rw [second.values, first.values, List.foldl_append]
  · intro contact
    rcases first.threads contact with ⟨thread, unlocked⟩ | ⟨active, unlocked, reason⟩
    · rcases second.threads contact with ⟨thread', unlocked'⟩ | ⟨active', unlocked', reason⟩
      · exact .inl ⟨thread'.trans thread, unlocked'.trans unlocked⟩
      · refine .inr ⟨active', unlocked', ?_⟩
        rcases reason with can | ⟨allowed, told⟩ | satisfied
        · exact .inl (first.canUnlock can)
        · exact .inr (.inl ⟨allowed, List.mem_append_right _ told⟩)
        · rw [first.program, first.values] at satisfied
          exact .inr (.inr (satisfied.after news))
    · have still : c.progress.thread? contact = some .active ∧
          c.progress.unlocked.has contact = true := by
        rcases second.threads contact with ⟨thread', unlocked'⟩ | ⟨active', unlocked', _⟩
        · exact ⟨thread'.trans active, unlocked'.trans unlocked⟩
        · exact ⟨active', unlocked'⟩
      refine .inr ⟨still.1, still.2, ?_⟩
      rcases reason with can | ⟨allowed, told⟩ | satisfied
      · exact .inl can
      · exact .inr (.inl ⟨allowed, List.mem_append_left _ told⟩)
      · exact .inr (.inr (satisfied.append more))
  · intro source target told
    rcases List.mem_append.1 told with told | told
    · exact first.unlocks source target told
    · exact first.canUnlock (second.unlocks source target told)

theorem widen {wider : String → Prop} (opens : Opens may a b news) (further : ∀ c, may c → wider c) :
    Opens wider a b news := by
  refine { opens with threads := fun contact => (opens.threads contact).imp_right ?_ }
  rintro ⟨active, unlocked, reason⟩
  exact ⟨active, unlocked, reason.imp_right fun other =>
    other.imp_left fun allowed => ⟨further contact allowed.1, allowed.2⟩⟩

/- What leaves threads and variables alone. -/
theorem of_same (program : b.program = a.program) (events : b.events.toList = a.events.toList ++ news)
    (plain : ∀ event ∈ news, event.isPlain = true) (values : b.progress.values = a.progress.values)
    (threads : b.progress.threads = a.progress.threads)
    (unlocked : b.progress.unlocked = a.progress.unlocked) : Opens may a b news := by
  refine ⟨program, events, ?_, ?_, ?_⟩
  · rw [foldl_hear_plain plain]
    exact values
  · intro contact
    rw [Progress.thread?, Progress.thread?, threads, unlocked]
    exact .inl ⟨rfl, rfl⟩
  · intro source target told
    cases plain _ told

theorem announce (may : String → Prop) (a : Play) {event : Event} (plain : event.isPlain = true) :
    Opens may a (a.announce event) [event] :=
  of_same rfl (Array.toList_push ..) (List.forall_mem_singleton.2 plain) rfl rfl rfl

theorem say (may : String → Prop) (a : Play) (contact : String) (saying : Saying) (time : Nat) :
    Opens may a (a.say contact saying time) [.messageAdded (saying.message a contact time)] :=
  of_same rfl (Array.toList_push ..) (List.forall_mem_singleton.2 rfl) rfl rfl rfl

/- A change of the progress that is not announced. -/
theorem revise {change : Progress → Progress} (values : (change a.progress).values = a.progress.values)
    (threads : (change a.progress).threads = a.progress.threads)
    (unlocked : (change a.progress).unlocked = a.progress.unlocked) :
    Opens may a (a.revise change) [] :=
  of_same rfl (List.append_nil _).symm (List.forall_mem_nil _) values threads unlocked

theorem of_progress (program : b.program = a.program) (events : b.events = a.events)
    (progress : b.progress = a.progress) : Opens may a b [] := by
  apply of_same program _ (List.forall_mem_nil _) <;> simp only [progress, events, List.append_nil]

theorem foldl {α : Type} {step : Play → α → Play} {items : List α}
    (each : ∀ play, play.program = a.program → ∀ item ∈ items,
      ∃ news, Opens may play (step play item) news) : ∃ news, Opens may a (items.foldl step a) news := by
  refine List.foldlRecOn (motive := fun play => ∃ news, Opens may a play news) items step
    ⟨[], refl may a⟩ ?_
  rintro play ⟨news, opens⟩ item member
  obtain ⟨more, next⟩ := each play opens.program item member
  exact ⟨news ++ more, opens.trans next⟩

end Opens

theorem thread?_putThread_of (a : Play) (contact : String) (thread : ThreadState) (c : String) :
    (a.putThread contact thread).progress.thread? c =
      if c = contact then some thread else a.progress.thread? c := by
  rw [putThread_eq]
  exact Table.get?_insert _ _ _ _

theorem unlocked_setUnlocked (a : Play) (contact c : String) :
    (a.setUnlocked contact).progress.unlocked.has c =
      if c = contact then true else a.progress.unlocked.has c := by
  rw [setUnlocked_eq]
  change (a.progress.unlocked.add contact).has c = _
  rw [Bool.eq_iff_iff, NameSet.has_add]
  split
  · rename_i own
    exact iff_of_true (.inl own) rfl
  · rename_i other
    exact or_iff_right other

/- To put a thread announces it if it is another one, and nothing else. -/
theorem events_putThread (a : Play) (contact : String) (thread : ThreadState) : ∃ more,
    (a.putThread contact thread).events.toList = a.events.toList ++ more ∧
      (∀ event ∈ more, event.isPlain = true) ∧
      (a.progress.thread? contact ≠ some thread → .threadChanged contact thread ∈ more) := by
  unfold putThread
  dsimp only
  split
  · rename_i same
    exact ⟨[], (List.append_nil _).symm, List.forall_mem_nil _, fun other => absurd same other⟩
  · exact ⟨[.threadChanged contact thread], Array.toList_push .., List.forall_mem_singleton.2 rfl,
      fun _ => List.mem_singleton_self _⟩

theorem events_setUnlocked (a : Play) (contact : String) : ∃ more,
    (a.setUnlocked contact).events.toList = a.events.toList ++ more ∧
      ∀ event ∈ more, event.isPlain = true := by
  unfold setUnlocked
  split
  · exact ⟨[], (List.append_nil _).symm, List.forall_mem_nil _⟩
  · exact ⟨[.contactUnlocked contact], Array.toList_push .., List.forall_mem_singleton.2 rfl⟩

theorem program_putThread (a : Play) (contact : String) (thread : ThreadState) :
    (a.putThread contact thread).program = a.program ∧
      (a.putThread contact thread).progress.values = a.progress.values := by
  rw [putThread_eq]
  exact ⟨rfl, rfl⟩

theorem program_setUnlocked (a : Play) (contact : String) :
    (a.setUnlocked contact).program = a.program ∧
      (a.setUnlocked contact).progress.values = a.progress.values ∧
      (a.setUnlocked contact).progress.threads = a.progress.threads := by
  rw [setUnlocked_eq]
  exact ⟨rfl, rfl, rfl⟩

namespace Opens

/- What opens the thread of one contact and unlocks it. -/
theorem of_opened {contact : String} (program : b.program = a.program)
    (values : b.progress.values = a.progress.values)
    (events : b.events.toList = a.events.toList ++ news)
    (plain : ∀ event ∈ news, event.isPlain = true)
    (threads : ∀ c, b.progress.thread? c = if c = contact then some .active else a.progress.thread? c)
    (unlocked : ∀ c, b.progress.unlocked.has c =
      if c = contact then true else a.progress.unlocked.has c)
    (reason : a.canUnlock contact = true ∨ (may contact ∧ .threadChanged contact .active ∈ news)) :
    Opens may a b news := by
  refine ⟨program, events, ?_, ?_, fun _ _ told => by cases plain _ told⟩
  · rw [foldl_hear_plain plain]
    exact values
  · intro c
    rw [threads, unlocked]
    by_cases own : c = contact
    · subst own
      rw [if_pos rfl, if_pos rfl]
      exact .inr ⟨rfl, rfl, reason.imp_right .inl⟩
    · rw [if_neg own, if_neg own]
      exact .inl ⟨rfl, rfl⟩

/- An unlock that could be done is announced. -/
theorem announceUnlock (opens : Opens may a b news) {target : String}
    (can : a.canUnlock target = true) (contact : String) :
    Opens may a (b.announce (.actionExecuted contact { effect := .unlockContact target }))
      (news ++ [.actionExecuted contact { effect := .unlockContact target }]) := by
  refine ⟨opens.program, ?_, ?_, ?_, ?_⟩
  · simp only [Play.announce, Array.toList_push, opens.events, List.append_assoc]
  · rw [List.foldl_append]
    exact opens.values
  · intro c
    refine (opens.threads c).imp_right ?_
    rintro ⟨active, unlocked, reason⟩
    refine ⟨active, unlocked, reason.imp_right fun other => ?_⟩
    rcases other with ⟨allowed, told⟩ | satisfied
    · exact .inl ⟨allowed, List.mem_append_left _ told⟩
    · exact .inr (satisfied.append _)
  · intro source other told
    rcases List.mem_append.1 told with told | told
    · exact opens.unlocks source other told
    · cases List.mem_singleton.1 told
      exact can

end Opens

/- A thread that is reopened is announced as active, and its contact is unlocked. -/
theorem opens_reopened (a : Play) {contact : String} (closed : a.progress.isClosed contact = true) :
    ∃ news, Opens (Stirs.only contact) a (((a.revise fun p => { p with
      endings := p.endings.remove contact }).putThread contact .active).setUnlocked contact) news := by
  have inactive : a.progress.thread? contact ≠ some .active := by
    intro active
    rw [Progress.isClosed, active] at closed
    cases closed
  let freed := a.revise fun p => { p with endings := p.endings.remove contact }
  have free : Opens (Stirs.only contact) a freed [] := .revise rfl rfl rfl
  obtain ⟨news, put, plain, told⟩ := events_putThread freed contact .active
  obtain ⟨more, shown, plain'⟩ := events_setUnlocked (freed.putThread contact .active) contact
  obtain ⟨program, values⟩ := program_putThread freed contact .active
  obtain ⟨program', values', threads⟩ := program_setUnlocked (freed.putThread contact .active) contact
  refine ⟨_, free.trans (.of_opened (program'.trans program) (values'.trans values) ?_ ?_ ?_ ?_
    (.inr ⟨rfl, List.mem_append_left more (told inactive)⟩))⟩
  · rw [shown, put, List.append_assoc]
  · exact List.forall_mem_append.2 ⟨plain, plain'⟩
  · intro c
    rw [Progress.thread?, threads]
    exact thread?_putThread_of freed contact .active c
  · intro c
    rw [unlocked_setUnlocked, unlocked_putThread]

/-- A reopening opens no other thread than the one that it is for without a reason. -/
def Frank (again : Reopening) : Prop :=
  ∀ play contact key time, play.program.WellFormed →
    ∃ news, Opens (Stirs.only contact) play (again play contact key time) news

/- Whoever is reopened after an assignment has a round whose condition it satisfies. -/
theorem newlyOpen_of_nowOpen (formed : a.program.WellFormed) {before : Variables}
    {entry : String × RoundKey} (member : entry ∈ a.nowOpen before) : ∃ contact,
      a.program.contact? entry.1 = some contact ∧
        (newlyOpen? contact before a.progress.values).isSome = true := by
  obtain ⟨contact, listed, opened⟩ := List.mem_filterMap.1 member
  obtain ⟨key, newly, rfl⟩ := Option.map_eq_some_iff.1 opened
  exact ⟨contact, formed.mem_inOrder (List.mem_filter.1 listed).1, Option.isSome_of_eq_some newly⟩

section Cascade

variable {again : Reopening} (frank : Frank again)

include frank

theorem opens_assignWith (formed : a.program.WellFormed) (name : String) (value : Value)
    (time : Nat) : ∃ news, Opens nobody a (a.assignWith again name value time) news := by
  unfold assignWith
  dsimp only
  split
  · exact ⟨[], .refl nobody a⟩
  · generalize changed : (a.revise fun p => { p with
        values := a.progress.values.insert name value }).announce (.variableChanged name value) = b
    have same : b.program = a.program := by
      rw [← changed]
      rfl
    have values : b.progress.values = a.progress.values.insert name value := by
      rw [← changed]
      rfl
    have can : ∀ c, b.canUnlock c = a.canUnlock c := by
      rw [← changed]
      exact fun _ => rfl
    -- Within the loop a thread may be opened if the assignment satisfies a condition of its contact.
    let newly (c : String) : Prop := ∃ contact, b.program.contact? c = some contact ∧
      (newlyOpen? contact a.progress.values b.progress.values).isSome = true
    change ∃ news, Opens nobody a ((b.nowOpen a.progress.values).foldl
      (fun play entry => again play entry.1 entry.2 time) b) news
    obtain ⟨news, opens⟩ : ∃ news, Opens newly b ((b.nowOpen a.progress.values).foldl
        (fun play entry => again play entry.1 entry.2 time) b) news := by
      apply Opens.foldl
      intro play unchanged entry member
      obtain ⟨news, opens⟩ := frank play entry.1 entry.2 time (by rw [unchanged, same]; exact formed)
      refine ⟨news, opens.widen ?_⟩
      rintro c rfl
      exact newlyOpen_of_nowOpen (by rw [same]; exact formed) member
    refine ⟨.variableChanged name value :: news, opens.program.trans same, ?_, ?_, ?_, ?_⟩
    · rw [opens.events, ← changed]
      simp only [Play.announce, Play.revise, Array.toList_push, List.append_assoc, List.singleton_append]
    · rw [opens.values, values]
      rfl
    · intro c
      have before : b.progress.thread? c = a.progress.thread? c ∧
          b.progress.unlocked.has c = a.progress.unlocked.has c := by
        rw [← changed]
        exact ⟨rfl, rfl⟩
      rcases opens.threads c with ⟨thread, unlocked⟩ | ⟨active, unlocked, reason⟩
      · exact .inl ⟨thread.trans before.1, unlocked.trans before.2⟩
      · refine .inr ⟨active, unlocked, ?_⟩
        rcases reason with free | ⟨⟨contact, found, opened⟩, told⟩ | satisfied
        · exact .inl ((can c).symm.trans free)
        · rw [same] at found
          rw [values] at opened
          exact .inr (.inr ⟨[], name, value, news, contact, rfl, found, opened, told⟩)
        · rw [same, values] at satisfied
          exact .inr (.inr (satisfied.after [.variableChanged name value]))
    · intro source target told
      rw [← can target]
      rcases List.mem_cons.1 told with same | told
      · cases same
      · exact opens.unlocks source target told

theorem opens_effectWith (formed : a.program.WellFormed) {contact : String} {time : Nat}
    {effect : Effect} (done : a.effectWith? again contact time effect = some b) :
    ∃ news, Opens nobody a b news := by
  cases effect with
  | setVariable name value =>
    cases done
    exact opens_assignWith frank formed name value time
  | delayedMessage text target =>
    simp only [effectWith?] at done
    split at done
    · cases done
      exact ⟨_, .say nobody a _ _ _⟩
    · cases done
  | unlockContact | setContactStatus | openThread =>
    simp only [effectWith?] at done
    split at done
    · cases done
      exact ⟨[], .revise rfl rfl rfl⟩
    · cases done
  | endThread | setTypingDelay | showNotification =>
    cases done
    exact ⟨[], .revise rfl rfl rfl⟩
  | sendPhoto | sendVideo | dropPin =>
    cases done
    exact ⟨_, .say nobody a _ _ _⟩
  | typingIndicator =>
    cases done
    exact ⟨_, .announce nobody a rfl⟩
  | vibrate | callEmergency | needCode | triggerCall =>
    cases done
    exact ⟨[], .refl nobody a⟩

theorem opens_runWith (formed : a.program.WellFormed) (contact : String) (action : Action)
    (time : Nat) : ∃ news, Opens nobody a (a.runWith again contact action time) news := by
  unfold runWith
  split
  · rename_i after done
    obtain ⟨news, opens⟩ := opens_effectWith frank formed done
    split
    · exact ⟨news, opens⟩
    · rename_i free
      have plain : (Event.actionExecuted contact action).isPlain = true := by
        simpa [Event.isPlain] using free
      exact ⟨_, opens.trans (.announce nobody after plain)⟩
  · exact ⟨[], .refl nobody a⟩

theorem opens_planWith (formed : a.program.WellFormed) (contact : String) (time : Nat)
    (actions : List Action) :
    ∃ news, Opens nobody a (a.planWith again contact time actions).1 news := by
  induction actions generalizing a with
  | nil => exact ⟨[], .refl nobody a⟩
  | cons action rest ih =>
    have now : ∃ news, Opens nobody a
        ((a.runWith again contact action time).planWith again contact time rest).1 news := by
      obtain ⟨news, first⟩ := opens_runWith frank formed contact action time
      obtain ⟨more, others⟩ := ih (a := a.runWith again contact action time)
        (by rw [first.program]; exact formed)
      exact ⟨news ++ more, first.trans others⟩
    simp only [planWith]
    split
    · exact now
    · split
      · exact ih formed
      · exact now

omit frank

theorem opens_reply (a : Play) (contact text : String) (time : Nat) (tempo : Tempo) :
    ∃ news, Opens nobody a (a.reply contact text time tempo).1 news := by
  cases tempo with
  | immediate =>
    simp only [reply]
    split
    · exact ⟨[], .refl nobody a⟩
    · exact ⟨_, .say nobody a _ _ _⟩
  | typed =>
    refine ⟨[], .of_progress ?_ ?_ (progress_reply_typed a contact text time)⟩
    all_goals
      simp only [reply]
      split <;> split <;> rfl

theorem opens_schedulePayloads (a : Play) (contact : String) (replyTime last : Nat)
    (payloads : List Action) :
    Opens nobody a (a.schedulePayloads contact replyTime last payloads).1 [] := by
  induction payloads generalizing a last with
  | nil => exact .refl nobody a
  | cons action rest ih =>
    have first : Opens nobody a (a.schedule contact (replyTime + action.delay) (.payload action)) [] :=
      .of_progress rfl rfl rfl
    exact first.trans (ih _ _)

theorem opens_layOut (a : Play) (contact text : String) (plan : Plan) (time : Nat) (tempo : Tempo) :
    ∃ news, Opens nobody a (a.layOut contact text plan time tempo) news := by
  obtain ⟨news, replied⟩ := opens_reply a contact text time tempo
  unfold layOut
  dsimp only
  generalize a.reply contact text time tempo = answer at replied
  have laid := replied.trans
    (opens_schedulePayloads answer.1 contact answer.2 answer.2 plan.payloads)
  split
  · exact ⟨_, laid.trans (.of_progress rfl rfl rfl)⟩
  · exact ⟨_, laid⟩

include frank

theorem opens_enterWith (formed : a.program.WellFormed) (contact : String) (key : RoundKey)
    (time : Nat) (tempo : Tempo) (leading : Option Action) :
    ∃ news, Opens nobody a (a.enterWith again contact key time tempo leading) news := by
  cases found : a.program.round? contact key with
  | none =>
    unfold enterWith
    rw [found]
    exact ⟨[], .refl nobody a⟩
  | some round =>
    rw [enterWith_eq again found]
    unfold prepared
    let entered := a.revise fun p => { p with rounds := p.rounds.insert contact key }
    have placed : Opens nobody a entered [] := .revise rfl rfl rfl
    obtain ⟨news, set⟩ : ∃ news, Opens nobody entered ((a.evaluation round).assignments.foldl
        (fun play (a : Assignment) => play.assignWith again a.name a.value time) entered) news := by
      apply Opens.foldl
      intro play unchanged assignment _
      exact opens_assignWith frank (by rw [unchanged]; exact formed) _ _ _
    have before := placed.trans set
    obtain ⟨more, planned⟩ := opens_planWith frank (by rw [before.program]; exact formed) contact time
      (leading.toList ++ (a.evaluation round).actions)
    obtain ⟨last, laid⟩ := opens_layOut _ contact (a.evaluation round).text _ time tempo
    exact ⟨_, (before.trans planned).trans laid⟩

end Cascade

theorem frank_reopen (depth : Nat) : Frank (reopen depth) := by
  induction depth with
  | zero => exact fun play contact _ _ _ => ⟨[], .refl _ play⟩
  | succ depth ih =>
    intro play contact key time formed
    unfold reopen
    split
    · rename_i closed
      obtain ⟨news, opened⟩ := opens_reopened play closed
      obtain ⟨more, entered⟩ := opens_enterWith ih (by rw [opened.program]; exact formed) contact key
        time .typed none
      exact ⟨_, opened.trans (entered.widen fun _ => False.elim)⟩
    · exact ⟨[], .refl _ play⟩

theorem opens_enter (formed : a.program.WellFormed) (contact : String) (key : RoundKey) (time : Nat)
    (tempo : Tempo) (leading : Option Action) :
    ∃ news, Opens nobody a (a.enter contact key time tempo leading) news :=
  opens_enterWith (frank_reopen a.closedThreads) formed contact key time tempo leading

theorem opens_assign (formed : a.program.WellFormed) (name : String) (value : Value) (time : Nat) :
    ∃ news, Opens nobody a (a.assign name value time) news :=
  opens_assignWith (frank_reopen a.closedThreads) formed name value time

theorem opens_run (formed : a.program.WellFormed) (contact : String) (action : Action) (time : Nat) :
    ∃ news, Opens nobody a (a.run contact action time) news :=
  opens_runWith (frank_reopen a.closedThreads) formed contact action time

/- The thread of a contact that can be unlocked is opened for the one who asked for it. -/
theorem opens_unlocked (a : Play) {target : String} (can : a.canUnlock target = true)
    (contact : String) : ∃ news, Opens nobody a (((a.setUnlocked target).putThread target
      .active).announce (.actionExecuted contact { effect := .unlockContact target })) news := by
  obtain ⟨news, shown, plain⟩ := events_setUnlocked a target
  obtain ⟨more, put, plain', _⟩ := events_putThread (a.setUnlocked target) target .active
  obtain ⟨program, values, threads⟩ := program_setUnlocked a target
  obtain ⟨program', values'⟩ := program_putThread (a.setUnlocked target) target .active
  have opened : Opens nobody a ((a.setUnlocked target).putThread target .active) (news ++ more) := by
    refine .of_opened (program'.trans program) (values'.trans values) ?_ ?_ ?_ ?_ (.inl can)
    · rw [put, shown, List.append_assoc]
    · exact List.forall_mem_append.2 ⟨plain, plain'⟩
    · intro c
      rw [thread?_putThread_of, Progress.thread?, threads]
      rfl
    · intro c
      rw [unlocked_putThread, unlocked_setUnlocked]
  exact ⟨_, opened.announceUnlock can contact⟩

theorem opens_unlock (formed : a.program.WellFormed) (contact target : String) (time : Nat) :
    ∃ news, Opens nobody a (a.unlock contact target time) news := by
  unfold unlock
  split
  · exact ⟨[], .refl nobody a⟩
  · split
    · exact ⟨[], .refl nobody a⟩
    · rename_i locked
      have can : a.canUnlock target = true := by
        rw [canUnlock, Bool.eq_false_iff.2 locked]
        rfl
      dsimp only
      have said := Opens.say nobody a contact (.ofUnlock target) time
      have still : (a.say contact (.ofUnlock target) time).canUnlock target = true := can
      generalize a.say contact (.ofUnlock target) time = b at said still
      obtain ⟨more, opens⟩ := opens_unlocked b still contact
      have before := said.trans opens
      split
      · rename_i key _
        obtain ⟨last, entered⟩ := opens_enter (by rw [before.program]; exact formed) target key time
          .immediate none
        exact ⟨_, before.trans entered⟩
      · exact ⟨_, before⟩

theorem opens_unlockHeld (formed : a.program.WellFormed) (contact : String) (time : Nat) :
    ∃ news, Opens nobody a (a.unlockHeld contact time) news := by
  let taken := a.revise fun p => { p with unlocks := p.unlocks.erase contact }
  have take : Opens nobody a taken [] := .revise rfl rfl rfl
  obtain ⟨news, unlocked⟩ : ∃ news, Opens nobody taken ((a.progress.unlocks.getD contact []).foldl
      (fun play target => play.unlock contact target time) taken) news := by
    apply Opens.foldl
    intro play unchanged target _
    exact opens_unlock (by rw [unchanged]; exact formed) contact target time
  exact ⟨_, take.trans unlocked⟩

end Play
end ChatStory
