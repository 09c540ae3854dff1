import ChatStory.Proofs.Session.Afresh
import ChatStory.Proofs.Session.Computed
import ChatStory.Proofs.Session.Heard
import ChatStory.Proofs.Session.Numbering
import ChatStory.Scenario.Run

/-!
What a run of a test case observes. From the moment at which the runner listens, every message, unlock and
change of a thread is observed in the order in which they are announced. What is announced before that,
while the session is made, is put together from the histories, so that messages alone are observed, and
contact after contact.
-/
namespace ChatStory

section Groups

variable {α κ : Type} {key : α → κ} {keys : List κ} {items : List α}

/-- A key is another one, or stands before it. -/
def Precedes (keys : List κ) (a b : κ) : Prop := a = b ∨ [a, b].Sublist keys

theorem precedes_of_cons {k a b : κ} (distinct : (k :: keys).Nodup) (ordered : Precedes (k :: keys) a b)
    (other : a ≠ k) : b ≠ k ∧ Precedes keys a b := by
  rcases ordered with rfl | both
  · exact ⟨other, .inl rfl⟩
  · cases both with
    | cons _ inside =>
      refine ⟨?_, .inr inside⟩
      rintro rfl
      exact (List.nodup_cons.1 distinct).1 (inside.subset (List.mem_cons_of_mem a List.mem_cons_self))
    | cons_cons => exact absurd rfl other

/- Where no item without the key comes before one with it, those with the key come first. -/
theorem filter_append_filter {holds : α → Bool}
    (first : items.Pairwise fun a b => holds b = true → holds a = true) :
    items.filter holds ++ items.filter (fun a => !holds a) = items := by
  induction items with
  | nil => rfl
  | cons a rest ih =>
    obtain ⟨before, ordered⟩ := List.pairwise_cons.1 first
    by_cases held : holds a = true
    · simp only [List.filter_cons, held, if_true, Bool.not_true, Bool.false_eq_true, if_false,
        List.cons_append, ih ordered]
    · have none : rest.filter holds = [] :=
        List.filter_eq_nil_iff.2 fun b member other => held (before b member other)
      have all : rest.filter (fun a => !holds a) = rest := by
        rw [none, List.nil_append] at ih
        exact ih ordered
      simp only [List.filter_cons, held, Bool.false_eq_true, if_false, Bool.not_false, if_true, none, all,
        List.nil_append]

variable [DecidableEq κ]

/- Items whose keys come in order are their groups, one after the other. -/
theorem groups_eq (distinct : keys.Nodup) (listed : ∀ a ∈ items, key a ∈ keys)
    (ordered : items.Pairwise fun a b => Precedes keys (key a) (key b)) :
    (keys.flatMap fun k => items.filter (key · = k)) = items := by
  induction keys generalizing items with
  | nil =>
    cases items with
    | nil => rfl
    | cons a rest => exact absurd (listed a List.mem_cons_self) List.not_mem_nil
  | cons k rest ih =>
    obtain ⟨fresh, distinct'⟩ := List.nodup_cons.1 distinct
    have later : ∀ a ∈ items.filter (fun a => !decide (key a = k)), a ∈ items ∧ key a ≠ k := by
      intro a member
      obtain ⟨inside, other⟩ := List.mem_filter.1 member
      exact ⟨inside, by simpa using other⟩
    have others : (rest.flatMap fun k' => items.filter (key · = k')) =
        items.filter (fun a => !decide (key a = k)) := by
      refine Eq.trans ?_ (ih distinct' ?_ ?_)
      · rw [List.flatMap_def, List.flatMap_def]
        congr 1
        refine List.map_congr_left fun k' member => ?_
        rw [List.filter_filter]
        refine List.filter_congr fun a _ => ?_
        have other : k' ≠ k := fun equal => fresh (equal ▸ member)
        by_cases same : key a = k'
        · simp [same, other]
        · simp [same]
      · intro a member
        obtain ⟨inside, other⟩ := later a member
        exact (List.mem_cons.1 (listed a inside)).resolve_left other
      · refine (ordered.filter _).imp_of_mem fun first _ both => ?_
        exact (precedes_of_cons distinct both (later _ first).2).2
    rw [List.flatMap_cons, others]
    refine filter_append_filter (List.Pairwise.imp ?_ ordered)
    intro a b both held
    refine decide_eq_true (Decidable.byContradiction fun other => ?_)
    exact (precedes_of_cons distinct both other).1 (of_decide_eq_true held)

/- Groups are in order. -/
theorem groups_ordered (key : α → κ) (keys : List κ) (items : List α) :
    (keys.flatMap fun k => items.filter (key · = k)).Pairwise fun a b => Precedes keys (key a) (key b) := by
  rw [List.pairwise_flatMap]
  have named : ∀ k, ∀ a ∈ items.filter (key · = k), key a = k := by
    intro k a member
    exact of_decide_eq_true (List.mem_filter.1 member).2
  constructor
  · intro k _
    refine List.pairwise_of_forall_mem_list fun a first b second => .inl ?_
    rw [named k a first, named k b second]
  · refine List.pairwise_iff_forall_sublist.2 fun both a first b second => .inr ?_
    rwa [named _ a first, named _ b second]

end Groups

/-- The message that an event brings. A typing bubble is none. -/
def Event.message? : Event → Option Message
  | .messageAdded message => if message.kind = .typing then none else some message
  | _ => none

theorem Account.history_hear (account : Account) (event : Event) (contact : String) :
    (account.hear event).histories.getD contact [] = account.histories.getD contact [] ++
      event.message?.toList.filter (·.contact = contact) := by
  cases event with
  | messageAdded message =>
    rw [hear, Event.message?]
    by_cases typed : message.kind = .typing
    · rw [if_pos typed, if_pos typed]
      simp
    · rw [if_neg typed, if_neg typed, Table.getD, Table.get?_insert]
      by_cases same : contact = message.contact
      · rw [if_pos same, same]
        simp [Table.getD]
      · rw [if_neg same]
        simp [Table.getD, Ne.symm same]
  | _ => simp [hear, Event.message?]

/- The messages that were heard stand in the histories. -/
theorem Account.history_after (account : Account) (events : List Event) (contact : String) :
    (account.after events).histories.getD contact [] = account.histories.getD contact [] ++
      (events.filterMap Event.message?).filter (·.contact = contact) := by
  induction events generalizing account with
  | nil => simp [after]
  | cons event rest ih =>
    have both : (event :: rest).filterMap Event.message? =
        event.message?.toList ++ rest.filterMap Event.message? := by
      rw [List.filterMap_cons]
      cases event.message? <;> rfl
    refine (ih (account.hear event)).trans ?_
    rw [history_hear, both, List.filter_append, List.append_assoc]

namespace Session

variable (s : Session) (epochs : Nat) (past : Array Event) (kept : Option String)

/- Events that are taken are remembered by whoever takes them. -/
theorem recast_takeEvents : s.recast epochs past kept =
    s.takeEvents.2.recast epochs (past ++ s.play.events) kept := by
  unfold recast takeEvents Play.recast
  dsimp only
  rw [Array.append_empty]

theorem recast_self : s.recast 0 #[] s.store.document = s := by
  unfold recast Play.recast Store.keeping
  rw [Queue.later_zero, Array.empty_append, ite_self]
  rfl

theorem walks_start_fresh (program : Program) (options : Options) {store : Store}
    (fresh : restored? store = none) (now : Nat) : Play.Walks Play.neverLocks
      ⟨program, .initial program options.typingDelay, ∅, 0, options.indicator, #[]⟩
      (start program options store now).play := by
  rw [start_of_fresh fresh, play_settle]
  have begun := (Play.spans_neverLocks now).beginStory ⟨program, .initial program options.typingDelay,
    ∅, 0, options.indicator, #[]⟩
  exact begun.trans ((Play.walks_fireDue _ now).trans (Play.walks_recordTimeline _ _))

/- Whatever is announced while a session is made stands in the histories. -/
theorem history_start {program : Program} (formed : program.WellFormed) {options : Options}
    {store : Store} (fresh : restored? store = none) (now : Nat) (contact : String) :
    (start program options store now).play.progress.history contact =
      ((start program options store now).play.events.toList.filterMap Event.message?).filter
        (·.contact = contact) := by
  obtain ⟨news, tells⟩ := Play.tells_walks (walks_start_fresh program options fresh now)
  have histories := congrArg (fun account => account.histories.getD contact []) tells.account
  rw [Account.history_after] at histories
  refine histories.symm.trans ?_
  have silent := Progress.history_initial formed options.typingDelay contact
  have events : (start program options store now).play.events.toList = news := tells.events
  rw [events]
  exact congrArg (· ++ _) silent

end Session

namespace Scenario

/-- What a step of a case does with a session. -/
def Step.operation : Step → Operation
  | .choose contact index => .choose contact index
  | .setVariable name value => .setVariable name value

/-- All that a case does with a session, at a clock that stands at zero. -/
def operations (steps : List Step) : List (Nat × Operation) :=
  (0, .flush) :: steps.flatMap fun step => [(0, step.operation), (0, .flush)]

/-- A run and a session from which no one has taken events, but which is otherwise the one of the run. What
the run has observed is `first`, and what was announced after `before`. -/
def Heard (first : List Observation) (before : List Event) (run : Run) (whole : Session) : Prop :=
  ∃ kept later, whole = run.session.recast 0 (before ++ later).toArray kept ∧
    run.session.play.events = #[] ∧ run.observed = first ++ later.filterMap Observation.ofEvent?

variable {first : List Observation} {before later : List Event} {run next : Run} {whole session : Session}
  {kept : Option String} {number : Nat}

/- Whatever an operation announces is observed. -/
theorem heard_observe (later : List Event) (kept : Option String)
    (same : whole = session.recast 0 (before ++ later).toArray kept)
    (observed : run.observed = first ++ later.filterMap Observation.ofEvent?) :
    Heard first before (run.observe session) whole.flush.1 := by
  refine ⟨kept, later ++ session.flush.1.play.events.toList, ?_, rfl, ?_⟩
  · have events : (before ++ later).toArray ++ session.flush.1.play.events =
        (before ++ (later ++ session.flush.1.play.events.toList)).toArray := by simp
    rw [same, Session.flush_recast, Session.recast_takeEvents, events]
    rfl
  · rw [List.filterMap_append, ← List.append_assoc, ← observed]
    rfl

theorem observe_of_step {step : Step} (done : run.step number step = .ok next) :
    next = run.observe (run.session.perform 0 step.operation) := by
  cases step with
  | choose contact index =>
    unfold Run.step at done
    dsimp only at done
    split at done
    · rename_i session accepted
      cases done
      rw [Step.operation, Session.perform, accepted]
      rfl
    · cases done
  | setVariable name value =>
    cases done
    rfl

theorem heard_step (heard : Heard first before run whole) {step : Step}
    (done : run.step number step = .ok next) :
    Heard first before next ((whole.perform 0 step.operation).perform 0 .flush) := by
  obtain ⟨kept, later, same, taken, observed⟩ := heard
  rw [observe_of_step done]
  refine heard_observe later kept ?_ observed
  rw [same, Session.perform_recast]
  cases step <;> rfl

/- What a whole run observes, by induction on its steps. -/
theorem heard_steps (heard : Heard first before run whole) {steps : List Step}
    (done : run.steps number steps = .ok next) :
    Heard first before next
      (whole.performAll (steps.flatMap fun step => [(0, step.operation), (0, .flush)])) := by
  induction steps generalizing run whole number with
  | nil =>
    cases done
    exact heard
  | cons step rest ih =>
    unfold Run.steps at done
    cases taken : run.step number step with
    | error fault =>
      rw [taken] at done
      cases done
    | ok after =>
      rw [taken] at done
      exact ih (heard_step heard taken) done

theorem heard_run (done : (Run.start session).steps 0 steps = .ok run) :
    Heard (Run.opening session) session.play.events.toList run (session.performAll (operations steps)) := by
  refine heard_steps ?_ done
  refine heard_observe [] session.store.document ?_ ?_
  · have events : #[] ++ session.play.events = (session.play.events.toList ++ []).toArray := by simp
    conv => lhs; rw [← session.recast_self, Session.recast_takeEvents, events]
  · rw [List.filterMap_nil, List.append_nil]

/-- What is observed of a message that is none of a typing bubble. -/
def Observation.ofMessage (m : Message) : Observation := .message m.contact m.text m.fromPlayer

def Observation.contact : Observation → String
  | .message contact .. | .unlocked contact | .thread contact _ => contact

/-- The messages among what a session has announced. -/
def messages (s : Session) : List Message := s.play.events.toList.filterMap Event.message?

/-- What a session has announced is messages to open contacts, contact after contact. -/
structure InTurn (s : Session) : Prop where
  /-- Nothing that is not a message would be observed. -/
  plain : ∀ event ∈ s.play.events.toList, event.message? = none → Observation.ofEvent? event = none
  opened : ∀ message ∈ messages s, message.contact ∈ s.unlockedNames
  ordered : (messages s).Pairwise fun a b => Precedes s.unlockedNames a.contact b.contact

theorem ofEvent?_of_message {event : Event} {message : Message} (brings : event.message? = some message) :
    Observation.ofEvent? event = some (.ofMessage message) := by
  cases event with
  | messageAdded other =>
    rw [Event.message?] at brings
    split at brings
    · cases brings
    · rename_i said
      cases brings
      rw [Observation.ofEvent?, if_neg said]
      rfl
  | _ => cases brings

theorem message_of_ofEvent? {event : Event} {message : Message}
    (observed : Observation.ofEvent? event = some (.ofMessage message)) : event.message? ≠ none := by
  cases event with
  | messageAdded other =>
    rw [Observation.ofEvent?] at observed
    rw [Event.message?]
    split at observed
    · cases observed
    · rename_i said
      rw [if_neg said]
      nofun
  | _ => cases observed

theorem observed_of_plain {s : Session} (plain : ∀ event ∈ s.play.events.toList, event.message? = none →
    Observation.ofEvent? event = none) :
    s.play.events.toList.filterMap Observation.ofEvent? = (messages s).map .ofMessage := by
  rw [messages, List.map_filterMap]
  refine List.filterMap_congr fun event member => ?_
  cases brings : event.message? with
  | none => exact plain event member brings
  | some message => exact ofEvent?_of_message brings

/-- The messages to the open contacts, contact after contact. -/
def grouped (s : Session) : List Message :=
  s.unlockedNames.flatMap fun contact => (messages s).filter (·.contact = contact)

/- The groups are all that was announced exactly if it came in turn. -/
theorem grouped_iff {s : Session} (distinct : s.play.program.order.Nodup) :
    (grouped s).map Observation.ofMessage = s.play.events.toList.filterMap Observation.ofEvent? ↔
      InTurn s := by
  constructor
  · intro same
    have plain : ∀ event ∈ s.play.events.toList, event.message? = none →
        Observation.ofEvent? event = none := by
      intro event member silent
      cases shown : Observation.ofEvent? event with
      | none => rfl
      | some observation =>
        have listed : observation ∈ s.play.events.toList.filterMap Observation.ofEvent? :=
          List.mem_filterMap.2 ⟨event, member, shown⟩
        rw [← same] at listed
        obtain ⟨message, _, rfl⟩ := List.mem_map.1 listed
        exact absurd silent (message_of_ofEvent? shown)
    rw [observed_of_plain plain] at same
    have contacts : (grouped s).map (·.contact) = (messages s).map (·.contact) := by
      have named := congrArg (List.map Observation.contact) same
      rwa [List.map_map, List.map_map] at named
    refine ⟨plain, ?_, ?_⟩
    · intro message member
      have listed : message.contact ∈ (grouped s).map (·.contact) :=
        contacts ▸ List.mem_map_of_mem (f := (·.contact)) member
      obtain ⟨other, grouped, same⟩ := List.mem_map.1 listed
      obtain ⟨contact, opened, inside⟩ := List.mem_flatMap.1 grouped
      have named : other.contact = contact := of_decide_eq_true (List.mem_filter.1 inside).2
      rwa [← same, named]
    · have ordered := groups_ordered Message.contact s.unlockedNames (messages s)
      have listed : ((grouped s).map (·.contact)).Pairwise (Precedes s.unlockedNames) :=
        List.pairwise_map.2 ordered
      rw [contacts] at listed
      exact List.pairwise_map.1 listed
  · intro turn
    rw [observed_of_plain turn.plain]
    exact congrArg (List.map Observation.ofMessage) (groups_eq (distinct.filter _) turn.opened turn.ordered)

/- What is put together from the histories of a new session is the messages in groups. -/
theorem opening_eq {source : String} {options : Options} {loaded : Loaded}
    (created : Session.create source options .empty 0 = .ok loaded) :
    Run.opening loaded.session = (grouped loaded.session).map .ofMessage := by
  rw [Run.opening, grouped, List.map_flatMap, start_of_create created]
  congr 1
  funext contact
  rw [Session.history_start (wellFormed_compile source) rfl]
  rfl

/-- The steps of a case, if none of them is rejected or fires more tasks than the limit. -/
def Run.stepsWithin (limit : Nat) (run : Run) : List Step → Option Run
  | [] => some run
  | step :: rest => do
    let session ← run.session.performWithin limit 0 step.operation
    Run.stepsWithin limit (run.observe session) rest

theorem steps_of_stepsWithin {limit : Nat} {steps : List Step} {last : Run}
    (within : run.stepsWithin limit steps = some last) : run.steps number steps = .ok last := by
  induction steps generalizing run number with
  | nil =>
    cases within
    rfl
  | cons step rest ih =>
    obtain ⟨session, performed, within⟩ := Option.bind_eq_some_iff.1 within
    have done : run.step number step = .ok (run.observe session) := by
      cases step with
      | setVariable name value =>
        rw [Run.step, ← Session.perform_of_performWithin performed]
        rfl
      | choose contact index =>
        obtain ⟨play, chosen, settled⟩ := Option.bind_eq_some_iff.1 performed
        have accepted : run.session.choose contact index 0 = some session := by
          rw [Session.choose_eq, chosen, ← Session.settle_of_settleWithin settled]
          rfl
        rw [Run.step, accepted]
    rw [Run.steps, done]
    exact ih within

/-- A case run on a script, if no operation fires more tasks than the limit. The session as it was made
comes with the run. -/
def ranWithin (limit : Nat) (source : String) (c : Case) : Option (Session × Run) :=
  match (compile source).result with
  | .ok program => do
    let session ← Session.startWithin limit program { typingDelay := c.typingDelay } .empty 0
    let run ← (Run.start session).stepsWithin limit c.steps
    return (session, run)
  | .error _ => none

/- What a computed run shows is shown by a run. -/
theorem ran_of_any {limit : Nat} {source : String} {c : Case} {shows : Session × Run → Bool}
    (within : (ranWithin limit source c).any shows = true) : ∃ loaded run,
      Session.create source { typingDelay := c.typingDelay } .empty 0 = .ok loaded ∧
      (Run.start loaded.session).steps 0 c.steps = .ok run ∧
      runSource source c = .ok ⟨run.observed, c.steps.length, run.session.play.progress.threads⟩ ∧
      shows (loaded.session, run) = true := by
  obtain ⟨both, ran, shown⟩ := (Option.any_eq_true _ _).1 within
  unfold ranWithin at ran
  split at ran
  · rename_i program compiled
    obtain ⟨session, started, ran⟩ := Option.bind_eq_some_iff.1 ran
    obtain ⟨run, stepped, same⟩ := Option.bind_eq_some_iff.1 ran
    cases same
    have created : Session.create source { typingDelay := c.typingDelay } .empty 0 =
        .ok ⟨session, (compile source).warnings⟩ := by
      rw [create_of_result compiled, Session.start_of_startWithin rfl started]
    have done : (Run.start session).steps 0 c.steps = .ok run := steps_of_stepsWithin stepped
    refine ⟨_, run, created, done, ?_, shown⟩
    rw [runSource, created]
    simp [Except.mapError, done, bind, Except.bind, pure, Except.pure]
  · cases ran

/- A run of a case observes, behind what is put together from the histories of the new session, all that
is announced from then on, in the order in which it is announced and up to the states in which the
threads end. It has observed all that was announced from the making of the session on exactly if
what was announced then was messages to open contacts alone, contact after contact. -/
theorem observed_iff {source : String} {c : Case} {report : Report}
    (ran : runSource source c = .ok report) : ∃ loaded,
      Session.create source { typingDelay := c.typingDelay } .empty 0 = .ok loaded ∧
      (loaded.session.performAll (operations c.steps)).play.progress.threads = report.threads ∧
      ∃ later, (loaded.session.performAll (operations c.steps)).play.events.toList =
          loaded.session.play.events.toList ++ later ∧
        report.observed =
          (grouped loaded.session).map .ofMessage ++ later.filterMap Observation.ofEvent? ∧
        (report.observed = (loaded.session.performAll
            (operations c.steps)).play.events.toList.filterMap Observation.ofEvent? ↔
          InTurn loaded.session) := by
  unfold runSource at ran
  cases created : Session.create source { typingDelay := c.typingDelay } .empty 0 with
  | error fault =>
    rw [created] at ran
    cases ran
  | ok loaded =>
    rw [created] at ran
    cases done : (Run.start loaded.session).steps 0 c.steps with
    | error fault =>
      simp [Except.mapError, done, bind, Except.bind] at ran
    | ok run =>
      have same : report = ⟨run.observed, c.steps.length, run.session.play.progress.threads⟩ := by
        simpa [Except.mapError, done, bind, Except.bind, pure, Except.pure] using ran.symm
      obtain ⟨kept, later, whole, taken, observed⟩ := heard_run done
      have events : (loaded.session.performAll (operations c.steps)).play.events.toList =
          loaded.session.play.events.toList ++ later := by
        rw [whole]
        change ((loaded.session.play.events.toList ++ later).toArray ++ run.session.play.events).toList = _
        rw [taken]
        simp
      have distinct : loaded.session.play.program.order.Nodup := by
        rw [start_of_create created, (Session.walks_start_fresh _ _ rfl 0).program]
        exact distinct_compile source
      rw [opening_eq created] at observed
      refine ⟨loaded, rfl, ?_, later, events, ?_, ?_⟩
      · rw [whole, same]
        rfl
      · rw [same]
        exact observed
      · rw [events, List.filterMap_append, same]
        refine Iff.trans ?_ (grouped_iff distinct)
        rw [observed]
        exact List.append_left_inj _

/-- A case in which the first choice of a contact is made. -/
def picksFirst : Case := ⟨0, [.choose "A" 0], [], ∅⟩

def showsIntroduction : Session × Run → Bool
  | (session, run) => run.observed.contains (.unlocked "B") &&
      decide ((grouped session).map Observation.ofMessage =
        session.play.events.toList.filterMap Observation.ofEvent?)

theorem ran_showsIntroduction :
    (ranWithin 6 Session.introducing picksFirst).any showsIntroduction = true := by
  decide +kernel

/- An unlock that comes with a reply is observed where it happens. -/
theorem observed_iff_introducing : ∃ report, runSource Session.introducing picksFirst = .ok report ∧
    .unlocked "B" ∈ report.observed ∧ ∃ loaded,
      Session.create Session.introducing { typingDelay := picksFirst.typingDelay } .empty 0 = .ok loaded ∧
        InTurn loaded.session ∧
        report.observed = (loaded.session.performAll
          (operations picksFirst.steps)).play.events.toList.filterMap Observation.ofEvent? := by
  obtain ⟨made, run, created, _, ran, shown⟩ := ran_of_any ran_showsIntroduction
  obtain ⟨listed, same⟩ := Bool.and_eq_true_iff.1 shown
  obtain ⟨loaded, created', _, _, _, _, all⟩ := observed_iff ran
  rw [created] at created'
  cases created'
  have distinct : made.session.play.program.order.Nodup := by
    rw [start_of_create created, (Session.walks_start_fresh _ _ rfl 0).program]
    exact distinct_compile _
  have turn := (grouped_iff distinct).1 (of_decide_eq_true same)
  exact ⟨_, ran, List.contains_iff_mem.1 listed, made, created, turn, all.2 turn⟩

/-- The opening unlocks another contact. -/
def opensDoor : String :=
  ":: A-Round-1 [initial_contact]\nHi\n[Action: unlock_contact: B]\n\n:: B-Round-1 [chat]\nHello.\n"

/-- A case in which nothing is done. -/
def looksOn : Case := ⟨0, [], [], ∅⟩

def missesUnlock : Session × Run → Bool
  | (session, run) =>
    decide (run.observed = [.message "A" "Hi" false, .message "A" "B has been unlocked" false,
      .message "B" "Hello." false]) &&
    decide (session.flush.1.play.events.toList.filterMap Observation.ofEvent? =
      [.message "A" "Hi" false, .message "A" "B has been unlocked" false, .unlocked "B",
        .thread "B" .active, .message "B" "Hello." false])

theorem ran_missesUnlock : (ranWithin 6 opensDoor looksOn).any missesUnlock = true := by
  decide +kernel

/- The unlock in an opening, and the change of the thread, are announced and not observed. -/
theorem opening_unobserved : ∃ loaded report,
    Session.create opensDoor { typingDelay := looksOn.typingDelay } .empty 0 = .ok loaded ∧
      runSource opensDoor looksOn = .ok report ∧
      report.observed = [.message "A" "Hi" false, .message "A" "B has been unlocked" false,
        .message "B" "Hello." false] ∧
      (loaded.session.performAll (operations looksOn.steps)).play.events.toList.filterMap
          Observation.ofEvent? =
        [.message "A" "Hi" false, .message "A" "B has been unlocked" false, .unlocked "B",
          .thread "B" .active, .message "B" "Hello." false] := by
  obtain ⟨loaded, run, created, _, ran, shown⟩ := ran_of_any ran_missesUnlock
  obtain ⟨observed, announced⟩ := Bool.and_eq_true_iff.1 shown
  exact ⟨loaded, _, created, ran, of_decide_eq_true observed, of_decide_eq_true announced⟩

end Scenario

end ChatStory
