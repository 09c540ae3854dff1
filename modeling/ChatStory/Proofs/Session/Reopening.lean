import ChatStory.Proofs.Session.Arising
import ChatStory.Proofs.Session.Computed
import ChatStory.Proofs.Session.Deeds

/-!
What an assignment reopens. Each closed thread is reopened once at most, none is closed, and whoever has
a conditional round that the assignment makes available is reopened, be it with that round or,
within the rounds that are entered on the way, with another one.
-/
namespace ChatStory

/-- The condition of a conditional round of the contact did not hold before and holds now. -/
def Contact.NewlyOpen (contact : Contact) (before now : Variables) (key : RoundKey) : Prop :=
  ∃ round condition, contact.rounds.get? key = some round ∧ key.isConditional = true ∧
    round.condition = some condition ∧ condition.holds before = false ∧ condition.holds now = true

namespace Deed

/-- The contact whose thread is reopened. -/
def reopened? : Deed → Option String
  | reopened _ contact _ => some contact
  | _ => none

/-- The variables after a deed. -/
def apply (values : Variables) : Deed → Variables
  | assigned _ name value => values.insert name value
  | _ => values

end Deed

/-- How often the contact's thread is reopened. -/
def reopenings (c : String) (deeds : List Deed) : Nat := (deeds.filterMap Deed.reopened?).count c

theorem reopenings_append (c : String) (deeds more : List Deed) :
    reopenings c (deeds ++ more) = reopenings c deeds + reopenings c more := by
  rw [reopenings, List.filterMap_append, List.count_append]
  rfl

/-- Among some deeds is an assignment that makes the round available, and those behind it leave the
variables as they are now. -/
def Listed (early : List Deed) (c : String) (key : RoundKey) (now : Play) : Prop :=
  ∃ before q name value between contact, early = before ++ .assigned q name value :: between ∧
    now.program.contact? c = some contact ∧
    contact.NewlyOpen q.progress.values (q.progress.values.insert name value) key ∧
    now.progress.values = between.foldl Deed.apply (q.progress.values.insert name value)

theorem Listed.after {early : List Deed} {c : String} {key : RoundKey} {now : Play}
    (listed : Listed early c key now) (front : List Deed) : Listed (front ++ early) c key now := by
  obtain ⟨before, q, name, value, between, contact, rfl, rest⟩ := listed
  exact ⟨front ++ before, q, name, value, between, contact, (List.append_assoc ..).symm, rest⟩

/- What stands in a list that was put together stands in one of its parts. -/
theorem split_append {α : Type} {front back early later : List α} {x : α}
    (same : front ++ back = early ++ x :: later) : (∃ rest, front = early ++ x :: rest) ∨
      ∃ others, early = front ++ others ∧ back = others ++ x :: later := by
  rcases List.append_eq_append_iff.1 same with ⟨others, early, back⟩ | ⟨rest, front, later⟩
  · exact .inr ⟨others, early, back⟩
  · cases rest with
    | nil => exact .inr ⟨[], by rw [front, List.append_nil, List.append_nil], later.symm⟩
    | cons y rest =>
      obtain ⟨rfl, _⟩ := List.cons.inj later
      exact .inl ⟨rest, front⟩

namespace Play

/-- The contact is in a conditional round of its own. -/
def InConditional (play : Play) (c : String) : Prop :=
  ∃ key round, play.progress.rounds.get? c = some key ∧ key.isConditional = true ∧
    play.program.round? c key = some round

/-- A cascade of reopenings: it closes nothing, and whoever does not stay where he is was closed and has
been reopened once. Those that are due may be reopened without an assignment on the way. -/
structure Cascades (due : String → RoundKey → Prop) (a : Play) (deeds : List Deed) (b : Play) :
    Prop where
  program : b.program = a.program
  values : b.progress.values = deeds.foldl Deed.apply a.progress.values
  fewer : b.closedThreads ≤ a.closedThreads
  each : ∀ c, (reopenings c deeds = 0 ∧ Stays True True c a b) ∨
    (reopenings c deeds = 1 ∧ a.progress.isClosed c = true ∧ b.Open c ∧ b.InConditional c)
  grounds : ∀ early now c key later, deeds = early ++ .reopened now c key :: later →
    Listed early c key now ∨ (due c key ∧ now.program = a.program ∧
      now.progress.values = early.foldl Deed.apply a.progress.values)

/-- Nothing is due. -/
abbrev undue : String → RoundKey → Prop := fun _ _ => False

variable {due : String → RoundKey → Prop} {a b c : Play} {deeds more : List Deed}

theorem isClosed_of_thread {contact : String}
    (same : b.progress.thread? contact = a.progress.thread? contact) :
    b.progress.isClosed contact = a.progress.isClosed contact := by
  rw [Progress.isClosed, same]
  rfl

theorem InConditional.stays {told laid : Prop} {contact : String} (inside : a.InConditional contact)
    (stays : Stays told laid contact a b) (program : b.program = a.program) :
    b.InConditional contact := by
  obtain ⟨key, round, current, conditional, found⟩ := inside
  exact ⟨key, round, stays.round.trans current, conditional, by rw [program]; exact found⟩

namespace Cascades

/- Deeds that reopen nothing, and leave threads and rounds alone. -/
theorem of_plain (due : String → RoundKey → Prop) (plain : ∀ deed ∈ deeds, deed.reopened? = none)
    (program : b.program = a.program)
    (values : b.progress.values = deeds.foldl Deed.apply a.progress.values)
    (threads : b.progress.threads = a.progress.threads)
    (unlocked : b.progress.unlocked = a.progress.unlocked)
    (rounds : b.progress.rounds = a.progress.rounds) : Cascades due a deeds b := by
  refine ⟨program, values, ?_, fun c => .inl ⟨?_, ?_⟩, ?_⟩
  · unfold closedThreads
    rw [threads]
  · rw [reopenings, List.filterMap_eq_nil_iff.2 plain]
    rfl
  · refine ⟨?_, by rw [unlocked], by rw [rounds], fun t => absurd trivial t, fun l => absurd trivial l,
      fun l => absurd trivial l⟩
    rw [Progress.thread?, Progress.thread?, threads]
  · rintro early now c key later rfl
    cases plain (.reopened now c key) (List.mem_append_right _ List.mem_cons_self)

theorem of_same (due : String → RoundKey → Prop) (program : b.program = a.program)
    (values : b.progress.values = a.progress.values) (threads : b.progress.threads = a.progress.threads)
    (unlocked : b.progress.unlocked = a.progress.unlocked)
    (rounds : b.progress.rounds = a.progress.rounds) : Cascades due a [] b :=
  of_plain due (fun _ => nofun) program values threads unlocked rounds

theorem refl (due : String → RoundKey → Prop) (a : Play) : Cascades due a [] a :=
  of_same due rfl rfl rfl rfl rfl

/- Whoever has been reopened is open, and is not reopened again. -/
theorem trans (first : Cascades due a deeds b) (second : Cascades due b more c) :
    Cascades due a (deeds ++ more) c := by
  refine ⟨second.program.trans first.program, ?_, Nat.le_trans second.fewer first.fewer, ?_, ?_⟩
  · rw [second.values, first.values, List.foldl_append]
  · intro d
    rw [reopenings_append]
    rcases first.each d with ⟨none, before⟩ | ⟨once, closed, opened, inside⟩
    · rcases second.each d with ⟨none', after⟩ | ⟨once, closed, opened, inside⟩
      · exact .inl ⟨by rw [none, none'], before.trans after⟩
      · refine .inr ⟨by rw [none, once], ?_, opened, inside⟩
        rw [← isClosed_of_thread before.thread]
        exact closed
    · rcases second.each d with ⟨none, after⟩ | ⟨_, again, _, _⟩
      · exact .inr ⟨by rw [once, none], closed, after.open_iff.2 opened, inside.stays after second.program⟩
      · exact absurd opened (not_open_of_closed again)
  · intro early now d key later same
    rcases split_append same with ⟨rest, before⟩ | ⟨others, rfl, after⟩
    · exact first.grounds early now d key rest before
    · rcases second.grounds others now d key later after with listed | ⟨allowed, program, values⟩
      · exact .inl (listed.after deeds)
      · refine .inr ⟨allowed, program.trans first.program, ?_⟩
        rw [values, first.values, List.foldl_append]

theorem widen {wider : String → RoundKey → Prop} (cascades : Cascades due a deeds b)
    (further : ∀ c key, due c key → wider c key) : Cascades wider a deeds b := by
  refine { cascades with grounds := fun early now d key later same => ?_ }
  exact (cascades.grounds early now d key later same).imp_right fun ⟨allowed, rest⟩ =>
    ⟨further d key allowed, rest⟩

theorem quiet (first : Cascades due a deeds b) (second : Cascades due b [] c) :
    Cascades due a deeds c := by
  have both := first.trans second
  rwa [List.append_nil] at both

/- A deed that reopens nothing. -/
theorem noted (due : String → RoundKey → Prop) {deed : Deed} (plain : deed.reopened? = none)
    (program : b.program = a.program) (values : b.progress.values = deed.apply a.progress.values)
    (threads : b.progress.threads = a.progress.threads)
    (unlocked : b.progress.unlocked = a.progress.unlocked)
    (rounds : b.progress.rounds = a.progress.rounds) : Cascades due a [deed] b :=
  of_plain due (List.forall_mem_singleton.2 plain) program values threads unlocked rounds

theorem assigned (due : String → RoundKey → Prop) (a : Play) (name : String) (value : Value) :
    Cascades due a [.assigned a name value] (a.setVariable name value) :=
  .noted due rfl rfl rfl rfl rfl rfl

end Cascades

/-- Only the contact is due, with the round. -/
abbrev onlyDue (contact : String) (key : RoundKey) : String → RoundKey → Prop :=
  fun c other => c = contact ∧ other = key

/-- Where no more than so many threads are closed, a contact is reopened with a conditional round of its
own unless it is open, and then it is open. -/
def Turning (bound : Nat) (again : Reopening) (told : Retelling) : Prop :=
  ∀ play contact key time, play.closedThreads ≤ bound → play.program.WellFormed →
    (play.program.round? contact key).isSome = true → key.isConditional = true →
    Cascades (onlyDue contact key) play (told play contact key time) (again play contact key time) ∧
      (again play contact key time).progress.isClosed contact = false

theorem Cascades.stays_open {contact : String} (cascades : Cascades due a deeds b)
    (opened : a.progress.isClosed contact = false) : b.progress.isClosed contact = false := by
  rcases cascades.each contact with ⟨_, stays⟩ | ⟨_, closed, _, _⟩
  · rw [isClosed_of_thread stays.thread]
    exact opened
  · rw [opened] at closed
    cases closed

/- Whoever was closed and no longer is has been reopened. -/
theorem Cascades.reopened_of {contact : String} (cascades : Cascades due a deeds b)
    (closed : a.progress.isClosed contact = true) (opened : b.progress.isClosed contact = false) :
    reopenings contact deeds = 1 ∧ b.Open contact ∧ b.InConditional contact := by
  rcases cascades.each contact with ⟨_, stays⟩ | ⟨once, _, opened, inside⟩
  · rw [isClosed_of_thread stays.thread, closed] at opened
    cases opened
  · exact ⟨once, opened, inside⟩

theorem newlyOpen_of_some {contact : Contact} (formed : contact.WellFormed) {before now : Variables}
    {key : RoundKey} (found : newlyOpen? contact before now = some key) :
    contact.NewlyOpen before now key := by
  obtain ⟨round, first, rfl⟩ := Option.map_eq_some_iff.1 found
  obtain ⟨listed, conditional⟩ := List.mem_filter.1 (List.mem_of_find?_eq_some first)
  obtain ⟨⟨key, other⟩, entry, same⟩ := List.mem_map.1 listed
  have read : contact.rounds.get? key = some other := Table.get?_eq_some_iff.2 entry
  have own := formed.keys key other read
  dsimp only at same
  subst same
  have satisfied := List.find?_some first
  obtain ⟨condition, tests, holds⟩ := (Option.any_eq_true _ _).1 satisfied
  simp only [Bool.and_eq_true, Bool.not_eq_true'] at holds
  exact ⟨other, condition, by rw [own]; exact read, conditional, tests, holds.1, holds.2⟩

/- A contact with such a round has a first one. -/
theorem exists_newlyOpen {contact : Contact} (formed : contact.WellFormed) {before now : Variables}
    {key : RoundKey} (opens : contact.NewlyOpen before now key) :
    ∃ first, newlyOpen? contact before now = some first := by
  obtain ⟨round, condition, found, conditional, tests, closed, holds⟩ := opens
  have own := formed.keys key round found
  rw [← Option.isSome_iff_exists, newlyOpen?, Option.isSome_map, List.find?_isSome]
  refine ⟨round, List.mem_filter.2 ⟨?_, by rw [own]; exact conditional⟩, ?_⟩
  · exact List.mem_map.2 ⟨(key, round), Table.get?_eq_some_iff.1 found, rfl⟩
  · rw [tests, Option.any_some, closed, holds]
    rfl

theorem entry_of_nowOpen (formed : a.program.WellFormed) {before : Variables}
    {entry : String × RoundKey} (member : entry ∈ a.nowOpen before) : ∃ contact,
      a.program.contact? entry.1 = some contact ∧
        contact.NewlyOpen before a.progress.values entry.2 := by
  obtain ⟨contact, listed, opened⟩ := List.mem_filterMap.1 member
  obtain ⟨key, newly, rfl⟩ := Option.map_eq_some_iff.1 opened
  have found := formed.mem_inOrder (List.mem_filter.1 listed).1
  exact ⟨contact, found, newlyOpen_of_some (formed.contacts _ _ found) newly⟩

/- Every closed contact with such a round is listed, with one of them. -/
theorem mem_nowOpen (formed : a.program.WellFormed) {before : Variables} {c : String}
    {contact : Contact} (found : a.program.contact? c = some contact)
    (closed : a.progress.isClosed c = true) {key : RoundKey}
    (opens : contact.NewlyOpen before a.progress.values key) : ∃ first, (c, first) ∈ a.nowOpen before := by
  obtain ⟨first, newly⟩ := exists_newlyOpen (formed.contacts c contact found) opens
  have own := formed.names c contact found
  refine ⟨first, List.mem_filterMap.2 ⟨contact, List.mem_filter.2 ⟨formed.inOrder_of_contact found, ?_⟩, ?_⟩⟩
  · rw [own]
    exact closed
  · rw [newly, own]
    rfl

section Cascade

variable {bound : Nat} {again : Reopening} {told : Retelling} (turning : Turning bound again told)

include turning

/- Contacts that are due are reopened one after the other; in the end none of them is closed. -/
theorem cascades_due {items : List (String × RoundKey)} (formed : a.program.WellFormed)
    (few : a.closedThreads ≤ bound) (time : Nat)
    (own : ∀ entry ∈ items, (a.program.round? entry.1 entry.2).isSome = true ∧
      entry.2.isConditional = true) :
    Cascades (fun c key => (c, key) ∈ items) a
        (eachDeeds (fun play (entry : String × RoundKey) => again play entry.1 entry.2 time)
          (fun play entry => told play entry.1 entry.2 time) a items)
        (items.foldl (fun play entry => again play entry.1 entry.2 time) a) ∧
      ∀ entry ∈ items, (items.foldl (fun play (entry : String × RoundKey) =>
        again play entry.1 entry.2 time) a).progress.isClosed entry.1 = false := by
  induction items generalizing a with
  | nil => exact ⟨.refl _ a, fun _ => nofun⟩
  | cons entry rest ih =>
    obtain ⟨⟨found, conditional⟩, others⟩ := List.forall_mem_cons.1 own
    obtain ⟨first, opened⟩ := turning a entry.1 entry.2 time few formed found conditional
    obtain ⟨later, ends⟩ := ih (a := again a entry.1 entry.2 time)
      (by rw [first.program]; exact formed) (Nat.le_trans first.fewer few)
      (by rw [first.program]; exact others)
    constructor
    · apply (first.widen _).trans (later.widen fun c key => List.mem_cons_of_mem entry)
      rintro c key ⟨rfl, rfl⟩
      exact List.mem_cons_self
    · exact List.forall_mem_cons.2 ⟨later.stays_open opened, ends⟩

/- What an assignment lists is grounded in it. -/
theorem cascades_assignWith (formed : a.program.WellFormed) (few : a.closedThreads ≤ bound)
    (name : String) (value : Value) (time : Nat) :
    Cascades undue a (a.assignDeeds again told name value time) (a.assignWith again name value time) ∧
      ((a.progress.values.get? name).any (·.same value) = false →
        ∀ entry ∈ (a.setVariable name value).nowOpen a.progress.values,
          (a.assignWith again name value time).progress.isClosed entry.1 = false) := by
  unfold assignDeeds assignWith
  dsimp only
  split
  · rename_i same
    exact ⟨.refl _ a, fun fresh => by rw [fresh] at same; cases same⟩
  · have entries : ∀ entry ∈ (a.setVariable name value).nowOpen a.progress.values, ∃ contact,
        a.program.contact? entry.1 = some contact ∧ contact.NewlyOpen a.progress.values
          (a.progress.values.insert name value) entry.2 :=
      fun _ member => entry_of_nowOpen (a := a.setVariable name value) formed member
    have own : ∀ entry ∈ (a.setVariable name value).nowOpen a.progress.values,
        (a.program.round? entry.1 entry.2).isSome = true ∧ entry.2.isConditional = true := by
      intro entry member
      obtain ⟨contact, found, round, condition, own, conditional, _⟩ := entries entry member
      refine ⟨?_, conditional⟩
      rw [Program.round?, found, Option.bind_some, own]
      rfl
    obtain ⟨due, ends⟩ := cascades_due turning (a := a.setVariable name value) formed few time own
    have whole := (Cascades.assigned _ a name value).trans due
    refine ⟨{ whole with grounds := fun early now c key later same => ?_ }, fun _ => ends⟩
    rcases whole.grounds early now c key later same with listed | ⟨member, program, values⟩
    · exact .inl listed
    · obtain ⟨contact, found, opens⟩ := entries (c, key) member
      cases early with
      | nil => cases (List.cons.inj same).1
      | cons first early =>
        obtain ⟨rfl, _⟩ := List.cons.inj same
        refine .inl ⟨[], a, name, value, early, contact, rfl, ?_, opens, values⟩
        rw [program]
        exact found

theorem cascades_effectWith (formed : a.program.WellFormed) (few : a.closedThreads ≤ bound)
    {contact : String} {time : Nat} {effect : Effect}
    (done : a.effectWith? again contact time effect = some b) :
    Cascades undue a (a.effectDeeds again told time effect) b := by
  cases effect with
  | setVariable name value =>
    cases done
    exact (cascades_assignWith turning formed few name value time).1
  | unlockContact | delayedMessage | setContactStatus | openThread =>
    simp only [effectWith?] at done
    split at done
    · cases done
      exact .of_same _ rfl rfl rfl rfl rfl
    · cases done
  | _ =>
    cases done
    exact .of_same _ rfl rfl rfl rfl rfl

theorem cascades_runWith (formed : a.program.WellFormed) (few : a.closedThreads ≤ bound)
    (contact : String) (action : Action) (time : Nat) :
    Cascades undue a (a.runDeeds again told contact action time)
      (a.runWith again contact action time) := by
  have ran : ∀ (play : Play) done, Cascades undue play [.ran contact action done] play :=
    fun play done => .noted _ rfl rfl rfl rfl rfl rfl
  unfold runDeeds runWith
  cases done : a.effectWith? again contact time action.effect with
  | none =>
    rw [effectDeeds_of_failed done]
    exact ran a false
  | some after =>
    have effect := (cascades_effectWith turning formed few done).trans (ran after true)
    dsimp only
    split
    · exact effect
    · exact effect.quiet (.of_same _ rfl rfl rfl rfl rfl)

theorem cascades_planWith (formed : a.program.WellFormed) (few : a.closedThreads ≤ bound)
    (contact : String) (time : Nat) (actions : List Action) :
    Cascades undue a (a.planDeeds again told contact time actions)
      (a.planWith again contact time actions).1 := by
  induction actions generalizing a with
  | nil => exact .refl _ a
  | cons action rest ih =>
    have ran := cascades_runWith turning formed few contact action time
    have later := ih (a := a.runWith again contact action time) (by rw [ran.program]; exact formed)
      (Nat.le_trans ran.fewer few)
    simp only [planWith, planDeeds]
    split
    · exact ran.trans later
    · split
      · exact ih formed few
      · exact ran.trans later

omit turning

theorem cascades_layOut (a : Play) (contact text : String) (plan : Plan) (time : Nat) (tempo : Tempo) :
    Cascades undue a [] (a.layOut contact text plan time tempo) := by
  have same : (a.reply contact text time tempo).1.progress.values = a.progress.values ∧
      (a.reply contact text time tempo).1.progress.threads = a.progress.threads ∧
      (a.reply contact text time tempo).1.progress.unlocked = a.progress.unlocked ∧
      (a.reply contact text time tempo).1.progress.rounds = a.progress.rounds := by
    cases tempo with
    | immediate =>
      simp only [reply]
      split <;> exact ⟨rfl, rfl, rfl, rfl⟩
    | typed =>
      rw [progress_reply_typed]
      exact ⟨rfl, rfl, rfl, rfl⟩
  rw [← progress_layOut a contact text plan time tempo] at same
  exact .of_same _ (enters_layOut a contact text plan time tempo).program same.1 same.2.1 same.2.2.1
    same.2.2.2

theorem cascades_foldl {α : Type} {step : Play → α → Play} {deedsOf : Play → α → List Deed}
    (each : ∀ play item, play.program.WellFormed → play.closedThreads ≤ bound →
      Cascades undue play (deedsOf play item) (step play item))
    (formed : a.program.WellFormed) (few : a.closedThreads ≤ bound) (items : List α) :
    Cascades undue a (eachDeeds step deedsOf a items) (items.foldl step a) := by
  induction items generalizing a with
  | nil => exact .refl _ a
  | cons item rest ih =>
    have first := each a item formed few
    exact first.trans (ih (by rw [first.program]; exact formed) (Nat.le_trans first.fewer few))

include turning

/- Once a contact has been put into a round, the round reopens only others. -/
theorem cascades_enterWith {contact : String} {key : RoundKey} {round : Round}
    (found : a.program.round? contact key = some round) (formed : a.program.WellFormed)
    (few : a.closedThreads ≤ bound) (time : Nat) (tempo : Tempo) (leading : Option Action) :
    Cascades undue (a.placed contact key) (a.enterDeeds again told contact key time leading)
      (a.enterWith again contact key time tempo leading) := by
  unfold enterDeeds
  rw [enterWith_eq again found, found]
  have set := cascades_foldl (a := a.placed contact key) (fun play (s : Assignment) formed few =>
    (cascades_assignWith turning formed few s.name s.value time).1) formed few
      (a.evaluation round).assignments
  have planned := cascades_planWith turning (a := (a.evaluation round).assignments.foldl
      (fun play (s : Assignment) => play.assignWith again s.name s.value time) (a.placed contact key))
    (by rw [set.program]; exact formed) (Nat.le_trans set.fewer few) contact time
      (leading.toList ++ (a.evaluation round).actions)
  have handed : ∀ play, Cascades undue play [.handed contact (leading.toList ++
      (a.evaluation round).actions)] play := fun play => .noted _ rfl rfl rfl rfl rfl rfl
  exact ((set.trans ((handed _).trans planned))).quiet (cascades_layOut _ contact _ _ time tempo)

end Cascade

/- To reopen a thread makes it active and unlocks its contact, and nothing else. -/
theorem reopened_facts (a : Play) (contact : String) :
    (a.reopened contact).program = a.program ∧
      (a.reopened contact).progress.values = a.progress.values ∧
      (a.reopened contact).progress.rounds = a.progress.rounds ∧
      (∀ c, (a.reopened contact).progress.thread? c =
        if c = contact then some .active else a.progress.thread? c) ∧
      ∀ c, (a.reopened contact).progress.unlocked.has c =
        if c = contact then true else a.progress.unlocked.has c := by
  unfold reopened
  let freed := a.revise fun p => { p with endings := p.endings.remove contact }
  obtain ⟨program, values, threads⟩ := program_setUnlocked (freed.putThread contact .active) contact
  obtain ⟨program', values'⟩ := program_putThread freed contact .active
  have rounds := (history_setUnlocked (freed.putThread contact .active) contact contact).2.1
  have rounds' := (history_putThread freed contact .active contact).2.1
  refine ⟨program.trans program', values.trans values', rounds.trans rounds', fun c => ?_, fun c => ?_⟩
  · rw [Progress.thread?, threads]
    exact thread?_putThread_of freed contact .active c
  · rw [unlocked_setUnlocked, unlocked_putThread]
    rfl

/- A thread that is reopened is the only one that has been, once its round is entered. -/
theorem cascades_reopened {contact : String} {key : RoundKey}
    (found : (a.program.round? contact key).isSome = true) (conditional : key.isConditional = true)
    (closed : a.progress.isClosed contact = true)
    (inner : Cascades undue ((a.reopened contact).placed contact key) deeds b) :
    Cascades (onlyDue contact key) a (.reopened a contact key :: deeds) b ∧
      b.progress.isClosed contact = false := by
  obtain ⟨program, values, rounds, threads, unlocked⟩ := reopened_facts a contact
  have opened : ((a.reopened contact).placed contact key).Open contact := by
    refine ⟨(threads contact).trans (if_pos rfl), (unlocked contact).trans (if_pos rfl)⟩
  have rounds' : ∀ c, ((a.reopened contact).placed contact key).progress.rounds.get? c =
      if c = contact then some key else a.progress.rounds.get? c := by
    intro c
    rw [← rounds]
    exact Table.get?_insert _ _ _ _
  have inside : ((a.reopened contact).placed contact key).InConditional contact := by
    obtain ⟨round, found⟩ := Option.isSome_iff_exists.1 found
    refine ⟨key, round, (rounds' contact).trans (if_pos rfl), conditional, ?_⟩
    change (a.reopened contact).program.round? contact key = _
    rw [program]
    exact found
  have count : ∀ c, reopenings c (.reopened a contact key :: deeds) =
      reopenings c deeds + if contact = c then 1 else 0 := by
    intro c
    rw [reopenings, List.filterMap_cons_some (show Deed.reopened? _ = some contact from rfl),
      List.count_cons]
    simp only [beq_iff_eq]
    rfl
  have own : reopenings contact deeds = 0 ∧
      Stays True True contact ((a.reopened contact).placed contact key) b := by
    rcases inner.each contact with stays | ⟨_, again, _, _⟩
    · exact stays
    · exact absurd opened (not_open_of_closed again)
  refine ⟨⟨inner.program.trans program, ?_, ?_, ?_, ?_⟩, ?_⟩
  · rw [inner.values]
    exact congrArg (deeds.foldl Deed.apply) values
  · exact Nat.le_trans inner.fewer (Nat.le_of_lt (closedThreads_reopened closed))
  · intro c
    rw [count]
    by_cases same : c = contact
    · subst same
      exact .inr ⟨by rw [own.1, if_pos rfl], closed, own.2.open_iff.2 opened,
        inside.stays own.2 inner.program⟩
    · rw [if_neg (Ne.symm same), Nat.add_zero]
      have thread := (threads c).trans (if_neg same)
      have there := (unlocked c).trans (if_neg same)
      have round := (rounds' c).trans (if_neg same)
      rcases inner.each c with ⟨none, stays⟩ | ⟨once, again, opens, enters⟩
      · refine .inl ⟨none, stays.thread.trans thread, stays.unlocked.trans there,
          stays.round.trans round, fun t => absurd trivial t, fun l => absurd trivial l,
      fun l => absurd trivial l⟩
      · refine .inr ⟨once, ?_, opens, enters⟩
        rw [← isClosed_of_thread thread]
        exact again
  · intro early now c other later same
    cases early with
    | nil =>
      cases (List.cons.inj same).1
      exact .inr ⟨⟨rfl, rfl⟩, rfl, rfl⟩
    | cons first early =>
      obtain ⟨rfl, tail⟩ := List.cons.inj same
      rcases inner.grounds early now c other later tail with listed | ⟨none, _⟩
      · exact .inl (listed.after [_])
      · cases none
  · rw [Progress.isClosed, own.2.thread]
    exact congrArg (Option.any (·.isClosed)) opened.1

/- By induction on how deep reopenings go. -/
theorem turning_reopen (depth : Nat) : Turning depth (reopen depth) (reopenDeeds depth) := by
  induction depth with
  | zero =>
    intro play contact key time few _ _ _
    refine ⟨.refl _ play, ?_⟩
    change play.progress.isClosed contact = false
    rw [Bool.eq_false_iff]
    intro closed
    have less := closedThreads_reopened closed
    omega
  | succ depth ih =>
    intro play contact key time few formed found conditional
    rw [reopen_succ, reopenDeeds]
    cases closed : play.progress.isClosed contact with
    | false => exact ⟨.refl _ play, closed⟩
    | true =>
      have less := closedThreads_reopened closed
      have program := (reopened_facts play contact).1
      obtain ⟨round, same⟩ := Option.isSome_iff_exists.1 found
      exact cascades_reopened found conditional closed (cascades_enterWith ih
        (by rw [program]; exact same) (by rw [program]; exact formed) (by omega) time .typed none)

/-- Two retellings tell the same wherever no more than so many threads are closed. -/
def Concur (bound : Nat) (told other : Retelling) : Prop :=
  ∀ play contact key time, play.closedThreads ≤ bound →
    told play contact key time = other play contact key time

theorem eachDeeds_agree {bound : Nat} {α : Type} {first second : Play → α → Play}
    {told other : Play → α → List Deed}
    (agree : ∀ play item, play.closedThreads ≤ bound → first play item = second play item)
    (concur : ∀ play item, play.closedThreads ≤ bound → told play item = other play item)
    (walks : ∀ play item, Walks onlyOpens play (first play item)) (few : a.closedThreads ≤ bound)
    (items : List α) : eachDeeds first told a items = eachDeeds second other a items := by
  induction items generalizing a with
  | nil => rfl
  | cons item rest ih =>
    rw [eachDeeds, eachDeeds, concur a item few, ← agree a item few,
      ih (Nat.le_trans (closedThreads_le (walks a item)) few)]

section Agreement

variable {bound : Nat} {first second : Reopening} {told other : Retelling}
  (agree : Agree bound first second) (concur : Concur bound told other) (strolls : Strolls first)

include agree concur strolls

theorem assignDeeds_agree (few : a.closedThreads ≤ bound) (name : String) (value : Value) (time : Nat) :
    a.assignDeeds first told name value time = a.assignDeeds second other name value time := by
  unfold assignDeeds
  dsimp only
  split
  · rfl
  · have assigned : (a.setVariable name value).closedThreads ≤ bound := few
    exact congrArg _ (eachDeeds_agree
      (fun play (entry : String × RoundKey) few => agree play entry.1 entry.2 time few)
      (fun play entry few => concur play entry.1 entry.2 time few)
      (fun play entry => strolls play entry.1 entry.2 time) assigned _)

theorem runDeeds_agree (few : a.closedThreads ≤ bound) (contact : String) (action : Action)
    (time : Nat) :
    a.runDeeds first told contact action time = a.runDeeds second other contact action time := by
  have effect : a.effectDeeds first told time action.effect =
      a.effectDeeds second other time action.effect := by
    cases action.effect with
    | setVariable name value => exact assignDeeds_agree agree concur strolls few name value time
    | _ => rfl
  rw [runDeeds, runDeeds, effect, effectWith?_agree agree strolls few]

theorem planDeeds_agree (few : a.closedThreads ≤ bound) (contact : String) (time : Nat)
    (actions : List Action) :
    a.planDeeds first told contact time actions = a.planDeeds second other contact time actions := by
  induction actions generalizing a with
  | nil => rfl
  | cons action rest ih =>
    have ran : (a.runWith first contact action time).closedThreads ≤ bound :=
      Nat.le_trans (closedThreads_le (walks_runWith strolls a contact action time)) few
    simp only [planDeeds, ← runWith_agree agree strolls few, runDeeds_agree agree concur strolls few,
      ih ran, ih few]

theorem enterDeeds_agree (few : a.closedThreads ≤ bound) (contact : String) (key : RoundKey)
    (time : Nat) (leading : Option Action) :
    a.enterDeeds first told contact key time leading =
      a.enterDeeds second other contact key time leading := by
  unfold enterDeeds
  cases a.program.round? contact key with
  | none => rfl
  | some round =>
    dsimp only
    have placed : (a.placed contact key).closedThreads ≤ bound := few
    have told := eachDeeds_agree
      (fun play (s : Assignment) few => assignWith_agree agree strolls few s.name s.value time)
      (fun play s few => assignDeeds_agree agree concur strolls few s.name s.value time)
      (fun play s => walks_assignWith strolls play s.name s.value time) placed
      (a.evaluation round).assignments
    obtain ⟨same, fewer⟩ := foldl_agree
      (fun play (s : Assignment) few => assignWith_agree agree strolls few s.name s.value time)
      (fun play s => walks_assignWith strolls play s.name s.value time) placed
      (a.evaluation round).assignments
    rw [told, ← same, handDeeds, handDeeds, planDeeds_agree agree concur strolls fewer]

end Agreement

/- Two bounds that both cover the closed threads lead to the same deeds. -/
theorem reopenDeeds_agree {first second : Nat} (play : Play) (contact : String) (key : RoundKey)
    (time : Nat) (left : play.closedThreads ≤ first) (right : play.closedThreads ≤ second) :
    reopenDeeds first play contact key time = reopenDeeds second play contact key time := by
  induction first generalizing second play contact key time with
  | zero =>
    have opened : play.progress.isClosed contact = false := by
      rw [Bool.eq_false_iff]
      intro closed
      have less := closedThreads_reopened closed
      omega
    cases second <;> simp [reopenDeeds, opened]
  | succ first ih =>
    cases closed : play.progress.isClosed contact with
    | false => cases second <;> simp [reopenDeeds, closed]
    | true =>
      have less := closedThreads_reopened closed
      cases second with
      | zero => omega
      | succ second =>
        rw [reopenDeeds, reopenDeeds, if_pos closed, if_pos closed]
        -- One thread has been opened, so both smaller bounds still cover the others.
        have agree : Agree (play.reopened contact).closedThreads (reopen first) (reopen second) :=
          fun other c k t few => reopen_agree other c k t (by omega) (by omega)
        have concur : Concur (play.reopened contact).closedThreads (reopenDeeds first)
            (reopenDeeds second) := fun other c k t few => ih other c k t (by omega) (by omega)
        exact congrArg _ (enterDeeds_agree agree concur (strolls_reopen first) (Nat.le_refl _) contact
          key time none)

/- However deep reopenings may go into one another, an assignment does the same as within the bound. -/
theorem assign_of_deeper (a : Play) {depth : Nat} (covers : a.closedThreads ≤ depth) (name : String)
    (value : Value) (time : Nat) :
    a.assignWith (reopen depth) name value time = a.assign name value time ∧
      a.assignDeeds (reopen depth) (reopenDeeds depth) name value time =
        a.assigning name value time := by
  have agree : Agree a.closedThreads (reopen depth) (reopen a.closedThreads) :=
    fun play c k t few => reopen_agree play c k t (Nat.le_trans few covers) few
  have concur : Concur a.closedThreads (reopenDeeds depth) (reopenDeeds a.closedThreads) :=
    fun play c k t few => reopenDeeds_agree play c k t (Nat.le_trans few covers) few
  exact ⟨assignWith_agree agree (strolls_reopen depth) (Nat.le_refl _) name value time,
    assignDeeds_agree agree concur (strolls_reopen depth) (Nat.le_refl _) name value time⟩

/- An assignment ends: with more depth than there are closed threads it would do the same. It reopens
   each contact once at most, puts threads to active only, and in the end every closed contact with a
   conditional round that the insertion made available is open in a conditional round of its own. -/
theorem assign_reopens {play : Play} (formed : play.program.WellFormed) (name : String)
    (value : Value) (time : Nat) :
    let after := play.assign name value time
    let deeds := play.assigning name value time
    (∀ depth, play.closedThreads ≤ depth →
      play.assignWith (reopen depth) name value time = after ∧
        play.assignDeeds (reopen depth) (reopenDeeds depth) name value time = deeds) ∧
    (∀ c, reopenings c deeds ≤ 1) ∧ Walks onlyOpens play after ∧
    ((play.progress.values.get? name).any (·.same value) = false →
      ∀ c contact key, play.program.contact? c = some contact → play.progress.isClosed c = true →
        contact.NewlyOpen play.progress.values (play.progress.values.insert name value) key →
        reopenings c deeds = 1 ∧ after.Open c ∧ after.InConditional c) := by
  intro after deeds
  obtain ⟨cascades, ends⟩ := cascades_assignWith (turning_reopen play.closedThreads) formed
    (Nat.le_refl _) name value time
  refine ⟨fun depth covers => assign_of_deeper play covers name value time, fun c => ?_,
    walks_assign play name value time, fun fresh c contact key found closed opens => ?_⟩
  · rcases cascades.each c with ⟨none, _⟩ | ⟨once, _⟩
    · exact Nat.le_trans (Nat.le_of_eq none) (Nat.zero_le 1)
    · exact Nat.le_of_eq once
  · obtain ⟨first, listed⟩ := mem_nowOpen (a := play.setVariable name value) formed found closed opens
    exact cascades.reopened_of closed (ends fresh (c, first) listed)

/-- A gate that is closed again behind itself, and one that opens because of that. -/
def toggling : String :=
  ":: B-Round-1.0 [chat]\n(if: $x)(set: $x to false)(endif)\n\n:: C-Round-1.0 [chat]\n(if: $x)C(endif)\n" ++
    "\n:: C-Round-2.0 [chat]\n(if: $x is false)C(endif)\n"

def toggles (s : Session) : Bool :=
  let now := s.play.progress.values.insert "x" (.bool true)
  !(s.play.progress.values.get? "x").any (·.same (.bool true)) && s.play.progress.isClosed "C" &&
    ((s.play.program.contact? "C").any fun contact =>
      ((contact.rounds.get? ⟨1, some 0⟩).any fun round => round.condition.any fun condition =>
        !condition.holds s.play.progress.values && condition.holds now)) &&
    decide ((s.play.assign "x" (.bool true) 1000).progress.rounds.get? "C" = some ⟨2, some 0⟩)

theorem played_toggling : (Session.playedWithin 0 toggling 1000 []).any toggles = true := by
  decide +kernel

/- The second contact is reopened with another round than the one that was listed for it. -/
theorem assign_reopens_toggling : ∃ program : Program, (compile toggling).result = .ok program ∧
    ∃ play, play = (Session.start program {} .empty 1000).play ∧ play.program.WellFormed ∧
      (play.progress.values.get? "x").any (·.same (.bool true)) = false ∧
      (∃ contact, play.program.contact? "C" = some contact ∧ play.progress.isClosed "C" = true ∧
        contact.NewlyOpen play.progress.values (play.progress.values.insert "x" (.bool true))
          ⟨1, some 0⟩) ∧
      reopenings "C" (play.assigning "x" (.bool true) 1000) = 1 ∧
      (play.assign "x" (.bool true) 1000).Open "C" ∧
      (play.assign "x" (.bool true) 1000).InConditional "C" ∧
      (play.assign "x" (.bool true) 1000).progress.rounds.get? "C" = some ⟨2, some 0⟩ := by
  obtain ⟨program, compiled, shown⟩ := Session.played_of_any played_toggling
  have scripted : program.Compiled := ⟨toggling, compiled⟩
  have formed := (Session.coherent_start scripted.wellFormed {} .empty 1000).formed
  change toggles (Session.start program {} .empty 1000) = true at shown
  generalize defined : (Session.start program {} .empty 1000).play = play at formed
  simp only [toggles, defined, Bool.and_eq_true, Bool.not_eq_true', decide_eq_true_eq] at shown
  obtain ⟨⟨⟨fresh, closed⟩, tests⟩, current⟩ := shown
  obtain ⟨contact, found, listed⟩ := (Option.any_eq_true _ _).1 tests
  obtain ⟨round, own, gated⟩ := (Option.any_eq_true _ _).1 listed
  obtain ⟨condition, guards, holds⟩ := (Option.any_eq_true _ _).1 gated
  simp only [Bool.and_eq_true, Bool.not_eq_true'] at holds
  have opens : contact.NewlyOpen play.progress.values
      (play.progress.values.insert "x" (.bool true)) ⟨1, some 0⟩ :=
    ⟨round, condition, own, rfl, guards, holds.1, holds.2⟩
  obtain ⟨once, opened, inside⟩ := (assign_reopens formed "x" (.bool true) 1000).2.2.2 fresh "C"
    contact ⟨1, some 0⟩ found closed opens
  exact ⟨program, compiled, play, defined.symm, formed, fresh, ⟨contact, found, closed, opens⟩, once, opened,
    inside, current⟩

end Play
end ChatStory
