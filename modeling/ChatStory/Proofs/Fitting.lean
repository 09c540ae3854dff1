import ChatStory.Proofs.Progress

/-!
Where contacts stand in progress that is set up or fitted. Each contact has a place of its own: its
thread, its history, its round, its marks and its status. Setting up a new story and fitting
progress to a program work on one place after the other, so it is enough to say what is done with
one. What was fitted once is left alone when it is fitted again.
-/
namespace ChatStory

/-- Where a contact stands in a story. -/
structure Standing where
  thread : Option ThreadState
  history : Option (List Message)
  round : Option RoundKey
  unlocked : Bool
  viewed : Bool
  status : Option String

namespace Standing

/-- The contact does not appear in the story. -/
def nowhere : Standing := ⟨none, none, none, false, false, none⟩

/-- The place of a contact at the start of a story. -/
def opening (contact : Contact) : Standing :=
  if contact.initiallyUnlocked then
    ⟨some .active, some [], contact.firstKey?, true, false, none⟩
  else ⟨some .locked, some [], none, false, false, none⟩

/-- A round that a contact has stays. Any other gives way to the first one, or to none in a
locked thread. -/
def fitRound (contact : Contact) (thread : Option ThreadState) (round : Option RoundKey) :
    Option RoundKey :=
  if round.any contact.rounds.contains then round
  else if thread = some .locked then none else contact.firstKey?

/-- A contact keeps its thread, its history and its round, as far as the program has it. What is missing
is as at the start of a story. -/
def fit (contact : Contact) (standing : Standing) : Standing := { standing with
  thread := standing.thread.or (opening contact).thread
  history := standing.history.or (some [])
  round := fitRound contact (standing.thread.or (opening contact).thread) standing.round
  unlocked := standing.unlocked || standing.thread.isNone && contact.initiallyUnlocked }

theorem thread_opening (contact : Contact) : (opening contact).thread =
    some (if contact.initiallyUnlocked then .active else .locked) := by
  unfold opening
  split <;> rfl

/- A contact that a story does not know comes in as at the start. -/
theorem fit_nowhere (contact : Contact) : nowhere.fit contact = opening contact := by
  unfold nowhere fit fitRound opening
  cases contact.initiallyUnlocked <;> rfl

/- A contact that a story knows keeps everything but its round. -/
theorem fit_of_had (contact : Contact) {standing : Standing}
    (thread : ∃ state, standing.thread = some state)
    (history : ∃ messages, standing.history = some messages) : standing.fit contact =
      { standing with round := fitRound contact standing.thread standing.round } := by
  obtain ⟨state, thread⟩ := thread
  obtain ⟨messages, history⟩ := history
  unfold fit
  rw [thread, history, Option.some_or, Option.some_or, Option.isNone_some, Bool.false_and,
    Bool.or_false]

theorem fitRound_fitRound (contact : Contact) (thread : Option ThreadState) (round : Option RoundKey) :
    fitRound contact thread (fitRound contact thread round) = fitRound contact thread round := by
  unfold fitRound
  split
  · rfl
  · split
    · rfl
    · cases first : contact.firstKey? with
      | none => rfl
      | some key => exact if_pos (Contact.get?_firstKey first)

theorem fit_fit (contact : Contact) (standing : Standing) :
    (standing.fit contact).fit contact = standing.fit contact := by
  unfold fit
  rw [Standing.mk.injEq]
  refine ⟨?_, ?_, ?_, ?_, rfl, rfl⟩
  · rw [Option.or_assoc, Option.or_self]
  · rw [Option.or_assoc, Option.or_self]
  · dsimp only
    rw [Option.or_assoc, Option.or_self, fitRound_fitRound]
  · dsimp only
    rw [thread_opening, Option.isNone_or, Option.isNone_some, Bool.and_false, Bool.false_and,
      Bool.or_false]

/-- What setting up a contact makes of its place. -/
def set (contact : Contact) (standing : Standing) : Standing :=
  if contact.initiallyUnlocked then
    { standing with
      thread := some .active
      history := some []
      round := contact.firstKey?.or standing.round
      unlocked := true }
  else { standing with thread := some .locked, history := some [] }

theorem set_set (contact : Contact) (standing : Standing) :
    (standing.set contact).set contact = standing.set contact := by
  unfold set
  cases contact.initiallyUnlocked with
  | false => rfl
  | true => simp [← Option.or_assoc]

theorem set_nowhere (contact : Contact) : nowhere.set contact = opening contact := by
  unfold set opening nowhere
  cases contact.initiallyUnlocked <;> simp

end Standing

namespace Progress

variable {program : Program} {p q : Progress}

def standing (p : Progress) (c : String) : Standing :=
  ⟨p.threads.get? c, p.histories.get? c, p.rounds.get? c, p.unlocked.has c, p.viewed.has c,
    p.statuses.get? c⟩

theorem standing_apart {name c : String} (apart : Apart name p q) (other : c ≠ name) :
    q.standing c = p.standing c := by
  unfold standing
  rw [apart.threads c other, apart.histories c other, apart.rounds c other, apart.unlocked c other,
    apart.viewed, apart.statuses]

/- What is done with each contact in turn is done once with the place of each. -/
theorem standing_foldl (formed : program.WellFormed) {step : Progress → Contact → Progress}
    {settle : Contact → Standing → Standing}
    (apart : ∀ p contact, Apart contact.name p (step p contact))
    (own : ∀ p, ∀ contact ∈ program.inOrder,
      (step p contact).standing contact.name = settle contact (p.standing contact.name))
    (settled : ∀ contact standing, settle contact (settle contact standing) = settle contact standing)
    {contacts : List Contact} (listed : ∀ contact ∈ contacts, contact ∈ program.inOrder)
    {contact : Contact} (member : contact ∈ program.inOrder)
    (turn : contact ∈ contacts ∨
      settle contact (p.standing contact.name) = p.standing contact.name) :
    (contacts.foldl step p).standing contact.name = settle contact (p.standing contact.name) := by
  induction contacts generalizing p with
  | nil =>
    rcases turn with none | same
    · cases none
    · exact same.symm
  | cons first rest ih =>
    have later := fun c inside => listed c (List.mem_cons_of_mem first inside)
    have here := listed first List.mem_cons_self
    rw [List.foldl_cons]
    by_cases same : contact.name = first.name
    · have equal : first = contact := by
        have one := formed.mem_inOrder here
        rw [← same, formed.mem_inOrder member] at one
        exact (Option.some.inj one).symm
      subst equal
      have done := own p first here
      rw [ih later (.inr (by rw [done, settled])), done, settled]
    · have still := standing_apart (apart p first) same
      rw [ih later, still]
      rw [still]
      refine turn.imp_left fun inside => ?_
      exact (List.mem_cons.1 inside).resolve_left fun equal => same (congrArg Contact.name equal)

theorem standing_fillThread (p : Progress) (contact : Contact) :
    (p.fillThread contact).standing contact.name = { p.standing contact.name with
      thread := (p.standing contact.name).thread.or (Standing.opening contact).thread
      unlocked := (p.standing contact.name).unlocked ||
        (p.standing contact.name).thread.isNone && contact.initiallyUnlocked } := by
  rw [Standing.thread_opening]
  unfold fillThread standing
  dsimp only
  rw [Table.contains]
  cases had : p.threads.get? contact.name with
  | some thread =>
    simp [had]
  | none =>
    cases contact.initiallyUnlocked <;> simp [Table.get?_insert, NameSet.has_add]

theorem standing_fillHistory (p : Progress) (contact : Contact) :
    (p.fillHistory contact).standing contact.name = { p.standing contact.name with
      history := (p.standing contact.name).history.or (some []) } := by
  unfold fillHistory standing
  dsimp only
  rw [Table.contains]
  cases had : p.histories.get? contact.name with
  | some thread => simp [had]
  | none => simp [Table.get?_insert]

theorem standing_fitRound (p : Progress) {contact : Contact} {first : RoundKey}
    (start : contact.firstKey? = some first) :
    (p.fitRound contact).standing contact.name = { p.standing contact.name with
      round := Standing.fitRound contact (p.standing contact.name).thread
        (p.standing contact.name).round } := by
  obtain ⟨threads, histories⟩ := threads_fitRound p contact
  have unlocked : (p.fitRound contact).unlocked = p.unlocked := by
    unfold fitRound
    dsimp only
    repeat' split
    all_goals rfl
  have apart := apart_fitRound p contact
  have round := round_fitRound p start
  unfold standing Standing.fitRound
  rw [threads, histories, unlocked, round, start, apart.viewed, apart.statuses]
  rfl

theorem standing_fitContact (formed : program.WellFormed) (p : Progress) {contact : Contact}
    (member : contact ∈ program.inOrder) :
    (p.fitContact contact).standing contact.name = (p.standing contact.name).fit contact := by
  obtain ⟨first, start, _⟩ := formed.firstKey member
  rw [fitContact_eq, standing_fitRound _ start, standing_fillHistory, standing_fillThread]
  rfl

theorem standing_restrict (p : Progress) {c : String} (known : program.has c = true) :
    (p.restrict program).standing c = p.standing c := by
  have keep : ∀ {α : Type} (t : Table String α),
      (t.filter fun name _ => program.has name).get? c = t.get? c := by
    intro α t
    rw [Table.get?_filter, known]
    cases t.get? c <;> rfl
  unfold standing restrict
  dsimp only
  rw [keep, keep, keep, keep, NameSet.has, Table.contains, keep, NameSet.has, Table.contains, keep]
  rfl

/- Fitting progress to a program fits the place of each of its contacts, and drops all others. -/
theorem standing_fitTo (formed : program.WellFormed) (p : Progress) {contact : Contact} {c : String}
    (found : program.contact? c = some contact) :
    (p.fitTo program).standing c = (p.standing c).fit contact := by
  obtain rfl := formed.names c contact found
  have member := formed.inOrder_of_contact found
  have fitted := standing_foldl formed (p := p.restrict program) apart_fitContact
    (fun q _ inside => standing_fitContact formed q inside) Standing.fit_fit (fun _ => id) member
    (.inl member)
  rw [standing_restrict p (formed.has_of_mem member)] at fitted
  exact fitted

theorem standing_of_unknown {c : String} (unknown : program.has c = false) (kept : p.KeptFor program) :
    p.standing c = .nowhere := by
  have absent : ∀ {α : Type} {t : Table String α}, (t.contains c = true → program.has c = true) →
      t.get? c = none := by
    intro α t inside
    cases found : t.get? c with
    | none => rfl
    | some a =>
      rw [inside (Table.contains_eq_true.2 ⟨a, found⟩)] at unknown
      cases unknown
  have rounds : p.rounds.contains c = true → program.has c = true := by
    intro had
    obtain ⟨key, found⟩ := Table.contains_eq_true.1 had
    exact Program.has_of_round (kept.rounds c key found)
  unfold standing Standing.nowhere
  rw [absent (kept.threads c).1, absent (kept.histories c).1, absent rounds, absent (kept.statuses c),
    NameSet.has, Table.contains, absent (kept.unlocked c), NameSet.has, Table.contains,
    absent (kept.viewed c)]
  rfl

theorem standing_openContact (p : Progress) (contact : Contact) :
    (p.openContact contact).standing contact.name = (p.standing contact.name).set contact := by
  unfold openContact Standing.set standing
  cases contact.initiallyUnlocked with
  | false => simp [Table.get?_insert]
  | true => cases contact.firstKey? <;> simp [Table.get?_insert, NameSet.has_add]

/- A new story sets up every contact at the start. -/
theorem standing_initial (formed : program.WellFormed) (typingDelay : Nat) {contact : Contact}
    {c : String} (found : program.contact? c = some contact) :
    (initial program typingDelay).standing c = .opening contact := by
  obtain rfl := formed.names c contact found
  have member := formed.inOrder_of_contact found
  have set_up := standing_foldl formed (p := blank program typingDelay) apart_openContact
    (fun q contact _ => standing_openContact q contact) Standing.set_set (fun _ => id) member
    (.inl member)
  rw [initial_eq, set_up]
  exact Standing.set_nowhere contact

/- The contacts of the program keep their histories. -/
theorem history_fitTo (formed : program.WellFormed) (p : Progress) (c : String) :
    (p.fitTo program).history c = if program.has c then p.history c else [] := by
  cases known : program.has c with
  | true =>
    obtain ⟨contact, found⟩ := Table.contains_eq_true.1 known
    have kept : (p.fitTo program).histories.get? c = (p.histories.get? c).or (some []) :=
      congrArg Standing.history (standing_fitTo formed p found)
    rw [if_pos rfl, history, history, Table.getD, Table.getD, kept]
    cases p.histories.get? c <;> rfl
  | false =>
    have gone : (p.fitTo program).histories.get? c = none :=
      congrArg Standing.history (standing_of_unknown known (kept_fitTo formed p).1)
    rw [if_neg Bool.false_ne_true, history, Table.getD, gone]
    rfl

/- Nothing has been said at the start of a story. -/
theorem history_initial (formed : program.WellFormed) (typingDelay : Nat) (c : String) :
    (initial program typingDelay).history c = [] := by
  cases known : program.has c with
  | true =>
    obtain ⟨contact, found⟩ := Table.contains_eq_true.1 known
    have silent : (initial program typingDelay).histories.get? c = some [] := by
      refine (congrArg Standing.history (standing_initial formed typingDelay found)).trans ?_
      unfold Standing.opening
      split <;> rfl
    rw [history, Table.getD, silent]
    rfl
  | false =>
    have gone : (initial program typingDelay).histories.get? c = none :=
      congrArg Standing.history (standing_of_unknown known (kept_initial formed typingDelay).1)
    rw [history, Table.getD, gone]
    rfl

theorem counters_fitContact (p : Progress) (contact : Contact) :
    (p.fitContact contact).typingDelay = p.typingDelay ∧
      (p.fitContact contact).notifications = p.notifications ∧
      (p.fitContact contact).nextId = p.nextId := by
  unfold fitContact fillThread fitRound
  dsimp only
  repeat' split
  all_goals exact ⟨rfl, rfl, rfl⟩

/- What is said of no contact at all stays as it is. -/
theorem counters_fitTo (p : Progress) (program : Program) :
    (p.fitTo program).typingDelay = p.typingDelay ∧
      (p.fitTo program).notifications = p.notifications ∧
      (p.fitTo program).nextId = p.nextId := by
  have fold : ∀ (contacts : List Contact) (q : Progress),
      (contacts.foldl fitContact q).typingDelay = q.typingDelay ∧
        (contacts.foldl fitContact q).notifications = q.notifications ∧
        (contacts.foldl fitContact q).nextId = q.nextId := by
    intro contacts
    induction contacts with
    | nil => exact fun _ => ⟨rfl, rfl, rfl⟩
    | cons first rest ih =>
      intro q
      obtain ⟨delay, notifications, next⟩ := counters_fitContact q first
      obtain ⟨delays, others, nexts⟩ := ih (q.fitContact first)
      exact ⟨delays.trans delay, others.trans notifications, nexts.trans next⟩
  exact fold program.inOrder (p.restrict program)

theorem values_fitTo (p : Progress) (program : Program) :
    (p.fitTo program).values = fillVariables p.values program.defaults := by
  obtain ⟨_, _, _, _, values⟩ := foldl_apart fitContact program.inOrder apart_fitContact
    (p := p.restrict program)
  exact congrArg (fillVariables · program.defaults) values

theorem deliveries_fitContact (p : Progress) (contact : Contact) :
    (p.fitContact contact).deliveries = p.deliveries := by
  unfold fitContact fillThread fitRound
  dsimp only
  repeat' split
  all_goals rfl

theorem deliveries_foldl_fitContact (contacts : List Contact) (p : Progress) :
    (contacts.foldl fitContact p).deliveries = p.deliveries := by
  induction contacts generalizing p with
  | nil => rfl
  | cons first rest ih => rw [List.foldl_cons, ih, deliveries_fitContact]

/- Saved tasks of contacts that the program does not have are dropped. -/
theorem deliveries_fitTo (p : Progress) : (p.fitTo program).deliveries =
    p.deliveries.filter fun pending => program.has pending.contact :=
  deliveries_foldl_fitContact program.inOrder (p.restrict program)

theorem known_of_fitTo (p : Progress) {pending : SavedTask}
    (member : pending ∈ (p.fitTo program).deliveries) : program.has pending.contact = true := by
  rw [deliveries_fitTo] at member
  exact (List.mem_filter.1 member).2

/- What contacts of the program have asked for waits on. -/
theorem requests_fitTo (p : Progress) {c : String} (known : program.has c = true) :
    (p.fitTo program).unlocks.get? c = p.unlocks.get? c ∧
      (p.fitTo program).endings.has c = p.endings.has c := by
  obtain ⟨_, unlocks, endings, _⟩ := foldl_apart fitContact program.inOrder apart_fitContact
    (p := p.restrict program)
  have keep : ∀ {α : Type} (t : Table String α),
      (t.filter fun name _ => program.has name).get? c = t.get? c := by
    intro α t
    rw [Table.get?_filter, known]
    cases t.get? c <;> rfl
  constructor
  · exact (congrArg (·.get? c) unlocks).trans (keep p.unlocks)
  · exact congrArg Option.isSome ((congrArg (·.get? c) endings).trans (keep p.endings))

/- Fitted threads that have ended stand in a round already, so they get none when they are fitted again. -/
theorem refitRound?_fitTo (formed : program.WellFormed) (p : Progress) (c : String) :
    (p.fitTo program).refitRound? program c = (p.fitTo program).rounds.get? c := by
  unfold refitRound?
  split
  · rename_i left
    obtain ⟨ended, roundless⟩ := left
    have thread : (p.fitTo program).threads.contains c = true := Table.contains_eq_true.2 ⟨_, ended⟩
    obtain ⟨contact, found⟩ :=
      Table.contains_eq_true.1 (((kept_fitTo formed p).1.threads c).1 thread)
    have placed := standing_fitTo formed p found
    have ended' : ((p.standing c).fit contact).thread = some .ended := placed ▸ ended
    have round : Standing.fitRound contact (some .ended) (p.standing c).round = none := by
      rw [← ended']
      exact (congrArg Standing.round placed).symm.trans roundless
    obtain ⟨key, start⟩ := (formed.contacts c contact found).some_round
    unfold Standing.fitRound at round
    split at round
    · rename_i stands
      rw [round] at stands
      cases stands
    · rw [if_neg (by decide), start] at round
      cases round
  · rfl

/- What was fitted to a program once is not changed by fitting it again. -/
theorem fitTo_fitTo (formed : program.WellFormed) (p : Progress) :
    (p.fitTo program).fitTo program = p.fitTo program := by
  obtain ⟨kept, rounded⟩ := kept_fitTo formed p
  obtain ⟨rounds, fitted, placed⟩ := fitTo_of_kept formed kept rounded fun _ => known_of_fitTo p
  have same : rounds = (p.fitTo program).rounds :=
    Table.ext_get? fun c => (placed c).trans (refitRound?_fitTo formed p c)
  rw [fitted, same]

/-- What `p` says of a contact stands in `q` as well, but for its round. A history that is missing in `p`
is empty there. -/
structure Untouched (p q : Progress) (c : String) : Prop where
  history : q.histories.get? c = some (p.history c)
  thread : q.thread? c = p.thread? c
  status : q.statuses.get? c = p.statuses.get? c
  unlocks : q.unlocks.get? c = p.unlocks.get? c
  ending : q.endings.has c = p.endings.has c
  unlocked : q.unlocked.has c = p.unlocked.has c
  viewed : q.viewed.has c = p.viewed.has c

theorem untouched_fitTo (formed : program.WellFormed) {c : String} (known : program.has c = true)
    (had : p.threads.contains c = true) : p.Untouched (p.fitTo program) c := by
  obtain ⟨contact, found⟩ := Table.contains_eq_true.1 known
  obtain ⟨state, thread⟩ := Table.contains_eq_true.1 had
  have placed := standing_fitTo formed p found
  obtain ⟨unlocks, ending⟩ := requests_fitTo p known
  refine ⟨?_, ?_, congrArg Standing.status placed, unlocks, ending, ?_, congrArg Standing.viewed placed⟩
  · refine (congrArg Standing.history placed).trans ?_
    change (p.histories.get? c).or (some []) = some ((p.histories.get? c).getD [])
    cases p.histories.get? c <;> rfl
  · refine (congrArg Standing.thread placed).trans ?_
    change (p.threads.get? c).or _ = p.threads.get? c
    rw [thread, Option.some_or]
  · refine (congrArg Standing.unlocked placed).trans ?_
    change (p.unlocked.has c || (p.threads.get? c).isNone && _) = p.unlocked.has c
    rw [thread, Option.isNone_some, Bool.false_and, Bool.or_false]

/- Fitting is a repair that settles: what was fitted to the program of a script is left alone from then on. It
takes nothing from a contact of the program that had a thread, overwrites no variable, and leaves what is
said of no contact as it was. -/
theorem fitTo_settles (source : String) (p : Progress) :
    (p.fitTo (compile source).program).fitTo (compile source).program =
        p.fitTo (compile source).program ∧
      (∀ c, (compile source).program.has c = true → p.threads.contains c = true →
        p.Untouched (p.fitTo (compile source).program) c) ∧
      (∀ name value, p.values.get? name = some value →
        (p.fitTo (compile source).program).values.get? name = some value) ∧
      (p.fitTo (compile source).program).nextId = p.nextId ∧
      (p.fitTo (compile source).program).notifications = p.notifications ∧
      (p.fitTo (compile source).program).typingDelay = p.typingDelay := by
  have formed := wellFormed_compile source
  obtain ⟨delay, notifications, next⟩ := p.counters_fitTo (compile source).program
  refine ⟨fitTo_fitTo formed p, fun c => untouched_fitTo formed, ?_, next, notifications, delay⟩
  intro name value set
  rw [values_fitTo, fillVariables, Table.get?_insertMany_toList, set, Option.some_or]

/-- A story in which the thread of A has ended in round 7, C has been met, and B has not come in yet. -/
def outdated : Progress := { (default : Progress) with
  rounds := .ofList [("A", ⟨7, none⟩), ("C", ⟨1, none⟩)]
  threads := .ofList [("A", .ended), ("C", .active)]
  unlocks := .ofList [("A", ["C"])]
  values := .ofList [("mood", .text "calm")]
  statuses := .ofList [("A", "away"), ("C", "here")] }

/-- A script in which A has no round 7, and which has B in the place of C. -/
def revision : String :=
  ":: A-Round-1 [initial_contact]\nHi (set: $mood to new)\n\n:: B-Round-1 [chat]\nHo\n"

/- The thread of A is still ended, though it stands in the first round now. -/
theorem fitTo_settles_outdated :
    ((compile revision).program.has "A" = true ∧ outdated.threads.contains "A" = true ∧
        outdated.values.get? "mood" = some (.text "calm")) ∧
      (outdated.fitTo (compile revision).program).fitTo (compile revision).program =
        outdated.fitTo (compile revision).program ∧
      outdated.Untouched (outdated.fitTo (compile revision).program) "A" ∧
      (outdated.fitTo (compile revision).program).values.get? "mood" = some (.text "calm") ∧
      (outdated.fitTo (compile revision).program).rounds = .ofList [("A", ⟨1, none⟩)] ∧
      (outdated.fitTo (compile revision).program).threads = .ofList [("A", .ended), ("B", .locked)] := by
  have known : (compile revision).program.has "A" = true := by decide +kernel
  have had : outdated.threads.contains "A" = true := by decide +kernel
  have set : outdated.values.get? "mood" = some (.text "calm") := by decide +kernel
  obtain ⟨settled, untouched, values, _⟩ := fitTo_settles revision outdated
  exact ⟨⟨known, had, set⟩, settled, untouched "A" known had, values "mood" _ set, by decide +kernel,
    by decide +kernel⟩

end Progress
end ChatStory
