import ChatStory.Proofs.Program
import ChatStory.Progress

/-!
Progress that belongs to a program. A new story speaks of every contact of its program and of
no others, and so does progress that was fitted to a program. What already belongs to a program is
changed in one place only: an ended thread without a round goes to the first one.
-/
namespace ChatStory

theorem Program.has_of_round {program : Program} {c : String} {key : RoundKey}
    (found : (program.round? c key).isSome = true) : program.has c = true := by
  unfold round? at found
  unfold has Table.contains
  cases known : program.contact? c with
  | none =>
    rw [known] at found
    cases found
  | some contact =>
    change (program.contact? c).isSome = true
    rw [known]
    rfl

namespace Progress

/-- Progress that speaks of the contacts of a program and of no others. -/
structure KeptFor (program : Program) (p : Progress) : Prop where
  threads : ∀ c, p.threads.contains c = true ↔ program.has c = true
  histories : ∀ c, p.histories.contains c = true ↔ program.has c = true
  rounds : ∀ c key, p.rounds.get? c = some key → (program.round? c key).isSome = true
  unlocked : ∀ c, p.unlocked.has c = true → program.has c = true
  viewed : ∀ c, p.viewed.has c = true → program.has c = true
  unlocks : ∀ c, p.unlocks.contains c = true → program.has c = true
  endings : ∀ c, p.endings.has c = true → program.has c = true
  statuses : ∀ c, p.statuses.contains c = true → program.has c = true
  values : ∀ name, program.defaults.contains name = true → p.values.contains name = true

/-- A contact that has a thread and a history, in a round of its own if it is in any. -/
structure Placed (p : Progress) (contact : Contact) : Prop where
  thread : p.threads.contains contact.name = true
  history : p.histories.contains contact.name = true
  round : ∀ key, p.rounds.get? contact.name = some key → contact.rounds.contains key = true
  rounded : p.thread? contact.name = some .active → p.rounds.contains contact.name = true

/-- The place of every contact but one stays as it is, and no other contact comes in. -/
structure Apart (name : String) (p q : Progress) : Prop where
  threads : ∀ c, c ≠ name → q.threads.get? c = p.threads.get? c
  histories : ∀ c, c ≠ name → q.histories.get? c = p.histories.get? c
  rounds : ∀ c, c ≠ name → q.rounds.get? c = p.rounds.get? c
  unlocked : ∀ c, c ≠ name → q.unlocked.has c = p.unlocked.has c
  viewed : q.viewed = p.viewed
  unlocks : q.unlocks = p.unlocks
  endings : q.endings = p.endings
  statuses : q.statuses = p.statuses
  values : q.values = p.values

variable {program : Program} {p q r : Progress}

theorem Apart.refl (name : String) (p : Progress) : Apart name p p :=
  ⟨fun _ _ => rfl, fun _ _ => rfl, fun _ _ => rfl, fun _ _ => rfl, rfl, rfl, rfl, rfl, rfl⟩

theorem Apart.trans {name : String} (first : Apart name p q) (second : Apart name q r) :
    Apart name p r := by
  refine ⟨?_, ?_, ?_, ?_, second.viewed.trans first.viewed, second.unlocks.trans first.unlocks,
    second.endings.trans first.endings, second.statuses.trans first.statuses,
    second.values.trans first.values⟩
  · intro c other
    rw [second.threads c other, first.threads c other]
  · intro c other
    rw [second.histories c other, first.histories c other]
  · intro c other
    rw [second.rounds c other, first.rounds c other]
  · intro c other
    rw [second.unlocked c other, first.unlocked c other]

theorem Placed.apart {name : String} {contact : Contact} (placed : p.Placed contact)
    (apart : Apart name p q) (other : contact.name ≠ name) : q.Placed contact := by
  refine ⟨?_, ?_, ?_, ?_⟩
  · rw [Table.contains, apart.threads _ other]
    exact placed.thread
  · rw [Table.contains, apart.histories _ other]
    exact placed.history
  · rw [apart.rounds _ other]
    exact placed.round
  · rw [thread?, apart.threads _ other, Table.contains, apart.rounds _ other]
    exact placed.rounded

/-- Only contacts of the program have a thread, a history, a round or are unlocked. -/
structure Within (program : Program) (p : Progress) : Prop where
  threads : ∀ c, p.threads.contains c = true → program.has c = true
  histories : ∀ c, p.histories.contains c = true → program.has c = true
  rounds : ∀ c, p.rounds.contains c = true → program.has c = true
  unlocked : ∀ c, p.unlocked.has c = true → program.has c = true

theorem Within.apart {name : String} (within : Within program p) (apart : Apart name p q)
    (known : program.has name = true) : Within program q := by
  refine ⟨?_, ?_, ?_, ?_⟩
  · intro c had
    by_cases own : c = name
    · rw [own]
      exact known
    · rw [Table.contains, apart.threads c own] at had
      exact within.threads c had
  · intro c had
    by_cases own : c = name
    · rw [own]
      exact known
    · rw [Table.contains, apart.histories c own] at had
      exact within.histories c had
  · intro c had
    by_cases own : c = name
    · rw [own]
      exact known
    · rw [Table.contains, apart.rounds c own] at had
      exact within.rounds c had
  · intro c had
    by_cases own : c = name
    · rw [own]
      exact known
    · rw [apart.unlocked c own] at had
      exact within.unlocked c had

/- What is done for one contact after the other leaves each of them in its place. -/
theorem foldl_places (formed : program.WellFormed) {P : Progress → Prop}
    (step : Progress → Contact → Progress) (contacts : List Contact)
    (listed : ∀ contact ∈ contacts, contact ∈ program.inOrder)
    (keeps : ∀ p, ∀ contact ∈ contacts, P p → P (step p contact))
    (apart : ∀ p, ∀ contact ∈ contacts, Apart contact.name p (step p contact))
    (places : ∀ p, ∀ contact ∈ contacts, P p → (step p contact).Placed contact) (start : P p) :
    P (contacts.foldl step p) ∧ ∀ contact ∈ program.inOrder, contact ∈ contacts ∨ p.Placed contact →
      (contacts.foldl step p).Placed contact := by
  induction contacts generalizing p with
  | nil =>
    refine ⟨start, ?_⟩
    rintro contact _ (none | placed)
    · cases none
    · exact placed
  | cons first rest ih =>
    have later : ∀ contact ∈ rest, contact ∈ first :: rest := fun _ => List.mem_cons_of_mem first
    have here := List.mem_cons_self (a := first) (l := rest)
    obtain ⟨kept, placed⟩ := ih (fun contact member => listed contact (later contact member))
      (fun p contact member => keeps p contact (later contact member))
      (fun p contact member => apart p contact (later contact member))
      (fun p contact member => places p contact (later contact member)) (keeps p first here start)
    refine ⟨kept, ?_⟩
    intro contact member found
    apply placed contact member
    by_cases own : contact.name = first.name
    · have one := formed.mem_inOrder member
      have two := formed.mem_inOrder (listed first here)
      rw [own, two] at one
      cases one
      exact .inr (places p first here start)
    · rcases found with listed | before
      · rcases List.mem_cons.1 listed with same | later
        · exact absurd (congrArg Contact.name same) own
        · exact .inl later
      · exact .inr (before.apart (apart p first here) own)

theorem apart_openContact (p : Progress) (contact : Contact) :
    Apart contact.name p (p.openContact contact) := by
  unfold openContact
  dsimp only
  split
  · refine ⟨?_, ?_, ?_, ?_, rfl, rfl, rfl, rfl, rfl⟩
    · intro c other
      exact (Table.get?_insert _ _ _ _).trans (if_neg other)
    · intro c other
      exact (Table.get?_insert _ _ _ _).trans (if_neg other)
    · intro c other
      dsimp only
      split
      · exact (Table.get?_insert _ _ _ _).trans (if_neg other)
      · rfl
    · intro c other
      rw [NameSet.has, NameSet.add, Table.contains, Table.get?_insert, if_neg other]
      rfl
  · refine ⟨?_, ?_, ?_, fun _ _ => rfl, rfl, rfl, rfl, rfl, rfl⟩
    · intro c other
      exact (Table.get?_insert _ _ _ _).trans (if_neg other)
    · intro c other
      exact (Table.get?_insert _ _ _ _).trans (if_neg other)
    · intro c other
      rfl

/-- What holds while a new story is set up: rounds exist and no thread has ended. -/
structure New (program : Program) (p : Progress) : Prop where
  within : Within program p
  rounds : ∀ c key, p.rounds.get? c = some key → (program.round? c key).isSome = true
  not_ended : ∀ c, p.thread? c ≠ some .ended

theorem new_openContact (formed : program.WellFormed) (new : New program p) {contact : Contact}
    (member : contact ∈ program.inOrder) : New program (p.openContact contact) := by
  obtain ⟨key, first, found⟩ := formed.firstKey member
  refine ⟨new.within.apart (apart_openContact p contact) (formed.has_of_mem member), ?_, ?_⟩
  · intro c other known
    by_cases own : c = contact.name
    · subst own
      unfold openContact at known
      dsimp only at known
      split at known
      · rw [first] at known
        rw [Table.get?_insert, if_pos rfl] at known
        cases known
        exact found
      · exact new.rounds _ other known
    · rw [(apart_openContact p contact).rounds c own] at known
      exact new.rounds c other known
  · intro c
    by_cases own : c = contact.name
    · subst own
      unfold openContact thread?
      dsimp only
      split
      · rw [Table.get?_insert, if_pos rfl]
        decide
      · rw [Table.get?_insert, if_pos rfl]
        decide
    · rw [thread?, (apart_openContact p contact).threads c own]
      exact new.not_ended c

theorem placed_openContact (formed : program.WellFormed) (new : New program p) {contact : Contact}
    (member : contact ∈ program.inOrder) : (p.openContact contact).Placed contact := by
  obtain ⟨key, first, found⟩ := formed.firstKey member
  have own := formed.mem_inOrder member
  have rounds : ∀ key, (p.openContact contact).rounds.get? contact.name = some key →
      contact.rounds.contains key = true := by
    intro key known
    have valid := (new_openContact formed new member).rounds _ key known
    rw [Program.round?, own] at valid
    exact valid
  unfold openContact at rounds ⊢
  dsimp only at rounds ⊢
  split
  · rename_i unlocked
    rw [if_pos unlocked] at rounds
    refine ⟨?_, ?_, rounds, ?_⟩
    · exact (Table.contains_insert _ _ _ _).2 (.inl rfl)
    · exact (Table.contains_insert _ _ _ _).2 (.inl rfl)
    · intro _
      dsimp only
      rw [first]
      exact (Table.contains_insert _ _ _ _).2 (.inl rfl)
  · rename_i locked
    rw [if_neg locked] at rounds
    refine ⟨?_, ?_, rounds, ?_⟩
    · exact (Table.contains_insert _ _ _ _).2 (.inl rfl)
    · exact (Table.contains_insert _ _ _ _).2 (.inl rfl)
    · intro active
      rw [thread?, Table.get?_insert, if_pos rfl] at active
      cases active

theorem apart_fillThread (p : Progress) (contact : Contact) :
    Apart contact.name p (p.fillThread contact) := by
  unfold fillThread
  split
  · exact .refl _ p
  · split
    · refine ⟨?_, fun _ _ => rfl, fun _ _ => rfl, ?_, rfl, rfl, rfl, rfl, rfl⟩
      · intro c other
        exact (Table.get?_insert _ _ _ _).trans (if_neg other)
      · intro c other
        rw [NameSet.has, NameSet.add, Table.contains, Table.get?_insert, if_neg other]
        rfl
    · refine ⟨?_, fun _ _ => rfl, fun _ _ => rfl, fun _ _ => rfl, rfl, rfl, rfl, rfl, rfl⟩
      intro c other
      exact (Table.get?_insert _ _ _ _).trans (if_neg other)

theorem apart_fitRound (p : Progress) (contact : Contact) :
    Apart contact.name p (p.fitRound contact) := by
  have erased : ∀ c, c ≠ contact.name → (p.rounds.erase contact.name).get? c = p.rounds.get? c := by
    intro c other
    exact (Table.get?_erase _ _ _).trans (if_neg other)
  unfold fitRound
  split
  · exact .refl _ p
  · dsimp only
    split
    · split
      · exact ⟨fun _ _ => rfl, fun _ _ => rfl, erased, fun _ _ => rfl, rfl, rfl, rfl, rfl, rfl⟩
      · refine ⟨fun _ _ => rfl, fun _ _ => rfl, ?_, fun _ _ => rfl, rfl, rfl, rfl, rfl, rfl⟩
        intro c other
        exact ((Table.get?_insert _ _ _ _).trans (if_neg other)).trans (erased c other)
    · exact ⟨fun _ _ => rfl, fun _ _ => rfl, erased, fun _ _ => rfl, rfl, rfl, rfl, rfl, rfl⟩

/-- Gives a contact without a history an empty one. -/
def fillHistory (p : Progress) (contact : Contact) : Progress :=
  if p.histories.contains contact.name then p
  else { p with histories := p.histories.insert contact.name [] }

theorem fitContact_eq (p : Progress) (contact : Contact) :
    p.fitContact contact = ((p.fillThread contact).fillHistory contact).fitRound contact := rfl

theorem apart_fillHistory (p : Progress) (contact : Contact) :
    Apart contact.name p (p.fillHistory contact) := by
  unfold fillHistory
  split
  · exact .refl _ p
  · refine ⟨fun _ _ => rfl, ?_, fun _ _ => rfl, fun _ _ => rfl, rfl, rfl, rfl, rfl, rfl⟩
    intro c other
    exact (Table.get?_insert _ _ _ _).trans (if_neg other)

theorem apart_fitContact (p : Progress) (contact : Contact) :
    Apart contact.name p (p.fitContact contact) := by
  rw [fitContact_eq]
  exact ((apart_fillThread p contact).trans (apart_fillHistory _ contact)).trans
    (apart_fitRound _ contact)

theorem thread_fillThread (p : Progress) (contact : Contact) :
    (p.fillThread contact).threads.contains contact.name = true := by
  unfold fillThread
  split
  · assumption
  · split <;> exact (Table.contains_insert _ _ _ _).2 (.inl rfl)

theorem history_fillHistory (p : Progress) (contact : Contact) :
    (p.fillHistory contact).histories.contains contact.name = true := by
  unfold fillHistory
  split
  · assumption
  · exact (Table.contains_insert _ _ _ _).2 (.inl rfl)

theorem threads_fillHistory (p : Progress) (contact : Contact) :
    (p.fillHistory contact).threads = p.threads := by
  unfold fillHistory
  split <;> rfl

theorem threads_fitRound (p : Progress) (contact : Contact) :
    (p.fitRound contact).threads = p.threads ∧ (p.fitRound contact).histories = p.histories := by
  unfold fitRound
  split
  · exact ⟨rfl, rfl⟩
  · dsimp only
    split
    · split <;> exact ⟨rfl, rfl⟩
    · exact ⟨rfl, rfl⟩

/- The round of a contact after it was fitted: its own if it has it, else the first one unless
   the thread is locked. -/
theorem round_fitRound (p : Progress) {contact : Contact} {first : RoundKey}
    (start : contact.firstKey? = some first) :
    (p.fitRound contact).rounds.get? contact.name =
      if (p.rounds.get? contact.name).any contact.rounds.contains then p.rounds.get? contact.name
      else if p.thread? contact.name = some .locked then none else some first := by
  unfold fitRound
  split
  · rfl
  · dsimp only
    rw [start]
    dsimp only
    split
    · exact (Table.get?_erase _ _ _).trans (if_pos rfl)
    · exact (Table.get?_insert _ _ _ _).trans (if_pos rfl)

theorem placed_fitContact (formed : program.WellFormed) (p : Progress) {contact : Contact}
    (member : contact ∈ program.inOrder) : (p.fitContact contact).Placed contact := by
  obtain ⟨first, start, _⟩ := formed.firstKey member
  rw [fitContact_eq]
  generalize filled : (p.fillThread contact).fillHistory contact = q
  obtain ⟨threads, histories⟩ := threads_fitRound q contact
  have round := round_fitRound q start
  refine ⟨?_, ?_, ?_, ?_⟩
  · rw [threads, ← filled, threads_fillHistory]
    exact thread_fillThread p contact
  · rw [histories, ← filled]
    exact history_fillHistory _ contact
  · intro key known
    rw [round] at known
    split at known
    · rename_i valid
      rw [known] at valid
      simpa using valid
    · split at known
      · cases known
      · cases known
        exact Contact.get?_firstKey start
  · intro active
    rw [thread?, threads] at active
    rw [Table.contains, round]
    split
    · rename_i valid
      cases known : q.rounds.get? contact.name with
      | none =>
        rw [known] at valid
        cases valid
      | some key => rfl
    · split
      · rename_i locked
        rw [thread?, active] at locked
        cases locked
      · rfl

/- All contacts of a program are in their places in progress of its own. -/
theorem keptFor_of_placed (formed : program.WellFormed) (within : Within program p)
    (placed : ∀ contact ∈ program.inOrder, p.Placed contact)
    (viewed : ∀ c, p.viewed.has c = true → program.has c = true)
    (unlocks : ∀ c, p.unlocks.contains c = true → program.has c = true)
    (endings : ∀ c, p.endings.has c = true → program.has c = true)
    (statuses : ∀ c, p.statuses.contains c = true → program.has c = true)
    (values : ∀ name, program.defaults.contains name = true → p.values.contains name = true) :
    p.KeptFor program ∧ ∀ c, p.thread? c = some .active → p.rounds.contains c = true := by
  have find : ∀ c, program.has c = true → ∃ contact ∈ program.inOrder, contact.name = c := by
    intro c known
    obtain ⟨contact, found⟩ := Table.contains_eq_true.1 known
    exact ⟨contact, formed.inOrder_of_contact found, formed.names c contact found⟩
  refine ⟨⟨?_, ?_, ?_, within.unlocked, viewed, unlocks, endings, statuses, values⟩, ?_⟩
  · intro c
    refine ⟨within.threads c, ?_⟩
    intro known
    obtain ⟨contact, member, rfl⟩ := find c known
    exact (placed contact member).thread
  · intro c
    refine ⟨within.histories c, ?_⟩
    intro known
    obtain ⟨contact, member, rfl⟩ := find c known
    exact (placed contact member).history
  · intro c key known
    obtain ⟨contact, member, rfl⟩ := find c (within.rounds c (Table.contains_eq_true.2 ⟨key, known⟩))
    rw [Program.round?, formed.mem_inOrder member]
    exact (placed contact member).round key known
  · intro c active
    obtain ⟨contact, member, rfl⟩ := find c (within.threads c (Table.contains_eq_true.2 ⟨_, active⟩))
    exact (placed contact member).rounded active

/-- A story in which no contact has its place yet. -/
def blank (program : Program) (typingDelay : Nat) : Progress where
  rounds := ∅
  threads := ∅
  histories := ∅
  unlocked := Table.empty
  viewed := Table.empty
  typingDelay := typingDelay
  unlocks := ∅
  endings := Table.empty
  deliveries := []
  notifications := []
  values := program.defaults
  statuses := ∅
  nextId := 1

theorem initial_eq (program : Program) (typingDelay : Nat) :
    initial program typingDelay = program.inOrder.foldl openContact (blank program typingDelay) := rfl

theorem new_initial (formed : program.WellFormed) (typingDelay : Nat) :
    New program (initial program typingDelay) ∧
      ∀ contact ∈ program.inOrder, (initial program typingDelay).Placed contact := by
  rw [initial_eq]
  obtain ⟨new, placed⟩ := foldl_places formed (P := New program) openContact
    program.inOrder (fun _ => id)
    (fun p contact member new => new_openContact formed new member)
    (fun p contact _ => apart_openContact p contact)
    (fun p contact member new => placed_openContact formed new member) (p := blank program typingDelay)
    ⟨⟨nofun, nofun, nofun, nofun⟩, nofun, nofun⟩
  exact ⟨new, fun contact member => placed contact member (.inl member)⟩

/- What is said of no single contact stays as it is. -/
theorem foldl_apart (step : Progress → Contact → Progress) (contacts : List Contact)
    (apart : ∀ p contact, Apart contact.name p (step p contact)) :
    (contacts.foldl step p).viewed = p.viewed ∧ (contacts.foldl step p).unlocks = p.unlocks ∧
      (contacts.foldl step p).endings = p.endings ∧
      (contacts.foldl step p).statuses = p.statuses ∧ (contacts.foldl step p).values = p.values := by
  induction contacts generalizing p with
  | nil => exact ⟨rfl, rfl, rfl, rfl, rfl⟩
  | cons first rest ih =>
    obtain ⟨viewed, unlocks, endings, statuses, values⟩ := ih (p := step p first)
    have here := apart p first
    exact ⟨viewed.trans here.viewed, unlocks.trans here.unlocks, endings.trans here.endings,
      statuses.trans here.statuses, values.trans here.values⟩

theorem unlocks_initial (program : Program) (typingDelay : Nat) :
    (initial program typingDelay).unlocks = ∅ ∧
      (initial program typingDelay).endings = Table.empty := by
  obtain ⟨_, unlocks, endings, _⟩ := foldl_apart openContact program.inOrder
    apart_openContact (p := blank program typingDelay)
  exact ⟨unlocks, endings⟩

theorem kept_initial (formed : program.WellFormed) (typingDelay : Nat) :
    (initial program typingDelay).KeptFor program ∧ ∀ c,
      (initial program typingDelay).thread? c = some .active →
        (initial program typingDelay).rounds.contains c = true := by
  obtain ⟨new, placed⟩ := new_initial formed typingDelay
  obtain ⟨viewed, unlocks, endings, statuses, values⟩ :=
    foldl_apart openContact program.inOrder apart_openContact (p := blank program typingDelay)
  apply keptFor_of_placed formed new.within placed
  · intro c had
    rw [initial_eq, viewed] at had
    cases had
  · intro c had
    rw [initial_eq, unlocks] at had
    cases had
  · intro c had
    rw [initial_eq, endings] at had
    cases had
  · intro c had
    rw [initial_eq, statuses] at had
    cases had
  · intro name known
    rw [initial_eq, values]
    exact known

theorem contains_filter {α : Type} (t : Table String α) (keep : String → Bool) (c : String) :
    (t.filter fun name _ => keep name).contains c = true ↔ t.contains c = true ∧ keep c = true := by
  rw [Table.contains, Table.contains, Table.get?_filter]
  cases t.get? c with
  | none => simp
  | some a => cases keep c <;> simp

theorem within_restrict (program : Program) (p : Progress) : Within program (p.restrict program) := by
  refine ⟨?_, ?_, ?_, ?_⟩
  all_goals
    intro c had
    exact ((contains_filter _ program.has c).1 had).2

theorem contains_fillVariables (values defaults : Variables) (name : String) :
    (fillVariables values defaults).contains name = true ↔
      values.contains name = true ∨ defaults.contains name = true := by
  rw [fillVariables, Table.contains, Table.get?_insertMany_toList, Table.contains, Table.contains]
  cases values.get? name <;> cases defaults.get? name <;> simp

/- Progress that was fitted to a program belongs to it, whatever it was before. -/
theorem kept_fitTo (formed : program.WellFormed) (p : Progress) :
    (p.fitTo program).KeptFor program ∧
      ∀ c, (p.fitTo program).thread? c = some .active → (p.fitTo program).rounds.contains c = true := by
  obtain ⟨within, placed⟩ := foldl_places formed (P := Within program) fitContact
    program.inOrder (p := p.restrict program) (fun _ => id)
    (fun p contact member within => within.apart (apart_fitContact p contact) (formed.has_of_mem member))
    (fun p contact _ => apart_fitContact p contact)
    (fun p contact member _ => placed_fitContact formed p member) (within_restrict program p)
  obtain ⟨viewed, unlocks, endings, statuses, _⟩ := foldl_apart fitContact program.inOrder
    apart_fitContact (p := p.restrict program)
  have within' : Within program (p.fitTo program) := ⟨within.1, within.2, within.3, within.4⟩
  have placed' : ∀ contact ∈ program.inOrder, (p.fitTo program).Placed contact := by
    intro contact member
    have there := placed contact member (.inl member)
    exact ⟨there.1, there.2, there.3, there.4⟩
  apply keptFor_of_placed formed within' placed'
  · intro c had
    unfold fitTo at had
    dsimp only at had
    rw [viewed] at had
    exact ((contains_filter _ program.has c).1 had).2
  · intro c had
    unfold fitTo at had
    dsimp only at had
    rw [unlocks] at had
    exact ((contains_filter _ program.has c).1 had).2
  · intro c had
    unfold fitTo at had
    dsimp only at had
    rw [endings] at had
    exact ((contains_filter _ program.has c).1 had).2
  · intro c had
    unfold fitTo at had
    dsimp only at had
    rw [statuses] at had
    exact ((contains_filter _ program.has c).1 had).2
  · intro name known
    exact (contains_fillVariables _ _ name).2 (.inr known)

/-- The round of a contact once progress of its own program was fitted to it again. -/
def refitRound? (program : Program) (p : Progress) (c : String) : Option RoundKey :=
  if p.thread? c = some .ended ∧ p.rounds.get? c = none then
    (program.contact? c).bind Contact.firstKey?
  else p.rounds.get? c

theorem restrict_of_kept (kept : p.KeptFor program)
    (known : ∀ pending ∈ p.deliveries, program.has pending.contact = true) :
    p.restrict program = p := by
  have keep : ∀ {α : Type} {t : Table String α}, (∀ c, t.contains c = true → program.has c = true) →
      t.filter (fun name _ => program.has name) = t := by
    intro α t inside
    apply Table.filter_of_all
    intro c a found
    exact inside c (Table.contains_eq_true.2 ⟨a, found⟩)
  have rounds : ∀ c, p.rounds.contains c = true → program.has c = true := by
    intro c had
    obtain ⟨key, found⟩ := Table.contains_eq_true.1 had
    exact Program.has_of_round (kept.rounds c key found)
  have deliveries : (p.deliveries.filter fun pending => program.has pending.contact) = p.deliveries :=
    List.filter_eq_self.2 known
  unfold restrict
  simp only [keep rounds, keep fun c => (kept.threads c).1, keep fun c => (kept.histories c).1,
    keep kept.unlocked, keep kept.viewed, keep kept.unlocks, keep kept.endings, keep kept.statuses,
    deliveries]

/- A contact in its place needs at most a round. -/
theorem fitContact_of_had {contact : Contact} (thread : p.threads.contains contact.name = true)
    (history : p.histories.contains contact.name = true) :
    p.fitContact contact = { p with rounds := (p.fitRound contact).rounds } := by
  have threads : p.fillThread contact = p := if_pos thread
  have histories : p.fillHistory contact = p := if_pos history
  rw [fitContact_eq, threads, histories]
  unfold fitRound
  split
  · rfl
  · dsimp only
    split
    · split <;> rfl
    · rfl

/- An open thread has a round and a locked one keeps none, so only ended threads get one. -/
theorem refit_fitRound (formed : program.WellFormed) (kept : p.KeptFor program)
    (rounded : ∀ c, p.thread? c = some .active → p.rounds.contains c = true)
    {rounds : Table String RoundKey}
    (either : ∀ c, rounds.get? c = p.rounds.get? c ∨ rounds.get? c = p.refitRound? program c)
    {contact : Contact} (member : contact ∈ program.inOrder) :
    ({ p with rounds := rounds }.fitRound contact).rounds.get? contact.name =
      p.refitRound? program contact.name := by
  obtain ⟨first, start, _⟩ := formed.firstKey member
  have own := formed.mem_inOrder member
  have here := either contact.name
  have thread : p.threads.contains contact.name = true :=
    (kept.threads contact.name).2 (formed.has_of_mem member)
  have valid : ∀ key, p.rounds.get? contact.name = some key → contact.rounds.contains key = true := by
    intro key found
    have round := kept.rounds contact.name key found
    rw [Program.round?, own] at round
    exact round
  have refit : p.refitRound? program contact.name =
      if p.thread? contact.name = some .ended ∧ p.rounds.get? contact.name = none then some first
      else p.rounds.get? contact.name := by
    rw [refitRound?, own, Option.bind_some, start]
  rw [round_fitRound _ start]
  dsimp only
  cases had : p.rounds.get? contact.name with
  | some key =>
    have stays : p.refitRound? program contact.name = some key := by
      rw [refit, had, if_neg (by simp)]
    have now : rounds.get? contact.name = some key := by
      rcases here with same | same
      · rw [same, had]
      · rw [same, stays]
    have fits : (rounds.get? contact.name).any contact.rounds.contains = true := by
      rw [now]
      exact valid key had
    rw [if_pos fits, now, stays]
  | none =>
    rw [had] at here
    by_cases ended : p.thread? contact.name = some .ended
    · have gets : p.refitRound? program contact.name = some first := by
        rw [refit, had, if_pos ⟨ended, rfl⟩]
      have open_thread : ¬({ p with rounds := rounds } : Progress).thread? contact.name =
          some .locked := by
        intro locked
        change p.thread? contact.name = some .locked at locked
        rw [ended] at locked
        cases locked
      rw [gets, if_neg open_thread]
      split
      · rename_i fits
        rcases here with same | same
        · rw [same] at fits
          cases fits
        · rw [same, gets]
      · rfl
    · have stays : p.refitRound? program contact.name = none := by
        rw [refit, had, if_neg (fun both => ended both.1)]
      have none : rounds.get? contact.name = none := by
        rcases here with same | same
        · exact same
        · rw [same, stays]
      have locked : p.thread? contact.name = some .locked := by
        obtain ⟨state, found⟩ := Table.contains_eq_true.1 thread
        change p.thread? contact.name = some state at found
        cases state with
        | active =>
          have missing := rounded contact.name found
          rw [Table.contains, had] at missing
          cases missing
        | locked => exact found
        | ended => exact absurd found ended
      have misfits : ¬(rounds.get? contact.name).any contact.rounds.contains = true := by
        rw [none]
        exact Bool.false_ne_true
      rw [stays, if_neg misfits, if_pos (show ({ p with rounds := rounds } : Progress).thread?
        contact.name = some .locked from locked)]

theorem foldl_fitContact (formed : program.WellFormed) (kept : p.KeptFor program)
    (rounded : ∀ c, p.thread? c = some .active → p.rounds.contains c = true)
    {contacts : List Contact} (listed : ∀ contact ∈ contacts, contact ∈ program.inOrder)
    (rounds : Table String RoundKey)
    (either : ∀ c, rounds.get? c = p.rounds.get? c ∨ rounds.get? c = p.refitRound? program c) :
    ∃ after, contacts.foldl fitContact { p with rounds := rounds } = { p with rounds := after } ∧
      ∀ c, (∃ contact ∈ contacts, contact.name = c) ∨ rounds.get? c = p.refitRound? program c →
        after.get? c = p.refitRound? program c := by
  induction contacts generalizing rounds with
  | nil =>
    refine ⟨rounds, rfl, ?_⟩
    rintro c (⟨_, none, _⟩ | done)
    · cases none
    · exact done
  | cons first rest ih =>
    have member := listed first List.mem_cons_self
    have here := refit_fitRound formed kept rounded either member
    have had := formed.has_of_mem member
    have others : ∀ c, c ≠ first.name →
        ({ p with rounds := rounds }.fitRound first).rounds.get? c = rounds.get? c :=
      (apart_fitRound { p with rounds := rounds } first).rounds
    rw [List.foldl_cons, fitContact_of_had (p := { p with rounds := rounds })
      ((kept.threads first.name).2 had) ((kept.histories first.name).2 had)]
    generalize ({ p with rounds := rounds }.fitRound first).rounds = next at here others
    have both : ∀ c, next.get? c = p.rounds.get? c ∨ next.get? c = p.refitRound? program c := by
      intro c
      by_cases own : c = first.name
      · rw [own]
        exact .inr here
      · rw [others c own]
        exact either c
    obtain ⟨after, same, done⟩ :=
      ih (fun contact later => listed contact (List.mem_cons_of_mem first later)) next both
    refine ⟨after, same, ?_⟩
    rintro c (⟨contact, member, rfl⟩ | before)
    · apply done
      rcases List.mem_cons.1 member with same | later
      · rw [same]
        exact .inr here
      · exact .inl ⟨contact, later, rfl⟩
    · apply done
      by_cases own : c = first.name
      · rw [own]
        exact .inr here
      · rw [others c own]
        exact .inr before

/- Fitting progress to the program that it belongs to changes rounds of ended threads only. -/
theorem fitTo_of_kept (formed : program.WellFormed) (kept : p.KeptFor program)
    (rounded : ∀ c, p.thread? c = some .active → p.rounds.contains c = true)
    (known : ∀ pending ∈ p.deliveries, program.has pending.contact = true) :
    ∃ rounds, p.fitTo program = { p with rounds := rounds } ∧
      ∀ c, rounds.get? c = p.refitRound? program c := by
  obtain ⟨rounds, same, done⟩ :=
    foldl_fitContact formed kept rounded (fun _ => id) p.rounds fun _ => .inl rfl
  have values : fillVariables p.values program.defaults = p.values :=
    Table.insertMany_of_covered kept.values
  refine ⟨rounds, ?_, ?_⟩
  · unfold fitTo
    dsimp only
    rw [restrict_of_kept kept known, same]
    dsimp only
    rw [values]
  · intro c
    apply done
    by_cases has : program.has c = true
    · obtain ⟨contact, found⟩ := Table.contains_eq_true.1 has
      exact .inl ⟨contact, formed.inOrder_of_contact found, formed.names c contact found⟩
    · right
      have no_thread : p.thread? c ≠ some .ended := by
        intro ended
        exact has ((kept.threads c).1 (Table.contains_eq_true.2 ⟨_, ended⟩))
      rw [refitRound?, if_neg fun both => no_thread both.1]

/-- Threads that have ended in `q` have ended in `p` and hold the same messages. -/
def EndedBefore (p q : Progress) : Prop :=
  ∀ c, q.thread? c = some .ended → p.thread? c = some .ended ∧ q.history c = p.history c

theorem EndedBefore.trans (first : EndedBefore p q) (second : EndedBefore q r) : EndedBefore p r := by
  intro c ended
  obtain ⟨middle, same⟩ := second c ended
  obtain ⟨start, before⟩ := first c middle
  exact ⟨start, same.trans before⟩

theorem endedBefore_fillThread (p : Progress) (contact : Contact) :
    EndedBefore p (p.fillThread contact) := by
  have inserted : ∀ state, state ≠ ThreadState.ended → ∀ c,
      (p.threads.insert contact.name state).get? c = some .ended → p.thread? c = some .ended := by
    intro state other c ended
    rw [Table.get?_insert] at ended
    split at ended
    · cases ended
      exact absurd rfl other
    · exact ended
  intro c ended
  unfold fillThread at ended ⊢
  split
  · rename_i had
    rw [if_pos had] at ended
    exact ⟨ended, rfl⟩
  · rename_i lacking
    rw [if_neg lacking] at ended
    split
    · rename_i unlocked
      rw [if_pos unlocked] at ended
      exact ⟨inserted .active (by decide) c ended, rfl⟩
    · rename_i locked
      rw [if_neg locked] at ended
      exact ⟨inserted .locked (by decide) c ended, rfl⟩

theorem endedBefore_fillHistory (p : Progress) (contact : Contact) :
    EndedBefore p (p.fillHistory contact) := by
  intro c ended
  rw [thread?, threads_fillHistory] at ended
  refine ⟨ended, ?_⟩
  unfold fillHistory
  split
  · rfl
  · rename_i lacking
    rw [history, history, Table.getD, Table.getD, Table.get?_insert]
    split
    · rename_i own
      have missing : p.histories.get? contact.name = none := by simpa [Table.contains] using lacking
      rw [own, missing]
      rfl
    · rfl

theorem endedBefore_fitContact (p : Progress) (contact : Contact) :
    EndedBefore p (p.fitContact contact) := by
  rw [fitContact_eq]
  apply ((endedBefore_fillThread p contact).trans (endedBefore_fillHistory _ contact)).trans
  obtain ⟨threads, histories⟩ := threads_fitRound ((p.fillThread contact).fillHistory contact) contact
  intro c ended
  rw [thread?, threads] at ended
  exact ⟨ended, by rw [history, histories]; rfl⟩

theorem endedBefore_fitTo (program : Program) (p : Progress) : EndedBefore p (p.fitTo program) := by
  have restricted : EndedBefore p (p.restrict program) := by
    intro c ended
    have kept : (p.threads.filter fun name _ => program.has name).get? c = some .ended := ended
    rw [Table.get?_filter, Option.filter_eq_some_iff] at kept
    refine ⟨kept.1, ?_⟩
    change (p.histories.filter fun name _ => program.has name).getD c [] = p.histories.getD c []
    rw [Table.getD, Table.get?_filter, Table.getD]
    cases p.histories.get? c with
    | none => rfl
    | some history =>
      rw [Option.filter_some, if_pos (by simpa using kept.2)]
  have fold : ∀ contacts : List Contact, ∀ q, EndedBefore p q →
      EndedBefore p (contacts.foldl fitContact q) := by
    intro contacts
    induction contacts with
    | nil => exact fun _ before => before
    | cons first rest ih => exact fun q before => ih _ (before.trans (endedBefore_fitContact q first))
  have fitted := fold program.inOrder _ restricted
  intro c ended
  exact fitted c ended

end Progress
end ChatStory
