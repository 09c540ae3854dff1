import ChatStory.Proofs.Session.Orderly

/-!
A story that begins anew under another program. Where nothing has been said in any thread, the first
contact that is open from the start opens the conversation. Its thread is open then, if it was not locked
under the program before; if it was, the round is told into a thread that stays locked.
-/
namespace ChatStory

namespace Play

/-- The contact is unlocked, and its thread is open in a round unless the end has been told in it. -/
structure Seated (play : Play) (contact : String) (key : RoundKey) : Prop where
  unlocked : play.progress.unlocked.has contact = true
  free : play.progress.thread? contact ≠ some .locked
  settled : play.EndTold contact ∨
    play.progress.thread? contact = some .active ∧ play.progress.rounds.get? contact = some key

variable {told laid : String → Prop} {a b : Play} {contact c : String} {key : RoundKey} {now : Nat}

theorem Seated.enters (seated : a.Seated contact key) (enters : Enters told laid a b) :
    b.Seated contact key := by
  rcases enters.each contact with stays | ⟨closed, opened⟩
  · refine ⟨?_, ?_, ?_⟩
    · rw [stays.unlocked]
      exact seated.unlocked
    · rw [stays.thread]
      exact seated.free
    · rw [stays.thread, stays.round]
      exact seated.settled.imp_left fun ended => ended.grown (enters.grown contact)
  · refine ⟨opened.2, ?_, ?_⟩
    · rw [opened.1]
      decide
    · rcases seated.settled with ended | ⟨active, _⟩
      · exact .inl (ended.grown (enters.grown contact))
      · exact absurd ⟨active, seated.unlocked⟩ closed

theorem Seated.ends {other : String} (seated : a.Seated contact key) (ends : Ends other a b) :
    b.Seated contact key := by
  rcases seated with ⟨unlocked, free, settled⟩
  by_cases own : contact = other
  · subst own
    refine ⟨?_, ?_, .inl ?_⟩
    · rw [ends.unlocked]
      exact unlocked
    · rw [ends.threads, if_pos rfl]
      decide
    · rcases settled with ended | ⟨active, _⟩
      · exact ended.grown (ends.grown contact)
      · apply ends.told
        rw [Ended, active]
        decide
  · refine ⟨?_, ?_, ?_⟩
    · rw [ends.unlocked]
      exact unlocked
    · rw [ends.threads, if_neg own]
      exact free
    · rw [ends.threads, if_neg own, ends.rounds]
      exact settled.imp_left fun ended => ended.grown (ends.grown contact)

theorem seated_fire (seated : a.Seated contact key) (slot : Slot) :
    (a.fire slot).Seated contact key := by
  obtain ⟨mid, enters, same | ends⟩ := enters_fire a slot
  · rw [same]
    exact seated.enters enters
  · exact (seated.enters enters).ends ends

theorem seated_fireDue (seated : a.Seated contact key) (now : Nat) :
    (a.fireDue now).1.program = a.program ∧ (a.fireDue now).1.Seated contact key := by
  refine (fireDue_keeps (P := fun play => play.program = a.program ∧ play.Seated contact key) ?_
    ⟨rfl, seated⟩).1
  rintro play slot ⟨same, kept⟩ _
  have waits : play.dropFirst.Seated contact key := ⟨kept.unlocked, kept.free, kept.settled⟩
  exact ⟨(Grows.fire play.dropFirst slot).program.trans same, seated_fire waits slot⟩

/- A contact whose thread is locked when a task has been fired has stayed where it was. -/
theorem stays_fire {slot : Slot} (locked : (a.fire slot).progress.thread? c = some .locked) :
    Stays (c = slot.task.contact ∨ slot.Addresses c) False c a (a.fire slot) := by
  have remains : ∀ {told laid mid}, Enters told laid a mid →
      mid.progress.thread? c = some .locked → Stays (told c) (laid c) c a mid := by
    intro told laid mid enters still
    rcases enters.each c with stays | ⟨_, active, _⟩
    · exact stays
    · rw [active] at still
      cases still
  obtain ⟨mid, enters, same | ends⟩ := enters_fire a slot
  · rw [same] at locked ⊢
    exact remains enters locked
  · have thread := ends.threads c
    rw [locked] at thread
    split at thread
    · cases thread
    · rename_i other
      have before := remains enters thread.symm
      exact ⟨by rw [locked, thread, before.thread], by rw [ends.unlocked, before.unlocked],
        by rw [ends.rounds, before.round],
        fun free => (ends.history c other).trans (before.history free),
        fun free => by rw [ends.queue]; exact before.lane free,
        fun free => by rw [ends.queue]; exact before.latest free⟩

theorem grown_fire (a : Play) (slot : Slot) (c : String) :
    a.progress.history c <+: (a.fire slot).progress.history c := by
  obtain ⟨mid, enters, same | ends⟩ := enters_fire a slot
  · rw [same]
    exact enters.grown c
  · exact (enters.grown c).trans (ends.grown c)

/- Nobody is locked by what is due. -/
theorem locked_fireDue (locked : (a.fireDue now).1.progress.thread? c = some .locked) :
    a.progress.thread? c = some .locked := by
  apply Classical.byContradiction
  intro free
  refine (fireDue_keeps (P := fun play => play.progress.thread? c ≠ some .locked) ?_ free).1 locked
  intro play slot before _ after
  rw [(stays_fire (a := play.dropFirst) after).thread] at after
  exact before after

/-- Nothing of a round reaches the contact: it is put into no other round, none of its tasks comes up or
waits, and nothing is said in its thread unless a message is addressed to it. -/
structure PassedOver (c : String) (a : Play) (firings : List Moment) (b : Play) : Prop where
  round : ∀ key, b.progress.rounds.get? c = some key → a.progress.rounds.get? c = some key
  waiting : b.queue.lane c = []
  fired : ∀ slot ∈ firings.filterMap Moment.slot?, slot.task.contact ≠ c
  silent : b.progress.history c = a.progress.history c ∨
    ∃ slot ∈ firings.filterMap Moment.slot?, slot.Addresses c

/- By recursion along the tasks that are due: whoever stays locked is passed over. -/
theorem passedOver_fireDue {a : Play} (idle : a.queue.lane c = [])
    (locked : (a.fireDue now).1.progress.thread? c = some .locked) :
    PassedOver c a (a.firings now) (a.fireDue now).1 := by
  cases due : a.queue.due? now with
  | none =>
    rw [firings_of_none due, fireDue_of_none due]
    exact ⟨fun _ => id, idle, List.forall_mem_nil _, .inl rfl⟩
  | some slot =>
    rw [fireDue_of_some due] at locked ⊢
    rw [firings_of_some due]
    have stays := stays_fire (a := a.dropFirst) (locked_fireDue locked)
    have first := Queue.lane_rest (next_of_due due).1 c
    rw [idle] at first
    have behind : a.queue.rest.lane c = [] := (List.append_eq_nil_iff.1 first.symm).2
    have other : slot.task.contact ≠ c := by
      intro own
      rw [if_pos own] at first
      cases first
    have later := passedOver_fireDue ((stays.lane id).trans behind) locked
    refine ⟨fun key current => ?_, later.waiting, List.forall_mem_cons.2 ⟨other, later.fired⟩, ?_⟩
    · exact stays.round ▸ later.round key current
    · by_cases addressed : slot.Addresses c
      · exact .inr ⟨slot, List.mem_cons_self, addressed⟩
      · have untold : ¬(c = slot.task.contact ∨ slot.Addresses c) :=
          fun spoken => spoken.elim (fun own => other own.symm) addressed
        rcases later.silent with same | ⟨task, member, addresses⟩
        · exact .inl (same.trans (stays.history untold))
        · exact .inr ⟨task, List.mem_cons_of_mem _ member, addresses⟩
termination_by a.rank now
decreasing_by exact rank_fire_lt due

/-- The thread of the contact is not locked, or it is in a round, of which the text has been told. -/
def ToldLocked (play : Play) (contact : String) (key : RoundKey) (text : String) : Prop :=
  play.progress.thread? contact = some .locked → play.progress.rounds.get? contact = some key ∧
    (text ≠ "" → ∃ m ∈ play.progress.history contact, m.text = text)

theorem toldLocked_fire {text : String} (told : a.ToldLocked contact key text) (slot : Slot) :
    (a.fire slot).ToldLocked contact key text := by
  intro locked
  have stays := stays_fire locked
  obtain ⟨round, spoken⟩ := told (by rw [← stays.thread]; exact locked)
  refine ⟨stays.round.trans round, fun some => ?_⟩
  obtain ⟨m, member, same⟩ := spoken some
  exact ⟨m, (grown_fire a slot contact).subset member, same⟩

/- The text of a round that is entered at once is told at once. -/
theorem text_enter (a : Play) {contact : String} {key : RoundKey} {round : Round}
    (found : a.program.round? contact key = some round) (time : Nat) (leading : Option Action)
    (some : (a.evaluation round).text ≠ "") :
    ∃ m ∈ (a.enter contact key time .immediate leading).progress.history contact,
      m.text = (a.evaluation round).text := by
  unfold enter
  rw [enterWith_eq _ found, progress_layOut]
  simp only [reply]
  rw [if_neg some, Speaks.history_say, if_pos rfl]
  exact ⟨_, List.mem_append_right _ List.mem_cons_self, rfl⟩

theorem toldLocked_enter (a : Play) {contact : String} {key : RoundKey} {round : Round}
    (found : a.program.round? contact key = some round) (time : Nat) (leading : Option Action) :
    (a.enter contact key time .immediate leading).ToldLocked contact key
      (a.evaluation round).text := by
  intro locked
  refine ⟨?_, text_enter a found time leading⟩
  rcases (enters_enter a found time .immediate leading).each contact with stays | ⟨_, active, _⟩
  · rw [stays.round]
    exact (Table.get?_insert _ _ _ _).trans (if_pos rfl)
  · rw [active] at locked
    cases locked

/- An open contact is seated in the round in which it is entered. -/
theorem seated_enter (a : Play) {contact : String} {key : RoundKey} {round : Round}
    (found : a.program.round? contact key = some round) (opened : a.Open contact) (time : Nat)
    (tempo : Tempo) (leading : Option Action) :
    (a.enter contact key time tempo leading).Seated contact key := by
  have placed : (a.placed contact key).Seated contact key := by
    refine ⟨opened.2, ?_, .inr ⟨opened.1, (Table.get?_insert _ _ _ _).trans (if_pos rfl)⟩⟩
    change a.progress.thread? contact ≠ some .locked
    rw [opened.1]
    decide
  exact placed.enters (enters_enter a found time tempo leading)

theorem Seated.choices (seated : a.Seated contact key) {round : Round}
    (found : a.program.round? contact key = some round) : a.EndTold contact ∨
      a.progress.thread? contact = some .active ∧ a.progress.rounds.get? contact = some key ∧
        a.choices contact = (a.evaluation round).choices := by
  refine seated.settled.imp_right fun ⟨active, current⟩ => ⟨active, current, ?_⟩
  have here : a.roundOf? contact = some round := by
    rw [roundOf?, current]
    exact found
  rw [Play.choices, if_pos active, here]
  rfl

end Play

namespace Session

open Play

variable {s : Session} {program : Program} {contact : Contact} {key : RoundKey} {round : Round}

/-- With the program the story begins anew, in a round of a contact. -/
structure OpensAt (s : Session) (program : Program) (contact : Contact) (key : RoundKey)
    (round : Round) : Prop where
  silent : ∀ c, program.has c = true → s.play.progress.history c = []
  opens : program.opening? = some contact
  first : contact.firstKey? = some key
  found : program.round? contact.name key = some round

theorem history_switched (formed : program.WellFormed) (play : Play) {c : String}
    (known : program.has c = true) :
    (play.switched program).progress.history c = play.progress.history c :=
  (Progress.history_fitTo formed play.progress c).trans (if_pos known)

theorem known_switched (formed : program.WellFormed) (play : Play) {c : String}
    (locked : (play.switched program).progress.thread? c = some .locked) : program.has c = true :=
  ((sound_switched formed play).kept.threads c).1 (Table.contains_eq_true.2 ⟨_, locked⟩)

/- Where nothing has been said to a contact of the program, nothing has been said at all. -/
theorem silent_switched (formed : program.WellFormed)
    (silent : ∀ c, program.has c = true → s.play.progress.history c = []) :
    (s.play.switched program).progress.histories.values.all (·.isEmpty) = true := by
  rw [List.all_eq_true]
  intro messages member
  obtain ⟨⟨c, _⟩, entry, rfl⟩ := List.mem_map.1 member
  have held := Table.get?_eq_some_iff.2 entry
  have known := ((sound_switched formed s.play).kept.histories c).1 (Table.contains_eq_true.2 ⟨_, held⟩)
  have same := (history_switched formed s.play known).trans (silent c known)
  unfold Progress.history Table.getD at same
  rw [held] at same
  rw [List.isEmpty_iff]
  exact same

theorem beginStory_of_opensAt (opens : s.OpensAt program contact key round) (now : Nat) :
    (s.play.switched program).beginStory now =
      (s.play.switched program).enter contact.name key now .immediate none := by
  unfold beginStory
  rw [show (s.play.switched program).program = program from rfl, opens.opens]
  dsimp only
  rw [opens.first]

/- A load enters the first round of the opening contact and settles what is due, or it tells nothing. -/
theorem load_of_opensAt (formed : program.WellFormed) (opens : s.OpensAt program contact key round)
    (now : Nat) : (s.switchProgram program now).play =
        (((s.play.switched program).enter contact.name key now .immediate none).fireDue
          now).1.recordTimeline ∧
      s.firings now (.switchProgram program) =
        ((s.play.switched program).enter contact.name key now .immediate none).firings now := by
  have silent := silent_switched formed opens.silent
  rw [← beginStory_of_opensAt opens now]
  constructor
  · rw [switchProgram_eq, if_pos silent, play_settle]
  · apply firings_of_acted
    simp only [acted?]
    rw [if_pos silent]

theorem load_cases (formed : program.WellFormed) (s : Session) (now : Nat) :
    (∃ contact key round, s.OpensAt program contact key round) ∨
      (s.switchProgram program now).play = (s.play.switched program).recordTimeline ∧
        s.firings now (.switchProgram program) = [] := by
  by_cases silent : (s.play.switched program).progress.histories.values.all (·.isEmpty) = true
  · cases opens : program.opening? with
    | some contact =>
      obtain ⟨key, first, found⟩ := formed.firstKey (List.mem_of_find?_eq_some opens)
      obtain ⟨round, found⟩ := Option.isSome_iff_exists.1 found
      refine .inl ⟨contact, key, round, fun c known => ?_, opens, first, found⟩
      apply Classical.byContradiction
      intro spoken
      rw [spoken_switched formed known spoken] at silent
      cases silent
    | none =>
      have begins : (s.play.switched program).beginStory now = s.play.switched program := by
        unfold beginStory
        rw [show (s.play.switched program).program = program from rfl, opens]
      have idle : (s.play.switched program).queue.due? now = none := rfl
      right
      constructor
      · rw [switchProgram_eq, if_pos silent, play_settle, begins, fireDue_of_none idle]
      · have acted : s.acted? now (.switchProgram program) = some (s.play.switched program) := by
          simp only [acted?]
          rw [if_pos silent, begins]
        rw [firings_of_acted acted, firings_of_none idle]
  · right
    constructor
    · rw [switchProgram_eq, if_neg silent]
      rfl
    · have unacted : s.acted? now (.switchProgram program) = none := by
        simp only [acted?]
        rw [if_neg silent]
      unfold firings
      rw [unacted]

/- A locked thread is put into no round when another program is taken. -/
theorem round_switched (formed : program.WellFormed) (play : Play) {c : String}
    (locked : (play.switched program).progress.thread? c = some .locked)
    (current : (play.switched program).progress.rounds.get? c = some key) :
    play.progress.rounds.get? c = some key := by
  obtain ⟨contact, found⟩ := Table.contains_eq_true.1 (known_switched formed play locked)
  have placed := standing_switched formed play found
  have thread : ((play.progress.standing c).fit contact).thread = some .locked :=
    (congrArg Standing.thread placed).symm.trans locked
  have round : ((play.progress.standing c).fit contact).round = some key :=
    (congrArg Standing.round placed).symm.trans current
  change Standing.fitRound contact ((play.progress.standing c).fit contact).thread
    (play.progress.standing c).round = some key at round
  rw [Standing.fitRound, if_pos thread] at round
  split at round
  · exact round
  · cases round

/- Whoever is not the opening contact and stays locked is passed over. -/
theorem passedOver_load (formed : program.WellFormed) (now : Nat) {c : String}
    (locked : (s.switchProgram program now).play.progress.thread? c = some .locked)
    (other : ∀ contact key round, s.OpensAt program contact key round → c ≠ contact.name) :
    PassedOver c s.play (s.firings now (.switchProgram program))
      (s.switchProgram program now).play := by
  rcases load_cases formed s now with ⟨contact, key, round, opens⟩ | ⟨same, none⟩
  · obtain ⟨ends, fired⟩ := load_of_opensAt formed opens now
    rw [ends] at locked ⊢
    rw [fired]
    have entered := enters_enter (s.play.switched program) opens.found now .immediate none
    generalize (s.play.switched program).enter contact.name key now .immediate none = start at *
    have own := other contact key round opens
    have before := locked_fireDue locked
    rcases entered.each c with stays | ⟨_, active, _⟩
    · have was : (s.play.switched program).progress.thread? c = some .locked :=
        stays.thread.symm.trans before
      have later := passedOver_fireDue (stays.lane own) locked
      have history := (stays.history own).trans
        (history_switched formed s.play (known_switched formed s.play was))
      refine ⟨fun key current => ?_, later.waiting, later.fired,
        later.silent.imp_left fun same => same.trans history⟩
      have round := stays.round.symm.trans (later.round key current)
      apply round_switched formed s.play was
      exact ((Table.get?_insert _ _ _ _).trans (if_neg own)).symm.trans round
    · rw [active] at before
      cases before
  · rw [same] at locked ⊢
    rw [none]
    exact ⟨fun _ => round_switched formed s.play locked, rfl, List.forall_mem_nil _,
      .inl (history_switched formed s.play (known_switched formed s.play locked))⟩

/- A contact that was not locked before is open under the new program, if it is open from the start
   there and nothing has been said to it. -/
theorem open_switched (formed : program.WellFormed) {play : Play} (orderly : play.Orderly)
    {contact : Contact} {c : String} (found : program.contact? c = some contact)
    (initially : contact.initiallyUnlocked = true) (silent : play.progress.history c = [])
    (free : play.progress.thread? c ≠ some .locked) : (play.switched program).Open c := by
  have placed := standing_switched formed play found
  obtain ⟨admitted, spoken⟩ := orderly_iff.1 (orderly_switched formed orderly) c
  have active : (play.switched program).progress.thread? c = some .active := by
    have thread := congrArg Standing.thread placed
    change (play.switched program).progress.thread? c =
      (play.progress.thread? c).or (Standing.opening contact).thread at thread
    rw [Standing.thread_opening, if_pos initially] at thread
    cases had : play.progress.thread? c with
    | none =>
      rw [had] at thread
      exact thread
    | some state =>
      rw [had] at thread free
      cases state with
      | active => exact thread
      | locked => exact absurd rfl free
      | ended =>
        have known := Table.contains_eq_true.2 ⟨contact, found⟩
        exact absurd ((history_switched formed play known).trans silent) (spoken thread)
  exact ⟨active, admitted active⟩

/- Opening on load. A contact that is not locked when it opens the conversation is unlocked, and its
   thread is active in its first round with the choices of the round, unless its end has been told in
   the same call; whoever else stays locked is passed over. A contact that is locked and stays so is in
   the round, and the text of the round has been told in its thread. -/
theorem Lives.opens_on_load (lives : s.Lives) (compiled : program.Compiled) (now : Nat) :
    let t := (s.switchProgram program now).play
    (∀ c, t.progress.thread? c = some .locked →
      (∀ contact key round, s.OpensAt program contact key round → c ≠ contact.name) →
        PassedOver c s.play (s.firings now (.switchProgram program)) t) ∧
    ∀ contact key round, s.OpensAt program contact key round →
      (s.play.progress.thread? contact.name ≠ some .locked →
        t.progress.unlocked.has contact.name = true ∧ t.progress.thread? contact.name ≠ some .locked ∧
          (t.EndTold contact.name ∨ t.progress.thread? contact.name = some .active ∧
            t.progress.rounds.get? contact.name = some key ∧
              t.choices contact.name = (t.evaluation round).choices)) ∧
      t.ToldLocked contact.name key ((s.play.switched program).evaluation round).text := by
  have formed := compiled.wellFormed
  refine ⟨fun c locked other => passedOver_load formed now locked other, ?_⟩
  intro contact key round opens
  obtain ⟨ends, _⟩ := load_of_opensAt formed opens now
  constructor
  · intro free
    have initially : contact.initiallyUnlocked = true := List.find?_some opens.opens
    have listed := List.mem_of_find?_eq_some opens.opens
    have known := formed.has_of_mem listed
    have opened := open_switched formed lives.orderly (formed.mem_inOrder listed) initially
      (opens.silent _ known) free
    have start := seated_enter (s.play.switched program) opens.found opened now .immediate none
    have plays := (enters_enter (s.play.switched program) opens.found now .immediate none).program
    generalize (s.play.switched program).enter contact.name key now .immediate none = begun at *
    obtain ⟨program', seated⟩ := seated_fireDue start now
    have found : (begun.fireDue now).1.program.round? contact.name key = some round := by
      rw [program', plays]
      exact opens.found
    rw [ends]
    exact ⟨seated.unlocked, seated.free, seated.choices found⟩
  · rw [ends]
    exact (fireDue_keeps (P := fun play => play.ToldLocked contact.name key _)
      (fun play slot told _ => toldLocked_fire (a := play.dropFirst) told slot)
      (toldLocked_enter _ opens.found now none)).1

/-- Nobody is open from the start. -/
def unopened : String := ":: A-Round-1 [chat]\nHi\n"

/-- Another contact opens the conversation. -/
def openedByOther : String :=
  ":: B-Round-1 [initial_contact]\nHello.\n[[Again|B-Round-1]]\n\n:: A-Round-1 [chat]\nHi\n"

/-- The contact that was locked opens the conversation. -/
def openedByLocked : String := ":: A-Round-1 [initial_contact]\nHi\n[[Again|A-Round-1]]\n"

def opensAs (s : Session) (program : Program) (name : String) : Bool :=
  program.contacts.keys.all (fun c => (s.play.progress.history c).isEmpty) &&
    program.opening?.any fun contact => contact.name == name &&
      contact.firstKey?.any fun key => (program.round? name key).isSome

theorem of_opensAs {name : String} (shown : s.opensAs program name = true) :
    ∃ contact key round, s.OpensAt program contact key round ∧ contact.name = name := by
  obtain ⟨silent, begins⟩ := Bool.and_eq_true_iff.1 shown
  obtain ⟨contact, opens, named⟩ := (Option.any_eq_true _ _).1 begins
  obtain ⟨same, keyed⟩ := Bool.and_eq_true_iff.1 named
  obtain ⟨key, first, found⟩ := (Option.any_eq_true _ _).1 keyed
  obtain ⟨round, found⟩ := Option.isSome_iff_exists.1 found
  obtain rfl := beq_iff_eq.1 same
  refine ⟨contact, key, round, ⟨fun c known => ?_, opens, first, found⟩, rfl⟩
  exact List.isEmpty_iff.1 (List.all_eq_true.1 silent c (Table.contains_iff_mem_keys.1 known))

/-- What is shown after the program is taken and the story begins anew, with no task being due. -/
def opensWith (s : Session) (program : Program) (name : String) (shows : Play → Bool) : Bool :=
  s.opensAs program name &&
    (s.settleWithin 0 ((s.play.switched program).beginStory 2000) 2000).any fun t => shows t.play

theorem of_opensWith {name : String} {shows : Play → Bool} (formed : program.WellFormed)
    (shown : s.opensWith program name shows = true) :
    (∃ contact key round, s.OpensAt program contact key round ∧ contact.name = name) ∧
      shows (s.switchProgram program 2000).play = true := by
  obtain ⟨opens, shown⟩ := Bool.and_eq_true_iff.1 shown
  obtain ⟨t, within, shown⟩ := (Option.any_eq_true _ _).1 shown
  obtain ⟨contact, key, round, begins, named⟩ := of_opensAs opens
  refine ⟨⟨contact, key, round, begins, named⟩, ?_⟩
  rw [switchProgram_eq, if_pos (silent_switched formed begins.silent), settle_of_settleWithin within]
  exact shown

theorem compiled_openedByOther : (compile openedByOther).result.toOption.any
    (fun program => program.has "A" && program.has "B") = true := by
  decide +kernel

theorem played_openedByOther : (playedWithin 0 unopened 1000 []).any (fun s =>
    decide (s.play.progress.thread? "B" = none) &&
      s.opensWith (compile openedByOther).program "B" fun play =>
        decide (play.progress.thread? "A" = some .locked)) = true := by
  decide +kernel

/- The conversation is opened by a new contact, and another one stays locked. -/
theorem opens_on_load_other : ∃ program next : Program, (compile unopened).result = .ok program ∧
    (compile openedByOther).result = .ok next ∧ ∃ s t : Session, s = start program {} .empty 1000 ∧
      t = s.switchProgram next 2000 ∧ s.Lives ∧ next.Compiled ∧ ∃ contact key round,
        s.OpensAt next contact key round ∧ s.play.progress.thread? contact.name ≠ some .locked ∧
        t.play.progress.unlocked.has contact.name = true ∧
        (t.play.EndTold contact.name ∨ t.play.progress.thread? contact.name = some .active ∧
          t.play.progress.rounds.get? contact.name = some key ∧
            t.play.choices contact.name = (t.play.evaluation round).choices) ∧
        t.play.progress.thread? "A" = some .locked ∧
        PassedOver "A" s.play (s.firings 2000 (.switchProgram next)) t.play := by
  obtain ⟨program, compiled, shown⟩ := played_of_any played_openedByOther
  obtain ⟨next, recompiled, _⟩ := compiled_of_any compiled_openedByOther
  have loads : next.Compiled := ⟨_, recompiled⟩
  have lives : Lives (start program {} .empty 1000) := .start {} 1000 ⟨_, compiled⟩ rfl
  obtain ⟨new, begins⟩ := Bool.and_eq_true_iff.1 shown
  rw [Compilation.program_of_result recompiled] at begins
  obtain ⟨⟨contact, key, round, opens, named⟩, locked⟩ := of_opensWith loads.wellFormed begins
  have still := of_decide_eq_true locked
  obtain ⟨passed, opened⟩ := lives.opens_on_load loads 2000
  have unknown : (start program {} .empty 1000).play.progress.thread? "B" = none := of_decide_eq_true new
  have free : (start program {} .empty 1000).play.progress.thread? contact.name ≠ some .locked := by
    rw [named, unknown]
    nofun
  obtain ⟨unlocked, _, seated⟩ := (opened contact key round opens).1 free
  refine ⟨program, next, compiled, recompiled, _, _, rfl, rfl, lives, loads, contact, key, round,
    opens, free, unlocked, seated, still, passed "A" still fun other _ _ first => ?_⟩
  have same : contact = other := Option.some.inj (opens.opens.symm.trans first.opens)
  rw [← same, named]
  decide

theorem compiled_openedByLocked : (compile openedByLocked).result.toOption.any
    (fun program => program.has "A") = true := by
  decide +kernel

theorem played_openedByLocked : (playedWithin 0 unopened 1000 []).any (fun s =>
    s.opensWith (compile openedByLocked).program "A" fun play =>
      decide (play.progress.thread? "A" = some .locked) && !play.progress.unlocked.has "A" &&
        decide (play.choices "A" = []) && (play.progress.rounds.get? "A").isSome &&
        (play.progress.history "A").any fun m => m.text == "Hi") = true := by
  decide +kernel

/- The opening round is told into a thread that stays locked. -/
theorem opening_told_locked : ∃ program next : Program, (compile unopened).result = .ok program ∧
    (compile openedByLocked).result = .ok next ∧ ∃ s t : Session, s = start program {} .empty 1000 ∧
      t = s.switchProgram next 2000 ∧ s.Lives ∧ ∃ contact key round,
        s.OpensAt next contact key round ∧ contact.name = "A" ∧
        t.play.progress.thread? "A" = some .locked ∧ t.play.progress.unlocked.has "A" = false ∧
        t.play.choices "A" = [] ∧ (t.play.progress.rounds.get? "A").isSome = true ∧
        ∃ m ∈ t.play.progress.history "A", m.text = "Hi" := by
  obtain ⟨program, compiled, shown⟩ := played_of_any played_openedByLocked
  obtain ⟨next, recompiled, _⟩ := compiled_of_any compiled_openedByLocked
  have formed : next.WellFormed := Program.Compiled.wellFormed ⟨_, recompiled⟩
  have lives : Lives (start program {} .empty 1000) := .start {} 1000 ⟨_, compiled⟩ rfl
  rw [Compilation.program_of_result recompiled] at shown
  obtain ⟨⟨contact, key, round, opens, named⟩, told⟩ := of_opensWith formed shown
  simp only [Bool.and_eq_true, decide_eq_true_eq, Bool.not_eq_true', List.any_eq_true,
    beq_iff_eq] at told
  obtain ⟨⟨⟨⟨locked, closed⟩, silent⟩, current⟩, spoken⟩ := told
  exact ⟨program, next, compiled, recompiled, _, _, rfl, rfl, lives, contact, key, round, opens,
    named, locked, closed, silent, current, spoken⟩

end Session
end ChatStory
