import ChatStory.Proofs.Session.Deeds
import ChatStory.Proofs.Session.Level
import ChatStory.Proofs.Session.Orderly
import ChatStory.Proofs.Session.Remade

/-!
Sessions that differ in the pace at which replies are typed. Where no round waits for a condition, a step
brings the tasks of one contact first, which come up in their order at any pace; and its notices,
which come last, unlock contacts for whom nothing was on the timeline before, so that their tasks
lie equally far behind the notices at any pace.
-/
namespace ChatStory

/- Where the same tasks wait, the same task comes next. -/
theorem Queue.next_of_tasks {r s : Queue} (same : r.slots.map (·.task) = s.slots.map (·.task)) {slot : Slot}
    (next : r.next? = some slot) : ∃ other, s.next? = some other ∧ slot.task = other.task ∧
      r.rest.slots.map (·.task) = s.rest.slots.map (·.task) := by
  rw [slots_of_next next, List.map_cons] at same
  obtain ⟨other, rest, comes, task, tasks⟩ := List.map_eq_cons_iff.1 same.symm
  refine ⟨other, by rw [next?, comes]; rfl, task.symm, ?_⟩
  rw [← tasks]
  change _ = s.slots.tail.map (·.task)
  rw [comes]
  rfl

namespace Play

variable {a b : Play} {program : Program} {told laid : String → Prop} {contact : String} {now : Nat}

/-- Nothing was ever put on the timeline for a contact that can still be unlocked. -/
def Unused (play : Play) : Prop :=
  ∀ c, play.canUnlock c = true → play.queue.latest.getD c 0 = 0

theorem Unused.enters (unused : a.Unused) (enters : Enters told laid a b)
    (used : ∀ c, laid c → b.canUnlock c = false) : b.Unused := by
  intro c can
  have free : ¬laid c := by
    intro lies
    rw [used c lies] at can
    cases can
  rcases enters.each c with stays | ⟨_, opened⟩
  · rw [stays.latest free]
    apply unused
    rw [canUnlock, ← stays.thread, ← stays.unlocked]
    exact can
  · exact absurd opened (not_open_of_can can)

theorem Unused.ends (unused : a.Unused) (ends : Ends contact a b) : b.Unused := by
  intro c can
  rw [ends.queue]
  apply unused
  rw [canUnlock, ends.unlocked, ends.threads] at can
  rw [canUnlock]
  split at can
  · have free : a.progress.unlocked.has c = false := by simpa using can
    rw [free]
    rfl
  · exact can

theorem canUnlock_of_open (opened : a.Open contact) : a.canUnlock contact = false :=
  canUnlock_of_active opened.1 opened.2

theorem unused_fire (unused : a.Unused) (slot : Slot) : (a.fire slot).Unused := by
  obtain ⟨mid, enters, same | ends⟩ := enters_fire a slot
  · rw [same]
    exact unused.enters enters fun _ => False.elim
  · exact (unused.enters enters fun _ => False.elim).ends ends

theorem lasting_unused : Lasting Unused where
  fires {play slot} unused _ := unused_fire (a := play.dropFirst) unused slot
  notes unused := unused

theorem unused_enter (unused : a.Unused) (opened : a.Open contact) (key : RoundKey) (time : Nat)
    (tempo : Tempo) (leading : Option Action) : (a.enter contact key time tempo leading).Unused := by
  cases found : a.program.round? contact key with
  | none =>
    unfold enter enterWith
    rw [found]
    exact unused
  | some round =>
    have placed : (a.placed contact key).Unused := unused
    have enters := enters_enter a found time tempo leading
    refine placed.enters enters ?_
    rintro c rfl
    exact canUnlock_of_open (enters.opened opened)

theorem unused_choose {index : Nat} (unused : a.Unused) (orderly : a.Orderly)
    (chosen : a.choose? contact index now = some b) : b.Unused := by
  rw [choose?_eq] at chosen
  obtain ⟨choice, offered, rfl⟩ := Option.map_eq_some_iff.1 chosen
  have active := active_of_choice offered
  have said : (a.say contact (.ofChoice choice) now).Unused := unused
  have opened : (a.say contact (.ofChoice choice) now).Open contact :=
    ⟨active, (orderly_iff.1 orderly contact).1 active⟩
  generalize a.say contact (.ofChoice choice) now = after at said opened
  unfold follow
  split
  · exact unused_enter said opened _ now .typed choice.action
  · have left : (after.revise fun p => { p with rounds := p.rounds.erase contact }).Unused := said
    exact left.ends (ends_finishThread _ contact now)

theorem Level.canUnlock (level : Level program none a b) (c : String) :
    a.canUnlock c = b.canUnlock c := by
  have unlocked : a.progress.unlocked = b.progress.unlocked := congrArg Mind.unlocked level.mind
  rw [Play.canUnlock, Play.canUnlock, unlocked, level.thread?]

/- Where nothing waits, whoever can still be unlocked starts afresh at any two times. -/
theorem Level.shifted (level : Level program none a b) (unused : a.Unused) (unused' : b.Unused)
    (empty : a.queue.slots = []) (empty' : b.queue.slots = []) (p q : Nat) :
    Shifted program p q (fun c => a.canUnlock c = true) none a b := by
  refine ⟨level, ⟨?_, fun c can => .inl ⟨?_, ?_⟩⟩, fun _ => id⟩
  · rw [empty, empty']
    exact .nil
  · rw [unused c can]
    exact Nat.zero_le p
  · rw [unused' c (level.canUnlock c ▸ can)]
    exact Nat.zero_le q

/- Of a bubble that announces a reply nothing is observed. -/
theorem Level.typing (level : Level program none a b) {slot : Slot}
    (bubble : slot.task.delivery = .typing) : Level program none (a.dropFirst.fire slot) b := by
  unfold fire
  rw [bubble]
  split
  · exact ⟨{ level.toAlike with }, (observed_announceTyping _ _ _).trans level.observed⟩
  · exact { level with }

/-- No notice waits but as the last task. -/
def NoticesLast (tasks : List Task) : Prop := tasks.Pairwise fun earlier _ => earlier.delivery ≠ .notices

/- Whatever the times of the last task are, what comes of it comes equally far behind it. -/
theorem Level.drained_last (formed : program.WellFormed) (unconditional : program.Unconditional)
    (level : Level program none a b) (unused : a.Unused) (unused' : b.Unused)
    (empty : a.queue.slots = []) (empty' : b.queue.slots = []) {slot slot' : Slot}
    (task : slot.task = slot'.task) {limit other : Nat}
    (first : (fireUpTo limit (a.fire slot)).1.queue.slots = [])
    (second : (fireUpTo other (b.fire slot')).1.queue.slots = []) :
    Level program none (fireUpTo limit (a.fire slot)).1 (fireUpTo other (b.fire slot')).1 := by
  have shifted := level.shifted unused unused' empty empty' slot.time slot'.time
  have fired := (parallel_shifted formed unconditional _ _ _).fire shifted task
    (Shift.start slot.time slot'.time)
  exact (fired.drained formed unconditional first second).toLevel

/- By induction on the number of tasks that are fired. As long as none of them is a notice, nothing new is put
   on the timeline. The notices come last, and what follows from them is shifted. -/
theorem Level.drained (formed : program.WellFormed) (unconditional : program.Unconditional)
    {limit other : Nat} (level : Level program none a b) (unused : a.Unused) (unused' : b.Unused)
    (same : a.queue.slots.map (·.task) = b.queue.slots.map (·.task))
    (last : NoticesLast (a.queue.slots.map (·.task)))
    (first : (fireUpTo limit a).1.queue.slots = []) (second : (fireUpTo other b).1.queue.slots = []) :
    Level program none (fireUpTo limit a).1 (fireUpTo other b).1 := by
  induction limit generalizing a b other with
  | zero =>
    have empty : a.queue.slots = [] := first
    rw [empty, List.map_nil, eq_comm, List.map_eq_nil_iff] at same
    rw [fireUpTo_of_empty same]
    exact level
  | succ limit ih =>
    cases next : a.queue.next? with
    | none =>
      have empty : a.queue.slots = [] := List.head?_eq_none_iff.1 next
      rw [empty, List.map_nil, eq_comm, List.map_eq_nil_iff] at same
      rw [fireUpTo_of_empty empty, fireUpTo_of_empty same]
      exact level
    | some slot =>
      obtain ⟨slot', next', task, left⟩ := Queue.next_of_tasks same next
      obtain ⟨fewer, rfl⟩ := limit_of_drained next' second
      rw [fireUpTo_of_some next] at first ⊢
      rw [fireUpTo_of_some next'] at second ⊢
      rw [Queue.slots_of_next next, List.map_cons] at last
      obtain ⟨before, last⟩ := List.pairwise_cons.1 last
      have dropped : Level program none a.dropFirst b.dropFirst := { level with }
      by_cases notices : slot.task.delivery = .notices
      · have nothing : a.queue.rest.slots.map (·.task) = [] :=
          List.eq_nil_iff_forall_not_mem.2 fun later waits => before later waits notices
        have empty : a.dropFirst.queue.slots = [] := List.map_eq_nil_iff.1 nothing
        have empty' : b.dropFirst.queue.slots = [] := List.map_eq_nil_iff.1 (left.symm.trans nothing)
        exact dropped.drained_last formed unconditional unused unused' empty empty' task first second
      · have idles : Idles a.dropFirst (a.dropFirst.fire slot) :=
          idles_fire (dropped.unconditional unconditional) notices
        have idles' : Idles b.dropFirst (b.dropFirst.fire slot') :=
          idles_fire (dropped.symm.unconditional unconditional) (by rwa [← task])
        have fired := (parallel_level formed).fire dropped task trivial
        refine ih fired (unused_fire (a := a.dropFirst) unused slot)
          (unused_fire (a := b.dropFirst) unused' slot') ?_ ?_ first second
        · rw [idles.queue, idles'.queue]
          exact left
        · rw [idles.queue]
          exact last

/- Bubbles that wait before all other tasks are fired first. -/
theorem Level.unbubbled (unconditional : program.Unconditional) (level : Level program none a b)
    (unused : a.Unused) {bubbles tasks : List Task}
    (waits : a.queue.slots.map (·.task) = bubbles ++ tasks)
    (bubble : ∀ task ∈ bubbles, task.delivery = .typing) {limit : Nat}
    (drained : (fireUpTo limit a).1.queue.slots = []) : ∃ c fewer,
      (fireUpTo limit a).1 = (fireUpTo fewer c).1 ∧ Level program none c b ∧ c.Unused ∧
        c.queue.slots.map (·.task) = tasks := by
  induction bubbles generalizing a limit with
  | nil => exact ⟨a, limit, rfl, level, unused, waits⟩
  | cons task bubbles ih =>
    obtain ⟨slot, rest, comes, same, later⟩ := List.map_eq_cons_iff.1 waits
    have next : a.queue.next? = some slot := by
      rw [Queue.next?, comes]
      rfl
    obtain ⟨fewer, rfl⟩ := limit_of_drained next drained
    obtain ⟨first, others⟩ := List.forall_mem_cons.1 bubble
    have typing : slot.task.delivery = .typing := by
      rw [same]
      exact first
    have dropped : Level program none a.dropFirst b := { level with }
    have idles : Idles a.dropFirst (a.dropFirst.fire slot) :=
      idles_fire (dropped.unconditional unconditional) (by rw [typing]; decide)
    rw [fireUpTo_of_some next] at drained ⊢
    refine ih (level.typing typing) (unused_fire (a := a.dropFirst) unused slot) ?_ others drained
    rw [idles.queue]
    change a.queue.slots.tail.map (·.task) = bubbles ++ tasks
    rw [comes]
    exact later

/-- What a round puts on the timeline behind its bubble. -/
def laidOut (play : Play) (contact text : String) (actions : List Action) : List Delivery :=
  (if text = "" then [] else [.reply text]) ++
    ((actions.filter Action.isScheduled).map .payload ++
      (if play.progress.unlocks.contains contact || play.progress.endings.has contact then [.notices]
        else []))

theorem tasks_sequence (a : Play) (contact text : String) (actions : List Action) (epoch : Nat) :
    ∃ bubbles : List Task, (∀ task ∈ bubbles, task.delivery = .typing) ∧
      (a.sequence contact text actions).map (Task.mk contact epoch) =
        bubbles ++ (a.laidOut contact text actions).map (Task.mk contact epoch) := by
  refine ⟨(if 0 < a.progress.typingDelay then [.typing] else []).map (Task.mk contact epoch), ?_, ?_⟩
  · intro task member
    obtain ⟨delivery, bubble, rfl⟩ := List.mem_map.1 member
    split at bubble
    · exact List.mem_singleton.1 bubble
    · cases bubble
  · rw [← List.map_append]
    rfl

theorem noticesLast_laidOut (a : Play) (contact text : String) (actions : List Action) (epoch : Nat) :
    NoticesLast ((a.laidOut contact text actions).map (Task.mk contact epoch)) := by
  unfold NoticesLast laidOut
  rw [List.pairwise_map, ← List.append_assoc]
  have plain : ∀ delivery ∈ (if text = "" then [] else [Delivery.reply text]) ++
      (actions.filter Action.isScheduled).map .payload, delivery ≠ .notices := by
    intro delivery member
    rcases List.mem_append.1 member with reply | payload
    · split at reply
      · cases reply
      · rw [List.mem_singleton.1 reply]
        nofun
    · obtain ⟨action, _, rfl⟩ := List.mem_map.1 payload
      nofun
  refine List.pairwise_append.2 ⟨?_, ?_, fun delivery member _ _ => plain delivery member⟩
  · exact List.pairwise_of_forall_mem_list fun delivery member _ _ => plain delivery member
  · split
    · exact List.pairwise_singleton _ _
    · exact .nil

/- A round that is entered where nothing waits: what comes of it is the same at any pace. -/
theorem Level.entered (formed : program.WellFormed) (unconditional : program.Unconditional)
    (level : Level program none a b) (coherent : a.Coherent) (coherent' : b.Coherent)
    (unused : a.Unused) (unused' : b.Unused) (opened : a.Open contact) (rests : a.queue.slots = [])
    (rests' : b.queue.slots = []) {key : RoundKey} {round : Round}
    (found : program.round? contact key = some round) (leading : Option Action) {x y : Nat}
    {limit other : Nat}
    (first : (fireUpTo limit (a.enter contact key x .typed leading)).1.queue.slots = [])
    (second : (fireUpTo other (b.enter contact key y .typed leading)).1.queue.slots = []) :
    Level program none (fireUpTo limit (a.enter contact key x .typed leading)).1
      (fireUpTo other (b.enter contact key y .typed leading)).1 := by
  have parallel := parallel_level formed
  have opened' : b.Open contact := by
    rw [Open, ← level.thread?, ← parallel.unlocked level]
    exact opened
  have entered : Level program none (a.enter contact key x .typed leading)
      (b.enter contact key y .typed leading) :=
    parallel.enter trivial (parallel.loosen level contact) (Option.isSome_of_eq_some found) trivial leading
  have tasks := tasks_enter (level.unconditional unconditional) coherent
    (active_not_closed opened.1) (by rw [level.program]; exact found) rests x leading
  have tasks' := tasks_enter (level.symm.unconditional unconditional) coherent'
    (active_not_closed opened'.1) (by rw [level.symm.program]; exact found) rests' y leading
  have epoch : a.epoch = b.epoch := congrArg Mind.epoch level.mind
  rw [← parallel.evaluation level round, ← epoch] at tasks'
  have used := unused_enter unused opened key x .typed leading
  have used' := unused_enter unused' opened' key y .typed leading
  generalize a.enter contact key x .typed leading = c at *
  generalize b.enter contact key y .typed leading = d at *
  generalize (a.evaluation round).text = text at tasks tasks'
  generalize leading.toList ++ (a.evaluation round).actions = actions at tasks tasks'
  have same : d.laidOut contact text actions = c.laidOut contact text actions := by
    unfold laidOut
    rw [parallel.unlocks entered, parallel.endings entered]
  obtain ⟨bubbles, typing, behind⟩ := tasks_sequence c contact text actions a.epoch
  obtain ⟨others, typing', behind'⟩ := tasks_sequence d contact text actions a.epoch
  obtain ⟨c, fewer, fired, level, used, left⟩ :=
    entered.unbubbled unconditional used (tasks.trans behind) typing first
  obtain ⟨d, less, fired', level', used', right⟩ :=
    level.symm.unbubbled unconditional used' (tasks'.trans behind') typing' second
  rw [fired] at first ⊢
  rw [fired'] at second ⊢
  refine level'.symm.drained formed unconditional used used' ?_ ?_ first second
  · rw [left, right, same]
  · rw [left]
    exact noticesLast_laidOut _ contact text actions a.epoch

/- A choice that is followed where nothing waits: whatever the pace, what comes of it is level. -/
theorem Level.followed (formed : program.WellFormed) (unconditional : program.Unconditional)
    (level : Level program none a b) (coherent : a.Coherent) (coherent' : b.Coherent)
    (unused : a.Unused) (unused' : b.Unused) (opened : a.Open contact) (rests : a.queue.slots = [])
    (rests' : b.queue.slots = []) (choice : Choice) {x y : Nat} {limit other : Nat}
    (first : (fireUpTo limit (a.follow contact choice x)).1.queue.slots = [])
    (second : (fireUpTo other (b.follow contact choice y)).1.queue.slots = []) :
    Level program none (fireUpTo limit (a.follow contact choice x)).1
      (fireUpTo other (b.follow contact choice y)).1 := by
  have parallel := parallel_level formed
  have target := parallel.target? level contact choice
  cases leads : a.target? contact choice with
  | none =>
    have ended : Level program none (a.follow contact choice x) (b.follow contact choice y) :=
      parallel.follow trivial level trivial choice
    rw [follow, leads, follow, ← target, leads] at ended
    dsimp only at ended
    have left : (a.strand contact x).queue.slots = [] := by
      rw [strand, (ends_finishThread _ contact x).queue]
      exact rests
    have right : (b.strand contact y).queue.slots = [] := by
      rw [strand, (ends_finishThread _ contact y).queue]
      exact rests'
    rw [follow, leads, follow, ← target, leads]
    dsimp only
    rw [fireUpTo_of_empty left, fireUpTo_of_empty right]
    exact ended
  | some key =>
    obtain ⟨round, found, _⟩ := round_of_target leads
    rw [level.program] at found
    rw [follow, leads] at first ⊢
    rw [follow, ← target, leads] at second ⊢
    exact level.entered formed unconditional coherent coherent' unused unused' opened rests rests' found
      choice.action first second

theorem unused_assign (unused : a.Unused) (name : String) (value : Value) :
    (a.assign name value now).Unused :=
  unused.enters (enters_assign a name value now) fun _ => False.elim

theorem Level.chosen (formed : program.WellFormed) (unconditional : program.Unconditional)
    (level : Level program none a b) (coherent : a.Coherent) (coherent' : b.Coherent)
    (orderly : a.Orderly) (unused : a.Unused) (unused' : b.Unused) (rests : a.queue.slots = [])
    (rests' : b.queue.slots = []) {index : Nat} {c d : Play} (picked : a.choose? contact index now = some c)
    (picked' : b.choose? contact index now = some d) {limit other : Nat}
    (first : (fireUpTo limit c).1.queue.slots = []) (second : (fireUpTo other d).1.queue.slots = []) :
    Level program none (fireUpTo limit c).1 (fireUpTo other d).1 := by
  rw [choose?_eq] at picked picked'
  obtain ⟨choice, offered, rfl⟩ := Option.map_eq_some_iff.1 picked
  rw [← (parallel_level formed).choices level contact, offered] at picked'
  obtain rfl := Option.some.inj picked'
  have active := active_of_choice offered
  have opened : (a.say contact (.ofChoice choice) now).Open contact :=
    ⟨active, (orderly_iff.1 orderly contact).1 active⟩
  have known := coherent.known_of_thread active
  have known' := coherent'.known_of_thread ((level.thread? contact).symm.trans active)
  exact (level.say contact (.ofChoice choice) now now).followed formed unconditional
    (coherent.moves (.say a known _ now)) (coherent'.moves (.say b known' _ now)) unused unused' opened
    rests rests' choice first second

/- What is given to a variable puts nothing on the timeline. -/
theorem Level.assigned (formed : program.WellFormed) (unconditional : program.Unconditional)
    (level : Level program none a b) (rests : a.queue.slots = []) (rests' : b.queue.slots = [])
    (name : String) (value : Value) (limit other : Nat) :
    Level program none (fireUpTo limit (a.assign name value now)).1
      (fireUpTo other (b.assign name value now)).1 := by
  have still : ∀ {play : Play}, play.program = program → play.queue.slots = [] →
      (play.assign name value now).queue.slots = [] := by
    intro play same empty
    have idles : Idles play (play.assign name value now) :=
      idles_assignWith (by rw [same]; exact unconditional) _ name value now
    rw [idles.queue]
    exact empty
  rw [fireUpTo_of_empty (still level.program rests), fireUpTo_of_empty (still level.symm.program rests')]
  exact (parallel_level formed).assign trivial level name value

/- The pace of a new story is all in which it differs from another one. -/
theorem initial_paced (program : Program) (g h : Nat) :
    Progress.initial program h = { Progress.initial program g with typingDelay := h } := by
  have opens : ∀ (contacts : List Contact) (p : Progress),
      contacts.foldl Progress.openContact { p with typingDelay := h } =
        { contacts.foldl Progress.openContact p with typingDelay := h } := by
    intro contacts
    induction contacts with
    | nil => exact fun _ => rfl
    | cons contact rest ih =>
      intro p
      have one : Progress.openContact { p with typingDelay := h } contact =
          { p.openContact contact with typingDelay := h } := by
        unfold Progress.openContact
        dsimp only
        split
        · rfl
        · rfl
      rw [List.foldl_cons, one, ih]
      rfl
  rw [Progress.initial_eq, Progress.initial_eq, ← opens]
  rfl

/- Nothing has been typed before a story begins, and it is begun at once. -/
theorem shifted_begun (formed : program.WellFormed) (unconditional : program.Unconditional)
    (g h indicator : Nat) : Shifted program 0 0 (fun _ => True) none (begun program ⟨g, indicator⟩ now)
      (begun program ⟨h, indicator⟩ now) := by
  have before : Shifted program 0 0 (fun _ => True) none (unbegun program ⟨g, indicator⟩)
      (unbegun program ⟨h, indicator⟩) := by
    unfold unbegun
    rw [initial_paced program g h]
    have queues : Queue.Shifted 0 0 (fun _ => True) ∅ ∅ :=
      ⟨.nil, fun _ _ => .inl ⟨Nat.le_refl 0, Nat.le_refl 0⟩⟩
    exact ⟨⟨⟨rfl, rfl, fun _ _ _ => rfl⟩, rfl⟩, queues, fun _ _ => trivial⟩
  exact (parallel_shifted formed unconditional 0 0 _).beginStory ⟨Nat.zero_le now, rfl⟩ before
    fun _ => ⟨rfl, trivial⟩

theorem unused_begun (formed : program.WellFormed) (options : Options) :
    (begun program options now).Unused := by
  have before : (unbegun program options).Unused := fun _ _ => rfl
  change ((unbegun program options).beginStory now).Unused
  unfold beginStory
  split
  · exact before
  · rename_i contact opens
    split
    · have own := formed.mem_inOrder (List.mem_of_find?_eq_some opens)
      have unlocked : contact.initiallyUnlocked = true := List.find?_some opens
      have standing := Progress.standing_initial formed options.typingDelay own
      rw [Standing.opening, if_pos unlocked] at standing
      exact unused_enter before ⟨congrArg Standing.thread standing, congrArg Standing.unlocked standing⟩
        _ now .immediate none
    · exact before

end Play
end ChatStory
