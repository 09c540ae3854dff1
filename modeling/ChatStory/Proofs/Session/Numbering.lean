import ChatStory.Proofs.Document.Doubles
import ChatStory.Proofs.Session.Orderly
import ChatStory.Proofs.Session.Sequence
import ChatStory.Proofs.Session.Walk

/-!
Messages and their ids. One counter numbers the messages of all threads, and the id of a message is made of
its contact and its number, so no two messages share one as long as a session lives. A story that
goes on only adds to its threads; a session that is made again does so exactly if the places
in its messages are read back as they were.
-/
namespace ChatStory

namespace Message

/-- The id under which a message of a contact is numbered. -/
def idOf (contact : String) (number : Nat) : String := contact ++ "-" ++ toString number

/- The last hyphen of an id is the one before the number, whatever the contact is called. -/
theorem idOf_inj {c d : String} {n k : Nat} (same : idOf c n = idOf d k) : c = d ∧ n = k := by
  have digits : ∀ n : Nat, ∀ x ∈ (Nat.toDigits 10 n).reverse, ¬x = '-' := by
    intro n x member hyphen
    have digit := Decimal.digits_of_toDigits n x (List.mem_reverse.1 member)
    rw [hyphen] at digit
    exact absurd digit (by decide)
  have spelled : ∀ c n, (idOf c n).toList.reverse =
      (Nat.toDigits 10 n).reverse ++ '-' :: c.toList.reverse := by
    intro c n
    simp [idOf, String.toList_append]
  have reversed : (idOf c n).toList.reverse = (idOf d k).toList.reverse := by rw [same]
  rw [spelled, spelled] at reversed
  obtain ⟨numbers, _⟩ := first_unique (digits n) (digits k) rfl rfl reversed
  rw [numbers, List.append_cancel_left_eq, List.cons.injEq, List.reverse_inj] at reversed
  refine ⟨String.toList_inj.1 reversed.2, ?_⟩
  rw [← Decimal.natOf_toDigits n, ← Decimal.natOf_toDigits k, List.reverse_inj.1 numbers]

/-- The contact and the id of a message. -/
def tag (m : Message) : String × String := (m.contact, m.id)

/-- A message, whether it has been read or not. -/
def unread (m : Message) : Message := { m with read := false }

end Message

namespace Progress

/-- Every message stands in the thread of its own contact, under an id whose number has been given out,
and no other message has this id. -/
structure Numbered (p : Progress) : Prop where
  own : ∀ c, ∀ m ∈ p.history c, m.contact = c ∧ ∃ number, number < p.nextId ∧ m.id = Message.idOf c number
  distinct : ∀ (c d : String) (i j : Nat) (m n : Message), (p.history c)[i]? = some m →
    (p.history d)[j]? = some n → m.id = n.id → c = d ∧ i = j

variable {p q : Progress}

theorem numbered_of_silent (silent : ∀ c, p.history c = []) : p.Numbered := by
  refine ⟨fun c m member => ?_, fun c d i j m n at_i => ?_⟩
  · rw [silent] at member
    cases member
  · rw [silent] at at_i
    cases at_i

/- Ids stay distinct where threads keep the tags of their messages, or vanish. -/
theorem Numbered.of_tags (numbered : p.Numbered) (next : p.nextId ≤ q.nextId)
    (tags : ∀ c, (q.history c).map Message.tag = (p.history c).map Message.tag ∨ q.history c = []) :
    q.Numbered := by
  have before : ∀ {c : String} {i : Nat} {m : Message}, (q.history c)[i]? = some m →
      ∃ m', (p.history c)[i]? = some m' ∧ m'.contact = m.contact ∧ m'.id = m.id := by
    intro c i m found
    rcases tags c with same | none
    · have listed : ((p.history c).map Message.tag)[i]? = some m.tag := by
        rw [← same, List.getElem?_map, found]
        rfl
      rw [List.getElem?_map] at listed
      obtain ⟨m', found', tagged⟩ := Option.map_eq_some_iff.1 listed
      exact ⟨m', found', (Prod.mk.inj tagged).1, (Prod.mk.inj tagged).2⟩
    · rw [none] at found
      cases found
  constructor
  · intro c m member
    obtain ⟨i, found⟩ := List.mem_iff_getElem?.1 member
    obtain ⟨m', found', contact, id⟩ := before found
    obtain ⟨own, number, given, spelled⟩ := numbered.own c m' (List.mem_of_getElem? found')
    exact ⟨contact.symm.trans own, number, Nat.lt_of_lt_of_le given next, id.symm.trans spelled⟩
  · intro c d i j m n at_i at_j same
    obtain ⟨m', at_i', _, id⟩ := before at_i
    obtain ⟨n', at_j', _, id'⟩ := before at_j
    exact numbered.distinct c d i j m' n' at_i' at_j' ((id.trans same).trans id'.symm)

theorem Numbered.of_histories (numbered : p.Numbered) (next : q.nextId = p.nextId)
    (histories : q.histories = p.histories) : q.Numbered := by
  refine numbered.of_tags (Nat.le_of_eq next.symm) fun c => .inl ?_
  rw [history, histories]
  rfl

theorem Numbered.fitTo (numbered : p.Numbered) {program : Program} (formed : program.WellFormed) :
    (p.fitTo program).Numbered := by
  refine numbered.of_tags (Nat.le_of_eq (p.counters_fitTo program).2.2.symm) fun c => ?_
  rw [history_fitTo formed]
  split
  · exact .inl rfl
  · exact .inr rfl

end Progress

namespace Play

variable {a b : Play} {may : ThreadState → Prop}

/- A new message takes the number that comes next. -/
theorem numbered_say (numbered : a.progress.Numbered) (contact : String) (saying : Saying)
    (time : Nat) : (a.say contact saying time).progress.Numbered := by
  have cases_of : ∀ {c : String} {i : Nat} {m : Message},
      ((a.say contact saying time).progress.history c)[i]? = some m →
      (a.progress.history c)[i]? = some m ∨ c = contact ∧ i = (a.progress.history contact).length ∧
        m = saying.message a contact time := by
    intro c i m found
    rw [Speaks.history_say] at found
    split at found
    · rename_i own
      subst own
      rcases Nat.lt_trichotomy i (a.progress.history c).length with early | last | late
      · rw [List.getElem?_append_left early] at found
        exact .inl found
      · rw [last, List.getElem?_concat_length] at found
        cases found
        exact .inr ⟨rfl, last, rfl⟩
      · rw [List.getElem?_eq_none (by simpa using Nat.succ_le_of_lt late)] at found
        cases found
    · exact .inl found
  have fresh : ∀ {c : String} {m : Message}, m ∈ a.progress.history c →
      m.id ≠ (saying.message a contact time).id := by
    intro c m member same
    obtain ⟨_, number, given, id⟩ := numbered.own c m member
    have numbers := (Message.idOf_inj (id.symm.trans same)).2
    omega
  constructor
  · intro c m member
    obtain ⟨i, found⟩ := List.mem_iff_getElem?.1 member
    rcases cases_of found with old | ⟨rfl, _, rfl⟩
    · obtain ⟨own, number, given, id⟩ := numbered.own c m (List.mem_of_getElem? old)
      exact ⟨own, number, Nat.lt_succ_of_lt given, id⟩
    · exact ⟨rfl, a.progress.nextId, Nat.lt_succ_self _, rfl⟩
  · intro c d i j m n at_i at_j same
    rcases cases_of at_i with old | ⟨rfl, here, rfl⟩
    · rcases cases_of at_j with old' | ⟨rfl, _, rfl⟩
      · exact numbered.distinct c d i j m n old old' same
      · exact absurd same (fresh (List.mem_of_getElem? old))
    · rcases cases_of at_j with old' | ⟨rfl, there, _⟩
      · exact absurd same.symm (fresh (List.mem_of_getElem? old'))
      · exact ⟨rfl, here.trans there.symm⟩

theorem numbered_step (numbered : a.progress.Numbered) (step : Step may a b) :
    b.progress.Numbered := by
  cases step with
  | quiet _ _ histories next => exact numbered.of_histories next histories
  | said contact time kept => exact numbered_say numbered contact _ time
  | put contact allowed =>
    rw [putThread_eq]
    exact numbered.of_histories rfl rfl
  | unlocked contact =>
    rw [setUnlocked_eq]
    exact numbered.of_histories rfl rfl
  | typed contact time | assigned fresh | told contact action => exact numbered.of_histories rfl rfl

theorem Walks.numbered (walks : Walks may a b) (numbered : a.progress.Numbered) :
    b.progress.Numbered := by
  induction walks with
  | refl => exact numbered
  | tail _ step ih => exact numbered_step ih step

end Play

/-- The thread has only become longer: what stood in it is where it was, and at most has been read. -/
def Grown (before after : List Message) : Prop :=
  before.map Message.unread <+: after.map Message.unread

theorem grown_of_prefix {before after : List Message} (longer : before <+: after) :
    Grown before after := longer.map _

namespace Session

open Play

variable {s : Session} {now : Nat} {operation : Operation}

/- What does nothing at once leaves all messages as they are, but for being read. -/
theorem Aside.unread {a b : Play} (aside : Aside a b) (c : String) :
    (b.progress.history c).map Message.unread = (a.progress.history c).map Message.unread := by
  cases aside with
  | @viewed contact _ =>
    exact (histories_viewed (f := Message.unread) (fun _ => rfl) a.progress.histories contact c).2
  | _ => rfl

theorem Aside.nextId {a b : Play} (aside : Aside a b) : b.progress.nextId = a.progress.nextId := by
  cases aside <;> rfl

/- As long as a story goes on, its threads only grow. -/
theorem grown_perform (s : Session) (now : Nat) (ongoing : operation.Ongoing) (c : String) :
    Grown (s.play.progress.history c) ((s.perform now operation).play.progress.history c) := by
  cases plays : operation.plays with
  | true => exact grown_of_prefix ((walks_perform s now plays).history c)
  | false =>
    have aside : Aside s.play (s.perform now operation).play := by
      cases operation with
      | setTypingDelay | view | collectNotifications | takeEvents => exact aside_of_unacted rfl rfl nofun
      | switchProgram | reset => cases ongoing
      | _ => cases plays
    exact ⟨[], by rw [List.append_nil, aside.unread c]⟩

theorem lasting_numbered : Lasting fun play => play.progress.Numbered where
  fires {play slot} numbered _ :=
    ((walks_dropFirst neverLocks play).trans (walks_fire play.dropFirst slot)).numbered numbered
  notes numbered := numbered.of_histories rfl rfl

/- A story that begins numbers its messages anew. -/
theorem numbered_beginStory {a : Play} (silent : ∀ c, a.progress.history c = []) (now : Nat) :
    (a.beginStory now).progress.Numbered :=
  ((spans_neverLocks now).beginStory a).numbered (Progress.numbered_of_silent silent)

theorem numbered_switched {program : Program} (formed : program.WellFormed) {a : Play}
    (numbered : a.progress.Numbered) : (a.switched program).progress.Numbered :=
  (numbered.fitTo formed).of_histories rfl rfl

theorem numbered_acted {start : Play} (formed : s.play.program.WellFormed)
    (numbered : s.play.progress.Numbered) (scripted : operation.Scripted)
    (acted : s.acted? now operation = some start) : start.progress.Numbered := by
  cases operation with
  | switchProgram program =>
    obtain ⟨rfl, _⟩ := begun_of_switch acted
    exact ((spans_neverLocks now).beginStory _).numbered (numbered_switched scripted.wellFormed numbered)
  | reset =>
    cases acted
    exact numbered_beginStory (Progress.history_initial formed s.options.typingDelay) now
  | choose contact index | setVariable name value | execute contact actions | tick | flush =>
    exact ((spans_neverLocks now).acted rfl acted).numbered numbered
  | _ => cases acted

/- Whatever is done, with the same program or with another one, all messages keep their ids. -/
theorem numbered_perform (formed : s.play.program.WellFormed) (numbered : s.play.progress.Numbered)
    (scripted : operation.Scripted) (now : Nat) :
    (s.perform now operation).play.progress.Numbered := by
  refine perform_keeps lasting_numbered numbered
    (fun start => numbered_acted formed numbered scripted) ?_ ?_
  · rintro program rfl
    exact numbered_switched scripted.wellFormed numbered
  · intro ongoing unacted waits
    have aside := aside_of_unacted ongoing unacted waits
    refine numbered.of_tags (Nat.le_of_eq aside.nextId.symm) fun c => .inl ?_
    have tags := congrArg (List.map Message.tag) (aside.unread c)
    rw [List.map_map, List.map_map] at tags
    exact tags

end Session

/- A message is read back as it was, but for its place. -/
theorem Message.reread_same {m after : Message} (read : m.reread? = some after) :
    after = { m with location := after.location } := by
  unfold reread? at read
  split at read
  · cases read
    rfl
  · obtain ⟨place, _, same⟩ := Option.map_eq_some_iff.1 read
    rw [← same]

/- Messages are the same if they are so unread, and the same ones have been read. -/
theorem Message.eq_of_unread {before after : List Message}
    (unread : after.map Message.unread = before.map Message.unread)
    (read : after.map Message.read = before.map Message.read) : after = before := by
  induction after generalizing before with
  | nil => exact (List.map_eq_nil_iff.1 unread.symm).symm
  | cons m rest ih =>
    cases before with
    | nil => cases unread
    | cons n others =>
      obtain ⟨first, unread⟩ := List.cons.inj unread
      obtain ⟨flag, read⟩ := List.cons.inj read
      have same : { m.unread with read := m.read } = { n.unread with read := n.read } := by
        rw [first, flag]
      rw [ih unread read, show m = n from same]

namespace Progress

variable {p q : Progress}

/- A thread is read back message by message. -/
theorem history_reread (read : p.reread? = some q) (c : String) :
    (p.history c).mapM Message.reread? = some (q.history c) := by
  obtain ⟨histories, deliveries, values, same, heard, _, _⟩ := reread_cases read
  subst same
  obtain ⟨reads, had⟩ := Table.get?_mapM? heard c
  unfold history Table.getD
  dsimp only
  cases before : p.histories.get? c with
  | none =>
    rw [before] at reads
    rw [← reads]
    rfl
  | some messages =>
    rw [before] at reads
    rw [Table.contains, before] at had
    obtain ⟨after, found⟩ := Table.contains_eq_true.1 had.symm
    rw [found] at reads ⊢
    exact reads

theorem Numbered.reread (numbered : p.Numbered) (read : p.reread? = some q) : q.Numbered := by
  have next : q.nextId = p.nextId := by
    obtain ⟨_, _, _, same, _⟩ := reread_cases read
    rw [same]
  refine numbered.of_tags (Nat.le_of_eq next.symm) fun c => .inl ?_
  refine map_of_mapM (fun m after read => ?_) (history_reread read c)
  rw [Message.reread_same read]
  rfl

/- A thread is read back as itself, but for what was read, exactly if all places in it are. -/
theorem unread_reread_iff {before after : List Message}
    (read : before.mapM Message.reread? = some after) :
    after.map Message.unread = before.map Message.unread ↔
      ∀ m ∈ before, ∀ x ∈ m.doubles, comesBack x := by
  simp only [← Message.reread?_eq_self_iff, ← mapM_eq_self_iff]
  rw [read, Option.some.injEq]
  constructor
  · intro unread
    apply Message.eq_of_unread unread
    refine map_of_mapM (fun m after read => ?_) read
    rw [Message.reread_same read]
  · intro same
    rw [same]

end Progress

namespace Session

open Play

variable {s : Session} {program : Program} {options : Options} {store : Store} {saved : Progress}
  {now : Nat}

theorem progress_resumed (program : Program) (options : Options) (saved : Progress) (now : Nat) :
    (Play.resumed program options saved now).progress =
      { saved.fitTo program with deliveries := [] } := by
  unfold resumed
  rw [progress_resumeTimeline]

theorem walks_start_restored (program : Program) (options : Options)
    (restored : restored? store = some saved) (now : Nat) :
    Walks neverLocks (.resumed program options saved now) (start program options store now).play := by
  rw [start_of_restored restored, play_settle]
  exact (walks_fireDue _ now).trans (walks_recordTimeline _ _)

theorem numbered_start (formed : program.WellFormed) (options : Options)
    (numbered : ∀ saved, restored? store = some saved → saved.Numbered) (now : Nat) :
    (start program options store now).play.progress.Numbered := by
  apply start_keeps lasting_numbered
  · intro saved restored
    rw [progress_resumed]
    exact ((numbered saved restored).fitTo formed).of_histories rfl rfl
  · intro _
    exact numbered_beginStory (a := ⟨program, .initial program options.typingDelay, ∅, 0,
      options.indicator, #[]⟩) (Progress.history_initial formed _) now

theorem Lives.numbered (lives : s.Lives) : s.play.progress.Numbered := by
  induction lives with
  | start options now compiled fresh =>
    apply numbered_start compiled.wellFormed
    intro saved restored
    rw [fresh] at restored
    cases restored
  | perform now lives compiled ih =>
    exact numbered_perform lives.sound.formed ih compiled.scripted now
  | @rebuild s _ options _ now _ fits document compiled ih =>
    have noted : s.play.recordTimeline.progress.Numbered := ih.of_histories rfl rfl
    exact numbered_start compiled.wellFormed options
      (fun saved restored => noted.reread (reread_of_restored fits document restored)) now

/- What is read back of a thread stands at the front of it when the session is made again. -/
theorem history_start_restored (formed : program.WellFormed) (kept : saved.KeptFor program)
    (options : Options) (restored : restored? store = some saved) (now : Nat) (c : String) :
    saved.history c <+: (start program options store now).play.progress.history c := by
  have front := (walks_start_restored program options restored now).history c
  rw [progress_resumed] at front
  change (saved.fitTo program).history c <+: _ at front
  rw [Progress.history_fitTo formed] at front
  cases known : program.has c with
  | true =>
    rw [if_pos known] at front
    exact front
  | false =>
    have gone := congrArg Standing.history (Progress.standing_of_unknown known kept)
    change saved.histories.get? c = none at gone
    rw [Progress.history, Table.getD, gone]
    exact List.nil_prefix

/- Where as many messages as there were are read back, the thread has grown exactly if they are what they
   were, but for being read. -/
theorem grown_iff {before read after : List Message} (length : read.length = before.length)
    (front : read <+: after) :
    Grown before after ↔ read.map Message.unread = before.map Message.unread := by
  have longer := front.map Message.unread
  constructor
  · intro grown
    refine (List.prefix_of_prefix_length_le longer grown ?_).eq_of_length ?_
    · rw [List.length_map, List.length_map, length]
    · rw [List.length_map, List.length_map, length]
  · intro same
    rw [Grown, ← same]
    exact longer

/- To make a session again from what it has saved only adds to the threads, exactly if all places in them
   are read back. -/
theorem grown_rebuilt_iff (sound : s.play.Sound)
    (fits : s.play.recordTimeline.progress.fitsWords = true) (document : store.document = some s.document)
    (restored : restored? store = some saved) (options : Options) (now : Nat) :
    (∀ c, Grown (s.play.progress.history c)
        ((start s.play.program options store now).play.progress.history c)) ↔
      ∀ c, ∀ m ∈ s.play.progress.history c, ∀ x ∈ m.doubles, comesBack x := by
  have read := reread_of_restored fits document restored
  have noted : s.play.recordTimeline.progress.KeptFor s.play.program := { sound.kept with }
  have kept := Progress.keptFor_reread noted read
  apply forall_congr'
  intro c
  have messages := Progress.history_reread read c
  rw [grown_iff ?_ (history_start_restored sound.formed kept options restored now c)]
  · exact Progress.unread_reread_iff messages
  · have lengths := congrArg List.length (map_some_of_mapM messages)
    rw [List.length_map, List.length_map] at lengths
    exact lengths

/- As long as a session lives, with the same program or with others and made again whenever one likes,
   every message stands in the thread of its contact under an id of its own. Unless the story begins
   anew or goes on with another program, each operation only adds to the threads. To make the session
   again from what it has saved only adds to them, too, exactly if the places in them are read back. -/
theorem Lives.messages_stay (lives : s.Lives) :
    s.play.progress.Numbered ∧
    (∀ now operation c, operation.Ongoing →
      Grown (s.play.progress.history c) ((s.perform now operation).play.progress.history c)) ∧
    ∀ (options : Options) store now saved, s.play.recordTimeline.progress.fitsWords = true →
      store.document = some s.document → restored? store = some saved →
        ((∀ c, Grown (s.play.progress.history c)
            ((Session.start s.play.program options store now).play.progress.history c)) ↔
          ∀ c, ∀ m ∈ s.play.progress.history c, ∀ x ∈ m.doubles, comesBack x) :=
  ⟨lives.numbered, fun now _ c ongoing => grown_perform s now ongoing c,
    fun options _ now _ fits document restored =>
      grown_rebuilt_iff lives.sound fits document restored options now⟩

/-- A story of one message, to which a place is added. -/
def hello : String := ":: A-Round-1 [initial_contact]\nHi\n"

def dropPlace (x : Float) : List (Nat × Operation) :=
  [(1000, .execute "A" [{ effect := .dropPin ⟨"Here", some x, none⟩ }])]

/-- The session can be made again from what it has saved, and the last message shows a place. -/
def showsPlace (x : Float) (s : Session) : Bool :=
  !s.store.refused.contains .read && !s.store.refused.contains .write && s.play.progress.fitsWords &&
    s.play.progress.reread?.isSome &&
    (s.play.progress.history "A").any fun m => decide (m.id = "A-2") && decide (m.doubles = [x])

theorem lives_dropPlace (compiled : (compile hello).result = .ok program) (x : Float) :
    ((start program {} .empty 1000).performAll (dropPlace x)).Lives := by
  have begun : (start program {} .empty 1000).Lives := .start {} 1000 ⟨hello, compiled⟩ rfl
  have drops : (Operation.execute "A" [{ effect := .dropPin ⟨"Here", some x, none⟩ }]).Compiled := trivial
  exact begun.perform 1000 drops

/- What such a session can be made again from. -/
theorem saved_of_showsPlace {x : Float} (lives : s.Lives) (shown : s.showsPlace x = true) :
    s.play.recordTimeline.progress.fitsWords = true ∧ s.store.document = some s.document ∧
      (∃ saved, restored? s.store = some saved ∧ s.play.progress.reread? = some saved) ∧
      ∃ m ∈ s.play.progress.history "A", m.id = "A-2" ∧ m.doubles = [x] := by
  simp only [showsPlace, Bool.and_eq_true, Bool.not_eq_true'] at shown
  obtain ⟨⟨⟨⟨readable, writable⟩, fits⟩, reads⟩, placed⟩ := shown
  obtain ⟨m, member, placed⟩ := List.any_eq_true.1 placed
  obtain ⟨id, double⟩ := Bool.and_eq_true_iff.1 placed
  obtain ⟨saved, read⟩ := Option.isSome_iff_exists.1 reads
  have kept := lives.arises.saved writable
  have noted : s.play.recordTimeline.progress = s.play.progress := by
    change { s.play.progress with deliveries := s.play.savedTasks } = _
    rw [← kept.deliveries]
  refine ⟨?_, ?_, ⟨saved, (restored_of_saved kept readable fits).trans read, read⟩, m, member,
    of_decide_eq_true id, of_decide_eq_true double⟩
  · rw [noted]
    exact fits
  · rw [document, noted]
    exact kept.document

theorem played_eleventhPlace : (playedWithin 1 hello 1000 (dropPlace 0.09090909090909091)).any
    (showsPlace 0.09090909090909091) = true := by
  decide +kernel

/- The double next to an eleventh is finite, and a message that holds it is another one when the session is
   made again. -/
theorem place_moved : ∃ program : Program, (compile hello).result = .ok program ∧
    ∃ s : Session, s = (start program {} .empty 1000).performAll (dropPlace 0.09090909090909091) ∧
      s.Lives ∧ s.store.document = some s.document ∧ (restored? s.store).isSome = true ∧
      ¬∀ c, Grown (s.play.progress.history c)
        ((start s.play.program s.options s.store 1000).play.progress.history c) := by
  obtain ⟨program, compiled, shown⟩ := played_of_any played_eleventhPlace
  have lives := lives_dropPlace compiled 0.09090909090909091
  obtain ⟨fits, document, ⟨saved, restored, _⟩, m, member, _, doubles⟩ := saved_of_showsPlace lives shown
  refine ⟨program, compiled, _, rfl, lives, document, Option.isSome_of_eq_some restored, ?_⟩
  rw [grown_rebuilt_iff lives.sound fits document restored]
  intro back
  have comes := back "A" m member 0.09090909090909091
  rw [doubles] at comes
  exact absurd (comes List.mem_cons_self) (by decide +kernel)

theorem played_halfPlace : (playedWithin 1 hello 1000 (dropPlace 0.5)).any (fun s =>
    s.showsPlace 0.5 && decide (s.play.progress.reread? = some s.play.progress)) = true := by
  decide +kernel

/- A half comes back, and with it the message that holds it. -/
theorem messages_stay_halfPlace : ∃ (s : Session) (m : Message), s.Lives ∧
    m ∈ s.play.progress.history "A" ∧ m.id = "A-2" ∧ m.doubles = [0.5] ∧ s.play.progress.Numbered ∧
    (∀ c, Grown (s.play.progress.history c)
      ((s.perform 2000 (.view "A")).play.progress.history c)) ∧
    ∀ c, Grown (s.play.progress.history c)
      ((start s.play.program s.options s.store 2000).play.progress.history c) := by
  obtain ⟨program, compiled, both⟩ := played_of_any played_halfPlace
  obtain ⟨shown, same⟩ := Bool.and_eq_true_iff.1 both
  have lives := lives_dropPlace compiled 0.5
  obtain ⟨fits, document, ⟨saved, restored, _⟩, m, member, id, doubles⟩ := saved_of_showsPlace lives shown
  obtain ⟨numbered, grows, rebuilt⟩ := lives.messages_stay
  refine ⟨_, m, lives, member, id, doubles, numbered, fun c => grows 2000 (.view "A") c rfl, ?_⟩
  apply (rebuilt _ _ 2000 saved fits document restored).2
  intro c m member
  rw [← Message.reread?_eq_self_iff]
  exact mapM_eq_self_iff.1 (Progress.history_reread (of_decide_eq_true same) c) m member

end Session
end ChatStory
