import ChatStory.Proofs.Session.Computed
import ChatStory.Proofs.Session.Speech

/-!
End notices. A thread ends with a notice, and nothing that happens at once adds a message to an
ended thread. A task that comes up later can, and the ones that do are told by what they
deliver: so the notice stays the last message exactly as long as none of these comes up.
-/
namespace ChatStory

namespace Play

/-- The last message of an ended thread is its end notice. -/
def SealedAt (play : Play) (contact : String) : Prop :=
  play.Ended contact → ∃ m, (play.progress.history contact).getLast? = some m ∧ m.kind = .endThread

def Sealed (play : Play) : Prop := ∀ contact, play.SealedAt contact

variable {holder : String → Prop} {a b c : Play}

namespace Speaks

theorem sealedAt (speaks : Speaks holder a b) {contact : String} (free : ¬holder contact)
    (sealed : a.SealedAt contact) : b.SealedAt contact := by
  intro ended
  rcases speaks.histories contact with same | ⟨allowed, _⟩
  · rw [same]
    exact sealed (speaks.ended ended)
  · rcases allowed with holds | opened
    · exact absurd holds free
    · exact absurd ended opened

theorem sealed (speaks : Speaks nobody a b) (sealed : a.Sealed) : b.Sealed :=
  fun contact => speaks.sealedAt id (sealed contact)

end Speaks

theorem not_sealedAt_of_speaksLast {contact : String} (ended : a.Ended contact)
    (last : a.SpeaksLast contact) : ¬a.SealedAt contact := by
  intro sealed
  obtain ⟨m, found, plain⟩ := last
  obtain ⟨n, same, notice⟩ := sealed ended
  rw [found] at same
  cases same
  exact plain notice

theorem finishThread_of_ended {contact : String} (ended : a.Ended contact) (time : Nat) :
    a.finishThread contact time = a := if_pos ended

/- An ending touches one thread, which ends with its notice. -/
theorem finishThread_of_not_ended {contact : String} (opened : ¬a.Ended contact) (time : Nat) :
    (a.finishThread contact time).SealedAt contact ∧
      ∀ other, other ≠ contact →
        (a.finishThread contact time).progress.thread? other = a.progress.thread? other ∧
        (a.finishThread contact time).progress.history other = a.progress.history other := by
  have threads : ∀ play : Play, ∀ other,
      (play.putThread contact .ended).progress.history other = play.progress.history other ∧
        (other ≠ contact →
          (play.putThread contact .ended).progress.thread? other = play.progress.thread? other) := by
    intro play other
    rw [putThread_eq]
    exact ⟨rfl, fun different => (Table.get?_insert _ _ _ _).trans (if_neg different)⟩
  have other : ¬a.progress.thread? contact = some .ended := opened
  unfold finishThread
  rw [if_neg other]
  constructor
  · intro _
    refine ⟨Saying.ofEnd.message a contact time, ?_, rfl⟩
    rw [(threads _ contact).1, Speaks.history_say, if_pos rfl, List.getLast?_concat]
  · intro other different
    obtain ⟨history, thread⟩ := threads (a.say contact .ofEnd time) other
    refine ⟨thread different, ?_⟩
    rw [history, Speaks.history_say, if_neg different]

theorem sealedAt_of_same {contact : String}
    (thread : b.progress.thread? contact = a.progress.thread? contact)
    (history : b.progress.history contact = a.progress.history contact) :
    b.SealedAt contact ↔ a.SealedAt contact := by
  unfold SealedAt Ended
  rw [thread, history]

theorem sealedAt_endPending (a : Play) (contact : String) (time : Nat) :
    ((a.endPending contact time).SealedAt contact ↔ a.SealedAt contact) ∧
      ∀ other, other ≠ contact → ((a.endPending contact time).SealedAt other ↔ a.SealedAt other) := by
  unfold endPending
  split
  · let dropped := a.revise fun p => { p with endings := p.endings.remove contact }
    dsimp only
    have finished : ((dropped.finishThread contact time).SealedAt contact ↔ a.SealedAt contact) ∧
        ∀ other, other ≠ contact →
          ((dropped.finishThread contact time).SealedAt other ↔ a.SealedAt other) := by
      by_cases ended : a.Ended contact
      · rw [finishThread_of_ended (a := dropped) ended]
        exact ⟨.rfl, fun _ _ => .rfl⟩
      · obtain ⟨sealed, others⟩ := finishThread_of_not_ended (a := dropped) ended time
        refine ⟨⟨fun _ now => absurd now ended, fun _ => sealed⟩, ?_⟩
        intro other different
        obtain ⟨thread, history⟩ := others other different
        exact sealedAt_of_same thread history
    split
    · exact finished
    · exact finished
  · exact ⟨.rfl, fun _ _ => .rfl⟩

/-- The task adds a message to a thread that has ended and stays so. -/
def Trespasses (play : Play) (slot : Slot) : Prop :=
  match slot.task.delivery with
  | .typing => False
  | .reply _ => play.Ended slot.task.contact
  | .payload action => ∃ c, play.addressee? slot.task.contact action.effect = some c ∧ play.Ended c
  | .notices => play.UnlocksSomeone slot.task.contact ∧
    (play.unlockHeld slot.task.contact slot.time).Ended slot.task.contact

theorem sealed_say (sealed : a.Sealed) {contact : String} {saying : Saying}
    (plain : saying.kind ≠ .endThread) (time : Nat) :
    (a.say contact saying time).Sealed ↔ ¬a.Ended contact := by
  constructor
  · intro after ended
    exact not_sealedAt_of_speaksLast (a := a.say contact saying time) ended
      (Speaks.speaksLast_say a contact plain time) (after contact)
  · intro opened
    exact (Speaks.say a plain time (.inr opened)).sealed sealed

/- An action that makes no bubble adds no message. -/
theorem sealed_run (formed : a.program.WellFormed) (sealed : a.Sealed) {contact : String}
    (known : a.program.has contact = true) {action : Action}
    (now : action.effect.isHeldBack = false) (time : Nat) :
    (a.run contact action time).Sealed ↔
      ¬∃ c, a.addressee? contact action.effect = some c ∧ a.Ended c := by
  cases bubble : action.effect.isBubble with
  | false =>
    have stirs := (stirs_runWith (quiet_reopen a.closedThreads) formed known bubble time).2.2 now
    have none : a.addressee? contact action.effect = none := by
      cases effect : action.effect <;> rw [effect] at bubble <;> first | rfl | cases bubble
    constructor
    · rintro _ ⟨c, some, _⟩
      rw [none] at some
      cases some
    · intro _
      exact (Speaks.of_stirs stirs).sealed sealed
  | true =>
    rcases run_bubble bubble a contact time with ⟨c, saying, found, plain, same⟩ | ⟨none, events, same⟩
    · have said : (a.run contact action time).Sealed ↔ (a.say c saying time).Sealed := by
        rw [same]
        exact .rfl
      rw [said, sealed_say sealed plain, found]
      constructor
      · rintro opened ⟨_, own, ended⟩
        cases own
        exact opened ended
      · intro free ended
        exact free ⟨c, rfl, ended⟩
    · rw [same, none]
      constructor
      · rintro _ ⟨_, some, _⟩
        cases some
      · intro _
        exact sealed

/- The unlocks come before the ending, so an ended thread is spoken to only if it is not opened
   again by one of them. -/
theorem sealed_deliverHeld (formed : a.program.WellFormed) (sealed : a.Sealed) (contact : String)
    (time : Nat) : (a.deliverHeld contact time).Sealed ↔
      ¬(a.UnlocksSomeone contact ∧ (a.unlockHeld contact time).Ended contact) := by
  obtain ⟨speaks, last, same⟩ := speaks_unlockHeld formed contact time
  obtain ⟨own, others⟩ := sealedAt_endPending (a.unlockHeld contact time) contact time
  rw [deliverHeld_eq]
  constructor
  · rintro after ⟨someone, ended⟩
    exact not_sealedAt_of_speaksLast ended (last someone) (own.1 (after contact))
  · intro free other
    by_cases here : other = contact
    · subst here
      rw [own]
      by_cases someone : a.UnlocksSomeone other
      · intro ended
        exact absurd ⟨someone, ended⟩ free
      · intro ended
        rw [same someone]
        exact sealed other (speaks.ended ended)
    · rw [others other here]
      exact speaks.sealedAt here (sealed other)

/- The heart of the matter: a fired task keeps every end notice last exactly if it does not
   trespass. -/
theorem sealed_fire (sound : a.Sound) (sealed : a.Sealed) {slot : Slot}
    (next : a.queue.next? = some slot) :
    (a.dropFirst.fire slot).Sealed ↔ ¬a.dropFirst.Trespasses slot := by
  have first : slot ∈ a.queue.slots := by
    rw [Queue.slots_of_next next]
    exact List.mem_cons_self
  have accepts := sound.tasks slot first
  have current : slot.task.epoch = a.dropFirst.epoch := accepts.epoch
  have still : a.dropFirst.Sealed := sealed
  unfold fire Trespasses
  rw [if_pos current]
  cases delivery : slot.task.delivery with
  | typing => exact ⟨fun _ => id, fun _ => still⟩
  | reply text => exact sealed_say still (show MessageKind.text ≠ .endThread by decide) slot.time
  | payload action =>
    exact sealed_run (a := a.dropFirst) sound.formed still accepts.known
      (accepts.payload action delivery) slot.time
  | notices => exact sealed_deliverHeld (a := a.dropFirst) sound.formed still slot.task.contact slot.time

theorem sealed_of_none_ended (none : ∀ c, ¬a.Ended c) : a.Sealed :=
  fun c ended => absurd ended (none c)

theorem Sealed.of_same (sealed : a.Sealed) (threads : b.progress.threads = a.progress.threads)
    (histories : b.progress.histories = a.progress.histories) : b.Sealed := by
  intro contact
  unfold SealedAt Ended Progress.thread? Progress.history
  rw [threads, histories]
  exact sealed contact

theorem sealed_of_history {p : Progress} (sealed : a.Sealed) (before : a.progress.EndedBefore p) :
    (a.revise fun _ => p).Sealed := by
  intro c ended
  obtain ⟨start, same⟩ := before c ended
  change ∃ m, (p.history c).getLast? = some m ∧ m.kind = .endThread
  rw [same]
  exact sealed c start

theorem sealed_beginStory (formed : a.program.WellFormed) (none : ∀ c, ¬a.Ended c) (now : Nat) :
    (a.beginStory now).Sealed := by
  unfold beginStory
  split
  · exact sealed_of_none_ended none
  · rename_i contact _
    split
    · rename_i key _
      exact (speaks_enter formed (none contact.name) key now .immediate Option.none).sealed
        (sealed_of_none_ended none)
    · exact sealed_of_none_ended none

theorem none_ended_initial {program : Program} (formed : program.WellFormed)
    (typingDelay epoch indicator : Nat) (events : Array Event) (contact : String) :
    ¬(Play.mk program (.initial program typingDelay) ∅ epoch indicator events).Ended contact :=
  (Progress.new_initial formed typingDelay).1.not_ended contact

/- Choices are offered by active threads only, so what the player says is never behind an end. -/
theorem sealed_choose (sound : a.Sound) (sealed : a.Sealed) {contact : String} {index now : Nat}
    (chosen : a.choose? contact index now = some b) : b.Sealed := by
  obtain ⟨choice, offered, done⟩ := Option.bind_eq_some_iff.1 chosen
  have active := active_of_choice offered
  have opened : ¬a.Ended contact := by
    intro ended
    rw [Ended, active] at ended
    cases ended
  have plain : ({ text := choice.text, fromPlayer := true } : Saying).kind ≠ .endThread :=
    show MessageKind.text ≠ .endThread by decide
  have said : Speaks nobody a (a.say contact { text := choice.text, fromPlayer := true } now) :=
    .say a plain now (.inr opened)
  have still : ¬(a.say contact { text := choice.text, fromPlayer := true } now).Ended contact := opened
  generalize a.say contact { text := choice.text, fromPlayer := true } now = next at done said still
  cases done
  split
  · rename_i key _
    have formed : next.program.WellFormed := by
      rw [said.program]
      exact sound.formed
    exact (said.trans (speaks_enter formed still key now .typed choice.action)).sealed sealed
  · let left := next.revise fun p => { p with rounds := p.rounds.erase contact }
    have before : left.Sealed := said.sealed sealed
    obtain ⟨own, others⟩ := finishThread_of_not_ended (a := left) still now
    intro other
    by_cases here : other = contact
    · rw [here]
      exact own
    · obtain ⟨thread, history⟩ := others other here
      exact (sealedAt_of_same thread history).2 (before other)

theorem sealed_execute (sound : a.Sound) (sealed : a.Sealed) {contact : String}
    {actions : List Action} {now : Nat} (done : a.execute? contact actions now = some b) :
    b.Sealed := by
  unfold execute? at done
  split at done
  · rename_i known
    cases done
    have planned := (stirs_planWith (quiet_reopen a.closedThreads) sound.formed known now actions).1
    have silent : ((a.plan contact actions now).1.layOut contact "" (a.plan contact actions now).2 now
        .immediate).progress = (a.plan contact actions now).1.progress :=
      progress_layOut _ _ _ _ _ _
    have before : (a.plan contact actions now).1.Sealed := (Speaks.of_stirs planned).sealed sealed
    intro other
    unfold SealedAt Ended
    rw [silent]
    exact before other
  · cases done

theorem sealed_switched (sealed : a.Sealed) (program : Program) : (a.switched program).Sealed :=
  sealed_of_history sealed (Progress.endedBefore_fitTo program a.progress)

theorem none_ended_of_empty (sealed : a.Sealed)
    (empty : a.progress.histories.values.all (·.isEmpty) = true) (contact : String) :
    ¬a.Ended contact := by
  intro ended
  obtain ⟨m, last, _⟩ := sealed contact ended
  have none : a.progress.history contact = [] := by
    rw [Progress.history, Table.getD]
    cases found : a.progress.histories.get? contact with
    | none => rfl
    | some history =>
      have member : history ∈ a.progress.histories.values :=
        List.mem_map.2 ⟨_, Table.get?_eq_some_iff.1 found, rfl⟩
      exact List.isEmpty_iff.1 (List.all_eq_true.1 empty history member)
  rw [none] at last
  cases last

theorem sealed_acted {s : Session} {now : Nat} (sound : s.play.Sound) (sealed : s.play.Sealed)
    {operation : Operation} (compiled : operation.Compiled)
    (acted : s.acted? now operation = some a) : a.Sealed := by
  cases operation with
  | choose contact index => exact sealed_choose sound sealed acted
  | setVariable name value =>
    cases acted
    exact (Speaks.of_stirs (stirs_assign sound.formed name value now)).sealed sealed
  | execute contact actions => exact sealed_execute sound sealed acted
  | tick =>
    cases acted
    exact sealed
  | switchProgram program =>
    obtain ⟨rfl, empty⟩ := Session.begun_of_switch acted
    exact sealed_beginStory (a := s.play.switched program) (Program.Compiled.wellFormed compiled)
      (none_ended_of_empty (sealed_switched sealed program) empty) now
  | reset =>
    cases acted
    exact sealed_beginStory
      (a := s.play.nextEpoch.revise fun _ => .initial s.play.program s.options.typingDelay)
      sound.formed (none_ended_initial sound.formed _ _ _ _) now
  | setTypingDelay delay | flush | view contact | collectNotifications | takeEvents => cases acted

end Play

namespace Session

open Play

theorem sealed_of_rests {a b : Play} (sealed : a.Sealed) (rests : Rests a b) : b.Sealed := by
  intro contact ended
  have before : a.Ended contact := by
    rw [Ended, Progress.thread?, ← rests.threads]
    exact ended
  obtain ⟨m, last, notice⟩ := sealed contact before
  have kinds := congrArg List.getLast? (rests.kinds contact)
  rw [List.getLast?_map, List.getLast?_map, last, Option.map_some] at kinds
  obtain ⟨other, found, same⟩ := Option.map_eq_some_iff.1 kinds
  exact ⟨other, found, same.trans notice⟩

/- What is done without looking at the timeline adds no message. -/
theorem sealed_of_unacted {s : Session} {now : Nat} {operation : Operation} (sealed : s.play.Sealed)
    (unacted : s.acted? now operation = none) (waits : operation ≠ .flush) :
    (s.perform now operation).play.Sealed := by
  cases operation with
  | switchProgram program =>
    rw [play_of_unbegun unacted]
    exact (sealed_switched sealed program).of_same rfl rfl
  | reset => cases unacted
  | _ => exact sealed_of_rests sealed (rests_of_unacted unacted waits rfl)

theorem sealed_acts {a b : Play} (sound : a.Sound) (sealed : a.Sealed)
    (acts : Acts Operation.Compiled a b) : b.Sealed := by
  cases acts with
  | acted compiled acted => exact sealed_acted sound sealed compiled acted
  | unacted _ unacted waits => exact sealed_of_unacted sealed unacted waits
  | noted => exact sealed.of_same rfl rfl
  | still => exact sealed

/- By induction on the moments: up to each of them every end notice is still the last message. -/
theorem sealed_follows {a : Play} {moments : List Moment}
    (follows : Follows Operation.Compiled a moments) (sound : a.Sound) (sealed : a.Sealed) :
    (∀ m ∈ moments, m.play.Sealed) ↔
      ∀ before slot, Moment.fired before slot ∈ moments → ¬before.Trespasses slot := by
  induction follows with
  | nil => exact ⟨fun _ _ _ => nofun, fun _ => List.forall_mem_nil _⟩
  | @acted a b rest acts _ ih =>
    have after := sealed_acts sound sealed acts
    have later := ih (sound_acts sound acts) after
    rw [List.forall_mem_cons]
    constructor
    · rintro ⟨_, others⟩ before slot member
      exact later.1 others before slot ((List.mem_cons.1 member).resolve_left nofun)
    · intro free
      exact ⟨after, later.2 fun before slot member => free before slot (List.mem_cons_of_mem _ member)⟩
  | @fired a slot rest next _ ih =>
    have fired := sealed_fire sound sealed next
    have later := ih (sound_fire sound next)
    rw [List.forall_mem_cons]
    constructor
    · rintro ⟨first, others⟩ before other member
      rcases List.mem_cons.1 member with same | member
      · cases same
        exact fired.1 first
      · exact (later first).1 others before other member
    · intro free
      have after := fired.2 (free _ _ List.mem_cons_self)
      refine ⟨after, (later after).2 ?_⟩
      intro before other member
      exact free before other (List.mem_cons_of_mem _ member)

/- From its beginning on a story keeps every end notice last, through whatever operations, exactly
   as long as no task that comes up adds a message to a thread that has ended. -/
theorem end_notices_last_iff {program : Program} (compiled : program.Compiled) (options : Options)
    {store : Store} (fresh : restored? store = none) (now : Nat) {steps : List (Nat × Operation)}
    (others : ∀ step ∈ steps, step.2.Compiled) :
    (∀ m ∈ storyMoments program options store now steps, m.play.Sealed) ↔
      ∀ before slot, Moment.fired before slot ∈ storyMoments program options store now steps →
        ¬before.Trespasses slot := by
  have formed := compiled.wellFormed
  have sound : (begun program options now).Sound := sound_beginStory (sound_initial formed _ _ _ _) now
  have sealed : (begun program options now).Sealed :=
    sealed_beginStory
      (a := ⟨program, .initial program options.typingDelay, ∅, 0, options.indicator, #[]⟩)
      formed (none_ended_initial formed _ _ _ _) now
  obtain ⟨rest, whole, follows⟩ := follows_story options fresh now others
  have later := sealed_follows follows sound sealed
  rw [whole, List.forall_mem_cons]
  constructor
  · rintro ⟨_, every⟩ before slot member
    exact later.1 every before slot ((List.mem_cons.1 member).resolve_left nofun)
  · intro free
    exact ⟨sealed, later.2 fun before slot member => free before slot (List.mem_cons_of_mem _ member)⟩

/-- The player leaves with the second choice before the reply to the first one has come. -/
def lateReply : String :=
  ":: A-Round-1 [initial_contact]\nHi\n[[Go|A-Round-2]]\n\n" ++
  ":: A-Round-2 [chat]\nReply.\n[[Leave|A-Round-9]]\n"

def leaveEarly : List (Nat × Operation) :=
  [(1000, .choose "A" 0), (1000, .choose "A" 0), (3400, .tick)]

def repliedAfterEnd (s : Session) : Bool :=
  s.play.progress.thread? "A" = some .ended &&
    (s.play.progress.history "A").getLast?.any fun m => m.kind = .text

theorem played_lateReply :
    (playedWithin 2 lateReply 1000 leaveEarly).any repliedAfterEnd = true := by
  decide +kernel

/- There is a story in which a reply comes behind the end notice. -/
theorem reply_behind_end_notice : ∃ program : Program, (compile lateReply).result = .ok program ∧
    ∃ m ∈ storyMoments program {} .empty 1000 leaveEarly, ¬m.play.Sealed := by
  obtain ⟨program, compiled, shown⟩ := played_of_any played_lateReply
  obtain ⟨m, member, same⟩ := performAll_mem_storyMoments program {} .empty 1000 leaveEarly
  refine ⟨program, compiled, m, member, ?_⟩
  rw [same]
  intro sealed
  rw [repliedAfterEnd, Bool.and_eq_true, decide_eq_true_iff] at shown
  obtain ⟨last, found, notice⟩ := sealed "A" shown.1
  obtain ⟨other, also, text⟩ := (Option.any_eq_true _ _).1 shown.2
  rw [found] at also
  cases also
  rw [notice] at text
  cases text

/- The equivalence, for that story. -/
theorem end_notices_last_iff_leaveEarly : ∃ program : Program, program.Compiled ∧
    restored? Store.empty = none ∧ (∀ step ∈ leaveEarly, step.2.Compiled) ∧
      ((∀ m ∈ storyMoments program {} .empty 1000 leaveEarly, m.play.Sealed) ↔
        ∀ before slot, Moment.fired before slot ∈ storyMoments program {} .empty 1000 leaveEarly →
          ¬before.Trespasses slot) := by
  obtain ⟨program, compiled, _⟩ := played_of_any played_lateReply
  have others : ∀ step ∈ leaveEarly, step.2.Compiled := by
    simp only [leaveEarly, List.forall_mem_cons]
    exact ⟨trivial, trivial, trivial, List.forall_mem_nil _⟩
  have story : program.Compiled := ⟨lateReply, compiled⟩
  exact ⟨program, story, rfl, others, end_notices_last_iff story {} rfl 1000 others⟩

end Session
end ChatStory
