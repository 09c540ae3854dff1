import ChatStory.Proofs.Fitting
import ChatStory.Proofs.Session.Arising

/-!
Going on with another program. The story keeps what belongs to the contacts of both programs and the
variables that were changed, takes everything else from the new program, and drops what was on its
way. Only the notifications are not looked through: those of contacts that are gone stay until they
are taken.
-/
namespace ChatStory

namespace Progress

/-- A contact turns up somewhere in the progress. -/
def Mentions (p : Progress) (c : String) : Prop :=
  p.standing c ≠ .nowhere ∨ p.unlocks.contains c = true ∨
    (∃ waiting targets, p.unlocks.get? waiting = some targets ∧ c ∈ targets) ∨
    p.endings.has c = true ∨ (∃ pending ∈ p.deliveries, pending.contact = c) ∨
    ∃ notification ∈ p.notifications, notification.contact = c

end Progress

namespace Play

/-- A play goes on with another program. -/
structure CarriesOver (old : Play) (program : Program) (new : Play) : Prop where
  plays : new.program = program
  /-- A value that was changed stays; any other is the new default. -/
  values : ∀ name, new.progress.values.get? name =
    ((old.progress.values.get? name).filter fun value =>
      !(old.program.defaults.get? name).any (·.same value)).or (program.defaults.get? name)
  /-- Contacts of both programs stay in their places, and in their rounds as far as these exist. -/
  common : ∀ c contact, old.program.has c = true → program.contact? c = some contact →
    new.progress.standing c = { old.progress.standing c with
      round := Standing.fitRound contact (old.progress.thread? c) (old.progress.rounds.get? c) }
  /-- New contacts come in as in a new story. -/
  fresh : ∀ c typingDelay, old.program.has c = false → program.has c = true →
    new.progress.standing c = (Progress.initial program typingDelay).standing c
  /-- Of other contacts nothing is left but their notifications. -/
  vanished : ∀ c, program.has c = false →
    (new.progress.Mentions c ↔
      ∃ notification ∈ old.progress.notifications, notification.contact = c)
  queue : new.queue = ∅
  unlocks : new.progress.unlocks = ∅
  endings : new.progress.endings = Table.empty
  deliveries : new.progress.deliveries = []
  notifications : new.progress.notifications = old.progress.notifications
  typingDelay : new.progress.typingDelay = old.progress.typingDelay
  nextId : new.progress.nextId = old.progress.nextId
  events : new.events = old.events

variable {a : Play} {program : Program}

theorem value_switched (a : Play) (program : Program) (name : String) :
    (a.switched program).progress.values.get? name =
      ((a.progress.values.get? name).filter fun value =>
        !(a.program.defaults.get? name).any (·.same value)).or (program.defaults.get? name) := by
  change (program.defaults.insertMany (Session.changedVariables a).toList).get? name = _
  rw [Table.get?_insertMany_toList, Session.changedVariables, Table.get?_filter]

theorem standing_switched (formed : program.WellFormed) (a : Play) {contact : Contact} {c : String}
    (found : program.contact? c = some contact) :
    (a.switched program).progress.standing c = (a.progress.standing c).fit contact :=
  Progress.standing_fitTo formed a.progress found

theorem carriesOver_switched (coherent : a.Coherent) (formed : program.WellFormed) :
    CarriesOver a program (a.switched program) := by
  obtain ⟨delay, notifications, next⟩ := a.progress.counters_fitTo program
  have kept := (sound_switched formed a).kept
  have placed : ∀ c contact, a.program.has c = true → program.contact? c = some contact →
      (a.switched program).progress.standing c = { a.progress.standing c with
        round := Standing.fitRound contact (a.progress.thread? c) (a.progress.rounds.get? c) } := by
    intro c contact known found
    rw [standing_switched formed a found]
    apply Standing.fit_of_had
    · exact Table.contains_eq_true.1 ((coherent.kept.threads c).2 known)
    · exact Table.contains_eq_true.1 ((coherent.kept.histories c).2 known)
  refine ⟨rfl, value_switched a program, placed, ?_, ?_, rfl, rfl, rfl, rfl, notifications, delay,
    next, rfl⟩
  · intro c typingDelay unknown known
    obtain ⟨contact, found⟩ := Table.contains_eq_true.1 known
    rw [standing_switched formed a found, Progress.standing_of_unknown unknown coherent.kept,
      Progress.standing_initial formed typingDelay found, Standing.fit_nowhere]
  · intro c unknown
    constructor
    · rintro (placed | unlocks | ⟨_, _, unlocks, _⟩ | ending | ⟨_, pending, _⟩ | notified)
      · exact absurd (Progress.standing_of_unknown unknown kept) placed
      · cases unlocks
      · cases unlocks
      · cases ending
      · cases pending
      · rw [← notifications]
        exact notified
    · intro notified
      rw [← notifications] at notified
      exact .inr (.inr (.inr (.inr (.inr notified))))

/- Where a thread of the new program holds messages, no new story begins. -/
theorem spoken_switched (formed : program.WellFormed) {c : String} (known : program.has c = true)
    (spoken : a.progress.history c ≠ []) :
    (a.switched program).progress.histories.values.all (·.isEmpty) = false := by
  obtain ⟨contact, found⟩ := Table.contains_eq_true.1 known
  have placed := congrArg Standing.history (standing_switched formed a found)
  change (a.switched program).progress.histories.get? c = (a.progress.histories.get? c).or _ at placed
  unfold Progress.history Table.getD at spoken
  cases had : a.progress.histories.get? c with
  | none =>
    rw [had] at spoken
    exact absurd rfl spoken
  | some messages =>
    rw [had] at spoken placed
    have member : messages ∈ (a.switched program).progress.histories.values :=
      List.mem_map.2 ⟨(c, messages), Table.get?_eq_some_iff.1 placed, rfl⟩
    rw [List.all_eq_false]
    refine ⟨messages, member, ?_⟩
    rw [List.isEmpty_iff]
    exact spoken

end Play

namespace Session

open Play

variable {s : Session} {program : Program}

theorem play_switchProgram_of_spoken (formed : program.WellFormed)
    (survives : ∃ c, program.has c = true ∧ s.play.progress.history c ≠ []) (now : Nat) :
    (s.switchProgram program now).play = s.play.switched program := by
  obtain ⟨c, known, spoken⟩ := survives
  rw [switchProgram_eq, spoken_switched formed known spoken]
  rfl

/- A script that is reloaded keeps the progress of the player. As long as some history survives, values
   that were changed stay and all others take the new defaults; the contacts of both programs
   keep their places, new ones come in as in a new story, and what was on its way is dropped. Contacts
   that are gone turn up in nothing but the notifications, which are all kept. -/
theorem Arises.carries_over (arises : s.Arises) (scripted : program.Scripted)
    (survives : ∃ c, program.has c = true ∧ s.play.progress.history c ≠ []) (now : Nat) :
    CarriesOver s.play program (s.switchProgram program now).play := by
  rw [play_switchProgram_of_spoken scripted.wellFormed survives now]
  exact carriesOver_switched arises.coherent scripted.wellFormed

def announcing : String :=
  ":: A-Round-1 [initial_contact]\nHi\n[Action: show_notification: News]\n" ++
  "[Action: unlock_contact: B]\n\n:: B-Round-1 [chat]\nHello.\n"

/-- The script without its first contact. -/
def announcingNoMore : String := ":: B-Round-1 [initial_contact]\nHello.\n"

def hasAnnounced (s : Session) : Bool :=
  !(s.play.progress.history "B").isEmpty &&
    s.play.progress.notifications.any fun notification => notification.contact == "A"

theorem played_announcing : (playedWithin 1 announcing 1000 []).any hasAnnounced = true := by
  decide +kernel

theorem of_hasAnnounced (shown : s.hasAnnounced = true) : s.play.progress.history "B" ≠ [] ∧
    ∃ notification ∈ s.play.progress.notifications, notification.contact = "A" := by
  simpa [hasAnnounced] using shown

theorem compiled_noMore : (compile announcingNoMore).result.toOption.any
    (fun program => program.has "B" && !program.has "A") = true := by
  decide +kernel

/- A contact is gone with the new script. -/
theorem carries_over_announcing : ∃ program next : Program,
    (compile announcing).result = .ok program ∧ next.Scripted ∧
      ∃ s : Session, s = start program {} .empty 1000 ∧ s.Arises ∧
        (∃ c, next.has c = true ∧ s.play.progress.history c ≠ []) ∧
        CarriesOver s.play next (s.switchProgram next 2000).play := by
  obtain ⟨program, compiled, shown⟩ := played_of_any played_announcing
  obtain ⟨next, recompiled, known⟩ := compiled_of_any compiled_noMore
  obtain ⟨spoken, _⟩ := of_hasAnnounced shown
  have scripted : next.Scripted := Program.Compiled.scripted ⟨_, recompiled⟩
  have arises : (start program {} .empty 1000).Arises :=
    .start {} _ 1000 (Program.Compiled.scripted ⟨_, compiled⟩)
  have survives : ∃ c, next.has c = true ∧
      (start program {} .empty 1000).play.progress.history c ≠ [] :=
    ⟨"B", (Bool.and_eq_true_iff.1 known).1, spoken⟩
  exact ⟨program, next, compiled, scripted, _, rfl, arises, survives,
    arises.carries_over scripted survives 2000⟩

/- The notification of that contact has not gone with it. -/
theorem vanished_contact_notified : ∃ program next : Program,
    (compile announcing).result = .ok program ∧ (compile announcingNoMore).result = .ok next ∧
      next.has "A" = false ∧ ∃ s : Session, s = start program {} .empty 1000 ∧ s.Arises ∧
        s.play.progress.history "B" ≠ [] ∧ next.has "B" = true ∧
        (s.switchProgram next 2000).play.progress.Mentions "A" := by
  obtain ⟨program, compiled, shown⟩ := played_of_any played_announcing
  obtain ⟨next, recompiled, known⟩ := compiled_of_any compiled_noMore
  obtain ⟨spoken, notified⟩ := of_hasAnnounced shown
  obtain ⟨stays, gone⟩ := Bool.and_eq_true_iff.1 known
  have formed : next.WellFormed := Program.Compiled.wellFormed ⟨_, recompiled⟩
  have arises : (start program {} .empty 1000).Arises :=
    .start {} _ 1000 (Program.Compiled.scripted ⟨_, compiled⟩)
  have unknown : next.has "A" = false := Bool.not_eq_true' _ ▸ gone
  refine ⟨program, next, compiled, recompiled, unknown, _, rfl, arises, spoken, stays, ?_⟩
  have carried : ((start program {} .empty 1000).switchProgram next 2000).play =
      (start program {} .empty 1000).play.switched next :=
    play_switchProgram_of_spoken formed ⟨"B", stays, spoken⟩ 2000
  rw [carried]
  exact ((carriesOver_switched arises.coherent formed).vanished "A" unknown).2 notified

end Session
end ChatStory
