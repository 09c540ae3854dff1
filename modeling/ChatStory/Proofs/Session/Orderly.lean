import ChatStory.Proofs.Session.Attended
import ChatStory.Proofs.Session.Entering
import ChatStory.Proofs.Session.Switching

/-!
Threads in order. As long as a session lives, an active thread is that of an unlocked contact, and
something has been said in every thread that has ended.
-/
namespace ChatStory

/-- An active thread is that of an unlocked contact, and something has been said in one that has
ended. -/
def Standing.Orderly (standing : Standing) : Prop :=
  (standing.thread = some .active → standing.unlocked = true) ∧
    (standing.thread = some .ended → standing.history.getD [] ≠ [])

namespace Standing

theorem orderly_nowhere : nowhere.Orderly := ⟨nofun, nofun⟩

theorem orderly_opening (contact : Contact) : (opening contact).Orderly := by
  unfold opening
  split
  · exact ⟨fun _ => rfl, nofun⟩
  · exact ⟨nofun, nofun⟩

theorem Orderly.fit {standing : Standing} (orderly : standing.Orderly) (contact : Contact) :
    (standing.fit contact).Orderly := by
  unfold Standing.fit Orderly
  dsimp only
  cases thread : standing.thread with
  | none =>
    rw [Option.none_or, thread_opening, Option.isNone_none, Bool.true_and]
    cases contact.initiallyUnlocked with
    | true => exact ⟨fun _ => Bool.or_true _, nofun⟩
    | false => exact ⟨nofun, nofun⟩
  | some state =>
    rw [Option.some_or, Option.isNone_some, Bool.false_and, Bool.or_false, ← thread]
    refine ⟨orderly.1, fun ended => ?_⟩
    have spoken := orderly.2 ended
    cases history : standing.history with
    | none =>
      rw [history] at spoken
      exact absurd rfl spoken
    | some messages =>
      rw [history] at spoken
      exact spoken

end Standing

namespace Progress

def Orderly (p : Progress) : Prop := ∀ c, (p.standing c).Orderly

variable {p q : Progress} {program : Program}

theorem orderly_initial (formed : program.WellFormed) (typingDelay : Nat) :
    (initial program typingDelay).Orderly := by
  intro c
  cases known : program.has c with
  | true =>
    obtain ⟨contact, found⟩ := Table.contains_eq_true.1 known
    rw [standing_initial formed typingDelay found]
    exact Standing.orderly_opening contact
  | false =>
    rw [standing_of_unknown known (kept_initial formed typingDelay).1]
    exact Standing.orderly_nowhere

theorem Orderly.fitTo (orderly : p.Orderly) (formed : program.WellFormed) :
    (p.fitTo program).Orderly := by
  intro c
  cases known : program.has c with
  | true =>
    obtain ⟨contact, found⟩ := Table.contains_eq_true.1 known
    rw [standing_fitTo formed p found]
    exact (orderly c).fit contact
  | false =>
    rw [standing_of_unknown known (kept_fitTo formed p).1]
    exact Standing.orderly_nowhere

/- A history that is read back is as long as it was. -/
theorem Orderly.reread (orderly : p.Orderly) (read : p.reread? = some q) : q.Orderly := by
  obtain ⟨histories, deliveries, values, same, heard, _, _⟩ := reread_cases read
  subst same
  intro c
  refine ⟨(orderly c).1, fun ended => ?_⟩
  have spoken : (p.histories.get? c).getD [] ≠ [] := (orderly c).2 ended
  obtain ⟨reads, had⟩ := Table.get?_mapM? heard c
  change (histories.get? c).getD [] ≠ []
  cases before : p.histories.get? c with
  | none =>
    rw [before] at spoken
    exact absurd rfl spoken
  | some history =>
    rw [before] at spoken reads
    rw [Table.contains, before] at had
    obtain ⟨messages, found⟩ := Table.contains_eq_true.1 had.symm
    rw [found] at reads ⊢
    have each := map_some_of_mapM reads
    intro none
    rw [show messages = [] from none, List.map_nil, eq_comm, List.map_eq_nil_iff] at each
    exact spoken each

end Progress

namespace Play

def Orderly (play : Play) : Prop := play.progress.Orderly

variable {told laid : String → Prop} {a b : Play} {contact : String} {now : Nat}

theorem orderly_iff : a.Orderly ↔ ∀ c,
    (a.progress.thread? c = some .active → a.progress.unlocked.has c = true) ∧
      (a.Ended c → a.progress.history c ≠ []) := Iff.rfl

theorem spoken_grown (grown : a.progress.history contact <+: b.progress.history contact)
    (spoken : a.progress.history contact ≠ []) : b.progress.history contact ≠ [] := by
  intro none
  rw [none, List.prefix_nil] at grown
  exact spoken grown

theorem Orderly.enters (orderly : a.Orderly) (enters : Enters told laid a b) : b.Orderly := by
  rw [orderly_iff] at orderly ⊢
  intro c
  obtain ⟨admitted, spoken⟩ := orderly c
  rcases enters.each c with stays | ⟨_, active, unlocked⟩
  · rw [stays.thread, stays.unlocked, Ended, stays.thread]
    exact ⟨admitted, fun ended => spoken_grown (enters.grown c) (spoken ended)⟩
  · refine ⟨fun _ => unlocked, fun ended => ?_⟩
    rw [Ended, active] at ended
    cases ended

theorem Orderly.ends (orderly : a.Orderly) (ends : Ends contact a b) : b.Orderly := by
  rw [orderly_iff] at orderly ⊢
  intro c
  obtain ⟨admitted, spoken⟩ := orderly c
  rw [Ended, ends.threads, ends.unlocked]
  by_cases own : c = contact
  · subst own
    rw [if_pos rfl]
    constructor
    · intro active
      cases active
    · intro _
      by_cases ended : a.Ended c
      · exact spoken_grown (ends.grown c) (spoken ended)
      · obtain ⟨m, member, _⟩ := ends.told ended
        exact List.ne_nil_of_mem member
  · rw [if_neg own]
    exact ⟨admitted, fun ended => spoken_grown (ends.grown c) (spoken ended)⟩

theorem orderly_fire (orderly : a.Orderly) (slot : Slot) : (a.fire slot).Orderly := by
  obtain ⟨mid, enters, same | ends⟩ := enters_fire a slot
  · rw [same]
    exact orderly.enters enters
  · exact (orderly.enters enters).ends ends

theorem lasting_orderly : Lasting Orderly where
  fires {play slot} orderly _ := orderly_fire (a := play.dropFirst) orderly slot
  notes orderly := orderly

theorem orderly_enter (orderly : a.Orderly) (contact : String) (key : RoundKey) (time : Nat)
    (tempo : Tempo) (leading : Option Action) : (a.enter contact key time tempo leading).Orderly := by
  cases found : a.program.round? contact key with
  | none =>
    unfold enter enterWith
    rw [found]
    exact orderly
  | some round =>
    have placed : (a.placed contact key).Orderly := orderly
    exact placed.enters (enters_enter a found time tempo leading)

theorem orderly_beginStory (orderly : a.Orderly) (now : Nat) : (a.beginStory now).Orderly := by
  unfold beginStory
  split
  · exact orderly
  · split
    · exact orderly_enter orderly _ _ _ _ _
    · exact orderly

theorem orderly_switched {program : Program} (formed : program.WellFormed) (orderly : a.Orderly) :
    (a.switched program).Orderly :=
  Progress.Orderly.fitTo orderly formed

theorem orderly_choose {index : Nat} (orderly : a.Orderly)
    (chosen : a.choose? contact index now = some b) : b.Orderly := by
  obtain ⟨choice, _, done⟩ := Option.bind_eq_some_iff.1 chosen
  have said := orderly.enters
    (.say nobody a contact { text := choice.text, fromPlayer := true } now)
  cases done
  split
  · exact orderly_enter said _ _ _ _ _
  · generalize a.say contact { text := choice.text, fromPlayer := true } now = after at said
    have left : (after.revise fun p => { p with rounds := p.rounds.erase contact }).Orderly := said
    exact left.ends (ends_finishThread _ contact now)

theorem orderly_acted {s : Session} (formed : s.play.program.WellFormed) (orderly : s.play.Orderly)
    {operation : Operation} (scripted : operation.Scripted)
    (acted : s.acted? now operation = some a) : a.Orderly := by
  cases operation with
  | choose contact index => exact orderly_choose orderly acted
  | setVariable name value =>
    cases acted
    exact orderly.enters (enters_assign s.play name value now)
  | execute contact actions =>
    simp only [Session.acted?, execute?] at acted
    split at acted
    · cases acted
      have planned : (s.play.plan contact actions now).1.Orderly :=
        orderly.enters (enters_planWith (entering_reopen s.play.closedThreads) contact now actions)
      exact planned.enters (enters_layOut _ _ _ _ _ _)
    · cases acted
  | tick =>
    cases acted
    exact orderly
  | switchProgram program =>
    obtain ⟨rfl, _⟩ := Session.begun_of_switch acted
    exact orderly_beginStory (orderly_switched scripted.wellFormed orderly) now
  | reset =>
    cases acted
    have anew : (s.play.nextEpoch.revise fun _ =>
        .initial s.play.program s.options.typingDelay).Orderly := Progress.orderly_initial formed _
    exact orderly_beginStory anew now
  | setTypingDelay delay | flush | view contact | collectNotifications | takeEvents => cases acted

theorem Rests.orderly (rests : Rests a b) (orderly : a.Orderly) : b.Orderly := by
  rw [orderly_iff] at orderly ⊢
  intro c
  rw [Ended, Progress.thread?, rests.threads, rests.unlocked]
  refine ⟨(orderly c).1, fun ended none => (orderly c).2 ended ?_⟩
  have kinds := rests.kinds c
  rw [none, List.map_nil, eq_comm, List.map_eq_nil_iff] at kinds
  exact kinds

theorem orderly_resumed {program : Program} (formed : program.WellFormed) (options : Options)
    {saved : Progress} (orderly : saved.Orderly) (now : Nat) :
    (Play.resumed program options saved now).Orderly := by
  have fitted := orderly.fitTo formed
  unfold resumed
  rw [Orderly, progress_resumeTimeline]
  exact fitted

end Play

namespace Session

open Play

variable {s : Session} {now : Nat}

theorem orderly_perform (coherent : s.play.Coherent) (orderly : s.play.Orderly) {operation : Operation}
    (scripted : operation.Scripted) (now : Nat) : (s.perform now operation).play.Orderly := by
  refine perform_keeps lasting_orderly orderly
    (fun start => orderly_acted coherent.formed orderly scripted) ?_ ?_
  · rintro program rfl
    exact orderly_switched scripted.wellFormed orderly
  · intro ongoing unacted waits
    exact (rests_of_unacted unacted waits ongoing).orderly orderly

theorem orderly_start {program : Program} (formed : program.WellFormed) (options : Options)
    {store : Store} (orderly : ∀ saved, restored? store = some saved → saved.Orderly) (now : Nat) :
    (start program options store now).play.Orderly := by
  apply start_keeps lasting_orderly
  · exact fun saved restored => orderly_resumed formed options (orderly saved restored) now
  · intro _
    have anew : Play.Orderly ⟨program, .initial program options.typingDelay, ∅, 0,
        options.indicator, #[]⟩ := Progress.orderly_initial formed _
    exact orderly_beginStory anew now

theorem Lives.orderly (lives : s.Lives) : s.play.Orderly := by
  induction lives with
  | start options now compiled fresh =>
    apply orderly_start compiled.wellFormed
    intro saved restored
    rw [fresh] at restored
    cases restored
  | perform now lives compiled ih => exact orderly_perform lives.sound.coherent ih compiled.scripted now
  | @rebuild s _ options _ now _ fits document compiled ih =>
    have noted : s.play.recordTimeline.progress.Orderly := ih
    exact orderly_start compiled.wellFormed options
      (fun saved restored => noted.reread (reread_of_restored fits document restored)) now

end Session
end ChatStory
