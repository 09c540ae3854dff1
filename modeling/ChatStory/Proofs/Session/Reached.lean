import ChatStory.Proofs.Session.Coherent

/-!
Every play that a session can reach is sound, from the first moment of a story on and through
all operations, whatever the clock shows.
-/
namespace ChatStory

namespace Play

variable {a b c : Play} {now : Nat}

theorem sound_fresh {program : Program} (formed : program.WellFormed) {progress : Progress}
    (kept : progress.KeptFor program)
    (rounded : ∀ c, progress.thread? c = some .active → progress.rounds.contains c = true)
    (unlocks : progress.unlocks = ∅) (endings : progress.endings = Table.empty) (epoch indicator : Nat)
    (events : Array Event) : (Play.mk program progress ∅ epoch indicator events).Sound := by
  refine ⟨formed, kept, nofun, Queue.bounded_empty, ?_, ?_, ?_⟩
  · rintro c ⟨active, none⟩
    have had := rounded c active
    rw [Table.contains, none] at had
    cases had
  · rintro c ⟨waits, _⟩
    rw [unlocks] at waits
    cases waits
  · rintro c ⟨waits, _⟩
    rw [endings] at waits
    cases waits

theorem sound_initial {program : Program} (formed : program.WellFormed)
    (typingDelay epoch indicator : Nat) (events : Array Event) :
    (Play.mk program (.initial program typingDelay) ∅ epoch indicator events).Sound := by
  obtain ⟨kept, rounded⟩ := Progress.kept_initial formed typingDelay
  obtain ⟨unlocks, endings⟩ := Progress.unlocks_initial program typingDelay
  exact sound_fresh formed kept rounded unlocks endings _ _ _

theorem sound_beginStory (sound : a.Sound) (now : Nat) : (a.beginStory now).Sound := by
  unfold beginStory
  split
  · exact sound
  · split
    · exact sound.moves (moves_enter sound.formed _ _ _ _ _)
    · exact sound

/-- The story stays where it is: only what is read, viewed, set or announced may change. -/
structure Rests (a b : Play) : Prop where
  program : b.program = a.program
  epoch : b.epoch = a.epoch
  queue : b.queue = a.queue
  kept : a.progress.KeptFor a.program → b.progress.KeptFor a.program
  threads : b.progress.threads = a.progress.threads
  rounds : b.progress.rounds = a.progress.rounds
  unlocked : b.progress.unlocked = a.progress.unlocked
  unlocks : b.progress.unlocks = a.progress.unlocks
  endings : b.progress.endings = a.progress.endings
  kinds : ∀ c, (b.progress.history c).map (·.kind) = (a.progress.history c).map (·.kind)

namespace Rests

theorem refl (a : Play) : Rests a a := ⟨rfl, rfl, rfl, id, rfl, rfl, rfl, rfl, rfl, fun _ => rfl⟩

theorem trans (first : Rests a b) (second : Rests b c) : Rests a c := by
  refine ⟨second.program.trans first.program, second.epoch.trans first.epoch,
    second.queue.trans first.queue, ?_, second.threads.trans first.threads,
    second.rounds.trans first.rounds, second.unlocked.trans first.unlocked,
    second.unlocks.trans first.unlocks, second.endings.trans first.endings,
    fun contact => (second.kinds contact).trans (first.kinds contact)⟩
  intro kept
  have middle := first.kept kept
  rw [← first.program] at middle ⊢
  exact second.kept middle

theorem moves (rests : Rests a b) : Moves nobody a b :=
  .of_same rests.program rests.epoch rests.queue rests.kept rests.threads rests.rounds rests.unlocks
    rests.endings

end Rests

theorem rests_recordTimeline (a : Play) : Rests a a.recordTimeline :=
  ⟨rfl, rfl, rfl, fun kept => { kept with }, rfl, rfl, rfl, rfl, rfl, fun _ => rfl⟩

theorem sound_recordTimeline (sound : a.Sound) : a.recordTimeline.Sound :=
  sound.moves (rests_recordTimeline a).moves

theorem lasting_sound : Lasting Sound where
  fires sound next := sound_fire sound next
  notes sound := sound_recordTimeline sound

theorem sound_switched {program : Program} (formed : program.WellFormed) (a : Play) :
    (a.switched program).Sound := by
  obtain ⟨kept, rounded⟩ := Progress.kept_fitTo formed a.progress
  suffices fitted : (a.switched program).progress.KeptFor program from
    sound_fresh formed fitted rounded rfl rfl _ _ _
  refine { kept with unlocks := nofun, endings := nofun, values := ?_ }
  intro name known
  change (program.defaults.insertMany (Session.changedVariables a).toList).contains name = true
  rw [Table.contains, Table.get?_insertMany_toList]
  unfold Table.contains at known
  cases (Session.changedVariables a).get? name with
  | none => exact known
  | some value => rfl

theorem active_of_choice {contact : String} {index : Nat} {choice : Choice}
    (offered : (a.choices contact)[index]? = some choice) :
    a.progress.thread? contact = some .active := by
  unfold choices at offered
  split at offered
  · assumption
  · cases offered

theorem thread?_finishThread (a : Play) (contact : String) (time : Nat) :
    (a.finishThread contact time).progress.thread? contact = some .ended := by
  unfold finishThread
  split
  · assumption
  · exact thread?_putThread _ _ _

/- A thread that is left loses its round and ends at the same time. -/
theorem moves_leave (a : Play) {contact : String} (known : a.program.has contact = true) (now : Nat) :
    Moves nobody a ((a.revise fun p => { p with rounds := p.rounds.erase contact }).finishThread contact
      now) := by
  let left := a.revise fun p => { p with rounds := p.rounds.erase contact }
  have rounds : ∀ c, left.progress.rounds.get? c =
      if c = contact then none else a.progress.rounds.get? c := fun c => Table.get?_erase _ _ _
  have moves : Moves nobody left (left.finishThread contact now) :=
    moves_finishThread left known now
  refine ⟨moves.program, moves.epoch, moves.queue.weaken fun _ accepts => accepts.of_same rfl rfl, ?_, ?_,
    moves.unlocks, moves.ending⟩
  · intro kept
    apply moves.kept
    refine { kept with rounds := ?_ }
    intro c key found
    rw [rounds] at found
    split at found
    · cases found
    · exact kept.rounds c key found
  · intro c free loose
    have before := moves.unrounded c free loose
    by_cases own : c = contact
    · subst own
      have ended := thread?_finishThread left c now
      rw [loose.1] at ended
      cases ended
    · obtain ⟨active, none⟩ := before
      rw [rounds, if_neg own] at none
      exact ⟨active, none⟩

theorem moves_choose (coherent : a.Coherent) {contact : String} {index : Nat}
    (chosen : a.choose? contact index now = some b) : Moves nobody a b := by
  obtain ⟨choice, offered, done⟩ := Option.bind_eq_some_iff.1 chosen
  have known := coherent.known_of_thread (active_of_choice offered)
  have said : Moves nobody a (a.say contact { text := choice.text, fromPlayer := true } now) :=
    .say a known _ _
  cases done
  split
  · exact said.trans (moves_enter (said.formed coherent.formed) _ _ _ _ _)
  · exact said.trans (moves_leave _ (said.known known) now)

theorem moves_execute (coherent : a.Coherent) {contact : String} {actions : List Action}
    (done : a.execute? contact actions now = some b) : Moves nobody a b := by
  unfold execute? at done
  split at done
  · rename_i known
    cases done
    obtain ⟨planned, rounded⟩ := stirs_planWith (quiet_reopen a.closedThreads) coherent.formed known
      now actions
    have payloads := payload_of_planWith (reopen a.closedThreads) a contact now actions
    obtain ⟨moves, settled, _⟩ := moves_layOut (planned.known known) "" payloads now .immediate
      fun loose => coherent.rounded contact (rounded contact loose)
    exact (planned.toMoves.trans moves).settle settled
  · cases done

/- What an operation does at once is a move within the story, or the beginning of a new one. -/
theorem moves_acted {s : Session} (coherent : s.play.Coherent) {operation : Operation}
    (ongoing : operation.Ongoing) (acted : s.acted? now operation = some a) :
    Moves nobody s.play a := by
  cases operation with
  | choose contact index => exact moves_choose coherent acted
  | setVariable name value =>
    cases acted
    exact (stirs_assign coherent.formed name value now).toMoves
  | execute contact actions => exact moves_execute coherent acted
  | tick =>
    cases acted
    exact .refl _ _
  | switchProgram program | reset => cases ongoing
  | setTypingDelay delay | flush | view contact | collectNotifications | takeEvents => cases acted

theorem coherent_acted {s : Session} (coherent : s.play.Coherent) {operation : Operation}
    (scripted : operation.Scripted) (acted : s.acted? now operation = some a) : a.Coherent := by
  cases operation with
  | switchProgram program =>
    obtain ⟨rfl, _⟩ := Session.begun_of_switch acted
    exact coherent_beginStory (sound_switched scripted.wellFormed s.play).coherent now
  | reset =>
    cases acted
    exact coherent_beginStory (sound_initial coherent.formed _ _ _ _).coherent now
  | _ => exact coherent.moves (moves_acted coherent rfl acted)

theorem coherent_recordTimeline (coherent : a.Coherent) : a.recordTimeline.Coherent :=
  coherent.moves (rests_recordTimeline a).moves

theorem lasting_coherent : Lasting Coherent where
  fires coherent next := coherent_fire coherent next
  notes coherent := coherent_recordTimeline coherent

theorem sound_acted {s : Session} (sound : s.play.Sound) {operation : Operation}
    (compiled : operation.Compiled) (acted : s.acted? now operation = some a) : a.Sound := by
  cases operation with
  | switchProgram program =>
    obtain ⟨rfl, _⟩ := Session.begun_of_switch acted
    exact sound_beginStory (sound_switched (Program.Compiled.wellFormed compiled) s.play) now
  | reset =>
    cases acted
    exact sound_beginStory (sound_initial sound.formed _ _ _ _) now
  | _ => exact sound.moves (moves_acted sound.coherent rfl acted)

end Play

namespace Session

open Play

/- Reading the messages of a contact changes no message but for that. -/
theorem histories_viewed {α : Type} {f : Message → α} (blind : ∀ m : Message, f { m with read := true } = f m)
    (histories : Table String (List Message)) (contact other : String) :
    let viewed := match histories.get? contact with
      | some history =>
        histories.insert contact (history.map fun m : Message => { m with read := true })
      | none => histories
    viewed.contains other = histories.contains other ∧
      (viewed.getD other []).map f = (histories.getD other []).map f := by
  cases found : histories.get? contact with
  | none => exact ⟨rfl, rfl⟩
  | some history =>
    dsimp only
    by_cases own : other = contact
    · subst own
      rw [Table.contains, Table.contains, Table.getD, Table.getD, Table.get?_insert, if_pos rfl, found]
      refine ⟨rfl, ?_⟩
      rw [Option.getD_some, Option.getD_some, List.map_map]
      exact List.map_congr_left fun m _ => blind m
    · rw [Table.contains, Table.contains, Table.getD, Table.getD, Table.get?_insert, if_neg own]
      exact ⟨rfl, rfl⟩

theorem rests_viewed (play : Play) {contact : String}
    (unlocked : play.progress.unlocked.has contact = true) : Play.Rests play (play.viewed contact) := by
  have known := histories_viewed (f := Message.kind) (fun _ => rfl) play.progress.histories contact
  refine ⟨rfl, rfl, rfl, ?_, rfl, rfl, rfl, rfl, rfl, fun other => (known other).2⟩
  intro kept
  have reads := kept.unlocked contact unlocked
  refine { kept with histories := ?_, viewed := ?_ }
  · intro other
    exact (Bool.eq_iff_iff.1 (known other).1).trans (kept.histories other)
  · intro other had
    rcases (NameSet.has_add _ _ _).1 had with same | had
    · rw [same]
      exact reads
    · exact kept.viewed other had

/- What is done without looking at the timeline leaves the story where it is. -/
theorem Aside.rests {a b : Play} (aside : Aside a b) : Play.Rests a b := by
  cases aside with
  | refused => exact .refl a
  | viewed unlocked => exact (rests_viewed a unlocked).trans (rests_recordTimeline _)
  | paced | collected =>
    exact ⟨rfl, rfl, rfl, fun kept => { kept with }, rfl, rfl, rfl, rfl, rfl, fun _ => rfl⟩
  | taken => exact ⟨rfl, rfl, rfl, id, rfl, rfl, rfl, rfl, rfl, fun _ => rfl⟩

theorem rests_of_unacted {s : Session} {now : Nat} {operation : Operation}
    (unacted : s.acted? now operation = none) (waits : operation ≠ .flush)
    (ongoing : operation.Ongoing) : Play.Rests s.play (s.perform now operation).play :=
  (aside_of_unacted ongoing unacted waits).rests

theorem sound_perform {s : Session} (sound : s.play.Sound) {operation : Operation}
    (compiled : operation.Compiled) (now : Nat) : (s.perform now operation).play.Sound := by
  refine perform_keeps lasting_sound sound (fun start => sound_acted sound compiled) ?_ ?_
  · rintro program rfl
    exact sound_switched (Program.Compiled.wellFormed compiled) s.play
  · intro ongoing unacted waits
    exact sound.moves (rests_of_unacted unacted waits ongoing).moves

/- Whatever is done at once leaves a sound play. -/
theorem sound_acts {a b : Play} (sound : a.Sound) (acts : Acts Operation.Compiled a b) : b.Sound := by
  cases acts with
  | acted compiled acted => exact sound_acted sound compiled acted
  | unacted compiled _ _ => exact sound_perform sound compiled _
  | noted => exact sound_recordTimeline sound
  | still => exact sound

/- Within a story, what is done at once is a move. -/
theorem moves_acts {a b : Play} (coherent : a.Coherent) (acts : Acts Operation.Ongoing a b) :
    Moves nobody a b := by
  cases acts with
  | acted ongoing acted => exact moves_acted coherent ongoing acted
  | unacted ongoing unacted waits => exact (rests_of_unacted unacted waits ongoing).moves
  | noted => exact (rests_recordTimeline a).moves
  | still => exact .refl _ a

theorem Reached.sound {s : Session} (reached : s.Reached) : s.play.Sound := by
  induction reached with
  | start options now compiled fresh =>
    rw [start_of_fresh fresh]
    exact settle_keeps lasting_sound _
      (sound_beginStory (sound_initial compiled.wellFormed _ _ _ _) now) now
  | perform now _ compiled ih => exact sound_perform ih compiled now

theorem Reached.performAll {s : Session} (reached : s.Reached) {steps : List (Nat × Operation)}
    (compiled : ∀ step ∈ steps, step.2.Compiled) : (s.performAll steps).Reached := by
  induction steps generalizing s with
  | nil => exact reached
  | cons step rest ih =>
    obtain ⟨first, others⟩ := List.forall_mem_cons.1 compiled
    exact ih (reached.perform step.1 first) others

end Session
end ChatStory
