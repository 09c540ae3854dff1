import ChatStory.Proofs.Session.Arising
import ChatStory.Proofs.Session.Dated

/-!
Sessions that keep up with their clock. Where time is let pass before anything else is done, every thread
stands in order of time, and nothing in it is dated after the clock, whoever has written it.
-/
namespace ChatStory

namespace Play

variable {a b : Play} {since clock now : Nat}

/-- Nothing has been told. -/
abbrev untold : String → List Message := fun _ => []

namespace Chronicle

/- Messages may be read or go away, and tasks may be dropped. -/
theorem of_unread (chronicle : Chronicle untold since clock a)
    (kept : ∀ c, b.progress.history c = [] ∨
      (b.progress.history c).map Message.unread = (a.progress.history c).map Message.unread)
    (slots : b.queue.slots ⊆ a.queue.slots) : Chronicle untold since clock b := by
  refine ⟨chronicle.late, fun c => ⟨b.progress.history c, rfl, ?_⟩,
    fun slot member => chronicle.ahead slot (slots member)⟩
  obtain ⟨more, grown, ordered, dated⟩ := chronicle.said c
  rcases kept c with gone | same
  · rw [gone]
    exact ⟨.nil, List.forall_mem_nil _⟩
  · rw [grown] at same
    constructor
    · have listed : ((b.progress.history c).map Message.unread).Pairwise
          fun m n => m.timestamp ≤ n.timestamp := by
        rw [same]
        exact List.pairwise_map.2 ordered
      exact List.Pairwise.of_map (R := fun m n => m.timestamp ≤ n.timestamp) _ (fun _ _ => id) listed
    · intro m member
      have listed : m.unread ∈ (b.progress.history c).map Message.unread := List.mem_map_of_mem member
      rw [same] at listed
      obtain ⟨m', old, equal⟩ := List.mem_map.1 listed
      have stamp : m'.unread.timestamp = m.unread.timestamp := by rw [equal]
      have contact : m'.unread.contact = m.unread.contact := by rw [equal]
      obtain ⟨after, before, own⟩ := dated m' old
      exact ⟨stamp ▸ after, stamp ▸ before, contact ▸ own⟩

/- With nothing on the timeline, any time may have come. -/
theorem idle (chronicle : Chronicle untold since clock a) (later : clock ≤ now)
    (kept : ∀ c, b.progress.history c = [] ∨ b.progress.history c = a.progress.history c)
    (empty : b.queue.slots = []) : Chronicle untold since now b := by
  have still : Chronicle untold since clock b :=
    chronicle.of_unread (fun c => (kept c).imp_right (congrArg _)) (empty ▸ List.nil_subset _)
  exact still.later later (empty ▸ List.forall_mem_nil _)

end Chronicle

end Play

namespace Session

open Play

variable {s : Session} {since clock now : Nat} {operation : Operation}

/-- Nothing on the timeline should have come up by now. -/
abbrev UpToDate (s : Session) (now : Nat) : Prop := ∀ slot ∈ s.play.queue.slots, now ≤ slot.time

theorem chronicle_switched (chronicle : Chronicle untold since clock s.play) (later : clock ≤ now)
    {program : Program} (formed : program.WellFormed) :
    Chronicle untold since now (s.play.switched program) := by
  refine chronicle.idle later (fun c => ?_) rfl
  have history : (s.play.switched program).progress.history c = _ :=
    Progress.history_fitTo formed s.play.progress c
  rw [history]
  split
  · exact .inr rfl
  · exact .inl rfl

/- What is done at once is done by the clock, and not before anything that has come up. -/
theorem chronicle_acted {start : Play} (formed : s.play.program.WellFormed)
    (chronicle : Chronicle untold since clock s.play) (later : clock ≤ now)
    (scripted : operation.Scripted) (punctual : operation = .tick ∨ s.UpToDate now)
    (acted : s.acted? now operation = some start) :
    ∃ moment, moment ≤ now ∧ Chronicle untold since moment start := by
  rcases punctual with tick | ahead
  · subst tick
    cases acted
    exact ⟨clock, later, chronicle⟩
  · refine ⟨now, Nat.le_refl now, ?_⟩
    have ready := chronicle.later later ahead
    cases operation with
    | tick | choose contact index | setVariable name value | execute contact actions =>
      exact ready.happens ((Utters.spans now).acted rfl acted) ((Grows.spans now).acted rfl acted)
    | switchProgram program =>
      obtain ⟨rfl, _⟩ := begun_of_switch acted
      exact (chronicle_switched chronicle later scripted.wellFormed).begins
    | reset =>
      cases acted
      have silent : Chronicle untold since now
          (s.play.nextEpoch.revise fun _ => .initial s.play.program s.options.typingDelay) :=
        chronicle.idle later (fun c => .inl (Progress.history_initial formed _ c)) rfl
      exact silent.begins
    | _ => cases acted

theorem chronicle_perform (formed : s.play.program.WellFormed)
    (chronicle : Chronicle untold since clock s.play) (later : clock ≤ now)
    (scripted : operation.Scripted) (punctual : operation = .tick ∨ s.UpToDate now)
    (waits : operation ≠ .flush) : Chronicle untold since now (s.perform now operation).play := by
  cases acted : s.acted? now operation with
  | some start =>
    obtain ⟨moment, early, begun⟩ := chronicle_acted formed chronicle later scripted punctual acted
    have fired := begun.fireDue early
    rcases play_perform_of_acted acted with same | same
    · rw [same]
      exact fired
    · rw [same]
      exact fired.of_histories rfl rfl
  -- What does nothing at once is refused, or leaves the story where it is.
  | none =>
    have ahead : s.UpToDate now := by
      refine punctual.resolve_left fun tick => ?_
      subst tick
      cases acted
    have ready := chronicle.later later ahead
    cases operation with
    | switchProgram program =>
      rw [play_of_unbegun acted]
      exact (chronicle_switched chronicle later scripted.wellFormed).of_histories rfl rfl
    | reset => cases acted
    | _ =>
      have aside := aside_of_unacted rfl acted waits
      refine ready.of_unread (fun c => .inr (aside.unread c)) ?_
      rw [aside.rests.queue]
      exact List.Subset.refl _

/-- A session that can be reached by a time, from a new story by operations that wait for the times of the
tasks, where all but time itself wait until nothing on the timeline should have come up. -/
inductive Punctual : Nat → Session → Prop where
  | start {program : Program} (options : Options) {store : Store} (now : Nat) :
    program.Scripted → restored? store = none → Punctual now (start program options store now)
  | perform {s : Session} {clock now : Nat} {operation : Operation} :
    Punctual clock s → clock ≤ now → operation.Scripted → operation ≠ .flush →
      operation = .tick ∨ s.UpToDate now → Punctual now (s.perform now operation)

theorem Punctual.arises (punctual : Punctual clock s) : s.Arises := by
  induction punctual with
  | start options now scripted _ => exact .start options _ now scripted
  | perform _ _ scripted _ _ ih => exact ih.perform _ scripted

theorem chronicle_start {program : Program} (formed : program.WellFormed) (options : Options)
    {store : Store} (fresh : restored? store = none) (now : Nat) :
    Chronicle untold 0 now (start program options store now).play := by
  rw [start_of_fresh fresh]
  have silent : Chronicle untold 0 now
      ⟨program, .initial program options.typingDelay, ∅, 0, options.indicator, #[]⟩ := by
    refine ⟨Nat.zero_le now, fun c => ⟨[], Progress.history_initial formed _ c, .nil, ?_⟩, ?_⟩
    · exact List.forall_mem_nil _
    · exact List.forall_mem_nil _
  exact chronicle_settle silent.begins (Nat.le_refl now) _

theorem Punctual.chronicle (punctual : Punctual clock s) : Chronicle untold 0 clock s.play := by
  induction punctual with
  | start options now scripted fresh => exact chronicle_start scripted.wellFormed options fresh now
  | perform before later scripted waits keeps ih =>
    exact chronicle_perform before.arises.coherent.formed ih later scripted keeps waits

end Session
end ChatStory
