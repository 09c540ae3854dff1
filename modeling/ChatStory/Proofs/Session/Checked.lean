import ChatStory.Proofs.Session.Picking
import ChatStory.Proofs.Targets

/-!
What is checked of a script is what happens. A choice that names a round ends the thread exactly if this
round was reported missing, or is there and closed by its condition; otherwise it leads there.
-/
namespace ChatStory

variable {contact : String} {choice : Choice} {key : RoundKey} {round : Round}

/- The round stands under its own key. -/
theorem Program.WellFormed.key_of_round {program : Program} (formed : program.WellFormed)
    (found : program.round? contact key = some round) : round.key = key := by
  obtain ⟨entry, known, kept⟩ := Option.bind_eq_some_iff.1 found
  exact (formed.contacts contact entry known).keys key round kept

namespace Play

variable {a : Play}

/-- The round is there, but it is conditional and its condition does not hold. -/
def Bars (play : Play) (contact : String) (key : RoundKey) : Prop :=
  ∃ round condition, play.program.round? contact key = some round ∧ key.isConditional = true ∧
    round.condition = some condition ∧ condition.holds play.progress.values = false

theorem bars_iff (formed : a.program.WellFormed) (found : a.program.round? contact key = some round) :
    a.Bars contact key ↔ round.canEnter a.progress.values = false := by
  have own := formed.key_of_round found
  constructor
  · rintro ⟨other, condition, known, conditional, opening, fails⟩
    cases found.symm.trans known
    rw [Round.canEnter, own, conditional, opening]
    exact fails
  · intro closed
    rw [Round.canEnter, own, Bool.or_eq_false_iff, Bool.not_eq_false'] at closed
    obtain ⟨conditional, closed⟩ := closed
    cases opening : round.condition with
    | none =>
      rw [opening] at closed
      cases closed
    | some condition =>
      rw [opening] at closed
      exact ⟨round, condition, found, conditional, opening, closed⟩

/- Where a choice names a round, no other one is looked for. -/
theorem target?_of_named (named : choice.targetRound = some key) :
    a.target? contact choice = (a.program.round? contact key).bind fun round =>
      if round.canEnter a.progress.values then some key else none := by
  unfold target? Program.round?
  cases a.program.contact? contact with
  | none => rfl
  | some entry =>
    rw [named]
    refine congrArg (entry.rounds.get? key).bind (funext fun round => ?_)
    by_cases enters : round.canEnter a.progress.values = true
    · rw [guard, if_pos enters, if_pos enters]
      rfl
    · rw [guard, if_neg enters, if_neg enters]
      rfl

/- It leads nowhere exactly if the round is missing or closed. -/
theorem lost_iff (formed : a.program.WellFormed) (named : choice.targetRound = some key) :
    a.target? contact choice = none ↔
      a.program.round? contact key = none ∨ a.Bars contact key := by
  rw [target?_of_named named]
  cases found : a.program.round? contact key with
  | none => simp
  | some round =>
    rw [bars_iff formed found, Option.bind_some]
    cases round.canEnter a.progress.values <;> simp

end Play

namespace Session

open Play

variable {s : Session} {source : String} {program : Program}

/- What compiling a script says about a choice comes true wherever the choice is offered, in every
   session that plays the script. It names the round whose title is its target, and where it names a
   round, it leads to that round of the contact: or the thread ends, exactly if the round was
   reported missing, or is conditional and its condition does not hold at that time. -/
theorem targets_checked (compiled : (compile source).result = .ok program) :
    (∀ contact key round choice, program.round? contact key = some round →
      .choice choice ∈ round.body →
        choice.targetRound = RoundKey.ofReference? choice.target ∧
        ∀ target other, program.round? contact target = some other → choice.target = other.title →
          choice.targetRound = some target) ∧
    ∀ s : Session, s.Arises → s.play.program = program → ∀ contact index now choice key,
      (s.play.choices contact)[index]? = some choice → choice.targetRound = some key →
        ∃ round start, s.play.roundOf? contact = some round ∧ .choice choice ∈ round.body ∧
          s.choose contact index now = some (s.settle start now) ∧
          let said := s.play.say contact (.ofChoice choice) now
          let stuck := ⟨.missingTarget choice.text round.title choice.target contact key, none⟩ ∈
            (compile source).warnings ∨ s.play.Bars contact key
          (Strands said contact choice now start ↔ stuck) ∧
            (¬stuck → ∃ target, Arrives said contact choice key target start) := by
  have same := Compilation.program_of_result compiled
  have scripted : program.Scripted := ⟨source, same⟩
  refine ⟨?_, ?_⟩
  · intro contact key round choice found member
    have names := (scripted.written found).choices choice member
    refine ⟨names, ?_⟩
    intro target other known titled
    rw [names, titled]
    exact RoundKey.ofReference_of_title (scripted.written known).title
  · intro s arises playing contact index now choice key offered named
    have formed := arises.coherent.formed
    have active := active_of_choice offered
    obtain ⟨round, current, shown⟩ := round_of_offer (List.mem_of_getElem? offered)
    have member : .choice choice ∈ round.body := fragment_of_choice shown
    obtain ⟨own, _, found⟩ := Option.bind_eq_some_iff.1 current
    refine ⟨round, (s.play.say contact (.ofChoice choice) now).follow contact choice now, current,
      member, ?_, ?_⟩
    · rw [choose_eq, choose?_eq, offered]
      rfl
    intro said stuck
    have lost : said.target? contact choice = none ↔ stuck := by
      have compiled : (compile source).program.round? contact own = some round := by
        rw [same, ← playing]
        exact found
      have reported := reported_iff compiled member named
      rw [same, ← playing] at reported
      exact (lost_iff (a := said) formed named).trans (or_congr reported.symm Iff.rfl)
    have outcome := follow_cases (a := said) formed active choice now
    constructor
    · constructor
      · intro strands
        exact lost.1 strands.lost
      · intro stuck
        rcases outcome with ⟨_, _, arrives⟩ | strands
        · cases arrives.leads.symm.trans (lost.2 stuck)
        · exact strands
    · intro free
      rcases outcome with ⟨other, target, arrives⟩ | strands
      · have leads := arrives.leads
        rw [target?_of_named named] at leads
        obtain ⟨_, _, leads⟩ := Option.bind_eq_some_iff.1 leads
        split at leads
        · cases leads
          exact ⟨target, arrives⟩
        · cases leads
      · exact absurd (lost.1 strands.lost) free

/-- A choice whose round is missing, one whose round is closed, and one that leads on. -/
def gated : String :=
  ":: A-Round-1 [initial_contact]\nHi\n[[Lost|A-Round-9]]\n[[Secret|A-Round-2.0]]\n[[Go|A-Round-3]]\n\n" ++
    ":: A-Round-2.0 [chat]\n(if: $x)Psst.\n\n:: A-Round-3 [chat]\nReply.\n"

/-- The title of the current round, and one of the choices in it. -/
def offer? (s : Session) (index : Nat) : Option (String × Choice) := do
  let round ← s.play.roundOf? "A"
  let choice ← (s.play.choices "A")[index]?
  return (round.title, choice)

def offersGated (s : Session) : Bool :=
  decide (s.play.program = (compile gated).program) && decide ((compile gated).warnings =
      [⟨.missingTarget "Lost" "A-Round-1" "A-Round-9" "A" ⟨9, none⟩, none⟩]) &&
    decide (s.offer? 0 = some ("A-Round-1", ⟨"Lost", "A-Round-9", some ⟨9, none⟩, none⟩)) &&
    decide (s.offer? 1 = some ("A-Round-1", ⟨"Secret", "A-Round-2.0", some ⟨2, some 0⟩, none⟩)) &&
    decide (s.offer? 2 = some ("A-Round-1", ⟨"Go", "A-Round-3", some ⟨3, none⟩, none⟩)) &&
    (s.play.program.round? "A" ⟨2, some 0⟩).any (!·.canEnter s.play.progress.values)

theorem played_gated : (playedWithin 0 gated 1000 []).any offersGated = true := by decide +kernel

theorem offered_of_offer {index : Nat} {title : String} {choice : Choice}
    (offer : s.offer? index = some (title, choice)) : (s.play.choices "A")[index]? = some choice ∧
      ∀ round, s.play.roundOf? "A" = some round → round.title = title := by
  obtain ⟨round, current, offer⟩ := Option.bind_eq_some_iff.1 offer
  obtain ⟨other, offered, offer⟩ := Option.bind_eq_some_iff.1 offer
  cases offer
  refine ⟨offered, ?_⟩
  intro other same
  cases current.symm.trans same
  rfl

/- The first choice is reported, the second one is barred, and both end the thread; the third one is
   neither, and leads on. -/
theorem targets_checked_gated : ∃ (program : Program) (s : Session),
    (compile gated).result = .ok program ∧ s.Arises ∧ s.play.program = program ∧
    (∃ choice start, s.choose "A" 0 1000 = some (s.settle start 1000) ∧
      ⟨.missingTarget "Lost" "A-Round-1" "A-Round-9" "A" ⟨9, none⟩, none⟩ ∈
        (compile gated).warnings ∧
      Strands (s.play.say "A" (.ofChoice choice) 1000) "A" choice 1000 start) ∧
    (∃ choice start, s.choose "A" 1 1000 = some (s.settle start 1000) ∧
      s.play.Bars "A" ⟨2, some 0⟩ ∧
      Strands (s.play.say "A" (.ofChoice choice) 1000) "A" choice 1000 start) ∧
    ∃ choice start round, s.choose "A" 2 1000 = some (s.settle start 1000) ∧
      Arrives (s.play.say "A" (.ofChoice choice) 1000) "A" choice ⟨3, none⟩ round start := by
  obtain ⟨program, compiled, shown⟩ := played_of_any played_gated
  have arises : (start program {} .empty 1000).Arises :=
    .start {} .empty 1000 (Program.Compiled.scripted ⟨gated, compiled⟩)
  change (start program {} .empty 1000).offersGated = true at shown
  generalize start program {} .empty 1000 = s at shown arises
  simp only [offersGated, Bool.and_eq_true, decide_eq_true_eq] at shown
  obtain ⟨⟨⟨⟨⟨playing, warnings⟩, lost⟩, secret⟩, go⟩, closed⟩ := shown
  rw [Compilation.program_of_result compiled] at playing
  have runs := (targets_checked compiled).2 s arises playing "A"
  refine ⟨program, s, compiled, arises, playing, ?_, ?_, ?_⟩
  · obtain ⟨offered, titled⟩ := offered_of_offer lost
    obtain ⟨round, start, current, _, chosen, strands, _⟩ := runs 0 1000 _ _ offered rfl
    have reported : ⟨.missingTarget "Lost" "A-Round-1" "A-Round-9" "A" ⟨9, none⟩, none⟩ ∈
        (compile gated).warnings := by
      rw [warnings]
      exact List.mem_cons_self
    refine ⟨_, start, chosen, reported, strands.2 (.inl ?_)⟩
    rw [titled round current]
    exact reported
  · obtain ⟨offered, _⟩ := offered_of_offer secret
    obtain ⟨_, start, _, _, chosen, strands, _⟩ := runs 1 1000 _ _ offered rfl
    obtain ⟨target, found, closed⟩ := (Option.any_eq_true _ _).1 closed
    have bars := (bars_iff arises.coherent.formed found).2 (Bool.not_eq_true' _ ▸ closed)
    exact ⟨_, start, chosen, bars, strands.2 (.inr bars)⟩
  · obtain ⟨offered, _⟩ := offered_of_offer go
    obtain ⟨_, start, _, _, chosen, _, arrives⟩ := runs 2 1000 _ _ offered rfl
    obtain ⟨target, arrived⟩ := arrives (by
      rintro (reported | ⟨_, _, _, conditional, _⟩)
      · rw [warnings, List.mem_singleton] at reported
        simp at reported
      · cases conditional)
    exact ⟨_, start, target, chosen, arrived⟩

end Session
end ChatStory
