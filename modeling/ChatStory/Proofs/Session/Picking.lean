import ChatStory.Proofs.Session.Branch
import ChatStory.Proofs.Session.Heard
import ChatStory.Proofs.Session.Input

/-!
Picking a choice is all or nothing. Either it is refused and changes nothing, or the words of the player
stand in the thread, and then the contact is in the round to which the choice leads, or its thread
is over and nothing stands between these words and the end notice.
-/
namespace ChatStory

namespace Play

variable {a b start : Play} {contact : String} {choice : Choice} {index now : Nat}

/-- The words of the player have led to a round of the contact that can be entered, the contact is in it,
and nothing else has been said to it yet. -/
structure Arrives (said : Play) (contact : String) (choice : Choice) (key : RoundKey) (round : Round)
    (start : Play) : Prop where
  leads : said.target? contact choice = some key
  found : said.program.round? contact key = some round
  enters : round.canEnter said.progress.values = true
  current : start.progress.rounds.get? contact = some key
  inside : start.IsIn contact round
  history : start.progress.history contact = said.progress.history contact

/-- The words of the player have led nowhere: the thread has ended, no round is left in it, and all that
was announced behind these words is the end notice and the end. -/
structure Strands (said : Play) (contact : String) (choice : Choice) (now : Nat) (start : Play) :
    Prop where
  lost : said.target? contact choice = none
  ended : start.Ended contact
  roundless : start.progress.rounds.get? contact = none
  history : start.progress.history contact =
    said.progress.history contact ++ [Saying.ofEnd.message said contact now]
  events : start.events.toList = said.events.toList ++
    [.messageAdded (Saying.ofEnd.message said contact now), .threadChanged contact .ended]

theorem arrives_enter (formed : a.program.WellFormed)
    (active : a.progress.thread? contact = some .active) {key : RoundKey}
    (leads : a.target? contact choice = some key) (now : Nat) :
    ∃ round, Arrives a contact choice key round (a.enter contact key now .typed choice.action) := by
  obtain ⟨round, found, allowed⟩ := round_of_target leads
  obtain ⟨_, _, current⟩ := stays_enter formed found active now .typed choice.action
  refine ⟨round, leads, found, allowed, current,
    isIn_enter formed found active now .typed choice.action, ?_⟩
  rw [Progress.history, histories_enter_typed formed]
  rfl

theorem strands_strand (active : a.progress.thread? contact = some .active)
    (lost : a.target? contact choice = none) (now : Nat) :
    Strands a contact choice now (a.strand contact now) := by
  let left := a.revise fun p => { p with rounds := p.rounds.erase contact }
  have still : left.progress.thread? contact = some .active := active
  have finished : a.strand contact now =
      (left.say contact .ofEnd now).putThread contact .ended := by
    unfold strand finishThread
    rw [if_neg (by rw [still]; decide)]
  have fresh : (left.say contact .ofEnd now).progress.thread? contact ≠ some .ended := by
    change left.progress.thread? contact ≠ _
    rw [still]
    decide
  refine ⟨lost, ?_, ?_, ?_, ?_⟩ <;> rw [finished]
  · exact thread?_putThread _ _ _
  · rw [putThread_eq]
    exact (Table.get?_erase _ _ _).trans (if_pos rfl)
  · rw [(history_putThread _ _ _ _).1, Speaks.history_say, if_pos rfl]
    rfl
  · unfold putThread
    rw [if_neg fresh]
    change ((a.events.push _).push _).toList = _
    rw [Array.toList_push, Array.toList_push, List.append_assoc]
    rfl

/- What was announced before a walk is announced before the news of it. -/
theorem events_of_walks {may : ThreadState → Prop} (walks : Walks may a b) :
    a.events.toList <+: b.events.toList := by
  obtain ⟨news, tells⟩ := tells_walks walks
  exact ⟨news, tells.events.symm⟩

/- A choice that is followed leads to a round or ends the thread, and nothing in between. -/
theorem follow_cases (formed : a.program.WellFormed)
    (active : a.progress.thread? contact = some .active) (choice : Choice) (now : Nat) :
    (∃ key round, Arrives a contact choice key round (a.follow contact choice now)) ∨
      Strands a contact choice now (a.follow contact choice now) := by
  unfold follow
  cases target : a.target? contact choice with
  | some key =>
    obtain ⟨round, arrives⟩ := arrives_enter formed active target now
    exact .inl ⟨key, round, arrives⟩
  | none => exact .inr (strands_strand active target now)

theorem choose?_isSome : (a.choose? contact index now).isSome = true ↔
    a.progress.thread? contact = some .active ∧ index < (a.choices contact).length := by
  rw [choose?_eq, Option.isSome_map, isSome_getElem?]
  constructor
  · intro inside
    exact ⟨active_of_choice (List.getElem?_eq_getElem inside), inside⟩
  · exact And.right

end Play

namespace Session

open Play

variable {s : Session}

/- Every pick of every session is refused as a whole or made as a whole: it is made exactly if the thread
   is active and offers the choice, and changes nothing else. What is announced first is the words
   of the player; and before time is looked at, the contact is in the round to which these words lead, or
   its thread is over and the end notice stands right behind them. -/
theorem choose_all_or_nothing (arises : s.Arises) (contact : String) (index now : Nat) :
    ((s.choose contact index now).isSome = true ↔
      s.play.progress.thread? contact = some .active ∧ index < (s.play.choices contact).length) ∧
    (s.choose contact index now = none → s.perform now (.choose contact index) = s) ∧
    ∀ t, s.choose contact index now = some t →
      ∃ choice said start, (s.play.choices contact)[index]? = some choice ∧
        said = s.play.say contact (.ofChoice choice) now ∧ t = s.settle start now ∧
        (∃ more, t.play.events.toList = s.play.events.toList ++
          .messageAdded ((Saying.ofChoice choice).message s.play contact now) :: more) ∧
        ((∃ key round, Arrives said contact choice key round start) ∨
          Strands said contact choice now start) := by
  refine ⟨?_, ?_, ?_⟩
  · rw [choose_eq, Option.isSome_map]
    exact choose?_isSome
  · intro refused
    rw [perform, refused]
    rfl
  · intro t picked
    rw [choose_eq, choose?_eq, Option.map_map] at picked
    obtain ⟨choice, offered, settled⟩ := Option.map_eq_some_iff.1 picked
    let said := s.play.say contact (.ofChoice choice) now
    have active : said.progress.thread? contact = some .active := active_of_choice offered
    refine ⟨choice, said, said.follow contact choice now, offered, rfl, settled.symm, ?_,
      follow_cases (a := said) arises.coherent.formed active choice now⟩
    obtain ⟨more, events⟩ := events_of_walks ((walks_follow said contact choice now).trans
      (walks_fireDue _ now))
    refine ⟨more, ?_⟩
    rw [← settled]
    change ((said.follow contact choice now).fireDue now).1.events.toList = _
    rw [← events]
    change (s.play.events.push _).toList ++ more = _
    rw [Array.toList_push, List.append_assoc]
    rfl

/-- One choice leads nowhere, the other one leads on. -/
def forking : String :=
  ":: A-Round-1 [initial_contact]\nHi\n[[Leave|A-Round-9]]\n[[Go|A-Round-2]]\n\n" ++
    ":: A-Round-2 [chat]\nReply.\n"

/-- Where a choice of the contact leads, once the player has picked it. -/
def leadsTo? (s : Session) (index : Nat) : Option (Option RoundKey) :=
  (s.play.choices "A")[index]?.map fun choice =>
    (s.play.say "A" (.ofChoice choice) 1000).target? "A" choice

def forks (s : Session) : Bool :=
  decide (s.leadsTo? 0 = some none) && decide (s.leadsTo? 1 = some (some ⟨2, none⟩)) &&
    decide (s.leadsTo? 2 = none)

theorem played_forking : (playedWithin 0 forking 1000 []).any forks = true := by decide +kernel

/- The first choice ends the thread, the second one leads on, and there is no third one. -/
theorem choose_all_or_nothing_forking : ∃ s : Session, s.Arises ∧
    (∃ choice said start, s.choose "A" 0 1000 = some (s.settle start 1000) ∧
      (s.play.choices "A")[0]? = some choice ∧ Strands said "A" choice 1000 start) ∧
    (∃ choice said start round, s.choose "A" 1 1000 = some (s.settle start 1000) ∧
      (s.play.choices "A")[1]? = some choice ∧ Arrives said "A" choice ⟨2, none⟩ round start) ∧
    s.choose "A" 2 1000 = none ∧ s.perform 1000 (.choose "A" 2) = s := by
  obtain ⟨program, compiled, shown⟩ := played_of_any played_forking
  have arises : (start program {} .empty 1000).Arises :=
    .start {} .empty 1000 (Program.Compiled.scripted ⟨forking, compiled⟩)
  change (start program {} .empty 1000).forks = true at shown
  generalize start program {} .empty 1000 = s at shown arises
  simp only [forks, Bool.and_eq_true, decide_eq_true_eq] at shown
  obtain ⟨⟨nowhere, on⟩, third⟩ := shown
  refine ⟨s, arises, ?_, ?_, ?_⟩
  · obtain ⟨accepted, _, made⟩ := choose_all_or_nothing arises "A" 0 1000
    obtain ⟨choice, offered, lost⟩ := Option.map_eq_some_iff.1 nowhere
    obtain ⟨t, picked⟩ := Option.isSome_iff_exists.1 (accepted.2
      ⟨active_of_choice offered, (List.getElem?_eq_some_iff.1 offered).1⟩)
    obtain ⟨choice', said, start, offered', spoken, settled, _, outcome⟩ := made t picked
    cases offered.symm.trans offered'
    rw [← spoken] at lost
    rcases outcome with ⟨key, round, arrives⟩ | strands
    · cases arrives.leads.symm.trans lost
    · exact ⟨choice, said, start, settled ▸ picked, offered, strands⟩
  · obtain ⟨accepted, _, made⟩ := choose_all_or_nothing arises "A" 1 1000
    obtain ⟨choice, offered, leads⟩ := Option.map_eq_some_iff.1 on
    obtain ⟨t, picked⟩ := Option.isSome_iff_exists.1 (accepted.2
      ⟨active_of_choice offered, (List.getElem?_eq_some_iff.1 offered).1⟩)
    obtain ⟨choice', said, start, offered', spoken, settled, _, outcome⟩ := made t picked
    cases offered.symm.trans offered'
    rw [← spoken] at leads
    rcases outcome with ⟨key, round, arrives⟩ | strands
    · cases arrives.leads.symm.trans leads
      exact ⟨choice, said, start, round, settled ▸ picked, offered, arrives⟩
    · cases strands.lost.symm.trans leads
  · obtain ⟨accepted, refused, _⟩ := choose_all_or_nothing arises "A" 2 1000
    have missing : (s.play.choices "A").length ≤ 2 :=
      List.getElem?_eq_none_iff.1 (Option.map_eq_none_iff.1 third)
    have unpicked : s.choose "A" 2 1000 = none := by
      rw [← Option.not_isSome_iff_eq_none, accepted]
      exact fun taken => absurd taken.2 (Nat.not_lt.2 missing)
    exact ⟨unpicked, refused unpicked⟩

end Session
end ChatStory
