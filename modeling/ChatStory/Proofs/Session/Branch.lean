import ChatStory.Proofs.Evaluation
import ChatStory.Proofs.Session.Reopening

/-!
The choices behind a reply. A round that the player chooses is evaluated once for its reply, before its
assignments are made, and again whenever its choices are asked for, under the variables of
that time. Both show the same branch as long as the conditions of the round come out as they did.
-/
namespace ChatStory

namespace Play

variable {a : Play} {contact : String} {key : RoundKey} {round : Round}

/-- The thread is active, and the round is its current one. -/
def IsIn (play : Play) (contact : String) (round : Round) : Prop :=
  play.progress.thread? contact = some .active ∧ play.roundOf? contact = some round

theorem IsIn.choices (inside : a.IsIn contact round) :
    a.choices contact = (a.evaluation round).choices := by
  rw [Play.choices, if_pos inside.1, inside.2]
  rfl

/- A round stays the current one of the active thread in which it is entered, whatever that reopens. -/
theorem stays_enter (formed : a.program.WellFormed)
    (found : a.program.round? contact key = some round)
    (active : a.progress.thread? contact = some .active) (time : Nat) (tempo : Tempo)
    (leading : Option Action) :
    (a.enter contact key time tempo leading).program = a.program ∧
      (a.enter contact key time tempo leading).progress.thread? contact = some .active ∧
      (a.enter contact key time tempo leading).progress.rounds.get? contact = some key := by
  have cascades := cascades_enterWith (turning_reopen a.closedThreads) found formed (Nat.le_refl _)
    time tempo leading
  rcases cascades.each contact with ⟨_, stays⟩ | ⟨_, closed, _⟩
  · exact ⟨cascades.program, stays.thread.trans active,
      stays.round.trans ((Table.get?_insert _ _ _ _).trans (if_pos rfl))⟩
  · exact absurd closed (Bool.eq_false_iff.1 (active_not_closed (a := a.placed contact key) active))

theorem isIn_enter (formed : a.program.WellFormed)
    (found : a.program.round? contact key = some round)
    (active : a.progress.thread? contact = some .active) (time : Nat) (tempo : Tempo)
    (leading : Option Action) : (a.enter contact key time tempo leading).IsIn contact round := by
  obtain ⟨program, still, current⟩ := stays_enter formed found active time tempo leading
  refine ⟨still, ?_⟩
  rw [roundOf?, current, program]
  exact found

end Play

namespace Session

open Play

variable {s : Session} {now : Nat} {contact : String} {index : Nat} {choice : Choice} {said : Play}
  {key : RoundKey} {round : Round}

theorem Picks.isIn (coherent : s.play.Coherent)
    (picks : Picks s now contact index choice said key round) :
    (said.enter contact key now .typed choice.action).IsIn contact round := by
  rw [picks.spoken]
  exact isIn_enter (a := s.play.say contact _ now) coherent.formed picks.found
    (active_of_choice picks.offered) now .typed choice.action

/- The reply that is put behind what waits for the contact is the text of the evaluation under the
   variables before the round. In whatever play the thread is active in the round later, its choices are
   those of an evaluation under the variables of that play. They are those behind the reply if the
   conditions of the round come out as they did, and so they do if its inputs have kept their values. -/
theorem choices_follow_branch (arises : s.Arises)
    (picks : Picks s now contact index choice said key round) {start : Play}
    (acted : s.acted? now (.choose contact index) = some start) :
    said.progress.values = s.play.progress.values ∧
    (∃ own, start.queue.lane contact = s.play.queue.lane contact ++ own ∧
      own.map (·.task.delivery) = start.sequence contact (said.evaluation round).text
        (choice.action.toList ++ (said.evaluation round).actions)) ∧
    start.IsIn contact round ∧
    ∀ later : Play, later.IsIn contact round →
      later.choices contact = (later.evaluation round).choices ∧
      (round.verdicts later.progress.values = round.verdicts said.progress.values →
        later.choices contact = (said.evaluation round).choices) ∧
      ((∀ name ∈ round.inputs said.progress.values,
          later.progress.values.get? name = said.progress.values.get? name) →
        round.verdicts later.progress.values = round.verdicts said.progress.values) := by
  have coherent := arises.coherent
  cases picks.acted.symm.trans acted
  refine ⟨by rw [picks.spoken]; rfl, picks.lays coherent, picks.isIn coherent, ?_⟩
  intro later inside
  refine ⟨inside.choices, fun same => ?_, verdicts_of_inputs⟩
  rw [inside.choices]
  exact congrArg Evaluation.choices (Round.evaluation_of_verdicts same)

/-- A round that reads a variable and then assigns it. -/
def greeting : String :=
  ":: A-Round-1 [initial_contact]\n(if: $x)Old\n[[Old|A-Round-1]]\n" ++
    "(else:)New\n[[New|A-Round-1]]\n(endif)(set: $x to true)\n"

def forgets : List (Nat × Operation) := [(1000, .setVariable "x" (.bool false))]

/-- The player picks the first choice, which leads on; nothing is due then. What is said holds of the
play before the round, of the round and of the play after it. -/
def pickShows (s : Session) (shows : Play → Round → Play → Bool) : Bool :=
  (s.play.choices "A")[0]?.any fun choice =>
    let said := s.play.say "A" { text := choice.text, fromPlayer := true } 1000
    (said.target? "A" choice).any fun key =>
      let start := said.enter "A" key 1000 .typed choice.action
      (s.play.program.round? "A" key).any fun round =>
        decide (start.queue.due? 1000 = none) && shows said round start

theorem picks_of_shows {shows : Play → Round → Play → Bool} (shown : s.pickShows shows = true) :
    ∃ choice said key round, Picks s 1000 "A" 0 choice said key round ∧
      (said.enter "A" key 1000 .typed choice.action).queue.due? 1000 = none ∧
      shows said round (said.enter "A" key 1000 .typed choice.action) = true := by
  obtain ⟨choice, offered, shown⟩ := (Option.any_eq_true _ _).1 shown
  obtain ⟨key, leads, shown⟩ := (Option.any_eq_true _ _).1 shown
  obtain ⟨round, found, shown⟩ := (Option.any_eq_true _ _).1 shown
  obtain ⟨idle, shown⟩ := Bool.and_eq_true_iff.1 shown
  exact ⟨choice, _, key, round, ⟨offered, rfl, leads, found⟩, of_decide_eq_true idle, shown⟩

/-- The reply and the choices that were evaluated for it are of one branch, those that are offered of
another one. -/
def showsOther (said : Play) (round : Round) (start : Play) : Bool :=
  decide (.reply "New" ∈ start.queue.slots.map (·.task.delivery)) &&
    decide ((said.evaluation round).text = "New") &&
    decide ((said.evaluation round).choices.map (·.text) = ["New"]) &&
    decide ((start.choices "A").map (·.text) = ["Old"])

/-- The only input keeps its value. -/
def keepsInput (said : Play) (round : Round) (start : Play) : Bool :=
  decide (round.inputs said.progress.values = ["x"]) && decide (start.choices "A" ≠ []) &&
    decide (start.progress.values.get? "x" = said.progress.values.get? "x")

theorem played_greeting : (playedWithin 0 greeting 1000 []).any (fun s => s.pickShows keepsInput &&
    (s.performAllWithin 0 forgets).any (·.pickShows showsOther)) = true := by
  decide +kernel

theorem greeting_shows : ∃ program : Program, (compile greeting).result = .ok program ∧
    (start program {} .empty 1000).Arises ∧ (start program {} .empty 1000).pickShows keepsInput = true ∧
    ((start program {} .empty 1000).performAll forgets).pickShows showsOther = true := by
  obtain ⟨program, compiled, both⟩ := played_of_any played_greeting
  obtain ⟨keeps, shown⟩ := Bool.and_eq_true_iff.1 both
  obtain ⟨t, within, other⟩ := (Option.any_eq_true _ _).1 shown
  refine ⟨program, compiled, .start {} .empty 1000 (Program.Compiled.scripted ⟨greeting, compiled⟩),
    keeps, ?_⟩
  change ((performAll (start program {} .empty 1000) []).performAll forgets).pickShows showsOther = true
  rw [performAll_of_performAllWithin within]
  exact other

/- The reply is of the branch that the body showed before its assignment, the choice of the other one,
   and no variable has been changed since the round was entered. -/
theorem choices_of_other_branch : ∃ program : Program, (compile greeting).result = .ok program ∧
    ∃ s choice said key round, s = (start program {} .empty 1000).performAll forgets ∧ s.Arises ∧
      Picks s 1000 "A" 0 choice said key round ∧
      let start := said.enter "A" key 1000 .typed choice.action
      let t := s.perform 1000 (.choose "A" 0)
      .reply "New" ∈ t.play.queue.slots.map (·.task.delivery) ∧
      (said.evaluation round).text = "New" ∧
      (said.evaluation round).choices.map (·.text) = ["New"] ∧ start.IsIn "A" round ∧
      t.play.progress.values = start.progress.values ∧
      (t.play.choices "A").map (·.text) = ["Old"] := by
  obtain ⟨program, compiled, begun, _, shown⟩ := greeting_shows
  have arises : ((start program {} .empty 1000).performAll forgets).Arises :=
    begun.performAll (List.forall_mem_singleton.2 trivial)
  obtain ⟨choice, said, key, round, picks, idle, shows⟩ := picks_of_shows shown
  simp only [showsOther, Bool.and_eq_true, decide_eq_true_eq] at shows
  obtain ⟨⟨⟨reply, text⟩, choices⟩, offered⟩ := shows
  refine ⟨program, compiled, _, choice, said, key, round, rfl, arises, picks, ?_⟩
  intro start t
  have left : t.play = start.recordTimeline := play_choose_of_idle picks.acted idle
  rw [left]
  exact ⟨reply, text, choices, picks.isIn arises.coherent, rfl, offered⟩

/- Where the round assigns its input the value that it has, the choices are those behind the reply. -/
theorem choices_follow_branch_greeting : ∃ (s : Session) (choice : Choice) (said : Play)
    (key : RoundKey) (round : Round) (start : Play), s.Arises ∧
      Picks s 1000 "A" 0 choice said key round ∧ s.acted? 1000 (.choose "A" 0) = some start ∧
      round.inputs said.progress.values = ["x"] ∧
      start.progress.values.get? "x" = said.progress.values.get? "x" ∧ start.IsIn "A" round ∧
      start.choices "A" = (said.evaluation round).choices ∧ start.choices "A" ≠ [] := by
  obtain ⟨program, _, arises, shown, _⟩ := greeting_shows
  generalize start program {} .empty 1000 = s at shown arises
  obtain ⟨choice, said, key, round, picks, _, shows⟩ := picks_of_shows shown
  simp only [keepsInput, Bool.and_eq_true, decide_eq_true_eq] at shows
  obtain ⟨⟨reads, offered⟩, same⟩ := shows
  obtain ⟨_, _, inside, later⟩ := choices_follow_branch arises picks picks.acted
  obtain ⟨_, follows, agree⟩ := later _ inside
  rw [reads, List.forall_mem_singleton] at agree
  exact ⟨s, choice, said, key, round, _, arises, picks, picks.acted, reads, same, inside,
    follows (agree same), offered⟩

end Session
end ChatStory
