import ChatStory.Proofs.Session.Depth

/-!
The loop that fires what is due, turn by turn. It ends in whatever state it begins: a turn makes the
rank of the story less, and nothing that a turn does goes on without end.
-/
namespace ChatStory.Play

/-- One turn of the loop: the first task is taken from the timeline and fired, if it is due. -/
def turn? (play : Play) (now : Nat) : Option Play :=
  (play.queue.due? now).map play.dropFirst.fire

/-- So many turns lead to a play in which nothing is due any more. -/
inductive Turns (now : Nat) : Play → Nat → Play → Prop where
  | done {play : Play} : play.turn? now = none → Turns now play 0 play
  | next {play next after : Play} {fired : Nat} :
    play.turn? now = some next → Turns now next fired after → Turns now play (fired + 1) after

variable {play after : Play} {now fired : Nat}

theorem turns_fireDue (play : Play) (now : Nat) :
    Turns now play (play.fireDue now).2 (play.fireDue now).1 := by
  cases due : play.queue.due? now with
  | none =>
    rw [fireDue_of_none due]
    exact .done (by rw [turn?, due]; rfl)
  | some slot =>
    rw [fireDue_of_some due]
    exact .next (by rw [turn?, due]; rfl) (turns_fireDue (play.dropFirst.fire slot) now)
termination_by play.rank now
decreasing_by exact rank_fire_lt due

theorem Turns.fireDue_eq (turns : Turns now play fired after) : play.fireDue now = (after, fired) := by
  induction turns with
  | done none => exact fireDue_of_none (Option.map_eq_none_iff.1 none)
  | next turned _ ih =>
    obtain ⟨slot, due, rfl⟩ := Option.map_eq_some_iff.1 turned
    rw [fireDue_of_some due, ih]

/- Whoever goes on turn by turn gets no further than the loop. -/
theorem Turns.not_endless (turns : Turns now play fired after) (plays : Nat → Play)
    (first : plays 0 = play) : ¬∀ n, (plays n).turn? now = some (plays (n + 1)) := by
  induction turns generalizing plays with
  | done none =>
    intro endless
    have turned := endless 0
    rw [first, none] at turned
    cases turned
  | next turned _ ih =>
    intro endless
    have second := endless 0
    rw [first, turned] at second
    exact ih (fun n => plays (n + 1)) (Option.some.inj second).symm fun n => endless (n + 1)

/- Whatever the state of a story, however it came about, and whatever the clock reads: the loop ends
   after some turns, in the play and with the count that firing what is due gives, and there is no endless
   run of it. What a turn does ends too: actions are run and rounds are entered by the recursion of
   reopenings without any bound on how deep it goes. -/
theorem turns_end (play : Play) (now : Nat) :
    (∃ fired after, Turns now play fired after) ∧
    (∀ fired after, Turns now play fired after ↔ play.fireDue now = (after, fired)) ∧
    (¬∃ plays : Nat → Play, plays 0 = play ∧ ∀ n, (plays n).turn? now = some (plays (n + 1))) ∧
    (∀ contact action time,
      play.run contact action time = play.runWith reopening contact action time) ∧
    (∀ contact key time tempo leading, play.enter contact key time tempo leading =
      play.enterWith reopening contact key time tempo leading) ∧
    ∀ contact key time, reopening play contact key time =
      if play.progress.isClosed contact then
        enterWith reopening (play.reopened contact) contact key time .typed none
      else play := by
  have turns := turns_fireDue play now
  refine ⟨⟨_, _, turns⟩, ?_, ?_, run_eq play, enter_eq play, reopening_eq play⟩
  · intro fired after
    constructor
    · exact Turns.fireDue_eq
    · intro same
      rw [same] at turns
      exact turns
  · rintro ⟨plays, first, endless⟩
    exact turns.not_endless plays first endless

end ChatStory.Play
