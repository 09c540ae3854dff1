import ChatStory.Session.Growth

/-!
Time passes. The tasks that are due are fired in order until none of them is left.
-/
namespace ChatStory.Play

/-- Fires every task that is due, and counts them. -/
def fireDue (play : Play) (now : Nat) : Play × Nat :=
  match _h : play.queue.due? now with
  | none => (play, 0)
  | some slot =>
    let (play, fired) := (play.dropFirst.fire slot).fireDue now
    (play, fired + 1)
termination_by play.rank now
decreasing_by exact rank_fire_lt ‹_›

/-- How many tasks are fired at most when all of them are fired at once. -/
def fireLimit : Nat := 10000

/-- Fires up to `limit` tasks whatever the time is, and counts them. -/
def fireUpTo : Nat → Play → Play × Nat
  | 0, play => (play, 0)
  | limit + 1, play =>
    match play.queue.next? with
    | none => (play, 0)
    | some slot =>
      let (play, fired) := fireUpTo limit (play.dropFirst.fire slot)
      (play, fired + 1)

/-- Fires all tasks, as far as the limit allows, and counts them. -/
def fireAll (play : Play) : Play × Nat := fireUpTo fireLimit play

end ChatStory.Play
