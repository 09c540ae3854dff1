import ChatStory.Proofs.Session.Run

/-!
Runs that can be computed. The loop that fires what is due ends because a rank becomes less; given
the number of tasks that it may fire, it ends by that number, and gives up where it does not
suffice. Where it does not give up, it is the loop itself.
-/
namespace ChatStory

namespace Play

def fireWithin : Nat → Play → Nat → Option (Play × Nat)
  | 0, play, now => if play.queue.due? now = none then some (play, 0) else none
  | limit + 1, play, now => match play.queue.due? now with
    | none => some (play, 0)
    | some slot => ((play.dropFirst.fire slot).fireWithin limit now).map fun (play, fired) =>
        (play, fired + 1)

theorem fireDue_of_fireWithin {limit : Nat} {play : Play} {now : Nat} {result : Play × Nat}
    (within : fireWithin limit play now = some result) : play.fireDue now = result := by
  induction limit generalizing play result with
  | zero =>
    unfold fireWithin at within
    split at within
    · rename_i none
      cases within
      exact fireDue_of_none none
    · cases within
  | succ limit ih =>
    unfold fireWithin at within
    cases due : play.queue.due? now with
    | none =>
      rw [due] at within
      cases within
      exact fireDue_of_none due
    | some slot =>
      rw [due] at within
      obtain ⟨after, fired, same⟩ := Option.map_eq_some_iff.1 within
      rw [fireDue_of_some due, ih fired]
      exact same

end Play

namespace Session

def settleWithin (limit : Nat) (s : Session) (play : Play) (now : Nat) : Option Session :=
  (play.fireWithin limit now).map fun (play, _) => save { s with play := play }

/-- The beginning of a story, if it fires no more tasks than the limit. -/
def startWithin (limit : Nat) (program : Program) (options : Options) (store : Store) (now : Nat) :
    Option Session :=
  settleWithin limit ⟨.begun program options now, store, options⟩ (.begun program options now) now

/-- What the player or the host does, or what time does, if it fires no more tasks than the limit. -/
def performWithin (limit : Nat) (s : Session) (now : Nat) : Operation → Option Session
  | .choose contact index => do
    let play ← s.play.choose? contact index now
    s.settleWithin limit play now
  | .setVariable name value => s.settleWithin limit (s.play.assign name value now) now
  | .execute contact actions => do
    let play ← s.play.execute? contact actions now
    s.settleWithin limit play now
  | .tick => (s.play.fireWithin limit now).map fun (play, fired) =>
    let after := { s with play := play }
    if fired = 0 then after else after.save
  | _ => none

def performAllWithin (limit : Nat) (s : Session) : List (Nat × Operation) → Option Session
  | [] => some s
  | (now, operation) :: rest => do
    let after ← s.performWithin limit now operation
    after.performAllWithin limit rest

variable {limit : Nat} {s t : Session} {now : Nat}

theorem settle_of_settleWithin {play : Play} (within : s.settleWithin limit play now = some t) :
    s.settle play now = t := by
  obtain ⟨fired, found, same⟩ := Option.map_eq_some_iff.1 within
  rw [settle, Play.fireDue_of_fireWithin found]
  exact same

theorem start_of_startWithin {program : Program} {options : Options} {store : Store}
    (fresh : restored? store = none) (within : startWithin limit program options store now = some t) :
    start program options store now = t :=
  (start_of_fresh fresh).trans (settle_of_settleWithin within)

theorem perform_of_performWithin {operation : Operation}
    (within : s.performWithin limit now operation = some t) : s.perform now operation = t := by
  cases operation with
  | choose contact index =>
    obtain ⟨play, chosen, settled⟩ := Option.bind_eq_some_iff.1 within
    rw [perform, choose_eq, chosen]
    exact settle_of_settleWithin settled
  | setVariable name value => exact settle_of_settleWithin within
  | execute contact actions =>
    obtain ⟨play, executed, settled⟩ := Option.bind_eq_some_iff.1 within
    rw [perform, execute_eq, executed]
    exact settle_of_settleWithin settled
  | tick =>
    obtain ⟨fired, found, same⟩ := Option.map_eq_some_iff.1 within
    rw [perform, tick, Play.fireDue_of_fireWithin found]
    exact same
  | _ => cases within

theorem performAll_of_performAllWithin {steps : List (Nat × Operation)}
    (within : s.performAllWithin limit steps = some t) : s.performAll steps = t := by
  induction steps generalizing s with
  | nil => exact Option.some.inj within
  | cons step rest ih =>
    obtain ⟨after, performed, later⟩ := Option.bind_eq_some_iff.1 within
    rw [performAll, perform_of_performWithin performed]
    exact ih later

/-- The session after the beginning of the story of a script, and some operations. -/
def playedWithin (limit : Nat) (source : String) (now : Nat) (steps : List (Nat × Operation)) :
    Option Session :=
  match (compile source).result with
  | .ok program => do
    let first ← startWithin limit program {} .empty now
    first.performAllWithin limit steps
  | .error _ => none

/- What a computed story shows is shown by a story. -/
theorem played_of_any {source : String} {steps : List (Nat × Operation)} {shows : Session → Bool}
    (within : (playedWithin limit source now steps).any shows = true) : ∃ program : Program,
      (compile source).result = .ok program ∧
        shows ((start program {} .empty now).performAll steps) = true := by
  obtain ⟨last, played, shown⟩ := (Option.any_eq_true _ _).1 within
  unfold playedWithin at played
  cases compiled : (compile source).result with
  | error diagnostic =>
    rw [compiled] at played
    cases played
  | ok program =>
    rw [compiled] at played
    obtain ⟨first, started, performed⟩ := Option.bind_eq_some_iff.1 played
    refine ⟨program, rfl, ?_⟩
    rw [start_of_startWithin rfl started, performAll_of_performAllWithin performed]
    exact shown

/- What a computed program shows is shown by the program of a script without errors. -/
theorem compiled_of_any {source : String} {shows : Program → Bool}
    (shown : (compile source).result.toOption.any shows = true) :
    ∃ program, (compile source).result = .ok program ∧ shows program = true := by
  cases compiled : (compile source).result with
  | error diagnostic =>
    rw [compiled] at shown
    cases shown
  | ok program =>
    rw [compiled] at shown
    exact ⟨program, rfl, shown⟩

end Session
end ChatStory
