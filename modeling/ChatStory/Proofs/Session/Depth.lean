import ChatStory.Proofs.Session.Walk

/-!
How deep reopenings go. The number of closed threads bounds how deep reopenings may go into one another,
and that bound never decides anything: every reopening leaves one closed thread less and nothing on the
way closes one, so any larger bound leads to the same story.
-/
namespace ChatStory.Play

variable {a b : Play}

theorem threads_putThread (a : Play) (contact : String) (thread : ThreadState) :
    (a.putThread contact thread).progress.threads = a.progress.threads.insert contact thread := by
  rw [putThread_eq]

theorem threads_setUnlocked (a : Play) (contact : String) :
    (a.setUnlocked contact).progress.threads = a.progress.threads := by
  rw [setUnlocked_eq]

/- Where threads are only opened, none is closed. -/
theorem closedThreads_le (walks : Walks onlyOpens a b) : b.closedThreads ≤ a.closedThreads := by
  induction walks with
  | refl => exact Nat.le_refl _
  | tail _ step ih =>
    refine Nat.le_trans ?_ ih
    unfold closedThreads
    cases step with
    | quiet _ _ _ _ threads _ _ => exact Nat.le_of_eq (by rw [threads])
    | put contact active =>
      cases active
      rw [threads_putThread]
      exact Table.countP_values_insert_le rfl _ contact
    | unlocked contact => exact Nat.le_of_eq (by rw [threads_setUnlocked])
    | said contact time kept | typed contact time | assigned fresh | told contact action =>
      exact Nat.le_refl _

/- A reopening leaves one closed thread less. -/
theorem closedThreads_reopened {contact : String} (closed : a.progress.isClosed contact = true) :
    (a.reopened contact).closedThreads < a.closedThreads := by
  obtain ⟨thread, found, counted⟩ := (Option.any_eq_true _ _).1 closed
  unfold closedThreads reopened
  rw [threads_setUnlocked, threads_putThread]
  exact Table.countP_values_insert_lt (p := ThreadState.isClosed) rfl found counted

/-- Two ways to reopen do the same wherever no more than so many threads are closed. -/
def Agree (bound : Nat) (first second : Reopening) : Prop :=
  ∀ play contact key time, play.closedThreads ≤ bound →
    first play contact key time = second play contact key time

section Agreement

variable {bound : Nat}

theorem foldl_agree {α : Type} {first second : Play → α → Play}
    (agree : ∀ play item, play.closedThreads ≤ bound → first play item = second play item)
    (walks : ∀ play item, Walks onlyOpens play (first play item)) (few : a.closedThreads ≤ bound)
    (items : List α) : items.foldl first a = items.foldl second a ∧
      (items.foldl first a).closedThreads ≤ bound := by
  refine ⟨?_, Nat.le_trans (closedThreads_le ((spans_strolls 0).foldl walks items a)) few⟩
  induction items generalizing a with
  | nil => rfl
  | cons item rest ih =>
    rw [List.foldl_cons, List.foldl_cons, ← agree a item few]
    exact ih (Nat.le_trans (closedThreads_le (walks a item)) few)

variable {first second : Reopening} (agree : Agree bound first second) (strolls : Strolls first)

include agree strolls

theorem assignWith_agree (few : a.closedThreads ≤ bound) (name : String) (value : Value) (time : Nat) :
    a.assignWith first name value time = a.assignWith second name value time := by
  unfold assignWith
  dsimp only
  split
  · rfl
  · have assigned : (a.setVariable name value).closedThreads ≤ bound := few
    exact (foldl_agree
      (fun play (entry : String × RoundKey) few => agree play entry.1 entry.2 time few)
      (fun play entry => strolls play entry.1 entry.2 time) assigned _).1

theorem effectWith?_agree (few : a.closedThreads ≤ bound) (contact : String) (time : Nat)
    (effect : Effect) :
    a.effectWith? first contact time effect = a.effectWith? second contact time effect := by
  cases effect with
  | setVariable name value =>
    exact congrArg some (assignWith_agree agree strolls few name value time)
  | _ => rfl

theorem runWith_agree (few : a.closedThreads ≤ bound) (contact : String) (action : Action)
    (time : Nat) : a.runWith first contact action time = a.runWith second contact action time := by
  unfold runWith
  rw [effectWith?_agree agree strolls few]

theorem planWith_agree (few : a.closedThreads ≤ bound) (contact : String) (time : Nat)
    (actions : List Action) :
    a.planWith first contact time actions = a.planWith second contact time actions := by
  induction actions generalizing a with
  | nil => rfl
  | cons action rest ih =>
    have ran : (a.runWith first contact action time).closedThreads ≤ bound :=
      Nat.le_trans (closedThreads_le (walks_runWith strolls a contact action time)) few
    simp only [planWith, ← runWith_agree agree strolls few, ih ran, ih few]

theorem enterWith_agree (few : a.closedThreads ≤ bound) (contact : String) (key : RoundKey) (time : Nat)
    (tempo : Tempo) (leading : Option Action) :
    a.enterWith first contact key time tempo leading =
      a.enterWith second contact key time tempo leading := by
  unfold enterWith
  cases a.program.round? contact key with
  | none => rfl
  | some round =>
    dsimp only
    let entered := a.revise fun p => { p with rounds := p.rounds.insert contact key }
    have opened : entered.closedThreads ≤ bound := few
    obtain ⟨same, fewer⟩ := foldl_agree
      (fun play (s : Assignment) few => assignWith_agree agree strolls few s.name s.value time)
      (fun play s => walks_assignWith strolls play s.name s.value time) opened
      (a.evaluation round).assignments
    rw [← same, planWith_agree agree strolls fewer]

end Agreement

/- Two bounds that both cover the closed threads lead to the same. -/
theorem reopen_agree {first second : Nat} (play : Play) (contact : String) (key : RoundKey) (time : Nat)
    (left : play.closedThreads ≤ first) (right : play.closedThreads ≤ second) :
    reopen first play contact key time = reopen second play contact key time := by
  induction first generalizing second play contact key time with
  | zero =>
    have opened : play.progress.isClosed contact = false := by
      rw [Bool.eq_false_iff]
      intro closed
      have less := closedThreads_reopened closed
      omega
    cases second with
    | zero => rfl
    | succ second =>
      rw [reopen_succ, opened]
      rfl
  | succ first ih =>
    cases closed : play.progress.isClosed contact with
    | false =>
      cases second <;> simp [reopen, closed]
    | true =>
      have less := closedThreads_reopened closed
      cases second with
      | zero => omega
      | succ second =>
        rw [reopen_succ, reopen_succ, if_pos closed, if_pos closed]
        -- One thread has been opened, so both smaller bounds still cover the others.
        have agree : Agree (play.reopened contact).closedThreads (reopen first) (reopen second) :=
          fun other c k t few => ih other c k t (by omega) (by omega)
        exact enterWith_agree agree (strolls_reopen first) (Nat.le_refl _) contact key time .typed none

/-- Reopens a closed thread, however deep reopenings go into one another. -/
def reopening : Reopening := fun play => reopen play.closedThreads play

theorem agree_reopening (depth : Nat) : Agree depth (reopen depth) reopening :=
  fun play contact key time few => reopen_agree play contact key time few (Nat.le_refl _)

/- Reopening is the recursion without a bound. -/
theorem reopening_eq (play : Play) (contact : String) (key : RoundKey) (time : Nat) :
    reopening play contact key time = if play.progress.isClosed contact then
      enterWith reopening (play.reopened contact) contact key time .typed none else play := by
  cases closed : play.progress.isClosed contact with
  | false =>
    unfold reopening
    cases play.closedThreads <;> simp [reopen, closed]
  | true =>
    have less := closedThreads_reopened closed
    unfold reopening
    obtain ⟨depth, same⟩ := Nat.exists_eq_add_of_lt less
    rw [same, reopen_succ, if_pos closed, if_pos rfl]
    have agree : Agree (play.reopened contact).closedThreads
        (reopen ((play.reopened contact).closedThreads + depth)) reopening :=
      fun other c k t few => reopen_agree other c k t (by omega) (Nat.le_refl _)
    exact enterWith_agree agree (strolls_reopen _) (Nat.le_refl _) contact key time .typed none

theorem run_eq (play : Play) (contact : String) (action : Action) (time : Nat) :
    play.run contact action time = play.runWith reopening contact action time :=
  runWith_agree (agree_reopening _) (strolls_reopen _) (Nat.le_refl _) contact action time

theorem enter_eq (play : Play) (contact : String) (key : RoundKey) (time : Nat) (tempo : Tempo)
    (leading : Option Action) : play.enter contact key time tempo leading =
      play.enterWith reopening contact key time tempo leading :=
  enterWith_agree (agree_reopening _) (strolls_reopen _) (Nat.le_refl _) contact key time tempo leading

end ChatStory.Play
