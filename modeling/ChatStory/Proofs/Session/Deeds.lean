import ChatStory.Proofs.Session.Depth
import ChatStory.Proofs.Session.Entering
import ChatStory.Proofs.Session.Rebuilt

/-!
What is done in a story. An account is kept of every assignment, of every closed thread that is reopened,
of the actions that are handed over with a round and of each run of one, and of what notices
deliver. It is kept along with the story, in the plays that the story itself goes through.
-/
namespace ChatStory

inductive Deed where
  /-- A variable is given a value that it did not have. -/
  | assigned (before : Play) (name : String) (value : Value)
  /-- A closed thread is reopened with a round. -/
  | reopened (before : Play) (contact : String) (key : RoundKey)
  /-- Actions are handed over for a contact. -/
  | handed (contact : String) (actions : List Action)
  /-- An action is run for a contact, and is done or fails. -/
  | ran (contact : String) (action : Action) (done : Bool)
  /-- The notices of a contact take the contacts that wait to be unlocked for it. -/
  | delivered (contact : String) (targets : List String)

namespace Play

/-- What is done when a round is entered in a closed thread. -/
abbrev Retelling := Play → String → RoundKey → Nat → List Deed

/-- What is done in several steps, one after the other. -/
def eachDeeds {α : Type} (step : Play → α → Play) (deeds : Play → α → List Deed) (play : Play) :
    List α → List Deed
  | [] => []
  | item :: rest => deeds play item ++ eachDeeds step deeds (step play item) rest

def assignDeeds (again : Reopening) (told : Retelling) (play : Play) (name : String) (value : Value)
    (time : Nat) : List Deed :=
  let before := play.progress.values
  if (before.get? name).any (·.same value) then []
  else
    let after := play.setVariable name value
    .assigned play name value :: eachDeeds (fun play (contact, key) => again play contact key time)
      (fun play (contact, key) => told play contact key time) after (after.nowOpen before)

/-- What an action does apart from being run: only one that sets a variable does more. -/
def effectDeeds (again : Reopening) (told : Retelling) (play : Play) (time : Nat) :
    Effect → List Deed
  | .setVariable name value => play.assignDeeds again told name value time
  | _ => []

/- An effect that fails does nothing else. -/
theorem effectDeeds_of_failed {play : Play} {again : Reopening} {told : Retelling} {contact : String}
    {time : Nat} {effect : Effect} (failed : play.effectWith? again contact time effect = none) :
    play.effectDeeds again told time effect = [] := by
  cases effect with
  | setVariable name value => cases failed
  | _ => rfl

def runDeeds (again : Reopening) (told : Retelling) (play : Play) (contact : String) (action : Action)
    (time : Nat) : List Deed :=
  play.effectDeeds again told time action.effect ++
    [.ran contact action (play.effectWith? again contact time action.effect).isSome]

def planDeeds (again : Reopening) (told : Retelling) (play : Play) (contact : String) (time : Nat) :
    List Action → List Deed
  | [] => []
  | action :: rest =>
    if action.effect.isHeldBack then
      play.runDeeds again told contact action time ++
        planDeeds again told (play.runWith again contact action time) contact time rest
    else if action.effect.isBubble || 0 < action.delay then
      planDeeds again told play contact time rest
    else
      play.runDeeds again told contact action time ++
        planDeeds again told (play.runWith again contact action time) contact time rest

/-- The actions are handed over, and those of them that are run at once are run. -/
def handDeeds (again : Reopening) (told : Retelling) (play : Play) (contact : String) (time : Nat)
    (actions : List Action) : List Deed :=
  .handed contact actions :: play.planDeeds again told contact time actions

def enterDeeds (again : Reopening) (told : Retelling) (play : Play) (contact : String)
    (key : RoundKey) (time : Nat) (leading : Option Action) : List Deed :=
  match play.program.round? contact key with
  | none => []
  | some round =>
    let evaluation := play.evaluation round
    let assign (play : Play) (a : Assignment) : Play := play.assignWith again a.name a.value time
    let placed := play.placed contact key
    eachDeeds assign (fun play a => play.assignDeeds again told a.name a.value time) placed
        evaluation.assignments ++
      (evaluation.assignments.foldl assign placed).handDeeds again told contact time
        (leading.toList ++ evaluation.actions)

def reopenDeeds : Nat → Retelling
  | 0, _, _, _, _ => []
  | depth + 1, play, contact, key, time =>
    if play.progress.isClosed contact then
      .reopened play contact key :: (play.reopened contact).enterDeeds (reopen depth)
        (reopenDeeds depth) contact key time none
    else []

def assigning (play : Play) (name : String) (value : Value) (time : Nat) : List Deed :=
  play.assignDeeds (reopen play.closedThreads) (reopenDeeds play.closedThreads) name value time

def running (play : Play) (contact : String) (action : Action) (time : Nat) : List Deed :=
  play.runDeeds (reopen play.closedThreads) (reopenDeeds play.closedThreads) contact action time

def handing (play : Play) (contact : String) (actions : List Action) (time : Nat) : List Deed :=
  play.handDeeds (reopen play.closedThreads) (reopenDeeds play.closedThreads) contact time actions

def entering (play : Play) (contact : String) (key : RoundKey) (time : Nat)
    (leading : Option Action) : List Deed :=
  play.enterDeeds (reopen play.closedThreads) (reopenDeeds play.closedThreads) contact key time leading

def unlockDeeds (play : Play) (contact target : String) (time : Nat) : List Deed :=
  match play.program.contact? target with
  | none => []
  | some entry =>
    if play.progress.unlocked.has target && play.progress.thread? target != some .locked then []
    else
      let play := (play.say contact (.ofUnlock target) time).setUnlocked target
      let play := play.putThread target .active
      let play := play.announce (.actionExecuted contact { effect := .unlockContact target })
      match entry.firstKey? with
      | some key => play.entering target key time none
      | none => []

def heldDeeds (play : Play) (contact : String) (time : Nat) : List Deed :=
  let targets := play.progress.unlocks.getD contact []
  .delivered contact targets :: eachDeeds (fun play target => play.unlock contact target time)
    (fun play target => play.unlockDeeds contact target time)
    (play.revise fun p => { p with unlocks := p.unlocks.erase contact }) targets

def fireDeeds (play : Play) (slot : Slot) : List Deed :=
  if slot.task.epoch = play.epoch then
    match slot.task.delivery with
    | .typing | .reply _ => []
    | .payload action => play.running slot.task.contact action slot.time
    | .notices => play.heldDeeds slot.task.contact slot.time
  else []

def beginning (play : Play) (now : Nat) : List Deed :=
  match play.program.opening? with
  | none => []
  | some contact => match contact.firstKey? with
    | some key => play.entering contact.name key now none
    | none => []

/-- A story before its beginning. -/
def unbegun (program : Program) (options : Options) : Play where
  program := program
  progress := .initial program options.typingDelay
  queue := ∅
  epoch := 0
  indicator := options.indicator
  events := #[]

def choosing (play : Play) (contact : String) (index now : Nat) : List Deed :=
  match (play.choices contact)[index]? with
  | none => []
  | some choice =>
    let said := play.say contact { text := choice.text, fromPlayer := true } now
    match said.target? contact choice with
    | some key => said.entering contact key now choice.action
    | none => []

end Play

def Moment.deeds : Moment → List Deed
  | acted _ => []
  | fired before slot => before.fireDeeds slot

namespace Session

/- What does nothing at once fires nothing, unless it fires all tasks. -/
theorem firings_of_unacted {s : Session} {now : Nat} {operation : Operation}
    (unacted : s.acted? now operation = none) (waits : operation ≠ .flush) :
    s.firings now operation = [] := by
  cases operation with
  | flush => exact absurd rfl waits
  | _ =>
    unfold firings
    rw [unacted]

/-- What an operation does at once. -/
def actedDeeds (s : Session) (now : Nat) : Operation → List Deed
  | .choose contact index => s.play.choosing contact index now
  | .setVariable name value => s.play.assigning name value now
  | .execute contact actions =>
    if s.play.program.has contact then s.play.handing contact actions now else []
  | .switchProgram program =>
    if (s.play.switched program).progress.histories.values.all (·.isEmpty) then
      (s.play.switched program).beginning now
    else []
  | .reset => (s.play.nextEpoch.revise fun _ =>
    .initial s.play.program s.options.typingDelay).beginning now
  | _ => []

/-- What an operation does at once, and what the tasks do that it fires. -/
def deeds (s : Session) (now : Nat) (operation : Operation) : List Deed :=
  s.actedDeeds now operation ++ (s.firings now operation).flatMap Moment.deeds

def allDeeds (s : Session) : List (Nat × Operation) → List Deed
  | [] => []
  | (now, operation) :: rest => s.deeds now operation ++ (s.perform now operation).allDeeds rest

/-- What is done when a session starts, with a new story or where the store left off. -/
def startDeeds (program : Program) (options : Options) (store : Store) (now : Nat) : List Deed :=
  match restored? store with
  | some progress => ((Play.resumed program options progress now).firings now).flatMap Moment.deeds
  | none => (Play.unbegun program options).beginning now ++
    ((Play.begun program options now).firings now).flatMap Moment.deeds

/-- What is done in a story under some operations, from its start on. -/
def storyDeeds (program : Program) (options : Options) (store : Store) (now : Nat)
    (steps : List (Nat × Operation)) : List Deed :=
  startDeeds program options store now ++ (start program options store now).allDeeds steps

end Session
end ChatStory
