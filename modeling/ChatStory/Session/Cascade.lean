import ChatStory.Session.Play

/-!
Entering rounds. A round assigns variables, an assignment may satisfy the condition of a round in
a closed thread, and such a thread is reopened by entering that round. Each reopening leaves
one closed thread less and nothing on the way closes one, so the number of closed threads
bounds how deep this goes.
-/
namespace ChatStory

/-- How the text of a round reaches the thread. -/
inductive Tempo where
  /-- At once. -/
  | immediate
  /-- Behind the typing delay and the typing bubble. -/
  | typed
deriving DecidableEq

namespace Play

/-- Enters a round of a contact whose thread is closed, at some time. -/
abbrev Reopening := Play → String → RoundKey → Nat → Play

/-- The first conditional round whose condition did not hold before and holds now. -/
def newlyOpen? (contact : Contact) (before now : Variables) : Option RoundKey :=
  (contact.conditionals.find? fun round =>
    round.condition.any fun c => !c.holds before && c.holds now).map (·.key)

/-- The contacts with closed threads that have such a round. -/
def nowOpen (play : Play) (before : Variables) : List (String × RoundKey) :=
  (play.program.inOrder.filter fun contact => play.progress.isClosed contact.name).filterMap
    fun contact => (newlyOpen? contact before play.progress.values).map (contact.name, ·)

/-- Gives a variable a value. To assign the value that it has does nothing. -/
def assignWith (reopen : Reopening) (play : Play) (name : String) (value : Value) (time : Nat) :
    Play :=
  let before := play.progress.values
  if (before.get? name).any (·.same value) then play
  else
    let play := (play.revise fun p => { p with values := before.insert name value }).announce
      (.variableChanged name value)
    (play.nowOpen before).foldl (fun play (contact, key) => reopen play contact key time)
      play

/-- Carries out an effect for a contact. It fails if it names a contact that does not exist,
or opens a thread that has not been unlocked. -/
def effectWith? (reopen : Reopening) (play : Play) (contact : String) (time : Nat) :
    Effect → Option Play
  | .unlockContact target =>
    if play.program.has target then
      some (play.revise fun p => { p with
        unlocks := p.unlocks.insert contact (p.unlocks.getD contact [] ++ [target]) })
    else none
  | .endThread => some (play.revise fun p => { p with endings := p.endings.add contact })
  | .delayedMessage text target =>
    let target := target.getD contact
    if play.program.has target then some (play.say target { text := text } time) else none
  | .sendPhoto media caption =>
    some (play.say contact { text := caption.getD "", kind := .photo, media := some media } time)
  | .sendVideo media caption =>
    some (play.say contact { text := caption.getD "", kind := .video, media := some media } time)
  | .dropPin pin =>
    some (play.say contact { text := pin.label, kind := .location, location := some pin } time)
  | .typingIndicator _ => some (play.announceTyping contact time)
  | .setTypingDelay delay => some (play.revise fun p => { p with typingDelay := delay })
  | .setVariable name value => some (assignWith reopen play name value time)
  | .setContactStatus target status =>
    if play.program.has target then
      some (play.revise fun p => { p with statuses := p.statuses.insert target status })
    else none
  | .showNotification title text =>
    some (play.revise fun p => { p with
      notifications := p.notifications ++ [⟨contact, title, text, time⟩] })
  | .openThread target =>
    if play.program.has target && play.progress.unlocked.has target then
      some (play.revise fun p => { p with viewed := p.viewed.add target })
    else none
  | .vibrate _ | .callEmergency | .needCode | .triggerCall _ => some play

/-- Runs an action. It is announced once it is done; one that is held back is announced with its
notice, and one that fails never. -/
def runWith (reopen : Reopening) (play : Play) (contact : String) (action : Action) (time : Nat) :
    Play :=
  match effectWith? reopen play contact time action.effect with
  | some after =>
    if action.effect.isHeldBack then after else after.announce (.actionExecuted contact action)
  | none => play

/-- What is left to schedule of some actions. -/
structure Plan where
  /-- Actions that make a bubble or are delayed, in order. -/
  payloads : List Action
  /-- The largest delay of the actions that are held back. -/
  holding : Nat

def planWith (reopen : Reopening) (play : Play) (contact : String) (time : Nat) :
    List Action → Play × Plan
  | [] => (play, ⟨[], 0⟩)
  | action :: rest =>
    if action.effect.isHeldBack then
      let after := runWith reopen play contact action time
      let (play, plan) := planWith reopen after contact time rest
      (play, { plan with holding := max action.delay plan.holding })
    else if action.effect.isBubble || 0 < action.delay then
      let (play, plan) := planWith reopen play contact time rest
      (play, { plan with payloads := action :: plan.payloads })
    else planWith reopen (runWith reopen play contact action time) contact time rest

/-- Sends a reply, or puts it on the timeline, and gives the time at which it arrives. -/
def reply (play : Play) (contact : String) (text : String) (time : Nat) : Tempo → Play × Nat
  | .immediate => (if text = "" then play else play.say contact { text := text } time, time)
  | .typed =>
    let delay := play.progress.typingDelay
    let replyTime := if 0 < delay then time + delay + play.indicator else time
    let play := if 0 < delay then play.schedule contact (time + delay) .typing else play
    (if text = "" then play else play.schedule contact replyTime (.reply text), replyTime)

/-- Puts actions on the timeline after a reply, and gives the latest time, `last` included. -/
def schedulePayloads (play : Play) (contact : String) (replyTime last : Nat) :
    List Action → Play × Nat
  | [] => (play, last)
  | action :: rest =>
    let time := replyTime + action.delay
    (play.schedule contact time (.payload action)).schedulePayloads contact replyTime
      (max last (play.timeFor contact time)) rest

/-- Lays out a reply, what goes with it, and behind that the notices that are held back. -/
def layOut (play : Play) (contact : String) (text : String) (plan : Plan) (time : Nat)
    (tempo : Tempo) : Play :=
  let (play, replyTime) := play.reply contact text time tempo
  let (play, last) := play.schedulePayloads contact replyTime replyTime plan.payloads
  let last := max last (replyTime + plan.holding)
  if play.progress.unlocks.contains contact || play.progress.endings.has contact then
    play.schedule contact last .notices
  else play

/-- Makes a round the current one of a contact and delivers it. The round is evaluated first;
then its assignments are made, its actions run behind the leading one, and its text goes out. -/
def enterWith (reopen : Reopening) (play : Play) (contact : String) (key : RoundKey) (time : Nat)
    (tempo : Tempo) (leading : Option Action) : Play :=
  match play.program.round? contact key with
  | none => play
  | some round =>
    let evaluation := play.evaluation round
    let play := play.revise fun p => { p with rounds := p.rounds.insert contact key }
    let play := evaluation.assignments.foldl
      (fun play a => assignWith reopen play a.name a.value time) play
    let (play, plan) := planWith reopen play contact time (leading.toList ++ evaluation.actions)
    play.layOut contact evaluation.text plan time tempo

/-- Reopens a closed thread; `depth` bounds how deep reopenings may go into one another. -/
def reopen : Nat → Reopening
  | 0, play, _, _, _ => play
  | depth + 1, play, contact, key, time =>
    if play.progress.isClosed contact then
      let play := play.revise fun p => { p with endings := p.endings.remove contact }
      let play := (play.putThread contact .active).setUnlocked contact
      enterWith (reopen depth) play contact key time .typed none
    else play

/-- The number of closed threads. -/
def closedThreads (play : Play) : Nat := play.progress.threads.values.countP (·.isClosed)

def assign (play : Play) (name : String) (value : Value) (time : Nat) : Play :=
  assignWith (reopen play.closedThreads) play name value time

def run (play : Play) (contact : String) (action : Action) (time : Nat) : Play :=
  runWith (reopen play.closedThreads) play contact action time

def plan (play : Play) (contact : String) (actions : List Action) (time : Nat) : Play × Plan :=
  planWith (reopen play.closedThreads) play contact time actions

def enter (play : Play) (contact : String) (key : RoundKey) (time : Nat) (tempo : Tempo)
    (leading : Option Action) : Play :=
  enterWith (reopen play.closedThreads) play contact key time tempo leading

end Play
end ChatStory
