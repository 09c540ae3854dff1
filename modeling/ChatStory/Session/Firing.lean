import ChatStory.Session.Cascade

/-!
Firing tasks. Notices unlock contacts first and end the thread last, so that nothing they add
to a thread stands behind its end notice.
-/
namespace ChatStory.Play

/-- Unlocks a contact for another one, in whose thread this is announced, and opens the
conversation. Only a contact that was never unlocked or whose thread is locked can be unlocked. -/
def unlock (play : Play) (contact target : String) (time : Nat) : Play :=
  match play.program.contact? target with
  | none => play
  | some entry =>
    if play.progress.unlocked.has target && play.progress.thread? target != some .locked then play
    else
      let play := (play.say contact (.ofUnlock target) time).setUnlocked target
      let play := play.putThread target .active
      let play := play.announce (.actionExecuted contact { effect := .unlockContact target })
      match entry.firstKey? with
      | some key => play.enter target key time .immediate none
      | none => play

/-- Ends a thread that waits to be ended. -/
def endPending (play : Play) (contact : String) (time : Nat) : Play :=
  if play.progress.endings.has contact then
    let after := (play.revise fun p => { p with endings := p.endings.remove contact }).finishThread
      contact time
    if play.progress.thread? contact = some .ended then after
    else after.announce (.actionExecuted contact { effect := .endThread })
  else play

/-- Delivers what was held back for a contact. -/
def deliverHeld (play : Play) (contact : String) (time : Nat) : Play :=
  let targets := play.progress.unlocks.getD contact []
  let play := play.revise fun p => { p with unlocks := p.unlocks.erase contact }
  (targets.foldl (fun play target => play.unlock contact target time) play).endPending contact time

/-- Fires a task that was taken off the timeline. One of an earlier epoch has no effect. -/
def fire (play : Play) (slot : Slot) : Play :=
  if slot.task.epoch = play.epoch then
    match slot.task.delivery with
    | .typing => play.announceTyping slot.task.contact slot.time
    | .reply text => play.say slot.task.contact { text := text } slot.time
    | .payload action => play.run slot.task.contact action slot.time
    | .notices => play.deliverHeld slot.task.contact slot.time
  else play

/-- Without the task that comes first on the timeline. -/
def dropFirst (play : Play) : Play := { play with queue := play.queue.rest }

end ChatStory.Play
