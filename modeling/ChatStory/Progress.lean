import ChatStory.Message
import ChatStory.Program
import ChatStory.Queue

/-!
How far a story has come: everything that changes while a program is played. Progress can be
saved, and fitted to a program again, which need not be the one it came from.
-/
namespace ChatStory

/-- A task that had not come up when progress was saved. -/
structure SavedTask where
  contact : String
  time : Nat
  delivery : Delivery
deriving DecidableEq

structure Progress where
  rounds : Table String RoundKey
  threads : Table String ThreadState
  histories : Table String (List Message)
  unlocked : NameSet
  viewed : NameSet
  typingDelay : Nat
  /-- The contacts that wait to be unlocked by each contact's notices. -/
  unlocks : Table String (List String)
  /-- The contacts whose threads wait to be ended. -/
  endings : NameSet
  /-- The tasks on the timeline when progress was last saved. -/
  deliveries : List SavedTask
  notifications : List Notification
  values : Variables
  statuses : Table String String
  nextId : Nat
deriving DecidableEq, Inhabited

namespace Progress

def thread? (p : Progress) (contact : String) : Option ThreadState := p.threads.get? contact

def history (p : Progress) (contact : String) : List Message := p.histories.getD contact []

/-- The thread cannot take choices and may be opened again. -/
def isClosed (p : Progress) (contact : String) : Bool :=
  (p.thread? contact).any (·.isClosed)

/-- The place of a contact at the start of a story. -/
def openContact (p : Progress) (contact : Contact) : Progress :=
  let p := { p with histories := p.histories.insert contact.name [] }
  if contact.initiallyUnlocked then
    { p with
      threads := p.threads.insert contact.name .active
      unlocked := p.unlocked.add contact.name
      rounds := match contact.firstKey? with
        | some key => p.rounds.insert contact.name key
        | none => p.rounds }
  else { p with threads := p.threads.insert contact.name .locked }

def initial (program : Program) (typingDelay : Nat) : Progress :=
  program.inOrder.foldl openContact {
    rounds := ∅
    threads := ∅
    histories := ∅
    unlocked := Table.empty
    viewed := Table.empty
    typingDelay := typingDelay
    unlocks := ∅
    endings := Table.empty
    deliveries := []
    notifications := []
    values := program.defaults
    statuses := ∅
    nextId := 1 }

/-- Drops what belongs to contacts that a program does not have. -/
def restrict (p : Progress) (program : Program) : Progress :=
  let keep {α : Type} (t : Table String α) : Table String α :=
    t.filter fun name _ => program.has name
  { p with
    rounds := keep p.rounds
    threads := keep p.threads
    histories := keep p.histories
    unlocked := keep p.unlocked
    viewed := keep p.viewed
    unlocks := keep p.unlocks
    endings := keep p.endings
    deliveries := p.deliveries.filter fun pending => program.has pending.contact
    statuses := keep p.statuses }

/-- Gives a contact without a thread its initial one. -/
def fillThread (p : Progress) (contact : Contact) : Progress :=
  if p.threads.contains contact.name then p
  else if contact.initiallyUnlocked then
    { p with
      threads := p.threads.insert contact.name .active
      unlocked := p.unlocked.add contact.name }
  else { p with threads := p.threads.insert contact.name .locked }

/-- A round that the contact does not have gives way to the first one, or to none
in a locked thread. -/
def fitRound (p : Progress) (contact : Contact) : Progress :=
  if (p.rounds.get? contact.name).any contact.rounds.contains then p
  else
    let rounds := p.rounds.erase contact.name
    match contact.firstKey? with
    | some key =>
      if p.thread? contact.name = some .locked then { p with rounds := rounds }
      else { p with rounds := rounds.insert contact.name key }
    | none => { p with rounds := rounds }

def fitContact (p : Progress) (contact : Contact) : Progress :=
  let p := p.fillThread contact
  let p := if p.histories.contains contact.name then p
    else { p with histories := p.histories.insert contact.name [] }
  p.fitRound contact

/-- Adds the variables that have no value yet. -/
def fillVariables (values defaults : Variables) : Variables :=
  defaults.insertMany values.toList

/-- Fits progress to a program. -/
def fitTo (p : Progress) (program : Program) : Progress :=
  let p := program.inOrder.foldl fitContact (p.restrict program)
  { p with values := fillVariables p.values program.defaults }

end Progress
end ChatStory
