import ChatStory.Message

/-!
What a running story announces, and who hears it. Listeners hear every event in the order in
which they subscribed, from the moment they subscribe until they leave.
-/
namespace ChatStory

inductive Event where
  | messageAdded (message : Message)
  | contactUnlocked (contact : String)
  | threadChanged (contact : String) (thread : ThreadState)
  | variableChanged (name : String) (value : Value)
  | actionExecuted (contact : String) (action : Action)
deriving DecidableEq

structure Bus where
  /-- The numbers of the listeners, in order of subscription. -/
  listeners : List Nat
  nextNumber : Nat
deriving DecidableEq

namespace Bus

def empty : Bus := ⟨[], 0⟩

instance : EmptyCollection Bus := ⟨empty⟩
instance : Inhabited Bus := ⟨empty⟩

/-- The number of the new listener, which no other listener has or had. -/
def subscribe (bus : Bus) : Nat × Bus :=
  (bus.nextNumber, ⟨bus.listeners ++ [bus.nextNumber], bus.nextNumber + 1⟩)

def hears (bus : Bus) (listener : Nat) : Bool := bus.listeners.contains listener

def unsubscribe (bus : Bus) (listener : Nat) : Bus :=
  { bus with listeners := bus.listeners.filter (· != listener) }

/-- Who hears what when events are announced one after the other. -/
def announce (bus : Bus) (events : List Event) : List (Nat × Event) :=
  events.flatMap fun event => bus.listeners.map (·, event)

def display (bus : Bus) : String :=
  "EventBus \x7b listeners: " ++ toString bus.listeners.length ++ " \x7d"

theorem not_hears_unsubscribe (bus : Bus) (listener : Nat) :
    (bus.unsubscribe listener).hears listener = false := by
  simp [hears, unsubscribe]

end Bus
end ChatStory
