import ChatStory.Value

/-!
Actions of a script: an effect, and the delay after which it takes place.
-/
namespace ChatStory

structure Pin where
  label : String
  latitude : Option Float
  longitude : Option Float
deriving DecidableEq

inductive Effect where
  | unlockContact (contact : String)
  | endThread
  | delayedMessage (text : String) (contact : Option String)
  | sendPhoto (media : String) (caption : Option String)
  | sendVideo (media : String) (caption : Option String)
  | dropPin (pin : Pin)
  | callEmergency
  | openThread (contact : String)
  | needCode
  | typingIndicator (duration : Nat)
  | setTypingDelay (delay : Nat)
  | showNotification (title : Option String) (text : String)
  | vibrate (duration : Nat)
  | setContactStatus (contact status : String)
  | triggerCall (number : Option String)
  | setVariable (name : String) (value : Value)
deriving DecidableEq

structure Action where
  effect : Effect
  delay : Nat := 0
deriving DecidableEq

namespace Effect

/-- The names of all effects, as scripts and documents write them. -/
def names : List String :=
  ["unlock_contact", "end_thread", "delayed_message", "send_photo", "send_video", "drop_pin",
   "call_911", "open_thread", "trigger_eli_needs_code", "typing_indicator", "set_typing_delay",
   "show_notification", "vibrate", "set_contact_status", "trigger_emergency_call", "set_variable"]

def name : Effect → String
  | unlockContact _ => "unlock_contact"
  | endThread => "end_thread"
  | delayedMessage .. => "delayed_message"
  | sendPhoto .. => "send_photo"
  | sendVideo .. => "send_video"
  | dropPin _ => "drop_pin"
  | callEmergency => "call_911"
  | openThread _ => "open_thread"
  | needCode => "trigger_eli_needs_code"
  | typingIndicator _ => "typing_indicator"
  | setTypingDelay _ => "set_typing_delay"
  | showNotification .. => "show_notification"
  | vibrate _ => "vibrate"
  | setContactStatus .. => "set_contact_status"
  | triggerCall _ => "trigger_emergency_call"
  | setVariable .. => "set_variable"

theorem name_mem_names (e : Effect) : e.name ∈ names := by
  cases e <;> simp [name, names]

/-- The effect is held back and takes place after the next reply. -/
def isHeldBack : Effect → Bool
  | unlockContact _ | endThread => true
  | _ => false

/-- The effect puts a new bubble into the thread. -/
def isBubble : Effect → Bool
  | delayedMessage .. | sendPhoto .. | sendVideo .. | dropPin _ | typingIndicator _ => true
  | _ => false

theorem not_heldBack_of_bubble {e : Effect} (h : e.isBubble = true) : e.isHeldBack = false := by
  cases e <;> simp_all [isBubble, isHeldBack]

end Effect
end ChatStory
