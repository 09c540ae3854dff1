import ChatStory.Json.Fields
import ChatStory.Queue

/-!
Actions and deliveries in documents.
-/
namespace ChatStory

namespace Value

def toJson : Value → Json
  | bool b => .bool b
  | number x => .real x
  | text s => .text s

def ofJson? : Json → Option Value
  | .bool b => some (.bool b)
  | .text s => some (.text s)
  | j => j.asReal?.map .number

end Value

namespace Pin

def toJson (pin : Pin) : Json :=
  .record [("label", .text pin.label), ("latitude", .ofOption .real pin.latitude),
    ("longitude", .ofOption .real pin.longitude)]

def ofJson? : Json → Option Pin := Json.structure? do
  return {
    label := ← Json.required "label" Json.asText?
    latitude := ← Json.optional "latitude" Json.asReal?
    longitude := ← Json.optional "longitude" Json.asReal? }

end Pin

namespace Effect

/-- The fields of an effect beside its name. -/
def fields : Effect → List (String × Json)
  | unlockContact contact | openThread contact => [("contact", .text contact)]
  | endThread | callEmergency | needCode => []
  | delayedMessage text contact => [("text", .text text), ("contact", .ofOption .text contact)]
  | sendPhoto media caption | sendVideo media caption =>
    [("media", .text media), ("caption", .ofOption .text caption)]
  | dropPin pin => [("location", pin.toJson)]
  | typingIndicator duration | vibrate duration => [("duration", .natural duration)]
  | setTypingDelay delay => [("typing_delay", .natural delay)]
  | showNotification title text => [("title", .ofOption .text title), ("text", .text text)]
  | setContactStatus contact status => [("contact", .text contact), ("status", .text status)]
  | triggerCall number => [("number", .ofOption .text number)]
  | setVariable name value => [("name", .text name), ("value", value.toJson)]

def toJson (e : Effect) : Json := .record (("type", .text e.name) :: e.fields)

/-- Reads the fields of the effect with a name. -/
def reader (name : String) : Json.FieldReader Effect :=
  let text (field : String) := Json.required field Json.asText?
  let optionalText (field : String) := Json.optional field Json.asText?
  let count (field : String) := Json.required field Json.asNatural?
  match name with
  | "unlock_contact" => do return .unlockContact (← text "contact")
  | "end_thread" => Json.noFields .endThread
  | "delayed_message" => do return .delayedMessage (← text "text") (← optionalText "contact")
  | "send_photo" => do return .sendPhoto (← text "media") (← optionalText "caption")
  | "send_video" => do return .sendVideo (← text "media") (← optionalText "caption")
  | "drop_pin" => do return .dropPin (← Json.required "location" Pin.ofJson?)
  | "call_911" => Json.noFields .callEmergency
  | "open_thread" => do return .openThread (← text "contact")
  | "trigger_eli_needs_code" => Json.noFields .needCode
  | "typing_indicator" => do return .typingIndicator (← count "duration")
  | "set_typing_delay" => do return .setTypingDelay (← count "typing_delay")
  | "show_notification" => do return .showNotification (← optionalText "title") (← text "text")
  | "vibrate" => do return .vibrate (← count "duration")
  | "set_contact_status" => do return .setContactStatus (← text "contact") (← text "status")
  | "trigger_emergency_call" => do return .triggerCall (← optionalText "number")
  | "set_variable" => do return .setVariable (← text "name") (← Json.required "value" Value.ofJson?)
  | _ => fun _ => none

def ofJson? (place : Json.Place) (j : Json) : Option Effect := do
  let (name, fields) ← Json.tagged? place "type" names j
  fields.read? (reader name)

end Effect

namespace Action

def toJson (action : Action) : Json :=
  .record [("kind", action.effect.toJson), ("delay", .natural action.delay)]

def ofJson? (place : Json.Place) : Json → Option Action := Json.structure? do
  return {
    effect := ← Json.required "kind" (Effect.ofJson? place.inner)
    delay := ← Json.defaulted "delay" 0 Json.asNatural? }

end Action

namespace Delivery

def names : List String := ["typing", "reply", "payload", "notices"]

def toJson : Delivery → Json
  | typing => .record [("type", .text "typing")]
  | reply text => .record [("type", .text "reply"), ("text", .text text)]
  | payload action => .record [("type", .text "payload"), ("action", action.toJson)]
  | notices => .record [("type", .text "notices")]

def reader (name : String) : Json.FieldReader Delivery :=
  match name with
  | "typing" => Json.noFields .typing
  | "reply" => do return .reply (← Json.required "text" Json.asText?)
  | "payload" => do return .payload (← Json.required "action" (Action.ofJson? .kept))
  | "notices" => Json.noFields .notices
  | _ => fun _ => none

def ofJson? (place : Json.Place) (j : Json) : Option Delivery := do
  let (name, fields) ← Json.tagged? place "type" names j
  fields.read? (reader name)

end Delivery
end ChatStory
