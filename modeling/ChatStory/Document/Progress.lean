import ChatStory.Document.Program
import ChatStory.Progress

/-!
Progress in documents. Every field has its place in a fixed order, and those that came to
the format later may be missing when a document is read.
-/
namespace ChatStory

namespace ThreadState

def toJson (thread : ThreadState) : Json := .text thread.name

def ofJson? (place : Json.Place) (j : Json) : Option ThreadState :=
  match Json.plainName? place j with
  | some "active" => some .active
  | some "locked" => some .locked
  | some "ended" => some .ended
  | _ => none

end ThreadState

namespace MessageKind

def toJson (kind : MessageKind) : Json := .text kind.name

def ofJson? (place : Json.Place) (j : Json) : Option MessageKind :=
  match Json.plainName? place j with
  | some "text" => some .text
  | some "photo" => some .photo
  | some "video" => some .video
  | some "location" => some .location
  | some "typing" => some .typing
  | some "unlock_contact" => some .unlockContact
  | some "end_thread" => some .endThread
  | _ => none

end MessageKind

namespace Message

def toJson (m : Message) : Json :=
  .record ([("id", .text m.id), ("contact", .text m.contact), ("text", .text m.text),
      ("timestamp", .natural m.timestamp), ("fromPlayer", .bool m.fromPlayer),
      ("kind", m.kind.toJson)] ++
    (m.media.map fun media => ("media", .text media)).toList ++
    (m.location.map fun pin => ("location", pin.toJson)).toList ++ [("read", .bool m.read)])

def ofJson? (place : Json.Place) : Json → Option Message := Json.structure? do
  return {
    id := ← Json.required "id" Json.asText?
    contact := ← Json.required "contact" Json.asText?
    text := ← Json.required "text" Json.asText?
    timestamp := ← Json.required "timestamp" Json.asNatural?
    fromPlayer := ← Json.required "fromPlayer" Json.asBool?
    kind := ← Json.required "kind" (MessageKind.ofJson? place)
    media := ← Json.defaulted "media" none (Json.option? Json.asText?)
    location := ← Json.defaulted "location" none (Json.option? Pin.ofJson?)
    read := ← Json.defaulted "read" false Json.asBool? }

end Message

namespace Notification

def toJson (n : Notification) : Json :=
  .record [("contact", .text n.contact), ("title", .ofOption .text n.title),
    ("text", .text n.text), ("timestamp", .natural n.timestamp)]

def ofJson? : Json → Option Notification := Json.structure? do
  return {
    contact := ← Json.required "contact" Json.asText?
    title := ← Json.optional "title" Json.asText?
    text := ← Json.required "text" Json.asText?
    timestamp := ← Json.required "timestamp" Json.asNatural? }

end Notification

namespace SavedTask

def toJson (p : SavedTask) : Json :=
  .record [("contact", .text p.contact), ("fireAt", .natural p.time),
    ("delivery", p.delivery.toJson)]

def ofJson? (place : Json.Place) : Json → Option SavedTask := Json.structure? do
  return {
    contact := ← Json.required "contact" Json.asText?
    time := ← Json.required "fireAt" Json.asNatural?
    delivery := ← Json.required "delivery" (Delivery.ofJson? place.inner) }

end SavedTask

namespace Progress

def toJson (p : Progress) : Json :=
  .record [("currentRounds", .ofTable RoundKey.toJson p.rounds),
    ("threads", .ofTable ThreadState.toJson p.threads),
    ("messages", .ofTable (fun history => .list (history.map Message.toJson)) p.histories),
    ("unlockedContacts", .ofNames p.unlocked),
    ("viewedContacts", .ofNames p.viewed),
    ("globalTypingDelay", .natural p.typingDelay),
    ("pendingUnlocks", .ofTable Json.ofTexts p.unlocks),
    ("pendingEnd", .ofNames p.endings),
    ("pendingDeliveries", .list (p.deliveries.map SavedTask.toJson)),
    ("notifications", .list (p.notifications.map Notification.toJson)),
    ("variables", .ofTable Value.toJson p.values),
    ("contactStatus", .ofTable .text p.statuses),
    ("nextMessageId", .natural p.nextId)]

def ofJson? (place : Json.Place) : Json → Option Progress := Json.structure? do
  let texts := Json.listOf? Json.asText?
  let pending := SavedTask.ofJson? place.inner.inner
  return {
    rounds := ← Json.required "currentRounds" (Json.tableOf? RoundKey.ofJson?)
    threads := ← Json.required "threads" (Json.tableOf? (ThreadState.ofJson? place))
    histories := ← Json.required "messages"
      (Json.tableOf? (Json.listOf? (Message.ofJson? place)))
    unlocked := ← Json.required "unlockedContacts" Json.nameSet?
    viewed := ← Json.required "viewedContacts" Json.nameSet?
    typingDelay := ← Json.required "globalTypingDelay" Json.asNatural?
    unlocks := ← Json.defaulted "pendingUnlocks" ∅ (Json.tableOf? texts)
    endings := ← Json.defaulted "pendingEnd" Table.empty Json.nameSet?
    deliveries := ← Json.defaulted "pendingDeliveries" [] (Json.listOf? pending)
    notifications := ← Json.defaulted "notifications" [] (Json.listOf? Notification.ofJson?)
    values := ← Json.required "variables" (Json.tableOf? Value.ofJson?)
    statuses := ← Json.defaulted "contactStatus" ∅ (Json.tableOf? Json.asText?)
    nextId := ← Json.defaulted "nextMessageId" 0 Json.asNatural? }

end Progress
end ChatStory
