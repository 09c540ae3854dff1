import ChatStory.Document.Progress
import ChatStory.Event
import ChatStory.Json.Writer

/-!
Test cases: what a player does, what should be observed on the way, and the states in which
threads should end. A case is a document.
-/
namespace ChatStory.Scenario

inductive Step where
  | choose (contact : String) (index : Nat)
  | setVariable (name : String) (value : Value)
deriving DecidableEq

inductive Observation where
  | message (contact text : String) (fromPlayer : Bool)
  | unlocked (contact : String)
  | thread (contact : String) (state : ThreadState)
deriving DecidableEq

structure Case where
  typingDelay : Nat
  steps : List Step
  expected : List Observation
  finals : Table String ThreadState
deriving DecidableEq

namespace Step

def names : List String := ["choose", "setVariable"]

def name : Step → String
  | choose .. => "choose"
  | setVariable .. => "setVariable"

def toJson : Step → Json
  | choose contact index =>
    .record [("kind", .text "choose"), ("contact", .text contact), ("index", .natural index)]
  | setVariable name value =>
    .record [("kind", .text "setVariable"), ("name", .text name), ("value", value.toJson)]

def reader (name : String) : Json.FieldReader Step :=
  match name with
  | "choose" => do
    return .choose (← Json.required "contact" Json.asText?)
      (← Json.required "index" Json.asNatural?)
  | "setVariable" => do
    return .setVariable (← Json.required "name" Json.asText?)
      (← Json.required "value" Value.ofJson?)
  | _ => fun _ => none

def ofJson? (place : Json.Place) (j : Json) : Option Step := do
  let (name, fields) ← Json.tagged? place "kind" names j
  fields.read? (reader name)

end Step

namespace Observation

def names : List String := ["message", "unlocked", "thread"]

/-- What is observed of an event: delivered messages, unlocks and changes of threads. -/
def ofEvent? : Event → Option Observation
  | .messageAdded m =>
    if m.kind = .typing then none else some (.message m.contact m.text m.fromPlayer)
  | .contactUnlocked contact => some (.unlocked contact)
  | .threadChanged contact state => some (.thread contact state)
  | _ => none

def toJson : Observation → Json
  | message contact text fromPlayer =>
    .record [("kind", .text "message"), ("contact", .text contact), ("text", .text text),
      ("fromPlayer", .bool fromPlayer)]
  | unlocked contact => .record [("kind", .text "unlocked"), ("contact", .text contact)]
  | thread contact state =>
    .record [("kind", .text "thread"), ("contact", .text contact), ("state", state.toJson)]

def reader (name : String) : Json.FieldReader Observation :=
  let contact := Json.required "contact" Json.asText?
  match name with
  | "message" => do
    return .message (← contact) (← Json.required "text" Json.asText?)
      (← Json.defaulted "fromPlayer" false Json.asBool?)
  | "unlocked" => do return .unlocked (← contact)
  | "thread" => do
    return .thread (← contact) (← Json.required "state" (ThreadState.ofJson? .kept))
  | _ => fun _ => none

def ofJson? (place : Json.Place) (j : Json) : Option Observation := do
  let (name, fields) ← Json.tagged? place "kind" names j
  fields.read? (reader name)

end Observation

namespace Case

def schema : String := "threadscript-case.v1"

def toJson (c : Case) : Json :=
  .record [("schemaVersion", .text schema), ("typingDelayMs", .natural c.typingDelay),
    ("actions", .list (c.steps.map Step.toJson)),
    ("expectedEvents", .list (c.expected.map Observation.toJson)),
    ("finalThreads", .ofTable ThreadState.toJson c.finals)]

/-- The schema that a document names and the case that it holds. -/
def read? : Json → Option (String × Case) := Json.structure? do
  let found ← Json.required "schemaVersion" Json.asText?
  let c : Case := {
    typingDelay := ← Json.defaulted "typingDelayMs" 0 Json.asNatural?
    steps := ← Json.defaulted "actions" [] (Json.listOf? (Step.ofJson? (.direct 2)))
    expected := ← Json.defaulted "expectedEvents" []
      (Json.listOf? (Observation.ofJson? (.direct 2)))
    finals := ← Json.defaulted "finalThreads" ∅ (Json.tableOf? (ThreadState.ofJson? (.direct 2))) }
  return (found, c)

end Case
end ChatStory.Scenario
