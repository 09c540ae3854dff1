import ChatStory.Fault
import ChatStory.Scenario.Case

/-!
Why a test case could not be run, or failed.
-/
namespace ChatStory.Scenario

inductive CaseFault where
  | unreadableFile (path : String)
  | unreadableCase (path : String)
  | foreignCase (schema : String)
  | noScripts (path : String)
  | refused (fault : Fault)
  | rejectedChoice (step : Nat) (contact : String) (index : Nat)
  | otherCount (expected : Nat) (observed : List Observation)
  | otherEvent (index : Nat) (expected actual : Observation)
  | otherThread (contact : String) (expected : ThreadState) (actual : Option ThreadState)
deriving DecidableEq

namespace CaseFault

def name : CaseFault → String
  | unreadableFile _ => "ReadFile"
  | unreadableCase _ => "ParseCase"
  | foreignCase _ => "InvalidSchemaVersion"
  | noScripts _ => "SourceEmpty"
  | refused _ => "Engine"
  | rejectedChoice .. => "ChoiceRejected"
  | otherCount .. => "EventCountMismatch"
  | otherEvent .. => "EventMismatch"
  | otherThread .. => "FinalThreadMismatch"

def message : CaseFault → String
  | unreadableFile path => "Failed to read file " ++ path
  | unreadableCase path => "Failed to parse testcase " ++ path
  | foreignCase schema =>
    "Invalid testcase schema version " ++ inQuotes schema ++ ", expected " ++
      inQuotes Case.schema ++ "."
  | noScripts path => "No .twee files under " ++ path ++ "."
  | refused fault => "Engine error: " ++ fault.display
  | rejectedChoice step contact index =>
    "Action " ++ toString step ++ " rejected: no choice " ++ toString index ++ " for contact " ++
      inQuotes contact ++ "."
  | otherCount expected observed =>
    "Expected event count " ++ toString expected ++ ", actual " ++ toString observed.length ++
      ". observed=" ++ Json.pretty (.list (observed.map Observation.toJson))
  | otherEvent index expected actual =>
    "Event mismatch at index " ++ toString index ++ ". expected=" ++ expected.toJson.render ++
      " actual=" ++ actual.toJson.render
  | otherThread contact expected actual =>
    "Final thread state mismatch for " ++ inQuotes contact ++ ": expected " ++ expected.name ++
      ", actual " ++ (actual.map ThreadState.name).getD "missing" ++ "."

end CaseFault
end ChatStory.Scenario
