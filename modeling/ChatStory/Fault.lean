import ChatStory.Diagnostic

/-!
Why an operation was refused. A fault is a cause with its particulars; its code and its wording
are given here. Messages about files end where the reason of the system would follow.
-/
namespace ChatStory

/-- The calls that a store may refuse. -/
inductive StoreCall where
  | read
  | write
  | clear
deriving DecidableEq

def StoreCall.name : StoreCall → String
  | read => "read"
  | write => "write"
  | clear => "clear"

inductive Fault where
  | script (diagnostic : Diagnostic)
  | invalidRoundKey (source : String)
  | invalidDocument
  | unsupportedSchema (schema : String)
  | refusedCall (call : StoreCall)
  | unreadableStore
  | unwritableStore
  | unreadableSource (path : String)
  | missingScript (path : String)
  | emptyScript (path : String)
  | unreadableScript (path : String)
  | missingState (path : String)
  | unreadableState (path : String)
  | unwritableState (path : String)
  | invalidState (path : String)
  | foreignState (path schema : String)
  | rejectedChoice (index : Nat) (contact : String)
deriving DecidableEq

/-- The schema of a document that holds the state of a player. -/
def playerSchema : String := "threadscript-player.v1"

namespace Fault

def code : Fault → String
  | script diagnostic => diagnostic.code
  | invalidRoundKey _ => "ROUND_KEY_INVALID"
  | invalidDocument => "STORE_INVALID"
  | unsupportedSchema _ => "STORE_SCHEMA"
  | refusedCall _ => "TEST_STORE"
  | unreadableStore => "STORE_READ"
  | unwritableStore => "STORE_WRITE"
  | unreadableSource _ => "API_SOURCE_READ"
  | missingScript _ => "CLI_SOURCE_NOT_FOUND"
  | emptyScript _ => "CLI_SOURCE_EMPTY"
  | unreadableScript _ => "CLI_SOURCE_READ"
  | missingState _ => "CLI_STATE_NOT_FOUND"
  | unreadableState _ => "CLI_STATE_READ"
  | unwritableState _ => "CLI_STATE_WRITE"
  | invalidState _ => "CLI_STATE_INVALID"
  | foreignState .. => "CLI_STATE_SCHEMA"
  | rejectedChoice .. => "CLI_CHOICE_REJECTED"

def message : Fault → String
  | script diagnostic => diagnostic.message
  | invalidRoundKey source => RoundKey.invalidMessage source
  | invalidDocument | unreadableStore | unwritableStore => ""
  | unsupportedSchema schema => "Unsupported state schema: " ++ schema
  | refusedCall call => call.name ++ " failed"
  | unreadableSource path => "Cannot read " ++ inQuotes path ++ ":"
  | missingScript path => "script does not exist: " ++ path
  | emptyScript path => "No .twee files under " ++ path
  | unreadableScript path => "Cannot read script " ++ inQuotes path ++ ":"
  | missingState path => "State file does not exist: " ++ path
  | unreadableState path => "Cannot read state file " ++ inQuotes path ++ ":"
  | unwritableState path => "Cannot write state file " ++ inQuotes path ++ ":"
  | invalidState path => "State file " ++ inQuotes path ++ " is not valid:"
  | foreignState path schema =>
    "State file " ++ inQuotes path ++ " has schema " ++ inQuotes schema ++ "; expected " ++
      inQuotes playerSchema ++ "."
  | rejectedChoice index contact =>
    "Choice " ++ toString index ++ " is not available for contact " ++ inQuotes contact ++ "."

/-- The line of the script to which a fault points. -/
def line? : Fault → Option Nat
  | script diagnostic => diagnostic.line
  | _ => none

def display (fault : Fault) : String := Report.brief fault.code fault.message

end Fault
end ChatStory
