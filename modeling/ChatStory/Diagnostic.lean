import ChatStory.Report
import ChatStory.RoundKey

/-!
What a script can be found guilty of. A finding is a cause with its particulars; its code and its
wording are given here and nowhere else. A diagnostic adds the line, if there is one.
-/
namespace ChatStory

inductive Finding where
  | malformedHeader (header : String)
  | untitledHeader
  | strayPreamble
  | unreadableMetadata (title : String)
  | unterminatedLink
  | unreadableCondition (source : String)
  | unreadableAssignment (source : String)
  | unsupportedMacro (name : String)
  | extraEmbeddedAction
  | namelessAction (source : String)
  | unknownAction (name : String)
  | invalidDelay (action delay : String)
  | missingField (action field : String)
  | invalidField (action field value : String)
  | invalidRoundKey (title key : String)
  | notRoundTitle (title : String)
  | unreadableStoryData
  | duplicateRound (key : RoundKey) (contact : String)
  | missingTarget (choice round target contact : String) (key : RoundKey)
deriving DecidableEq

/-- A text in double quotes, as messages show it. -/
def inQuotes (s : String) : String := "\"" ++ s ++ "\""

def RoundKey.invalidMessage (source : String) : String := inQuotes source ++ " is not a round key."

namespace Finding

def code : Finding → String
  | malformedHeader _ => "PASSAGE_HEADER_INVALID"
  | untitledHeader => "PASSAGE_TITLE_EMPTY"
  | strayPreamble => "PASSAGE_PREAMBLE_IGNORED"
  | unreadableMetadata _ => "PASSAGE_METADATA_INVALID"
  | unterminatedLink => "CHOICE_UNTERMINATED"
  | unreadableCondition _ => "CONDITION_INVALID"
  | unreadableAssignment _ => "SET_INVALID"
  | unsupportedMacro _ => "MACRO_UNSUPPORTED"
  | extraEmbeddedAction => "CHOICE_ACTION_DUPLICATE"
  | namelessAction _ => "ACTION_KIND_MISSING"
  | unknownAction _ => "ACTION_KIND_UNKNOWN"
  | invalidDelay .. => "ACTION_DELAY_INVALID"
  | missingField .. => "ACTION_PARAM_MISSING"
  | invalidField .. => "ACTION_PARAM_INVALID"
  | invalidRoundKey .. => "ROUND_KEY_INVALID"
  | notRoundTitle _ => "ROUND_TITLE_INVALID"
  | unreadableStoryData => "STORY_DATA_INVALID"
  | duplicateRound .. => "ROUND_KEY_DUPLICATE"
  | missingTarget .. => "CHOICE_TARGET_MISSING"

def message : Finding → String
  | malformedHeader header => "Malformed passage header " ++ inQuotes header ++ "."
  | untitledHeader => "Passage header has no title."
  | strayPreamble => "Text before the first passage header is ignored."
  | unreadableMetadata title => "Passage " ++ inQuotes title ++ " has unreadable metadata:"
  | unterminatedLink => "Link \"[[\" is never closed; kept as text."
  | unreadableCondition source =>
    "Cannot read condition " ++ inQuotes source ++ "; block hidden."
  | unreadableAssignment source => "Cannot read assignment " ++ inQuotes source ++ "."
  | unsupportedMacro name =>
    "Macro " ++ inQuotes ("(" ++ name ++ ":)") ++ " is not supported; kept as text."
  | extraEmbeddedAction => "Only the first embedded action of a choice is kept."
  | namelessAction source => "Action " ++ inQuotes source ++ " has no kind."
  | unknownAction name => "Unknown action kind " ++ inQuotes name ++ "; action dropped."
  | invalidDelay action delay =>
    "Action " ++ inQuotes action ++ " has invalid delay " ++ inQuotes delay ++ "; using 0."
  | missingField action field =>
    "Action " ++ inQuotes action ++ " requires " ++ inQuotes field ++ "."
  | invalidField action field value =>
    "Action " ++ inQuotes action ++ " has invalid " ++ field ++ " " ++ inQuotes value ++ "."
  | invalidRoundKey title key =>
    "Passage " ++ inQuotes title ++ " has an invalid round key (" ++
      RoundKey.invalidMessage key ++ "); ignored."
  | notRoundTitle title =>
    "Passage " ++ inQuotes title ++ " is not named <Contact>-Round-<N>; ignored."
  | unreadableStoryData => "StoryData is not valid JSON:"
  | duplicateRound key contact =>
    "Round " ++ key.display ++ " of " ++ inQuotes contact ++
      " is defined more than once; the first definition is kept."
  | missingTarget choice round target contact key =>
    "Choice " ++ inQuotes choice ++ " in " ++ inQuotes round ++ " targets " ++ inQuotes target ++
      ", but " ++ contact ++ " has no round " ++ key.display ++ "."

end Finding

structure Diagnostic where
  finding : Finding
  line : Option Nat
deriving DecidableEq

def Finding.at (finding : Finding) (line : Nat) : Diagnostic := ⟨finding, some line⟩

namespace Diagnostic

def code (d : Diagnostic) : String := d.finding.code

def message (d : Diagnostic) : String := d.finding.message

def report (d : Diagnostic) : Report := ⟨d.code, d.message, d.line.map .lineStart⟩

end Diagnostic
end ChatStory
