import ChatStory.Decimal.Reading
import ChatStory.Table

/-!
The command line: a command, and options in any order. An option is written `--name value` or
`--name=value`, at most once; a value that stands alone does not look like an option.
-/
namespace ChatStory

inductive Command where
  | compile (script : String)
  | start (script stateOut : String) (typingDelay : Option Nat)
  | choose (stateIn contact : String) (choice : Nat) (stateOut : String)
  | setVariable (stateIn name value stateOut : String)
deriving DecidableEq

namespace Command

/-- Why arguments are no command: help was asked for, or they are wrong. -/
inductive Usage where
  | help
  | wrong
deriving DecidableEq

/-- The options of a command. -/
structure Shape where
  names : List String
  /-- Options whose values are whole numbers. -/
  numbers : List String

namespace Shape

def accepts (shape : Shape) (name value : String) : Bool :=
  !shape.numbers.contains name || (Decimal.word? value.toList).isSome

end Shape

/-- An argument that starts with a hyphen, other than the hyphen alone. -/
def looksLikeOption : List Char → Bool
  | '-' :: _ :: _ => true
  | _ => false

/-- The name of a long option and the value attached to it. -/
def splitOption (cs : List Char) : String × Option String :=
  match Text.cutFirst ['='] cs with
  | some (name, value) => (String.ofList name, some (String.ofList value))
  | none => (String.ofList cs, none)

/-- An argument that takes no value: a wish for help, or nothing known. -/
def flag : List Char → Usage
  | '-' :: 'h' :: _ => .help
  | cs => if cs = "--help".toList then .help else .wrong

/-- Reads options, each of which was not given before. -/
def readOptions (shape : Shape) (given : Table String String) :
    List String → Except Usage (Table String String)
  | [] => .ok given
  | arg :: rest =>
    match arg.toList with
    | ['-', '-'] => if rest.isEmpty then .ok given else .error .wrong
    | '-' :: '-' :: long =>
      let (name, attached) := splitOption long
      if !shape.names.contains name then .error (flag arg.toList)
      else if given.contains name then .error .wrong
      else match attached, rest with
        | some value, rest =>
          if shape.accepts name value then readOptions shape (given.insert name value) rest
          else .error .wrong
        | none, value :: rest =>
          if !looksLikeOption value.toList && shape.accepts name value then
            readOptions shape (given.insert name value) rest
          else .error .wrong
        | none, [] => .error .wrong
    | cs => .error (flag cs)

/-- Reads the options of a command and makes it of them. -/
def readWith (shape : Shape) (args : List String)
    (make : (String → Option String) → (String → Option Nat) → Option Command) :
    Except Usage Command := do
  let given ← readOptions shape ∅ args
  let number (name : String) := (given.get? name).bind fun value => Decimal.word? value.toList
  match make given.get? number with
  | some command => .ok command
  | none => .error .wrong

def readCompile (args : List String) : Except Usage Command :=
  readWith ⟨["script"], []⟩ args fun text _ => do return .compile (← text "script")

def readStart (args : List String) : Except Usage Command :=
  readWith ⟨["script", "state-out", "typing-delay"], ["typing-delay"]⟩ args fun text number => do
    return .start (← text "script") (← text "state-out") (number "typing-delay")

def readChoose (args : List String) : Except Usage Command :=
  readWith ⟨["state-in", "contact", "choice", "state-out"], ["choice"]⟩ args fun text number => do
    return .choose (← text "state-in") (← text "contact") (← number "choice") (← text "state-out")

def readSetVariable (args : List String) : Except Usage Command :=
  readWith ⟨["state-in", "name", "value", "state-out"], []⟩ args fun text _ => do
    return .setVariable (← text "state-in") (← text "name") (← text "value") (← text "state-out")

/-- The commands for which help can be asked by name. -/
def helpTopics : List (List String) :=
  [[], ["compile"], ["agent"], ["agent", "start"], ["agent", "choose"], ["agent", "set-var"],
   ["help"], ["agent", "help"]]

def helpOn (topic : List String) : Usage := if helpTopics.contains topic then .help else .wrong

def readAgent : List String → Except Usage Command
  | "start" :: args => readStart args
  | "choose" :: args => readChoose args
  | "set-var" :: args => readSetVariable args
  | "help" :: topic => .error (helpOn ("agent" :: topic))
  | arg :: _ => .error (flag arg.toList)
  | [] => .error .wrong

def read : List String → Except Usage Command
  | "compile" :: args => readCompile args
  | "agent" :: args => readAgent args
  | "help" :: topic => .error (helpOn topic)
  | arg :: _ => .error (flag arg.toList)
  | [] => .error .wrong

end Command
end ChatStory
