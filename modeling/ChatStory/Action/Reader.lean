import ChatStory.Action
import ChatStory.Action.Params
import ChatStory.Diagnostic
import ChatStory.Text.Digit

/-!
Reading the inside of `[Action: ...]`: the kind, an optional delay anywhere among
the parameters, and the parameters. A problem with the delay leaves the action
without one; any other problem drops it.
-/
namespace ChatStory.Action

/-- How long a typing bubble stays by default. -/
def defaultTyping : Nat := 400

/-- How long a vibration lasts by default. -/
def defaultVibration : Nat := 200

/-- Follows the quotes of a parameter text. A quote opens only where a value can start: at
the beginning, after a comma or after a colon. -/
def quoteStep (state : Option Char × Option Char) (c : Char) : Option Char × Option Char :=
  let (quote, previous) := state
  let quote := match quote with
    | some mark => if c == mark then none else some mark
    | none =>
      if Params.isQuote c && (previous == none || previous == some ',' || previous == some ':') then
        some c
      else none
  (quote, if Text.isBlank c then previous else some c)

/-- The text ends inside a quoted value. -/
def endsQuoted (cs : List Char) : Bool := (cs.foldl quoteStep (none, none)).1.isSome

def dropQuote : List Char → List Char
  | c :: cs => if Params.isQuote c then cs else c :: cs
  | [] => []

/-- Reads `delay: n` with optional quotes around the number and a comma behind it. -/
def delayHere? (cs : List Char) : Option (List Char × List Char) := do
  let rest ← Text.afterKeyword "delay".toList cs
  match Text.dropBlank rest with
  | ':' :: rest =>
    let number := dropQuote (Text.dropBlank rest)
    let (sign, body) := match number with
      | '-' :: body => (['-'], body)
      | _ => ([], number)
    let digits := body.takeWhile Text.isDigit
    if digits.isEmpty then none
    else
      let rest := Text.dropBlank (dropQuote (body.dropWhile Text.isDigit))
      let rest := match rest with
        | ',' :: rest => rest
        | _ => rest
      return (sign ++ digits, rest)
  | _ => none

/-- The delay stands at the start of the text, or after a blank or a comma. -/
def delayAt? (atStart : Bool) (cs : List Char) : Option (List Char × List Char) :=
  (if atStart then delayHere? cs else none).or <|
    match cs with
    | c :: rest => if Text.isBlank c || c == ',' then delayHere? rest else none
    | [] => none

/-- Finds the first delay outside quoted values. Gives its number and the text with a
space in its place. -/
def takeDelay? (before : List Char) : List Char → Option (List Char × List Char)
  | [] => none
  | c :: cs =>
    match delayAt? before.isEmpty (c :: cs) with
    | some (number, after) =>
      if !endsQuoted before then some (number, before ++ ' ' :: after)
      else if after.length < (c :: cs).length then
        takeDelay? (before ++ (c :: cs).take ((c :: cs).length - after.length)) after
      else takeDelay? (before ++ [c]) cs
    | none => takeDelay? (before ++ [c]) cs
termination_by cs => cs.length
decreasing_by all_goals simp only [List.length_cons] at *; omega

def dropCommas (cs : List Char) : List Char :=
  ((cs.dropWhile (· == ',')).reverse.dropWhile (· == ',')).reverse

/-- A time in milliseconds. -/
def millis? (kind field : String) (raw : Option String) (default : Nat) : Except Finding Nat :=
  match raw with
  | none => .ok default
  | some raw => match Decimal.word? (Text.trim raw.toList) with
    | some n => .ok n
    | none => .error (.invalidField kind field raw)

def coordinate? (kind field : String) (raw : Option String) : Except Finding (Option Float) :=
  match raw with
  | none => .ok none
  | some raw => match Decimal.float? (Text.trim raw.toList) with
    | some x => .ok (some x)
    | none => .error (.invalidField kind field raw)

def require (kind field : String) (value : Option String) : Except Finding String :=
  match value with
  | some value => .ok value
  | none => .error (.missingField kind field)

def dropDollars (cs : List Char) : List Char := cs.dropWhile (· == '$')

def notification? (params : Params) : Except Finding Effect :=
  let (title, text) := match params.get? ["text", "message", "body"], params.positional with
    | some text, _ => (params.get? ["title"], text)
    | none, title :: text :: more => (some title, ", ".intercalate (text :: more))
    | none, positional => (params.get? ["title"], positional.headD "")
  if text = "" then .error (.missingField "show_notification" "text")
  else .ok (.showNotification title text)

/-- An assignment is written `$name to value` in the only positional item, or as two fields. -/
def assignment? (params : Params) : Except Finding Effect :=
  let phrase := match params.positional with
    | [single] => Text.cutFirst " to ".toList single.toList
    | _ => none
  match phrase with
  | some (name, value) =>
    .ok (.setVariable (String.ofList (dropDollars (Text.trim name))) (.ofLiteral value))
  | none => do
    let name ← require "set_variable" "name" (params.field? ["name", "variable", "var"] 0)
    let value ← require "set_variable" "value" (params.field? ["value", "to"] 1)
    return .setVariable (String.ofList (dropDollars name.toList)) (.ofLiteral value.toList)

def effect? (kind : String) (params : Params) : Except Finding Effect := do
  let contact := require kind "contact" (params.field? ["contact", "name"] 0)
  let media := require kind "media"
    (params.field? ["media", "url", "src", "file", "photo", "video"] 0)
  match kind with
  | "unlock_contact" => return .unlockContact (← contact)
  | "open_thread" => return .openThread (← contact)
  | "end_thread" => return .endThread
  | "call_911" => return .callEmergency
  | "trigger_eli_needs_code" => return .needCode
  | "delayed_message" =>
    return .delayedMessage (← require kind "text" (params.joined? ["text", "message"]))
      (params.get? ["contact"])
  | "send_photo" => return .sendPhoto (← media) (params.field? ["caption"] 1)
  | "send_video" => return .sendVideo (← media) (params.field? ["caption"] 1)
  | "drop_pin" =>
    return .dropPin {
      label := ← require kind "label" (params.field? ["label", "name", "location"] 0)
      latitude := ← coordinate? kind "latitude" (params.field? ["lat", "latitude"] 1)
      longitude := ← coordinate? kind "longitude" (params.field? ["lng", "lon", "longitude"] 2) }
  | "typing_indicator" =>
    return .typingIndicator (← millis? kind "duration" (params.field? ["duration"] 0) defaultTyping)
  | "set_typing_delay" =>
    let raw ← require kind "typing_delay" (params.field? ["typing_delay", "ms", "value"] 0)
    return .setTypingDelay (← millis? kind "typing_delay" (some raw) 0)
  | "show_notification" => notification? params
  | "vibrate" =>
    return .vibrate (← millis? kind "duration" (params.field? ["duration"] 0) defaultVibration)
  | "set_contact_status" =>
    return .setContactStatus (← contact) (← require kind "status" (params.field? ["status"] 1))
  | "trigger_emergency_call" => return .triggerCall (params.field? ["number", "phone"] 0)
  | "set_variable" => assignment? params
  | _ => throw (.unknownAction kind)

/-- An action, if one could be read, and the findings on the way. -/
structure Outcome where
  action : Option Action
  findings : List Finding

def isKindChar (c : Char) : Bool := c.isAlphanum || c == '_'

def read (source : List Char) : Outcome :=
  let source := Text.trim source
  let kind := String.ofList (Text.lower (source.takeWhile isKindChar))
  if kind = "" then ⟨none, [.namelessAction (String.ofList source)]⟩
  else
    let rest := match Text.dropBlank (source.dropWhile isKindChar) with
      | ':' :: rest => rest
      | rest => rest
    let (delay, findings, params) := match takeDelay? [] rest with
      | none => (0, [], rest)
      | some (number, params) => match Decimal.word? number with
        | some delay => (delay, [], params)
        | none => (0, [.invalidDelay kind (String.ofList number)], params)
    match effect? kind (.read (dropCommas (Text.trim params))) with
    | .ok effect => ⟨some ⟨effect, delay⟩, findings⟩
    | .error finding => ⟨none, findings ++ [finding]⟩

end ChatStory.Action
