import ChatStory.Command.Arguments
import ChatStory.Command.Source
import ChatStory.Document.Player
import ChatStory.Session.Loading

/-!
Running commands. A command prints lines, each of which starts with what it tells of, and ends
with a code. Between commands everything is kept in the player's state file.
-/
namespace ChatStory.Command

variable {m : Type → Type} [Monad m] [Files m]

def jsonText (s : String) : String := Json.render (.text s)

/-- What a command prints, and the code with which it ends. -/
structure Outcome where
  lines : List String
  code : Nat
deriving DecidableEq

namespace Outcome

def done (lines : List String) : Outcome := ⟨"RESULT:OK" :: lines, 0⟩

def failed (fault : Fault) : Outcome :=
  ⟨["RESULT:ERROR", "ERROR_CODE:" ++ fault.code] ++
    (fault.line?.map fun line => "ERROR_LINE:" ++ toString line).toList ++
    ["ERROR_MSG_JSON:" ++ jsonText fault.message], 1⟩

def ofExcept : Except Fault (List String) → Outcome
  | .ok lines => done lines
  | .error fault => failed fault

end Outcome

def contactLine (contact : Contact) : String :=
  "CONTACT:" ++ contact.name ++ "|" ++ toString contact.rounds.size ++ "|" ++
    if contact.initiallyUnlocked then "unlocked" else "locked"

def warningLine (d : Diagnostic) : String :=
  "WARNING:" ++ d.code ++ "|" ++ (d.line.map toString).getD "-" ++ "|" ++ jsonText d.message

def compileLines (source : String) : Except Fault (List String) := do
  let (program, warnings) ← Session.programOf source
  return program.inOrder.map contactLine ++ warnings.map warningLine

/-- Who speaks in a message. -/
def speaker (message : Message) : String :=
  if message.fromPlayer then "player"
  else match message.kind with
    | .unlockContact | .endThread => "system"
    | _ => "contact"

def messageLine (message : Message) : String :=
  "MESSAGE:" ++ message.contact ++ "|" ++ speaker message ++ "|" ++ jsonText message.text

/-- The number of messages of each contact before a command. -/
abbrev Baseline := Table String Nat

def Baseline.of (p : Progress) : Baseline := p.histories.map List.length

/-- The messages that came after the baseline, by time; contacts of one time in the order of
the program. -/
def newMessages (s : Session) (baseline : Baseline) : List Message :=
  (s.play.program.order.flatMap fun contact =>
    (s.play.progress.history contact).drop (baseline.getD contact 0)).mergeSort
    fun a b => a.timestamp ≤ b.timestamp

def threadLines (s : Session) (contact : String) : List String :=
  let state := (s.play.progress.thread? contact).getD .locked
  ("THREAD:" ++ contact ++ "|" ++ state.name) ::
    (s.play.choices contact).mapIdx fun index choice =>
      "CHOICE:" ++ contact ++ "|" ++ toString index ++ "|" ++ jsonText choice.text

/-- What a player sees after a command: the new messages, and what every open thread offers. -/
def boundaryLines (s : Session) (baseline : Baseline) (stateOut : String) : List String :=
  (newMessages s baseline).map messageLine ++ s.unlockedNames.flatMap (threadLines s) ++
    ["STATE_OUT:" ++ stateOut]

/-- Writes the state beside its path first, so that no half of it can be read there. -/
def savePlayer (path : String) (player : Player) : m (Except Fault Unit) := do
  let parent := (Path.parent? path).getD ""
  let made ← if parent = "" then pure (.ok ()) else Files.makeDirectories parent
  match made with
  | .error _ => return .error (.unwritableState parent)
  | .ok () =>
    let staging := path ++ ".tmp"
    match ← Files.write staging player.encode with
    | .error _ => return .error (.unwritableState staging)
    | .ok () =>
      match ← Files.rename staging path with
      | .error _ => return .error (.unwritableState path)
      | .ok () => return .ok ()

def loadPlayer (path : String) : m (Except Fault Player) := do
  match ← Files.read path with
  | .error .missing => return .error (.missingState path)
  | .error .blocked => return .error (.unreadableState path)
  | .ok document => return Player.decode path document

/-- Saves the state and tells what the player sees. -/
def finish (s : Session) (baseline : Baseline) (script stateOut : String) :
    m (Except Fault (List String)) := do
  return (← savePlayer stateOut ⟨script, s.play.progress⟩).map fun () =>
    boundaryLines s baseline stateOut

def startStory (script stateOut : String) (typingDelay : Option Nat) (now : Nat) :
    m (Except Fault (List String)) := do
  let options : Options := { typingDelay := typingDelay.getD ({} : Options).typingDelay }
  match ← readScript script with
  | .error fault => return .error fault
  | .ok found =>
    match Session.create found.source options .empty now with
    | .error fault => return .error fault
    | .ok loaded => finish loaded.session.flush.1 ∅ found.path stateOut

/-- Takes a step in a saved story, with everything on the timeline settled before and after. -/
def runStep (stateIn stateOut : String) (now : Nat) (step : Session → Except Fault Session) :
    m (Except Fault (List String)) := do
  match ← loadPlayer stateIn with
  | .error fault => return .error fault
  | .ok player =>
    match ← readScript player.script with
    | .error fault => return .error fault
    | .ok found =>
      let resumed := (Session.resume found.source player.progress {} .empty now).2
      match resumed.bind fun loaded => step loaded.session.flush.1 with
      | .error fault => return .error fault
      | .ok s => finish s.flush.1 (.of player.progress) player.script stateOut

def run (now : Nat) : Command → m (Except Fault (List String))
  | .compile script => do return (← readScript script).bind fun found => compileLines found.source
  | .start script stateOut typingDelay => startStory script stateOut typingDelay now
  | .choose stateIn contact choice stateOut =>
    runStep stateIn stateOut now fun s =>
      match s.choose contact choice now with
      | some after => .ok after
      | none => .error (.rejectedChoice choice contact)
  | .setVariable stateIn name value stateOut =>
    runStep stateIn stateOut now fun s =>
      .ok (s.setVariable name (.ofLiteral value.toList) now)

/-- Runs a command line. One that is no command prints nothing here. -/
def execute (args : List String) (now : Nat) : m Outcome := do
  match read args with
  | .error .help => return ⟨[], 0⟩
  | .error .wrong => return ⟨[], 2⟩
  | .ok command => return .ofExcept (← run now command)

end ChatStory.Command
