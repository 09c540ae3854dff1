import ChatStory.Document.Progress
import ChatStory.Fault
import ChatStory.Json.Writer

/-!
The state of a player between commands: the script and the progress in it. The schema is looked
at before anything else, so a document of another schema is told apart even if it could not
be read.
-/
namespace ChatStory

structure Player where
  script : String
  progress : Progress
deriving DecidableEq

namespace Player

def encode (player : Player) : String :=
  Json.pretty (.record [("schemaVersion", .text playerSchema), ("script", .text player.script),
    ("state", player.progress.toJson)])

def read? : Json → Option Player := Json.structure? do
  let _ ← Json.required "schemaVersion" Json.asText?
  return {
    script := ← Json.required "script" Json.asText?
    progress := ← Json.required "state" (Progress.ofJson? (.direct 1)) }

/-- Reads the document of a file, whose path goes into the faults. -/
def decode (path document : String) : Except Fault Player :=
  match Json.parseKept? document with
  | none => .error (.invalidState path)
  | some j =>
    let found := ((j.member? "schemaVersion").bind Json.asText?).getD ""
    if found = playerSchema then
      match read? j.settled with
      | some player => .ok player
      | none => .error (.invalidState path)
    else .error (.foreignState path found)

end Player
end ChatStory
