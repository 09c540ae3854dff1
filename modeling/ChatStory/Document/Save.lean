import ChatStory.Document.Progress
import ChatStory.Fault
import ChatStory.Json.Writer

/-!
Saved progress: a document that names its schema and holds the progress. A document of another
schema is refused even if it could be read.
-/
namespace ChatStory.Save

def schema : String := "threadscript-state.v1"

def encode (p : Progress) : String :=
  Json.render (.record [("schemaVersion", .text schema), ("state", p.toJson)])

/-- The schema that a document names and the progress that it holds. -/
def read? : Json → Option (String × Progress) := Json.structure? do
  return (← Json.required "schemaVersion" Json.asText?,
    ← Json.required "state" (Progress.ofJson? (.direct 1)))

def decode (document : String) : Except Fault Progress :=
  match (Json.parse? document).bind read? with
  | none => .error .invalidDocument
  | some (found, p) => if found = schema then .ok p else .error (.unsupportedSchema found)

end ChatStory.Save
