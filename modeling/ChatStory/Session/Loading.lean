import ChatStory.Session.Queries

/-!
Sessions from scripts. A script with errors is refused, and the session that was there goes on;
with its warnings alone it is taken.
-/
namespace ChatStory

/-- A session, and the warnings of the script that it plays. -/
structure Loaded where
  session : Session
  warnings : List Diagnostic

namespace Session

/-- The program of a script with its warnings, or the first error in it. -/
def programOf (source : String) : Except Fault (Program × List Diagnostic) :=
  let compilation := compile source
  match compilation.result with
  | .ok program => .ok (program, compilation.warnings)
  | .error diagnostic => .error (.script diagnostic)

/-- A session on a script that goes on from the store, or begins a new story. -/
def create (source : String) (options : Options) (store : Store) (now : Nat) :
    Except Fault Loaded := do
  let (program, warnings) ← programOf source
  return ⟨start program options store now, warnings⟩

/-- A session that goes on from given progress, which replaces what the store had. The store is
written before the script is looked at. -/
def resume (source : String) (progress : Progress) (options : Options) (store : Store)
    (now : Nat) : Store × Except Fault Loaded :=
  match store.write (Save.encode progress) with
  | .error fault => (store, .error fault)
  | .ok written => match create source options written now with
    | .error fault => (written, .error fault)
    | .ok loaded => (loaded.session.store, .ok loaded)

/-- Goes on with another script. -/
def switchScript (s : Session) (source : String) (now : Nat) : Except Fault Loaded := do
  let (program, warnings) ← programOf source
  return ⟨s.switchProgram program now, warnings⟩

end Session
end ChatStory
