import ChatStory.Scenario.Source
import ChatStory.Session.Loading

/-!
Running test cases. The clock stands at zero, and after each step everything on the timeline is
fired, whatever its time.
-/
namespace ChatStory.Scenario

/-- What was observed in a run, and how it ended. -/
structure Report where
  observed : List Observation
  /-- The number of steps that were taken. -/
  taken : Nat
  threads : Table String ThreadState

/-- A run so far. -/
structure Run where
  session : Session
  observed : List Observation

namespace Run

/-- Observes the events of an operation and of all that it puts on the timeline. -/
def observe (run : Run) (session : Session) : Run :=
  let (events, session) := session.flush.1.takeEvents
  ⟨session, run.observed ++ events.filterMap Observation.ofEvent?⟩

/-- The messages that were delivered before anyone could listen. -/
def opening (session : Session) : List Observation :=
  session.unlockedNames.flatMap fun contact =>
    (session.play.progress.history contact).map fun m =>
      .message m.contact m.text m.fromPlayer

def start (session : Session) : Run :=
  (⟨session, opening session⟩ : Run).observe session.takeEvents.2

/-- Takes a step, the number of which is told where it is rejected. -/
def step (run : Run) (number : Nat) : Step → Except CaseFault Run
  | .choose contact index =>
    match run.session.choose contact index 0 with
    | some session => .ok (run.observe session)
    | none => .error (.rejectedChoice number contact index)
  | .setVariable name value => .ok (run.observe (run.session.setVariable name value 0))

def steps (run : Run) (number : Nat) : List Step → Except CaseFault Run
  | [] => .ok run
  | first :: rest => do steps (← run.step number first) (number + 1) rest

end Run

/-- A case run on a script. -/
def runSource (source : String) (c : Case) : Except CaseFault Report := do
  let loaded ← (Session.create source { typingDelay := c.typingDelay } .empty 0).mapError
    CaseFault.refused
  let run ← (Run.start loaded.session).steps 0 c.steps
  return ⟨run.observed, c.steps.length, run.session.play.progress.threads⟩

/-- The first difference between what was expected and what was observed. -/
def firstDifference (index : Nat) : List Observation → List Observation → Except CaseFault Unit
  | expected :: others, actual :: rest =>
    if expected = actual then firstDifference (index + 1) others rest
    else .error (.otherEvent index expected actual)
  | _, _ => .ok ()

def checkThreads (threads : Table String ThreadState) :
    List (String × ThreadState) → Except CaseFault Unit
  | [] => .ok ()
  | (contact, expected) :: rest =>
    if threads.get? contact = some expected then checkThreads threads rest
    else .error (.otherThread contact expected (threads.get? contact))

/-- What a report should say: the number of observations is checked first, then each of them, and
the threads last. -/
def Case.check (c : Case) (report : Report) : Except CaseFault Unit := do
  if report.observed.length ≠ c.expected.length then
    .error (.otherCount c.expected.length report.observed)
  else
    firstDifference 0 c.expected report.observed
    checkThreads report.threads c.finals.toList

variable {m : Type → Type} [Monad m] [Files m]

/-- Runs a case on the script of a scenario. -/
def run (directory : String) (c : Case) : m (Except CaseFault Report) := do
  return (← readSource directory).bind (runSource · c)

/-- Runs the case in a file and checks it. -/
def checkFile (directory path : String) : m (Except CaseFault Unit) := do
  match ← readCase path with
  | .error fault => return .error fault
  | .ok c => return (← run directory c).bind c.check

end ChatStory.Scenario
