import ChatStory.Proofs.Session.Notices
import ChatStory.Proofs.Session.Timetable
import Mathlib.Data.List.Pairwise

/-!
Delays. The sequence of a round comes up task by task at the times of its timetable, and when its
notices come up, what the round has asked for still waits for them.
-/
namespace ChatStory

namespace Play

end Play

namespace Session

open Play

variable {s : Session} {now : Nat} {a b : Play} {contact : String}

abbrev ticks (readings : List Nat) : List (Nat × Operation) := readings.map (·, .tick)

end Session
end ChatStory
