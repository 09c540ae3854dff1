import ChatStory.Fault

/-!
A store keeps one document. A refused call fails and leaves the store as it is.
-/
namespace ChatStory

structure Store where
  document : Option String
  refused : List StoreCall
deriving DecidableEq

namespace Store

def empty : Store := ⟨none, []⟩

instance : Inhabited Store := ⟨empty⟩

def guarded (s : Store) (call : StoreCall) (a : α) : Except Fault α :=
  if s.refused.contains call then .error (.refusedCall call) else .ok a

def read (s : Store) : Except Fault (Option String) := s.guarded .read s.document

def write (s : Store) (document : String) : Except Fault Store :=
  s.guarded .write { s with document := some document }

def clear (s : Store) : Except Fault Store := s.guarded .clear { s with document := none }

/-- The store after a call whose failure is passed over. -/
def settle (s : Store) (outcome : Except Fault Store) : Store :=
  match outcome with
  | .ok after => after
  | .error _ => s

end Store
end ChatStory
