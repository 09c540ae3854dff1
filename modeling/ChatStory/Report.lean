/-!
Reports about a script: a code, a message and the place to which they belong, if there is one.
Lines and columns count from one.
-/
namespace ChatStory

structure Location where
  line : Nat
  column : Nat
deriving DecidableEq

/-- The start of a line. -/
def Location.lineStart (line : Nat) : Location := ⟨line, 1⟩

/-- A part of a script, from one place to another. -/
structure Extent where
  first : Location
  last : Location
deriving DecidableEq

namespace Extent

def lines (first last : Nat) : Extent := ⟨.lineStart first, .lineStart last⟩

/-- What stands for a part of the script where there is none. -/
def nowhere : Extent := lines 1 1

end Extent

structure Report where
  code : String
  message : String
  location : Option Location
deriving DecidableEq

namespace Report

def line? (r : Report) : Option Nat := r.location.map (·.line)

def brief (code message : String) : String := code ++ ": " ++ message

def display (r : Report) : String :=
  match r.location with
  | some location =>
    brief (r.code ++ " (line " ++ toString location.line ++ ")") r.message
  | none => brief r.code r.message

end Report
end ChatStory
