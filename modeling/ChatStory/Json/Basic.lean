/-!
Structured documents. A value is written out and read back in the usual
notation of nested lists and records; whole numbers of a word's length are kept apart from
doubles, so that counts survive exactly.
-/
namespace ChatStory

inductive Json where
  | null
  | bool (b : Bool)
  | integer (n : Int)
  | real (x : Float)
  | text (s : String)
  | list (items : List Json)
  | record (members : List (String × Json))
  /-- Written correctly but without a value: a number beyond the doubles, or a text or
  a record with a name that has an unpaired surrogate. -/
  | unreadable
deriving Inhabited

namespace Json

def ofOption (f : α → Json) : Option α → Json
  | none => null
  | some a => f a

def natural (n : Nat) : Json := integer n

def ofTexts (texts : List String) : Json := .list (texts.map .text)

def asText? : Json → Option String
  | text s => some s
  | _ => none

/-- The member of a record under a name. Of several the last one counts. -/
def member? (name : String) : Json → Option Json
  | record members => (members.reverse.find? (·.1 == name)).map (·.2)
  | _ => none

mutual
/-- How deeply lists and records are nested. -/
def depth : Json → Nat
  | list items => itemDepth items + 1
  | record members => memberDepth members + 1
  | _ => 0
def itemDepth : List Json → Nat
  | [] => 0
  | j :: rest => max j.depth (itemDepth rest)
def memberDepth : List (String × Json) → Nat
  | [] => 0
  | (_, j) :: rest => max j.depth (memberDepth rest)
end

mutual
/-- Every part has a value. -/
def readable : Json → Bool
  | list items => itemsReadable items
  | record members => membersReadable members
  | unreadable => false
  | _ => true
def itemsReadable : List Json → Bool
  | [] => true
  | j :: rest => j.readable && itemsReadable rest
def membersReadable : List (String × Json) → Bool
  | [] => true
  | (_, j) :: rest => j.readable && membersReadable rest
end

mutual
/-- Keeps, of the members of a record under one name, the last. -/
def settled : Json → Json
  | list items => .list (settledItems items)
  | record members => .record (settledMembers members)
  | j => j
def settledItems : List Json → List Json
  | [] => []
  | j :: rest => j.settled :: settledItems rest
def settledMembers : List (String × Json) → List (String × Json)
  | [] => []
  | (name, j) :: rest =>
    if rest.any (·.1 == name) then settledMembers rest
    else (name, j.settled) :: settledMembers rest
end

end Json
end ChatStory
