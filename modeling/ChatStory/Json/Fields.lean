import ChatStory.Json.Reader
import ChatStory.Table

/-!
Taking documents apart. A structure is a record of named fields, in any order and with unknown ones
passed over, or the list of its fields in their order with nothing left over. A known name
stands at most once. A variant carries its name in a tag field; the other fields stand
beside the tag.
-/
namespace ChatStory.Json

inductive Fields where
  | named (members : List (String × Json))
  | ordered (items : List Json)

/-- Reads fields one after the other. -/
abbrev FieldReader (α : Type) := Fields → Option (α × Fields)

namespace Fields

def ofJson? : Json → Option Fields
  | record members => some (named members)
  | list items => some (ordered items)
  | _ => none

/-- The field under a name, or else the next one in order. -/
def take? (name : String) : FieldReader (Option Json)
  | ordered [] => some (none, ordered [])
  | ordered (j :: rest) => some (some j, ordered rest)
  | named members =>
    match members.filter (·.1 == name) with
    | [] => some (none, named members)
    | [(_, j)] => some (some j, named members)
    | _ => none

def isNamed : Fields → Bool
  | named _ => true
  | ordered _ => false

/-- What may be left when all fields have been read. -/
def isSpent : Fields → Bool
  | named _ => true
  | ordered items => items.isEmpty

end Fields

def option? (read : Json → Option α) : Json → Option (Option α)
  | null => some none
  | j => (read j).map some

/-- A field that has to be there. -/
def required (name : String) (read : Json → Option α) : FieldReader α := fun fields =>
  match fields.take? name with
  | some (some j, rest) => (read j).map (·, rest)
  | _ => none

/-- A field that has a default. -/
def defaulted (name : String) (default : α) (read : Json → Option α) : FieldReader α :=
  fun fields =>
  match fields.take? name with
  | some (some j, rest) => (read j).map (·, rest)
  | some (none, rest) => some (default, rest)
  | none => none

/-- A field without which a value can do where fields have names. -/
def optional (name : String) (read : Json → Option α) : FieldReader (Option α) := fun fields =>
  if fields.isNamed then defaulted name none (option? read) fields
  else required name (option? read) fields

def FieldReader.pure (a : α) : FieldReader α := fun fields => some (a, fields)

def FieldReader.bind (r : FieldReader α) (f : α → FieldReader β) : FieldReader β := fun fields =>
  match r fields with
  | some (a, rest) => f a rest
  | none => none

instance : Monad FieldReader where
  pure := FieldReader.pure
  bind := FieldReader.bind

/-- Reads all fields of a structure. -/
def Fields.read? (fields : Fields) (r : FieldReader α) : Option α :=
  match r fields with
  | some (a, rest) => if rest.isSpent then some a else none
  | none => none

def structure? (r : FieldReader α) (j : Json) : Option α := do (← Fields.ofJson? j).read? r

/-- Where a value stands: read as it comes below some lists and records, or within a value that
has been kept whole before it was taken apart. -/
inductive Place where
  | direct (outer : Nat)
  | kept

/-- The place of the parts of a value. -/
def Place.inner : Place → Place
  | direct outer => direct (outer + 1)
  | kept => kept

/-- Within a value kept whole a variant may also be told by its number. -/
def variantName? (place : Place) (names : List String) : Json → Option String
  | text name => if names.contains name then some name else none
  | integer n => match place with
    | .kept => n.toNat?.bind (names[·]?)
    | .direct _ => none
  | _ => none

/-- The name of a variant and its fields. The value is kept whole until its tag has been found. -/
def tagged? (place : Place) (tag : String) (names : List String) (j : Json) :
    Option (String × Fields) := do
  match place with
  | .direct outer => guard (keepable outer j)
  | .kept => pure ()
  match j with
  | record members =>
    match members.filter (·.1 == tag) with
    | [(_, name)] =>
      return (← variantName? place names name, .named (members.filter (·.1 != tag)))
    | _ => none
  | list (name :: rest) => return (← variantName? place names name, .ordered rest)
  | _ => none

/-- A variant without fields passes over what stands beside its tag. -/
def noFields (a : α) : FieldReader α := FieldReader.pure a

/-- A name alone, or a record that holds nothing under it. -/
def plainName? (place : Place) : Json → Option String
  | text name => some name
  | record [(name, null)] => some name
  | record [(name, record [])] => match place with
    | .kept => some name
    | .direct _ => none
  | _ => none

def asBool? : Json → Option Bool
  | bool b => some b
  | _ => none

def asNatural? : Json → Option Nat
  | integer n => n.toNat?
  | _ => none

def asReal? : Json → Option Float
  | integer n =>
    let x := Decimal.nearest n.natAbs 0
    some (if n < 0 then -x else x)
  | real x => some x
  | _ => none

def listOf? (read : Json → Option α) : Json → Option (List α)
  | list items => items.mapM read
  | _ => none

/-- Later members replace earlier ones under the same name. -/
def tableOf? (read : Json → Option α) : Json → Option (Table String α)
  | record members => do
    return .ofList (← members.mapM fun (name, j) => (read j).map (name, ·))
  | _ => none

def nameSet? (j : Json) : Option NameSet := (listOf? asText? j).map NameSet.ofNames

def ofTable (write : α → Json) (t : Table String α) : Json :=
  .record (t.toList.map fun (name, a) => (name, write a))

def ofNames (names : NameSet) : Json := ofTexts names.keys

end ChatStory.Json
