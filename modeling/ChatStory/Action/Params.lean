import ChatStory.Text.Basic
import ChatStory.Text.Word
import ChatStory.Table

/-!
Parameters of an action: items between commas, some named. Commas in quotes do not
separate, wherever the quote opens.
-/
namespace ChatStory

structure Params where
  named : Table String String
  positional : List String
deriving DecidableEq

namespace Params

def isQuote (c : Char) : Bool := c == '"' || c == '\''

/-- Splits at the commas outside quotes; `quote` is the one that is open. -/
def splitItems (quote : Option Char) : List Char → List (List Char)
  | [] => [[]]
  | c :: cs =>
    let keep (next : Option Char) : List (List Char) :=
      match splitItems next cs with
      | [] => [[c]]
      | item :: items => (c :: item) :: items
    match quote with
    | some mark => keep (if c == mark then none else some mark)
    | none =>
      if isQuote c then keep (some c)
      else if c == ',' then [] :: splitItems none cs
      else keep none

/-- A text without its blanks at the ends and without quotes around the rest. -/
def unquote (cs : List Char) : List Char :=
  let cs := Text.trim cs
  (Text.quoted? cs).getD cs

/-- Reads `name: value`. -/
def namedItem? (item : List Char) : Option (String × String) :=
  match item with
  | c :: _ =>
    if Text.isIdentStart c then
      match Text.dropBlank (item.dropWhile Text.isWord) with
      | ':' :: value =>
        let name := Text.lower (item.takeWhile Text.isWord)
        some (String.ofList name, String.ofList (unquote value))
      | _ => none
    else none
  | [] => none

def read (source : List Char) : Params :=
  (splitItems none source).foldl
    (fun params item =>
      let item := Text.trim item
      if item.isEmpty then params
      else match namedItem? item with
        | some (name, value) => { params with named := params.named.insert name value }
        | none =>
          { params with positional := params.positional ++ [String.ofList (unquote item)] })
    ⟨∅, []⟩

/-- The value under the first of several names that is given. -/
def get? (params : Params) (names : List String) : Option String :=
  names.findSome? params.named.get?

def position? (params : Params) (index : Nat) : Option String := params.positional[index]?

/-- The value under a name, or else at a position; an empty one does not count. -/
def field? (params : Params) (names : List String) (index : Nat) : Option String :=
  ((params.get? names).or (params.position? index)).filter (· ≠ "")

/-- The value under a name, or else all positional items joined again. -/
def joined? (params : Params) (names : List String) : Option String :=
  ((params.get? names).getD (", ".intercalate params.positional) |> some).filter (· ≠ "")

end Params
end ChatStory
