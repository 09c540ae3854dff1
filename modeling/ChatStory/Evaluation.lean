import ChatStory.Markup.Span

/-!
What a body shows under given variables. A gate follows the conditional blocks, which do not
nest: a new one replaces the one that is open. Pieces behind a closed gate are not seen.
An assignment takes effect where it is seen, so that later conditions of the same body
read the new value.
-/
namespace ChatStory

structure Gate where
  inBlock : Bool
  isOpen : Bool
deriving DecidableEq

namespace Gate

def start : Gate := ⟨false, true⟩

def pass (gate : Gate) (values : Variables) : Fragment → Gate
  | .ifBlock condition => ⟨true, condition.any (·.holds values)⟩
  | .elseBlock => ⟨gate.inBlock, gate.isOpen != gate.inBlock⟩
  | .endBlock => start
  | _ => gate

end Gate

/-- A piece of a body, and whether it is seen. -/
structure Sight where
  fragment : Fragment
  seen : Bool

/-- Every piece in order, and the variables at the end. -/
def sights (gate : Gate) (values : Variables) : List Fragment → List Sight × Variables
  | [] => ([], values)
  | fragment :: rest =>
    let after := match fragment with
      | .assign name value => if gate.isOpen then values.insert name value else values
      | _ => values
    let (others, final) := sights (gate.pass values fragment) after rest
    (⟨fragment, gate.isOpen⟩ :: others, final)

/-- A line of text in the making. -/
structure TextLine where
  text : String
  /-- Markup stood on the line, seen or not. -/
  marked : Bool
  /-- The gate was open where the line began. -/
  opened : Bool

/-- A plain line keeps its spacing. One with markup is trimmed, and dropped when
nothing of it is left. -/
def TextLine.finish (line : TextLine) : List String :=
  if line.marked then
    let text := Text.trimmed line.text
    if text = "" then [] else [text]
  else if line.opened then [line.text] else []

def textLines (line : TextLine) : List Sight → List String
  | [] => line.finish
  | sight :: rest =>
    match sight.fragment with
    | .lineBreak => line.finish ++ textLines ⟨"", false, sight.seen⟩ rest
    | .text text =>
      textLines (if sight.seen then { line with text := line.text ++ text } else line) rest
    | _ => textLines { line with marked := true } rest

structure Evaluation where
  text : String
  choices : List Choice
  actions : List Action
  /-- The assignments that were seen, in order. -/
  assignments : List Assignment

namespace Sight

def choice? (sight : Sight) : Option Choice :=
  match sight.fragment with
  | .choice choice => if sight.seen then some choice else none
  | _ => none

def action? (sight : Sight) : Option Action :=
  match sight.fragment with
  | .action action => if sight.seen then some action else none
  | _ => none

def assignment? (sight : Sight) : Option Assignment :=
  match sight.fragment with
  | .assign name value => if sight.seen then some ⟨name, value⟩ else none
  | _ => none

end Sight

def Evaluation.ofSights (all : List Sight) : Evaluation where
  text := Text.trimmed ("\n".intercalate (textLines ⟨"", false, true⟩ all))
  choices := all.filterMap Sight.choice?
  actions := all.filterMap Sight.action?
  assignments := all.filterMap Sight.assignment?

/-- What a body shows, and the variables after it. -/
def evaluate (fragments : List Fragment) (values : Variables) : Evaluation × Variables :=
  let (all, final) := sights .start values fragments
  (.ofSights all, final)

/-- Blank text and line breaks leave the place before a body's first block open. -/
def Fragment.isSpacing : Fragment → Bool
  | .lineBreak => true
  | .text s => Text.isBlankText s.toList
  | _ => false

/-- The condition of the block with which a body opens. -/
def openingCondition? (fragments : List Fragment) : Option Condition :=
  match fragments.find? (!·.isSpacing) with
  | some (.ifBlock condition) => condition
  | _ => none

end ChatStory
