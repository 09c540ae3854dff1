import ChatStory.Evaluation

/-!
Programs: the rounds of every contact, the starting values of the variables, and what the
script says about the story. A program does not change while it is played.
-/
namespace ChatStory

structure Round where
  key : RoundKey
  title : String
  /-- The text under the variables at the time of compilation. -/
  text : String
  choices : List Choice
  actions : List Action
  content : String
  body : List Fragment
  condition : Option Condition
deriving DecidableEq

namespace Round

/-- A conditional round that opens without a condition can always be entered. -/
def canEnter (round : Round) (values : Variables) : Bool :=
  !round.key.isConditional || round.condition.all (·.holds values)

def firstLine (round : Round) : List Char := Text.trim (round.text.toList.takeWhile (· != '\n'))

def evaluation (round : Round) (values : Variables) : Evaluation :=
  (evaluate round.body values).1

end Round

structure Contact where
  name : String
  initiallyUnlocked : Bool
  rounds : Table RoundKey Round
deriving DecidableEq

namespace Contact

def firstKey? (contact : Contact) : Option RoundKey := contact.rounds.first?.map (·.1)

def conditionals (contact : Contact) : List Round :=
  contact.rounds.values.filter (·.key.isConditional)

end Contact

/-- What a script says about its story. -/
structure About where
  title : Option String
  start : Option String
  format : Option String
  ifid : Option String
deriving DecidableEq, Inhabited

structure Program where
  contacts : Table String Contact
  /-- Names in order of first appearance. -/
  order : List String
  defaults : Variables
  about : About
deriving DecidableEq, Inhabited

namespace Program

def contact? (program : Program) (name : String) : Option Contact := program.contacts.get? name

def has (program : Program) (name : String) : Bool := program.contacts.contains name

def inOrder (program : Program) : List Contact := program.order.filterMap program.contact?

def round? (program : Program) (name : String) (key : RoundKey) : Option Round :=
  (program.contact? name).bind (·.rounds.get? key)

/-- The contact with whom the story opens. -/
def opening? (program : Program) : Option Contact := program.inOrder.find? (·.initiallyUnlocked)

end Program
end ChatStory
