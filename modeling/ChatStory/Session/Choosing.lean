import ChatStory.Session.Basic

/-!
Choices: which ones a thread offers, and where they lead. A choice names the round it leads to, or
leads to the round whose first line reads like the choice. One that leads nowhere ends
the thread.
-/
namespace ChatStory

namespace Play

def roundOf? (play : Play) (contact : String) : Option Round := do
  play.program.round? contact (← play.progress.rounds.get? contact)

/-- The choices of the current round under the variables as they are. Only an active thread
offers any. -/
def choices (play : Play) (contact : String) : List Choice :=
  if play.progress.thread? contact = some .active then
    ((play.roundOf? contact).map fun round => (play.evaluation round).choices).getD []
  else []

/-- The round whose first line reads like a text, in any letter case. -/
def roundReading? (contact : Contact) (text : List Char) : Option RoundKey :=
  (contact.rounds.values.find? fun round => Text.sameLetters round.firstLine text).map (·.key)

/-- The round to which a choice leads. A conditional round has to be one that can be entered. -/
def target? (play : Play) (contact : String) (choice : Choice) : Option RoundKey := do
  let entry ← play.program.contact? contact
  let named := choice.targetRound.or (RoundKey.ofReference? choice.target)
  let key ← named.or <|
    let text := Text.trim choice.text.toList
    if text.isEmpty then none else roundReading? entry text
  let round ← entry.rounds.get? key
  guard (round.canEnter play.progress.values)
  return key

end Play

namespace Session

/-- Picks a choice; without such a choice nothing happens. -/
def choose (s : Session) (contact : String) (index : Nat) (now : Nat) : Option Session := do
  let choice ← (s.play.choices contact)[index]?
  let play := s.play.say contact { text := choice.text, fromPlayer := true } now
  return s.settle
    (match play.target? contact choice with
      | some key => play.enter contact key now .typed choice.action
      | none =>
        (play.revise fun p => { p with rounds := p.rounds.erase contact }).finishThread contact now)
    now

end Session
end ChatStory
