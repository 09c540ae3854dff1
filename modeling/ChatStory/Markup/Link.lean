import ChatStory.Action.Reader
import ChatStory.Fragment
import ChatStory.Markup.Bracket

/-!
Reading the inside of a link: `display|target`, `display->target`, `target<-display`, or
one text that is both. Actions inside are lifted out, and a space takes their place.
-/
namespace ChatStory.Choice

open ChatStory.Markup

/-- The text without its embedded actions, and what each of these came to. -/
def liftActions : List Char → List Char × List Action.Outcome
  | [] => ([], [])
  | c :: cs =>
    match actionInside? c cs with
    | some inside =>
      let (text, outcomes) := liftActions (cs.drop (inside.length + 1))
      (' ' :: text, Action.read (inside.drop actionMark.length) :: outcomes)
    | none =>
      let (text, outcomes) := liftActions cs
      (c :: text, outcomes)
termination_by cs => cs.length
decreasing_by all_goals simp only [List.length_cons, List.length_drop]; omega

/-- Keeps the first action; `kept` is the one found so far. -/
def keepFirst (kept : Option Action) : List Action.Outcome → Option Action × List Finding
  | [] => (kept, [])
  | outcome :: rest =>
    match kept, outcome.action with
    | some first, some _ =>
      let (action, findings) := keepFirst (some first) rest
      (action, outcome.findings ++ .extraEmbeddedAction :: findings)
    | _, _ =>
      let (action, findings) := keepFirst (kept.or outcome.action) rest
      (action, outcome.findings ++ findings)

/-- The display text and the target. -/
def split (cs : List Char) : List Char × List Char :=
  match Text.cutLast ['|'] cs with
  | some found => found
  | none => match Text.cutLast ['-', '>'] cs with
    | some found => found
    | none => match Text.cutFirst ['<', '-'] cs with
      | some (target, display) => (display, target)
      | none => (cs, cs)

def read (inside : List Char) : Choice × List Finding :=
  let (rest, outcomes) := liftActions inside
  let (action, findings) := keepFirst none outcomes
  let (display, target) := split rest
  let text := String.ofList ([' '].intercalate (Text.words display))
  let target := String.ofList (Text.trim target)
  let target := if target = "" then text else target
  (⟨text, target, RoundKey.ofReference? target, action⟩, findings)

end ChatStory.Choice
