import ChatStory.Text.Basic

/-!
The inside of brackets. Brackets nest, end on the line on which they open, and do not
close within the quotes that they know. The text given is always the one after the
opening bracket, and the inside is the text up to the closing bracket that matches it.
-/
namespace ChatStory.Markup

structure Bracket where
  opening : Char
  closing : Char
  quotes : List Char

/-- Brackets around actions. -/
def square : Bracket := ⟨'[', ']', ['"']⟩

/-- Brackets around macros. -/
def round : Bracket := ⟨'(', ')', ['"', '\'']⟩

/-- `depth` counts the brackets that are open inside, and `quote` is the quote that is open. -/
def Bracket.insideFrom? (b : Bracket) (depth : Nat) (quote : Option Char) :
    List Char → Option (List Char)
  | [] => none
  | c :: cs =>
    if c == '\n' then none
    else match quote with
      | some mark => (b.insideFrom? depth (if c == mark then none else some mark) cs).map (c :: ·)
      | none =>
        if b.quotes.contains c then (b.insideFrom? depth (some c) cs).map (c :: ·)
        else if c == b.opening then (b.insideFrom? (depth + 1) none cs).map (c :: ·)
        else if c == b.closing then
          match depth with
          | 0 => some []
          | depth + 1 => (b.insideFrom? depth none cs).map (c :: ·)
        else (b.insideFrom? depth none cs).map (c :: ·)

def Bracket.inside? (b : Bracket) (cs : List Char) : Option (List Char) := b.insideFrom? 0 none cs

/-- The inside of a link, which two closing brackets end. Single brackets are balanced. -/
def linkInsideFrom? (depth : Nat) : List Char → Option (List Char)
  | [] => none
  | c :: cs =>
    if c == '\n' then none
    else if c == '[' then (linkInsideFrom? (depth + 1) cs).map (c :: ·)
    else if c == ']' then
      match depth with
      | 0 => if cs.head? = some ']' then some [] else (linkInsideFrom? 0 cs).map (c :: ·)
      | depth + 1 => (linkInsideFrom? depth cs).map (c :: ·)
    else (linkInsideFrom? depth cs).map (c :: ·)

def linkInside? (cs : List Char) : Option (List Char) := linkInsideFrom? 0 cs

def actionMark : List Char := "action:".toList

/-- The inside of an action, mark and all, whose bracket opens with `c`. -/
def actionInside? (c : Char) (cs : List Char) : Option (List Char) :=
  if c == '[' && (Text.afterLetters actionMark cs).isSome then square.inside? cs else none

end ChatStory.Markup
