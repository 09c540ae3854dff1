import ChatStory.Proofs.Action.Listing
import ChatStory.Proofs.SetMacro

/-!
The search for the delay among the parameters of an action. The search runs through the characters of the list
and follows the quotes on its way. Without a delay outside of quotes it goes past every item and every comma;
what looks like a delay at the end of a quoted value takes the closing quote and the comma behind it along.
-/
namespace ChatStory

namespace Action

open Params (isQuote Item Label Quotation texts listed led)

section Following

variable {before cs : List Char} {mark : Char}

/-- The quote that is open behind a text, and the last character that is not blank. -/
def followed (cs : List Char) : Option Char × Option Char := cs.foldl quoteStep (none, none)

/-- A quote that stands behind the text opens there. -/
structure Fresh (before : List Char) : Prop where
  unquoted : (followed before).1 = none
  starts : ∀ c, (followed before).2 = some c → c = ',' ∨ c = ':'

theorem followed_append (before cs : List Char) :
    followed (before ++ cs) = cs.foldl quoteStep (followed before) :=
  List.foldl_append

theorem followed_snoc (before : List Char) (c : Char) :
    followed (before ++ [c]) = quoteStep (followed before) c :=
  followed_append before [c]

theorem endsQuoted_eq (before : List Char) : endsQuoted before = (followed before).1.isSome := rfl

theorem quoteStep_plain {state : Option Char × Option Char} {c : Char} (closed : state.1 = none)
    (plain : isQuote c = false) : (quoteStep state c).1 = none := by
  obtain ⟨quote, previous⟩ := state
  obtain rfl : quote = none := closed
  simp [quoteStep, plain]

theorem unquoted_plain (closed : (followed before).1 = none) (plain : ∀ c ∈ cs, isQuote c = false) :
    (followed (before ++ cs)).1 = none := by
  induction cs generalizing before with
  | nil => rwa [List.append_nil]
  | cons c rest ih =>
    obtain ⟨first, later⟩ := List.forall_mem_cons.1 plain
    rw [List.append_cons]
    refine ih ?_ later
    rw [followed_snoc]
    exact quoteStep_plain closed first

theorem fresh_nil : Fresh [] := ⟨rfl, nofun⟩

/- Behind a comma or a colon a value can start. -/
theorem fresh_snoc (closed : (followed before).1 = none) {c : Char} (starts : c = ',' ∨ c = ':') :
    Fresh (before ++ [c]) := by
  have seen : isQuote c = false ∧ Text.isBlank c = false := by
    rcases starts with rfl | rfl <;> decide
  have last : (quoteStep (followed before) c).2 = some c := by simp [quoteStep, seen.2]
  constructor
  · rw [followed_snoc]
    exact quoteStep_plain closed seen.1
  · intro d found
    rw [followed_snoc, last] at found
    cases found
    exact starts

theorem Fresh.blank (fresh : Fresh before) (blank : ∀ c ∈ cs, Text.isBlank c = true) :
    Fresh (before ++ cs) := by
  induction cs generalizing before with
  | nil => rwa [List.append_nil]
  | cons c rest ih =>
    obtain ⟨first, later⟩ := List.forall_mem_cons.1 blank
    rw [List.append_cons]
    refine ih ⟨?_, ?_⟩ later
    · rw [followed_snoc]
      exact quoteStep_plain fresh.unquoted (Params.isQuote_of_blank first)
    · have same : (quoteStep (followed before) c).2 = (followed before).2 := by simp [quoteStep, first]
      rw [followed_snoc, same]
      exact fresh.starts

theorem Fresh.label (fresh : Fresh before) {label : List Char} (labelled : Label label) :
    Fresh (before ++ label) := by
  cases labelled with
  | blank first => exact fresh.blank first
  | @named lead name gap behind first word other between last =>
    have parts : before ++ (lead ++ (name ++ (gap ++ ':' :: behind))) =
        before ++ (lead ++ (name ++ gap)) ++ [':'] ++ behind := by simp
    have plain := Params.plain_of_label (Label.named first word other between last)
    rw [parts]
    refine Fresh.blank (fresh_snoc (unquoted_plain fresh.unquoted ?_) (.inr rfl)) last
    intro c member
    refine plain c ?_
    have parts : lead ++ (name ++ (gap ++ ':' :: behind)) = lead ++ (name ++ gap) ++ ':' :: behind := by simp
    rw [parts]
    exact List.mem_append_left _ member

theorem Fresh.opens (fresh : Fresh before) (marked : isQuote mark = true) :
    (followed (before ++ [mark])).1 = some mark := by
  rw [followed_snoc]
  obtain ⟨closed, starts⟩ := fresh
  generalize followed before = state at closed starts
  obtain ⟨quote, previous⟩ := state
  obtain rfl : quote = none := closed
  cases previous with
  | none => simp [quoteStep, marked]
  | some c => rcases starts c rfl with rfl | rfl <;> simp [quoteStep, marked]

theorem quoted_within (opened : (followed before).1 = some mark) (absent : mark ∉ cs) :
    (followed (before ++ cs)).1 = some mark := by
  induction cs generalizing before with
  | nil => rwa [List.append_nil]
  | cons c rest ih =>
    obtain ⟨first, later⟩ := not_or.1 (mt List.mem_cons.2 absent)
    rw [List.append_cons]
    refine ih ?_ later
    rw [followed_snoc]
    generalize followed before = state at opened
    obtain ⟨quote, previous⟩ := state
    obtain rfl : quote = some mark := opened
    simp [quoteStep, Ne.symm first]

theorem unquoted_close (opened : (followed before).1 = some mark) :
    (followed (before ++ [mark])).1 = none := by
  rw [followed_snoc]
  generalize followed before = state at opened
  obtain ⟨quote, previous⟩ := state
  obtain rfl : quote = some mark := opened
  simp [quoteStep]

theorem unquoted_item (fresh : Fresh before) (item : Item) : (followed (before ++ item.text)).1 = none := by
  cases item with
  | bare text plain => exact unquoted_plain fresh.unquoted fun c member => (plain c member).1
  | quoted q =>
    have parts : before ++ (Item.quoted q).text =
        before ++ q.label ++ [q.mark] ++ q.value ++ [q.mark] ++ q.trail := by
      simp [Item.text, Quotation.text]
    rw [parts]
    exact unquoted_plain (unquoted_close (quoted_within ((fresh.label q.labelled).opens q.marked) q.whole))
      fun c member => Params.isQuote_of_blank (q.blank c member)

theorem Fresh.item (fresh : Fresh before) (item : Item) : Fresh (before ++ (item.text ++ [','])) := by
  rw [← List.append_assoc]
  exact fresh_snoc (unquoted_item fresh item) (.inl rfl)

theorem Fresh.led (fresh : Fresh before) (items : List Item) : Fresh (before ++ led (texts items)) := by
  induction items generalizing before with
  | nil => exact (List.append_nil before).symm ▸ fresh
  | cons item rest ih =>
    rw [Params.texts_cons, Params.led, List.flatMap_cons, ← List.append_assoc]
    exact ih (fresh.item item)

end Following

section Dull

variable {s name gap label more : List Char}

/-- No letter of the word that names a delay stands at the start of the text. -/
def Barrier (more : List Char) : Prop :=
  ∀ c, more.head? = some c → ∀ letter ∈ "delay".toList, Text.isKeyLetter letter c = false

theorem barrier_nil : Barrier [] := nofun

/- The word has no s, so that a letter of it is met in its two cases only. -/
theorem isKeyLetter_of_delay {letter c : Char} (listed : letter ∈ "delay".toList) :
    Text.isKeyLetter letter c = (c.toLower == letter) := by
  have other : (letter == 's') = false :=
    List.all_eq_true.1 (by decide : "delay".toList.all fun letter => (letter == 's') == false) letter listed |>
      beq_iff_eq.1
  rw [Text.isKeyLetter, other, Bool.false_and, Bool.or_false]

theorem barrier_cons {c : Char} (other : c.toLower ∉ "delay".toList) (cs : List Char) : Barrier (c :: cs) := by
  intro d same letter listed
  cases same
  rw [isKeyLetter_of_delay listed]
  refine Bool.eq_false_iff.2 fun met => other ?_
  rwa [beq_iff_eq.1 met]

theorem barrier_blank {c : Char} (blank : Text.isBlank c = true) (cs : List Char) : Barrier (c :: cs) := by
  refine barrier_cons (fun listed => ?_) cs
  rw [Text.toLower_of_blank blank] at listed
  have seen := List.all_eq_true.1 (by decide : "delay".toList.all fun c => !Text.isBlank c) c listed
  rw [blank] at seen
  cases seen

theorem barrier_quote {mark : Char} (marked : isQuote mark = true) (cs : List Char) :
    Barrier (mark :: cs) := by
  rw [isQuote, Bool.or_eq_true, beq_iff_eq, beq_iff_eq] at marked
  rcases marked with rfl | rfl <;> exact barrier_cons (by decide) cs

/- A keyword is searched for in a text alone if a character that is none of its letters follows. -/
theorem afterKeyword_append {key s more : List Char}
    (stop : ∀ c, more.head? = some c → ∀ letter ∈ key, Text.isKeyLetter letter c = false) :
    Text.afterKeyword key (s ++ more) = (Text.afterKeyword key s).map (· ++ more) := by
  induction key generalizing s with
  | nil => rfl
  | cons letter key ih =>
    cases s with
    | nil =>
      cases more with
      | nil => rfl
      | cons c cs =>
        have other := stop c rfl letter List.mem_cons_self
        exact if_neg (Bool.eq_false_iff.1 other)
    | cons c s =>
      rw [List.cons_append, Text.afterKeyword, Text.afterKeyword]
      split
      · exact ih fun d first other listed => stop d first other (List.mem_cons_of_mem letter listed)
      · rfl

/- What is taken for the word is the word, in either case. -/
theorem lower_of_afterKeyword {key s left : List Char} (listed : ∀ letter ∈ key, letter ∈ "delay".toList)
    (found : Text.afterKeyword key s = some left) : ∃ front, s = front ++ left ∧ Text.lower front = key := by
  induction key generalizing s with
  | nil =>
    cases found
    exact ⟨[], rfl, rfl⟩
  | cons letter key ih =>
    obtain ⟨first, later⟩ := List.forall_mem_cons.1 listed
    cases s with
    | nil => cases found
    | cons c s =>
      rw [Text.afterKeyword, isKeyLetter_of_delay first] at found
      split at found
      · rename_i met
        obtain ⟨front, rfl, same⟩ := ih later found
        exact ⟨c :: front, rfl, by rw [← same, ← beq_iff_eq.1 met]; rfl⟩
      · cases found

/- Where the word and a colon do not stand first there is no delay. -/
theorem delayHere?_none (absent : ∀ left rest, Text.afterKeyword "delay".toList s = some left →
    Text.dropBlank left ≠ ':' :: rest) : delayHere? s = none := by
  rw [delayHere?]
  cases read : Text.afterKeyword "delay".toList s with
  | none => rfl
  | some left =>
    dsimp only [Option.bind_eq_bind, Option.bind_some]
    split
    · rename_i rest same
      exact absurd same (absent left rest read)
    · rfl

theorem delayHere?_barrier (barrier : Barrier more) : delayHere? more = none := by
  refine delayHere?_none fun left rest read => ?_
  have none : Text.afterKeyword "delay".toList ([] ++ more) = none := afterKeyword_append barrier
  cases none.symm.trans read

/-- An item ends at the end of the list or at a comma. -/
def Ends (more : List Char) : Prop := more = [] ∨ ∃ rest, more = ',' :: rest

theorem Ends.barrier (ends : Ends more) : Barrier more := by
  rcases ends with rfl | ⟨rest, rfl⟩
  · exact barrier_nil
  · exact barrier_cons (by decide) rest

/- A text without a colon holds no delay. -/
theorem delayHere?_bare (plain : ∀ c ∈ s, c ≠ ':') (ends : Ends more) : delayHere? (s ++ more) = none := by
  refine delayHere?_none fun left rest found same => ?_
  rw [afterKeyword_append ends.barrier] at found
  obtain ⟨left, met, rfl⟩ := Option.map_eq_some_iff.1 found
  obtain ⟨front, parts, -⟩ := Text.afterKeyword_cases met
  have later : ∀ c ∈ left, c ≠ ':' := fun c member => plain c (parts ▸ List.mem_append_right front member)
  rw [Text.dropBlank, List.dropWhile_append] at same
  split at same
  · rcases ends with rfl | ⟨others, rfl⟩ <;> cases same
  · rename_i some_seen
    obtain ⟨c, others, visible⟩ := List.exists_cons_of_ne_nil (mt List.isEmpty_iff.2 some_seen)
    rw [visible] at same
    have member : c ∈ left := (List.dropWhile_sublist Text.isBlank).subset (visible ▸ List.mem_cons_self)
    exact later c member (List.cons.inj same).1

/- Neither does any other name before a colon. -/
theorem delayHere?_name (word : ∀ c ∈ name, Text.isWord c = true) (other : Text.lower name ≠ "delay".toList)
    (blank : ∀ c ∈ gap, Text.isBlank c = true) (more : List Char) :
    delayHere? (name ++ (gap ++ ':' :: more)) = none := by
  have barrier : Barrier (gap ++ ':' :: more) := by
    cases gap with
    | nil => exact barrier_cons (by decide) more
    | cons c rest => exact barrier_blank (blank c List.mem_cons_self) _
  refine delayHere?_none fun left rest found same => ?_
  rw [afterKeyword_append barrier] at found
  obtain ⟨left, met, rfl⟩ := Option.map_eq_some_iff.1 found
  cases left with
  | nil =>
    obtain ⟨front, rfl, same⟩ := lower_of_afterKeyword (fun _ listed => listed) met
    rw [List.append_nil] at other
    exact other same
  | cons c left =>
    obtain ⟨front, parts, -⟩ := Text.afterKeyword_cases met
    have member : Text.isWord c = true := word c (parts ▸ List.mem_append_right front List.mem_cons_self)
    rw [List.cons_append, Text.dropBlank_cons (Text.seen_of_word member)] at same
    rw [(List.cons.inj same).1] at member
    exact absurd member (by decide +kernel)

/- A value that is no delay is none behind its name either. -/
theorem delayHere?_label (labelled : Label label) (next : delayHere? more = none) :
    delayHere? (label ++ more) = none := by
  cases labelled with
  | blank first =>
    cases label with
    | nil => exact next
    | cons c rest => exact delayHere?_barrier (barrier_blank (first c List.mem_cons_self) _)
  | @named lead name gap behind first word other between last =>
    cases lead with
    | nil =>
      rw [List.nil_append, List.append_assoc, List.append_assoc]
      exact delayHere?_name word other between _
    | cons c rest => exact delayHere?_barrier (barrier_blank (first c List.mem_cons_self) _)

/- No item is a delay. -/
theorem delayHere?_item (item : Item) (ends : Ends more) : delayHere? (item.text ++ more) = none := by
  cases item with
  | bare text plain => exact delayHere?_bare (fun c member => (plain c member).2.2) ends
  | quoted q =>
    rw [Item.text, Quotation.text, List.append_assoc]
    exact delayHere?_label q.labelled (delayHere?_barrier (barrier_quote q.marked _))

end Dull

section Search

variable {before front label more : List Char} {c : Char}

theorem takeDelay?_step (none : delayAt? before.isEmpty (c :: more) = none) :
    takeDelay? before (c :: more) = takeDelay? (before ++ [c]) more := by
  rw [takeDelay?, none]

theorem delayAt?_letter (seen : Text.isBlank c = false) (comma : c ≠ ',') {start : Bool}
    (here : start = true → delayHere? (c :: more) = none) : delayAt? start (c :: more) = none := by
  cases start with
  | false => simp [delayAt?, seen, comma]
  | true => simp [delayAt?, seen, comma, here rfl]

/- The search goes past a text if no delay stands at the places in it. -/
theorem takeDelay?_dull (dull : ∀ s, s <:+ front → delayHere? (s ++ more) = none) :
    takeDelay? before (front ++ more) = takeDelay? (before ++ front) more := by
  induction front generalizing before with
  | nil => rw [List.append_nil, List.nil_append]
  | cons c rest ih =>
    have here : delayHere? (c :: (rest ++ more)) = none := dull _ (List.suffix_refl _)
    have next : delayHere? (rest ++ more) = none := dull rest (List.suffix_cons c rest)
    have none : delayAt? before.isEmpty (c :: (rest ++ more)) = none := by
      rw [delayAt?, here, next]
      simp
    rw [List.cons_append, takeDelay?_step none, ih fun s part => dull s (part.trans (List.suffix_cons c rest)),
      ← List.append_cons]

/- It goes past a text without blanks and commas if it does not stand at the start of all. -/
theorem takeDelay?_run (started : before ≠ []) (run : ∀ c ∈ front, Text.isBlank c = false ∧ c ≠ ',') :
    takeDelay? before (front ++ more) = takeDelay? (before ++ front) more := by
  induction front generalizing before with
  | nil => rw [List.append_nil, List.nil_append]
  | cons c rest ih =>
    obtain ⟨⟨seen, comma⟩, later⟩ := List.forall_mem_cons.1 run
    have none : delayAt? before.isEmpty (c :: (rest ++ more)) = none :=
      delayAt?_letter seen comma fun empty => absurd (List.isEmpty_iff.1 empty) started
    have begun : before ++ [c] ≠ [] := List.append_ne_nil_of_right_ne_nil _ (List.cons_ne_nil c [])
    rw [List.cons_append, takeDelay?_step none, ih begun later, ← List.append_cons]

/- So it goes past blanks with no delay behind them. -/
theorem takeDelay?_blank (blank : ∀ c ∈ front, Text.isBlank c = true) (next : delayHere? more = none) :
    takeDelay? before (front ++ more) = takeDelay? (before ++ front) more := by
  refine takeDelay?_dull fun s part => ?_
  cases s with
  | nil => exact next
  | cons c rest => exact delayHere?_barrier (barrier_blank (blank c (part.subset List.mem_cons_self)) _)

theorem takeDelay?_name (word : ∀ c ∈ front, Text.isWord c = true) (here : delayHere? (front ++ more) = none) :
    takeDelay? before (front ++ more) = takeDelay? (before ++ front) more := by
  have run : ∀ c ∈ front, Text.isBlank c = false ∧ c ≠ ',' := by
    intro c member
    refine ⟨Text.seen_of_word (word c member), ?_⟩
    rintro rfl
    exact absurd (word _ member) (by decide +kernel)
  cases front with
  | nil => rw [List.append_nil, List.nil_append]
  | cons c rest =>
    obtain ⟨⟨seen, comma⟩, later⟩ := List.forall_mem_cons.1 run
    have none : delayAt? before.isEmpty (c :: (rest ++ more)) = none :=
      delayAt?_letter seen comma fun _ => here
    rw [List.cons_append, takeDelay?_step none, takeDelay?_run (by simp) later, ← List.append_cons]

/- It goes past the name before a value that is no delay. -/
theorem takeDelay?_label (labelled : Label label) (next : delayHere? more = none) :
    takeDelay? before (label ++ more) = takeDelay? (before ++ label) more := by
  cases labelled with
  | blank first => exact takeDelay?_blank first next
  | @named lead name gap behind first word other between last =>
    have named := delayHere?_name word other between (behind ++ more)
    have colon : delayHere? (':' :: (behind ++ more)) = none := delayHere?_barrier (barrier_cons (by decide) _)
    have sign : ∀ start, delayAt? start (':' :: (behind ++ more)) = none := fun start =>
      delayAt?_letter (by decide) (by decide) fun _ => colon
    have parts : before ++ (lead ++ (name ++ (gap ++ ':' :: behind))) =
        before ++ lead ++ name ++ gap ++ [':'] ++ behind := by simp
    rw [parts]
    simp only [List.append_assoc lead, List.append_assoc name, List.append_assoc gap, List.cons_append]
    rw [takeDelay?_blank first named, takeDelay?_name word named, takeDelay?_blank between colon,
      takeDelay?_step (sign _), takeDelay?_blank last next]

end Search

section Value

variable {before s more eaten rest : List Char} {mark : Char}

/-- A text without the comma at its start. -/
def behindComma (cs : List Char) : List Char :=
  match cs with
  | ',' :: rest => rest
  | _ => cs

/-- The sign of a number and what follows it. -/
def signed (number : List Char) : List Char × List Char :=
  match number with
  | '-' :: body => (['-'], body)
  | _ => ([], number)

/-- Reads the number of a delay behind the colon. -/
def delayNumber? (cs : List Char) : Option (List Char × List Char) :=
  let (sign, body) := signed (dropQuote (Text.dropBlank cs))
  let digits := body.takeWhile Text.isDigit
  if digits.isEmpty then none
  else some (sign ++ digits, behindComma (Text.dropBlank (dropQuote (body.dropWhile Text.isDigit))))

theorem delayHere?_eq (cs : List Char) : delayHere? cs = (Text.afterKeyword "delay".toList cs).bind fun left =>
    match Text.dropBlank left with
    | ':' :: rest => delayNumber? rest
    | _ => none := by
  rw [delayHere?]
  cases Text.afterKeyword "delay".toList cs with
  | none => rfl
  | some left =>
    dsimp only [Option.bind_eq_bind, Option.bind_some]
    generalize Text.dropBlank left = visible
    cases visible with
    | nil => rfl
    | cons c rest =>
      by_cases colon : c = ':'
      · rw [colon]
        rfl
      · simp [colon]

/-- The text does not go on with a number. -/
def Stop (more : List Char) : Prop := ∀ c, more.head? = some c → c ≠ '-' ∧ Text.isDigit c = false

theorem span_append_stop {holds : Char → Bool} {c : Char} (stop : holds c = false) (cs more : List Char) :
    (cs ++ c :: more).takeWhile holds = cs.takeWhile holds ∧
      (cs ++ c :: more).dropWhile holds = cs.dropWhile holds ++ c :: more := by
  induction cs with
  | nil =>
    have other := Bool.eq_false_iff.1 stop
    exact ⟨List.takeWhile_cons_of_neg other, List.dropWhile_cons_of_neg other⟩
  | cons d rest ih =>
    rw [List.cons_append, List.takeWhile_cons, List.takeWhile_cons, List.dropWhile_cons, List.dropWhile_cons]
    split
    · exact ⟨congrArg (d :: ·) ih.1, ih.2⟩
    · exact ⟨rfl, rfl⟩

theorem mark_cases (marked : isQuote mark = true) : mark = '"' ∨ mark = '\'' := by
  rwa [isQuote, Bool.or_eq_true, beq_iff_eq, beq_iff_eq] at marked

theorem signed_append (marked : isQuote mark = true) (s more : List Char) :
    signed (s ++ mark :: more) = ((signed s).1, (signed s).2 ++ mark :: more) := by
  cases s with
  | nil => rcases mark_cases marked with rfl | rfl <;> rfl
  | cons c rest =>
    by_cases minus : c = '-'
    · rw [minus]
      rfl
    · simp [signed, minus]

theorem behindComma_append (marked : isQuote mark = true) (s more : List Char) :
    behindComma (s ++ mark :: more) = behindComma s ++ mark :: more := by
  cases s with
  | nil => rcases mark_cases marked with rfl | rfl <;> rfl
  | cons c rest =>
    by_cases comma : c = ','
    · rw [comma]
      rfl
    · simp [behindComma, comma]

theorem dropQuote_append (s more : List Char) (c : Char) :
    dropQuote (c :: (s ++ more)) = dropQuote (c :: s) ++ more := by
  rw [dropQuote, dropQuote]
  split <;> rfl

theorem dropQuote_suffix (cs : List Char) : dropQuote cs <:+ cs := by
  cases cs with
  | nil => exact List.suffix_refl []
  | cons c rest =>
    rw [dropQuote]
    split
    · exact List.suffix_cons c rest
    · exact List.suffix_refl _

theorem signed_suffix (cs : List Char) : (signed cs).2 <:+ cs := by
  unfold signed
  split
  · exact List.suffix_cons _ _
  · exact List.suffix_refl _

theorem behindComma_suffix (cs : List Char) : behindComma cs <:+ cs := by
  unfold behindComma
  split
  · exact List.suffix_cons _ _
  · exact List.suffix_refl _

theorem seen_mark (marked : isQuote mark = true) :
    Text.isBlank mark = false ∧ Text.isDigit mark = false ∧ mark ≠ ',' := by
  rcases mark_cases marked with rfl | rfl <;> decide +kernel

/- Within quotes the number of a delay is not found, or it is found and the closing quote is left, or the
closing quote is taken for one around the number; what follows the quote makes no difference. -/
theorem delayNumber?_quoted (marked : isQuote mark = true) (s : List Char) :
    (∀ more, Stop more → delayNumber? (s ++ mark :: more) = none) ∨
      (∃ number rest, rest <:+ s ∧
        ∀ more, delayNumber? (s ++ mark :: more) = some (number, rest ++ mark :: more)) ∨
      ∃ number, ∀ more,
        delayNumber? (s ++ mark :: more) = some (number, behindComma (Text.dropBlank more)) := by
  obtain ⟨seen, digit, -⟩ := seen_mark marked
  cases visible : Text.dropBlank s with
  | nil =>
    refine .inl fun more stop => ?_
    have taken : dropQuote (mark :: more) = more := if_pos marked
    have bare : signed more = ([], more) := by
      cases more with
      | nil => rfl
      | cons c rest => simp [signed, (stop c rfl).1]
    have none : more.takeWhile Text.isDigit = [] := by
      cases more with
      | nil => rfl
      | cons c rest => exact List.takeWhile_cons_of_neg (Bool.eq_false_iff.1 (stop c rfl).2)
    rw [delayNumber?, Text.dropBlank_append_cons seen, visible, List.nil_append, taken, bare]
    dsimp only
    rw [none]
    rfl
  | cons c others =>
    generalize shape : signed (dropQuote (c :: others)) = number
    obtain ⟨sign, body⟩ := number
    have shape' : ∀ more, signed (dropQuote (Text.dropBlank (s ++ mark :: more))) =
        (sign, body ++ mark :: more) := by
      intro more
      rw [Text.dropBlank_append_cons seen, visible, List.cons_append, dropQuote_append, signed_append marked,
        shape]
    have within : body <:+ s := by
      have number := (signed_suffix (dropQuote (c :: others))).trans (dropQuote_suffix _)
      rw [shape, ← visible] at number
      exact number.trans (List.dropWhile_suffix _)
    cases digits : body.takeWhile Text.isDigit with
    | nil =>
      refine .inl fun more _ => ?_
      rw [delayNumber?, shape']
      dsimp only
      rw [(span_append_stop digit body more).1, digits]
      rfl
    | cons d ds =>
      cases left : body.dropWhile Text.isDigit with
      | nil =>
        refine .inr (.inr ⟨sign ++ d :: ds, fun more => ?_⟩)
        rw [delayNumber?, shape']
        dsimp only
        have taken : dropQuote (mark :: more) = more := if_pos marked
        rw [(span_append_stop digit body more).1, (span_append_stop digit body more).2, digits, left,
          List.nil_append, taken]
        rfl
      | cons e rest =>
        refine .inr (.inl
          ⟨sign ++ d :: ds, behindComma (Text.dropBlank (dropQuote (e :: rest))), ?_, fun more => ?_⟩)
        · have behind := ((behindComma_suffix _).trans (List.dropWhile_suffix Text.isBlank)).trans
            (dropQuote_suffix (e :: rest))
          have tail : e :: rest <:+ body := left ▸ List.dropWhile_suffix _
          exact (behind.trans tail).trans within
        · rw [delayNumber?, shape']
          dsimp only
          rw [(span_append_stop digit body more).1, (span_append_stop digit body more).2, digits, left,
            List.cons_append, dropQuote_append, Text.dropBlank_append_cons seen, behindComma_append marked]
          rfl

theorem delayHere?_quoted (marked : isQuote mark = true) (s : List Char) :
    (∀ more, Stop more → delayHere? (s ++ mark :: more) = none) ∨
      (∃ number rest, rest <:+ s ∧
        ∀ more, delayHere? (s ++ mark :: more) = some (number, rest ++ mark :: more)) ∨
      ∃ number, ∀ more,
        delayHere? (s ++ mark :: more) = some (number, behindComma (Text.dropBlank more)) := by
  have seen := (seen_mark marked).1
  have word : ∀ more, Text.afterKeyword "delay".toList (s ++ mark :: more) =
      (Text.afterKeyword "delay".toList s).map (· ++ mark :: more) := fun more =>
    afterKeyword_append (barrier_quote marked more)
  cases found : Text.afterKeyword "delay".toList s with
  | none =>
    refine .inl fun more _ => ?_
    rw [delayHere?_eq, word, found]
    rfl
  | some left =>
    obtain ⟨front, parts, -⟩ := lower_of_afterKeyword (fun _ listed => listed) found
    have here : ∀ more, delayHere? (s ++ mark :: more) = match Text.dropBlank left ++ mark :: more with
        | ':' :: rest => delayNumber? rest
        | _ => none := by
      intro more
      rw [delayHere?_eq, word, found, Option.map_some, Option.bind_some, Text.dropBlank_append_cons seen]
    simp only [here]
    have within : Text.dropBlank left <:+ s := (List.dropWhile_suffix _).trans ⟨front, parts.symm⟩
    cases visible : Text.dropBlank left with
    | nil =>
      refine .inl fun more _ => ?_
      rcases mark_cases marked with rfl | rfl <;> rfl
    | cons c rest =>
      rw [visible] at within
      by_cases colon : c = ':'
      · subst colon
        refine (delayNumber?_quoted marked rest).imp_right (Or.imp_left ?_)
        rintro ⟨number, left, part, read⟩
        exact ⟨number, left, (part.trans (List.suffix_cons _ _)).trans within, read⟩
      · refine .inl fun more _ => ?_
        rw [List.cons_append]
        split
        · rename_i same
          exact absurd (List.cons.inj same).1 colon
        · rfl

/-- The last delay that a search through the text comes upon reaches to its end. -/
def endsInDelay : List Char → Bool
  | [] => false
  | c :: cs =>
    match delayAt? false (c :: cs) with
    | some (_, after) =>
      after.isEmpty || if after.length < (c :: cs).length then endsInDelay after else endsInDelay cs
    | none => endsInDelay cs
termination_by cs => cs.length
decreasing_by all_goals simp only [List.length_cons] at *; omega

theorem endsInDelay_step {c : Char} {cs : List Char} (none : delayAt? false (c :: cs) = none) :
    endsInDelay (c :: cs) = endsInDelay cs := by
  rw [endsInDelay, none]

theorem endsInDelay_jump {number after : List Char} {c : Char} {cs : List Char}
    (found : delayAt? false (c :: cs) = some (number, after)) (part : after <:+ cs) (some_left : after ≠ []) :
    endsInDelay (c :: cs) = endsInDelay after := by
  have shorter : after.length < (c :: cs).length := Nat.lt_succ_of_le part.length_le
  rw [endsInDelay, found]
  dsimp only
  rw [if_pos shorter, List.isEmpty_eq_false_iff.2 some_left, Bool.false_or]

theorem endsInDelay_last {number : List Char} {c : Char} {cs : List Char}
    (found : delayAt? false (c :: cs) = some (number, [])) : endsInDelay (c :: cs) = true := by
  rw [endsInDelay, found]
  rfl

/- Within quotes the search goes on behind the delay that it comes upon. -/
theorem takeDelay?_jump {number taken after : List Char} {c : Char} {cs : List Char}
    (found : delayAt? before.isEmpty (c :: cs) = some (number, after)) (quoted : endsQuoted before = true)
    (parts : cs = taken ++ after) : takeDelay? before (c :: cs) = takeDelay? (before ++ c :: taken) after := by
  have shorter : after.length < (c :: cs).length := by
    rw [parts, List.length_cons, List.length_append]
    omega
  have jumped : (c :: cs).take ((c :: cs).length - after.length) = c :: taken := by
    rw [parts, ← List.cons_append]
    refine List.take_left' ?_
    rw [List.length_append, Nat.add_sub_cancel]
  rw [takeDelay?, found]
  dsimp only
  rw [quoted, if_neg (by decide), if_pos shorter, jumped]

/- A search through a quoted value goes past the closing quote, together with the comma behind it if the value
ends in a delay. By induction on what is left of the value. -/
theorem takeDelay?_value (opened : (followed before).1 = some mark) (marked : isQuote mark = true)
    (absent : mark ∉ s) (stop : Stop more) (parts : more = eaten ++ rest)
    (behind : behindComma (Text.dropBlank more) = rest) :
    takeDelay? before (s ++ mark :: more) =
      if endsInDelay (s ++ [mark]) then takeDelay? (before ++ (s ++ mark :: eaten)) rest
      else takeDelay? (before ++ (s ++ [mark])) more := by
  induction long : s.length using Nat.strongRecOn generalizing before s with
  | ind n ih =>
    obtain ⟨seen, -, comma⟩ := seen_mark marked
    have started : before ≠ [] := by
      rintro rfl
      cases opened
    have start : before.isEmpty = false := by simpa using started
    have quoted : endsQuoted before = true := by rw [endsQuoted_eq, opened]; rfl
    cases s with
    | nil =>
      have none : ∀ more, delayAt? false (mark :: more) = none := fun more =>
        delayAt?_letter seen comma nofun
      have here : endsInDelay [mark] = false := by rw [endsInDelay_step (none []), endsInDelay]
      rw [List.nil_append, List.nil_append, here, takeDelay?_step (by rw [start]; exact none more)]
      rfl
    | cons c s =>
      obtain ⟨other, absent⟩ := not_or.1 (mt List.mem_cons.2 absent)
      have opened' : ∀ {taken : List Char}, mark ∉ taken → (followed (before ++ taken)).1 = some mark :=
        quoted_within opened
      have step : (∀ more, Stop more → delayAt? false (c :: (s ++ mark :: more)) = none) →
          takeDelay? before (c :: s ++ mark :: more) =
            if endsInDelay (c :: s ++ [mark]) then takeDelay? (before ++ (c :: s ++ mark :: eaten)) rest
            else takeDelay? (before ++ (c :: s ++ [mark])) more := by
        intro none
        have here : endsInDelay (c :: s ++ [mark]) = endsInDelay (s ++ [mark]) :=
          endsInDelay_step (none [] nofun)
        have within : (followed (before ++ [c])).1 = some mark := opened' (by simpa using other)
        have later := ih s.length (long ▸ Nat.lt_succ_self s.length) within absent rfl
        rw [here, List.cons_append, takeDelay?_step (by rw [start]; exact none more stop), later]
        simp
      by_cases edge : Text.isBlank c = true ∨ c = ','
      · have at_edge : ∀ cs, delayAt? false (c :: cs) = delayHere? cs := by
          intro cs
          simp [delayAt?, edge]
        rcases delayHere?_quoted marked s with none | ⟨number, left, part, found⟩ | ⟨number, found⟩
        · exact step fun more stop => (at_edge _).trans (none more stop)
        · obtain ⟨taken, rfl⟩ := part
          obtain ⟨first, second⟩ := not_or.1 (mt List.mem_append.2 absent)
          have jump : takeDelay? before (c :: (taken ++ left ++ mark :: more)) =
              takeDelay? (before ++ c :: taken) (left ++ mark :: more) :=
            takeDelay?_jump (by rw [start, at_edge, found]) quoted (List.append_assoc _ _ _)
          have here : endsInDelay (c :: (taken ++ left ++ [mark])) = endsInDelay (left ++ [mark]) :=
            endsInDelay_jump ((at_edge _).trans (found [])) ⟨taken, (List.append_assoc _ _ _).symm⟩ (by simp)
          have within : (followed (before ++ c :: taken)).1 = some mark := opened' (by simp [other, first])
          have fewer : left.length < n := by
            rw [← long, List.length_cons, List.length_append]
            omega
          have later := ih left.length fewer within second rfl
          rw [List.cons_append, List.cons_append, jump, here, later]
          simp
        · have jump : takeDelay? before (c :: (s ++ mark :: more)) =
              takeDelay? (before ++ c :: (s ++ mark :: eaten)) rest := by
            refine takeDelay?_jump (by rw [start, at_edge, found, behind]) quoted ?_
            rw [parts]
            simp
          have here : endsInDelay (c :: (s ++ [mark])) = true :=
            endsInDelay_last ((at_edge _).trans (found []))
          rw [List.cons_append, List.cons_append, jump, here]
          rfl
      · obtain ⟨seen, comma⟩ := not_or.1 edge
        exact step fun more _ => delayAt?_letter (Bool.eq_false_iff.2 seen) comma nofun

end Value

end Action

/-- The value of the item ends in a delay, as the search through it has it. -/
def Params.Item.endsInDelay : Params.Item → Bool
  | .bare _ _ => false
  | .quoted q => Action.endsInDelay (q.value ++ [q.mark])

namespace Action

open Params (isQuote Item Label Quotation texts listed led trailed)

section Items

variable {before rest : List Char}

theorem stop_of_blank {more trail : List Char} (blank : ∀ c ∈ trail, Text.isBlank c = true)
    (ends : Ends more) : Stop (trail ++ more) := by
  have apart : ∀ c ∈ Text.blankChars, c ≠ '-' ∧ Text.isDigit c = false :=
    List.all_iff_forall_prop.1 (by decide +kernel)
  cases trail with
  | nil =>
    rcases ends with rfl | ⟨rest, rfl⟩
    · exact nofun
    · intro c first
      cases first
      decide +kernel
  | cons d trail =>
    intro c first
    cases first
    exact apart d (Text.mem_blankChars (blank d List.mem_cons_self))

/- The search comes to the value of an item. -/
theorem takeDelay?_opening (q : Quotation) (more : List Char) :
    takeDelay? before (q.text ++ more) =
      takeDelay? (before ++ q.label ++ [q.mark]) (q.value ++ q.mark :: (q.trail ++ more)) := by
  obtain ⟨seen, -, comma⟩ := seen_mark q.marked
  have parts : q.text ++ more = q.label ++ q.mark :: (q.value ++ q.mark :: (q.trail ++ more)) := by
    simp [Quotation.text]
  have quote : ∀ cs, delayHere? (q.mark :: cs) = none := fun cs => delayHere?_barrier (barrier_quote q.marked cs)
  rw [parts, takeDelay?_label q.labelled (quote _), takeDelay?_step]
  exact delayAt?_letter seen comma fun _ => quote _

/- It goes past an item, and past the comma behind it too if the value of the item ends in a delay. -/
theorem takeDelay?_item (fresh : Fresh before) (item : Item) (rest : List Char) :
    takeDelay? before (item.text ++ ',' :: rest) =
      if item.endsInDelay then takeDelay? (before ++ (item.text ++ [','])) rest
      else takeDelay? (before ++ item.text) (',' :: rest) := by
  have ends : Ends (',' :: rest) := .inr ⟨rest, rfl⟩
  cases item with
  | bare text plain =>
    exact takeDelay?_dull fun s part =>
      delayHere?_bare (fun c member => (plain c (part.subset member)).2.2) ends
  | quoted q =>
    have opened := (fresh.label q.labelled).opens q.marked
    have parts : q.trail ++ ',' :: rest = q.trail ++ [','] ++ rest := List.append_cons _ _ _
    have behind : behindComma (Text.dropBlank (q.trail ++ ',' :: rest)) = rest := by
      rw [Text.dropBlank_append_of_blank q.blank]
      rfl
    rw [Item.text, takeDelay?_opening,
      takeDelay?_value opened q.marked q.whole (stop_of_blank q.blank ends) parts behind, Item.endsInDelay,
      takeDelay?_blank q.blank (delayHere?_barrier ends.barrier)]
    simp [Quotation.text]

theorem takeDelay?_last (fresh : Fresh before) (item : Item) : takeDelay? before item.text = none := by
  cases item with
  | bare text plain =>
    have past : takeDelay? before (text ++ []) = takeDelay? (before ++ text) [] :=
      takeDelay?_dull fun s part =>
        delayHere?_bare (fun c member => (plain c (part.subset member)).2.2) (.inl rfl)
    rw [List.append_nil] at past
    rw [Item.text, past, takeDelay?]
  | quoted q =>
    have opened := (fresh.label q.labelled).opens q.marked
    have parts : q.trail ++ [] = q.trail ++ [] := rfl
    have behind : behindComma (Text.dropBlank (q.trail ++ [])) = [] := by
      rw [Text.dropBlank_append_of_blank q.blank]
      rfl
    have whole : q.text = q.text ++ [] := (List.append_nil _).symm
    rw [Item.text, whole, takeDelay?_opening,
      takeDelay?_value opened q.marked q.whole (stop_of_blank q.blank (.inl rfl)) parts behind,
      takeDelay?_blank q.blank (delayHere?_barrier barrier_nil), takeDelay?, takeDelay?, ite_self]

theorem takeDelay?_comma (next : delayHere? rest = none) :
    takeDelay? before (',' :: rest) = takeDelay? (before ++ [',']) rest := by
  refine takeDelay?_step ?_
  have here : delayHere? (',' :: rest) = none := delayHere?_barrier (barrier_cons (by decide) rest)
  rw [delayAt?, here, next]
  simp

theorem takeDelay?_led (fresh : Fresh before) (items : List Item) (next : delayHere? rest = none) :
    takeDelay? before (led (texts items) ++ rest) = takeDelay? (before ++ led (texts items)) rest := by
  induction items generalizing before with
  | nil => rw [Params.texts_nil, led, List.flatMap_nil, List.append_nil, List.nil_append]
  | cons item more ih =>
    have dull : delayHere? (led (texts more) ++ rest) = none := by
      cases more with
      | nil => exact next
      | cons item more =>
        have parts : led (texts (item :: more)) ++ rest =
            item.text ++ ',' :: (led (texts more) ++ rest) := by simp [led]
        rw [parts]
        exact delayHere?_item item (.inr ⟨_, rfl⟩)
    have parts : led (texts (item :: more)) ++ rest =
        item.text ++ ',' :: (led (texts more) ++ rest) := by simp [led]
    rw [parts, takeDelay?_item fresh, takeDelay?_comma dull, List.append_assoc, ite_self, ih (fresh.item item)]
    simp [led]

theorem ends_trailed (pieces : List (List Char)) : Ends (trailed pieces) := by
  cases pieces with
  | nil => exact .inl rfl
  | cons text more => exact .inr ⟨_, Params.trailed_cons text more⟩

theorem delayHere?_listed (items : List Item) : delayHere? (listed (texts items)) = none := by
  cases items with
  | nil => exact delayHere?_barrier barrier_nil
  | cons item more =>
    rw [Params.texts_cons, Params.listed_cons]
    exact delayHere?_item item (ends_trailed _)

/- There is no delay in a list of items. -/
theorem takeDelay?_listed (fresh : Fresh before) (items : List Item) :
    takeDelay? before (listed (texts items)) = none := by
  rcases List.eq_nil_or_concat items with rfl | ⟨front, last, rfl⟩
  · rw [Params.texts_nil, listed, List.intercalate_nil, takeDelay?]
  · have parts : listed (texts (front ++ [last])) = led (texts front) ++ last.text := by
      rw [Params.texts_append, Params.texts_cons, Params.texts_nil, Params.listed_append, Params.listed_single]
    have dull : delayHere? last.text = none := by
      have none := delayHere?_listed [last]
      rwa [Params.texts_cons, Params.texts_nil, Params.listed_single] at none
    rw [List.concat_eq_append, parts, takeDelay?_led fresh front dull, takeDelay?_last (fresh.led front)]

end Items

end Action

end ChatStory
