import ChatStory.Proofs.Action.DelaySearch
import Mathlib.Data.List.Induction

/-!
The two readers of quotes. A list of parameters is split at the commas outside of quotes, and a quote may open
anywhere in it. The search for the delay follows the quotes of the same list, and there a quote opens only where a
value can start. So an apostrophe in a bare word opens a quote for the first reader alone, and the commas behind it
are read in two ways.
-/
namespace ChatStory

namespace Params

variable {quote : Option Char} {cs before after : List Char}

instance (cs : List Char) : Decidable (Closed cs) := inferInstanceAs (Decidable (_ = _))

theorem listed_modifyHead {pieces : List (List Char)} (some_piece : pieces ≠ []) (c : Char) :
    listed (pieces.modifyHead (c :: ·)) = c :: listed pieces := by
  obtain ⟨first, rest, rfl⟩ := List.exists_cons_of_ne_nil some_piece
  rw [List.modifyHead_cons, listed_cons, listed_cons, List.cons_append]

theorem listed_nil_cons {pieces : List (List Char)} (some_piece : pieces ≠ []) :
    listed ([] :: pieces) = ',' :: listed pieces := by
  obtain ⟨first, rest, rfl⟩ := List.exists_cons_of_ne_nil some_piece
  rw [listed_cons, List.nil_append, trailed_cons]

/- The items with commas between them are the text again. -/
theorem listed_splitItems (quote : Option Char) (cs : List Char) : listed (splitItems quote cs) = cs := by
  induction cs generalizing quote with
  | nil => exact listed_single []
  | cons c rest ih =>
    rw [splitItems_cons]
    split
    · rename_i ends
      rw [listed_nil_cons (splitItems_ne_nil none rest), ih, ends.2]
    · rw [listed_modifyHead (splitItems_ne_nil _ rest), ih]

/-- A list is cut at the comma between two texts: its items are those of the one text, and behind them those of
the other. -/
def CutBetween (before after : List Char) : Prop :=
  ∃ front back, splitItems none (before ++ ',' :: after) = front ++ back ∧ front ≠ [] ∧ back ≠ [] ∧
    listed front = before ∧ listed back = after

/- No quote is open at a comma where the list is cut. By induction on the text before the comma, with the quote that
is open at its start. -/
theorem closed_of_cut {front back : List (List Char)}
    (parts : splitItems quote (before ++ ',' :: after) = front ++ back) (some_item : front ≠ [])
    (same : listed front = before) : before.foldl openQuote quote = none := by
  induction before generalizing quote front with
  | nil =>
    obtain ⟨item, items, rfl⟩ := List.exists_cons_of_ne_nil some_item
    rw [listed_cons, List.append_eq_nil_iff] at same
    rw [List.nil_append, splitItems_cons, List.cons_append] at parts
    split at parts
    · rename_i ends
      exact ends.1
    · obtain ⟨first, rest, shape⟩ := List.exists_cons_of_ne_nil (splitItems_ne_nil (openQuote quote ',') after)
      rw [shape, List.modifyHead_cons, same.1] at parts
      cases (List.cons.inj parts).1
  | cons c rest ih =>
    obtain ⟨item, items, rfl⟩ := List.exists_cons_of_ne_nil some_item
    rw [List.cons_append, splitItems_cons, List.cons_append] at parts
    split at parts
    · rename_i ends
      obtain ⟨rfl, rfl⟩ := ends
      obtain ⟨rfl, later⟩ := List.cons.inj parts
      have more : items ≠ [] := by
        rintro rfl
        cases same
      rw [listed_nil_cons more] at same
      have closed : rest.foldl openQuote none = none := ih later more (List.cons.inj same).2
      exact closed
    · obtain ⟨first, others, shape⟩ := List.exists_cons_of_ne_nil
        (splitItems_ne_nil (openQuote quote c) (rest ++ ',' :: after))
      rw [shape, List.modifyHead_cons] at parts
      obtain ⟨rfl, later⟩ := List.cons.inj parts
      rw [listed_cons, List.cons_append] at same
      have parts' : splitItems (openQuote quote c) (rest ++ ',' :: after) = (first :: items) ++ back := by
        rw [shape, later, List.cons_append]
      have same' : listed (first :: items) = rest := by
        rw [listed_cons, (List.cons.inj same).2]
      exact ih parts' (List.cons_ne_nil _ _) same'

theorem cutBetween_iff : CutBetween before after ↔ Closed before := by
  constructor
  · rintro ⟨front, back, parts, some_item, -, same, -⟩
    exact closed_of_cut parts some_item same
  · intro closed
    exact ⟨splitItems none before, splitItems none after, splitItems_comma closed after,
      splitItems_ne_nil none before, splitItems_ne_nil none after, listed_splitItems none before,
      listed_splitItems none after⟩

/-- A quote that opened where it may open is still open at the end of the text. -/
def HeldOpen (mayOpen : List Char → Prop) (cs : List Char) : Prop :=
  ∃ front mark value, cs = front ++ mark :: value ∧ isQuote mark = true ∧ mayOpen front ∧ mark ∉ value

/-- A reader of quotes: `state` is the quote that it takes to be open behind a text, and a mark behind a text that
`mayOpen` opens one. The same mark closes it. -/
structure QuoteReader (state : List Char → Option Char) (mayOpen : List Char → Prop) : Prop where
  start : state [] = none
  outside : ∀ front, mayOpen front → state front = none
  opens : ∀ front mark, isQuote mark = true → mayOpen front → state (front ++ [mark]) = some mark
  passes : ∀ front c, state front = none → ¬(isQuote c = true ∧ mayOpen front) → state (front ++ [c]) = none
  closes : ∀ front mark, state front = some mark → state (front ++ [mark]) = none
  holds : ∀ front mark c, state front = some mark → c ≠ mark → state (front ++ [c]) = some mark

namespace QuoteReader

variable {state : List Char → Option Char} {mayOpen : List Char → Prop} {front value : List Char} {mark : Char}

theorem held_within (reader : QuoteReader state mayOpen) (held : state front = some mark) (absent : mark ∉ value) :
    state (front ++ value) = some mark := by
  induction value generalizing front with
  | nil => rwa [List.append_nil]
  | cons c rest ih =>
    obtain ⟨first, later⟩ := not_or.1 (mt List.mem_cons.2 absent)
    rw [List.append_cons]
    exact ih (reader.holds front mark c held (Ne.symm first)) later

/- The quote that is open is the last one that has opened, and its mark has not come up again. By induction on the text
from its end. -/
theorem exists_opened (reader : QuoteReader state mayOpen) (held : state cs = some mark) :
    ∃ front value, cs = front ++ mark :: value ∧ isQuote mark = true ∧ mayOpen front ∧ mark ∉ value := by
  induction cs using List.reverseRecOn with
  | nil =>
    rw [reader.start] at held
    cases held
  | append_singleton cs c ih =>
    cases before : state cs with
    | none =>
      by_cases opening : isQuote c = true ∧ mayOpen cs
      · rw [reader.opens cs c opening.1 opening.2] at held
        cases held
        exact ⟨cs, [], rfl, opening.1, opening.2, List.not_mem_nil⟩
      · rw [reader.passes cs c before opening] at held
        cases held
    | some other =>
      by_cases closing : c = other
      · rw [closing, reader.closes cs other before] at held
        cases held
      · rw [reader.holds cs other c before closing] at held
        cases held
        obtain ⟨front, value, rfl, marked, opened, absent⟩ := ih before
        refine ⟨front, value ++ [c], by simp, marked, opened, fun member => ?_⟩
        rcases List.mem_append.1 member with within | last
        · exact absent within
        · exact closing (List.mem_singleton.1 last).symm

theorem isSome_iff (reader : QuoteReader state mayOpen) : (state cs).isSome = true ↔ HeldOpen mayOpen cs := by
  constructor
  · intro some_mark
    obtain ⟨mark, held⟩ := Option.isSome_iff_exists.1 some_mark
    obtain ⟨front, value, opened⟩ := reader.exists_opened held
    exact ⟨front, mark, value, opened⟩
  · rintro ⟨front, mark, value, rfl, marked, opened, absent⟩
    rw [List.append_cons, reader.held_within (reader.opens front mark marked opened) absent]
    rfl

end QuoteReader

/- The list of parameters lets a quote open wherever none is open. -/
theorem quoteReader_closed : QuoteReader (·.foldl openQuote none) Closed where
  start := rfl
  outside _ closed := closed
  opens front mark marked closed := by
    rw [List.foldl_append, closed]
    exact if_pos marked
  passes front c none plain := by
    rw [List.foldl_append, none]
    exact if_neg fun marked => plain ⟨marked, none⟩
  closes front mark held := by
    rw [List.foldl_append, held]
    exact if_pos (beq_self_eq_true mark)
  holds front mark c held other := by
    rw [List.foldl_append, held]
    exact if_neg fun met => other (beq_iff_eq.1 met)

end Params

namespace Action

open Params (isQuote openQuote Closed CutBetween HeldOpen QuoteReader)

variable {before cs word : List Char} {mark : Char}

/- Where no value can start, there is a last character, and it ends neither an item nor a name. -/
theorem exists_last_of_not_fresh (closed : (followed before).1 = none) (bare : ¬Fresh before) :
    ∃ c, (followed before).2 = some c ∧ c ≠ ',' ∧ c ≠ ':' := by
  by_contra none
  push Not at none
  refine bare ⟨closed, fun c last => ?_⟩
  by_cases comma : c = ','
  · exact .inl comma
  · exact .inr (none c last comma)

/- The search for the delay lets it open only where a value can start. -/
theorem quoteReader_fresh : QuoteReader (fun cs => (followed cs).1) Fresh where
  start := rfl
  outside _ fresh := fresh.unquoted
  opens _ _ marked fresh := fresh.opens marked
  passes front c closed bare := by
    rw [followed_snoc]
    by_cases marked : isQuote c = true
    · obtain ⟨d, last, other⟩ := exists_last_of_not_fresh closed fun fresh => bare ⟨marked, fresh⟩
      generalize followed front = state at closed last
      obtain ⟨quote, previous⟩ := state
      obtain rfl : quote = none := closed
      obtain rfl : previous = some d := last
      simp [quoteStep, other]
    · exact quoteStep_plain closed (Bool.eq_false_iff.2 marked)
  closes _ _ held := unquoted_close held
  holds front mark c held other := quoted_within held fun member => other (List.mem_singleton.1 member).symm

/-- No quote mark stands in a bare word: each one opens a value, closes it or stands within it. -/
def Straight (cs : List Char) : Prop :=
  ∀ front mark rest, cs = front ++ mark :: rest → isQuote mark = true → (followed front).1 = none → Fresh front

instance (cs : List Char) : Decidable (Fresh cs) :=
  decidable_of_iff ((followed cs).1 = none ∧ (followed cs).2.all fun c => c == ',' || c == ':')
    ⟨fun fresh => ⟨fresh.1, fun c last => by simpa [last] using fresh.2⟩,
      fun fresh => ⟨fresh.unquoted, by
        cases last : (followed cs).2 with
        | none => rfl
        | some c => simpa using fresh.starts c last⟩⟩

instance (cs : List Char) : Decidable (Straight cs) :=
  decidable_of_iff (∀ i : Fin cs.length, isQuote cs[i] = true → (followed (cs.take i)).1 = none →
      Fresh (cs.take i)) <| by
    constructor
    · rintro all front mark rest rfl marked closed
      have within : front.length < (front ++ mark :: rest).length := by simp
      simpa using all ⟨front.length, within⟩ (by simpa using marked) (by simpa using closed)
    · intro straight i marked closed
      exact straight _ _ (cs.drop (i + 1)) (by simp) marked closed

theorem Straight.front {more : List Char} (straight : Straight (cs ++ more)) : Straight cs := by
  intro front mark rest parts
  exact straight front mark (rest ++ more) (by rw [parts, List.append_assoc, List.cons_append])

/- Both readers have the same quote open everywhere in such a text. By induction on the text from its end. -/
theorem Straight.followed_eq (straight : Straight cs) : (followed cs).1 = cs.foldl openQuote none := by
  induction cs using List.reverseRecOn with
  | nil => rfl
  | append_singleton cs c ih =>
    have same := ih straight.front
    cases held : cs.foldl openQuote none with
    | some mark =>
      rw [held] at same
      by_cases closing : c = mark
      · rw [closing, quoteReader_fresh.closes cs mark same]
        exact (Params.quoteReader_closed.closes cs mark held).symm
      · rw [quoteReader_fresh.holds cs mark c same closing]
        exact (Params.quoteReader_closed.holds cs mark c held closing).symm
    | none =>
      rw [held] at same
      by_cases marked : isQuote c = true
      · have fresh := straight cs c [] rfl marked same
        rw [quoteReader_fresh.opens cs c marked fresh]
        exact (Params.quoteReader_closed.opens cs c marked held).symm
      · rw [quoteReader_fresh.passes cs c same fun opening => marked opening.1]
        exact (Params.quoteReader_closed.passes cs c held fun opening => marked opening.1).symm

theorem cutBetween_of_straight (straight : Straight before) (after : List Char) :
    CutBetween before after ↔ endsQuoted before = false := by
  rw [Params.cutBetween_iff, endsQuoted_eq, straight.followed_eq, Option.isSome_eq_false_iff,
    Option.isNone_iff_eq_none]
  rfl

/- If a comma behind any part of a text is read alike, then a mark opens a quote for both readers or for none. -/
theorem straight_of_cuts
    (alike : ∀ front, front <+: cs → ∀ after, CutBetween front after ↔ endsQuoted front = false) : Straight cs := by
  intro front mark rest parts marked closed
  by_contra bare
  have whole : front ++ mark :: rest = front ++ [mark] ++ rest := List.append_cons front mark rest
  have before := (alike front ⟨mark :: rest, parts.symm⟩ []).2 (by rw [endsQuoted_eq, closed]; rfl)
  have passed := quoteReader_fresh.passes front mark closed fun opening => bare opening.2
  have behind := (alike (front ++ [mark]) ⟨rest, (parts.trans whole).symm⟩ []).2
    (by rw [endsQuoted_eq]; exact congrArg Option.isSome passed)
  have opened := Params.quoteReader_closed.opens front mark marked (Params.cutBetween_iff.1 before)
  exact Option.some_ne_none mark (opened.symm.trans (Params.cutBetween_iff.1 behind))

/-- A quote mark behind the text stands in a bare word. -/
structure InWord (cs : List Char) : Prop where
  closed : Closed cs
  unquoted : (followed cs).1 = none
  bare : ¬Fresh cs

theorem InWord.swallows (within : InWord cs) (marked : isQuote mark = true) (plain : ∀ c ∈ word, isQuote c = false)
    (after : List Char) :
    ¬CutBetween (cs ++ mark :: word) after ∧ endsQuoted (cs ++ mark :: word) = false := by
  rw [List.append_cons]
  constructor
  · intro cut
    have absent : mark ∉ word := fun member => by
      rw [plain mark member] at marked
      cases marked
    have held := Params.quoteReader_closed.held_within
      (Params.quoteReader_closed.opens cs mark marked within.closed) absent
    exact Option.some_ne_none mark (held.symm.trans (Params.cutBetween_iff.1 cut))
  · have passed := quoteReader_fresh.passes cs mark within.unquoted fun opening => within.bare opening.2
    rw [endsQuoted_eq, unquoted_plain passed plain]
    rfl

/- The two readers agree at a comma exactly if a quote is open there for both or for none. They agree wherever a comma
may stand in a text or behind it exactly if no quote mark stands in a bare word of the text. Behind such a mark,
the list is not cut at the commas up to the next one, although none of them is quoted. -/
theorem commas_read_alike_iff (cs : List Char) :
    (∀ after, (CutBetween cs after ↔ endsQuoted cs = false) ↔ (HeldOpen Closed cs ↔ HeldOpen Fresh cs)) ∧
      ((∀ front, front <+: cs → ∀ after, CutBetween front after ↔ endsQuoted front = false) ↔ Straight cs) ∧
      ∀ mark word after, InWord cs → isQuote mark = true → (∀ c ∈ word, isQuote c = false) →
        ¬CutBetween (cs ++ mark :: word) after ∧ endsQuoted (cs ++ mark :: word) = false := by
  refine ⟨fun after => ?_, ⟨straight_of_cuts, fun straight front starts after => ?_⟩,
    fun mark word after within marked plain => within.swallows marked plain after⟩
  · have split : CutBetween cs after ↔ ¬HeldOpen Closed cs := by
      rw [Params.cutBetween_iff, ← Params.quoteReader_closed.isSome_iff, Option.not_isSome_iff_eq_none]
      rfl
    have followed : endsQuoted cs = false ↔ ¬HeldOpen Fresh cs := by
      rw [← quoteReader_fresh.isSome_iff, Bool.not_eq_true]
      rfl
    rw [split, followed, not_iff_not]
  · obtain ⟨more, rfl⟩ := starts
    exact cutBetween_of_straight straight.front after

/- A comma within quotes is read alike, and so is one in a text that has not closed them; not so behind the apostrophe
of a bare word. -/
theorem commas_read_alike_iff_titled :
    (Straight "text: \"well, no\", title: 'so".toList ∧ InWord "it".toList) ∧
      (¬CutBetween "text: \"well".toList " no\", title: 'so, what'".toList ∧
        CutBetween "text: \"well, no\"".toList " title: 'so, what'".toList ∧
        ¬CutBetween "text: \"well, no\", title: 'so".toList " what'".toList) ∧
      ¬CutBetween "it's late".toList " you know".toList ∧ endsQuoted "it's late".toList = false := by
  have straight : Straight "text: \"well, no\", title: 'so".toList := by decide +kernel
  have word : InWord "it".toList := ⟨by decide, by decide, by decide⟩
  have plain : "s late".toList.any isQuote = false := by decide +kernel
  have alike := (commas_read_alike_iff "text: \"well, no\", title: 'so".toList).2.1.2 straight
  refine ⟨⟨straight, word⟩, ⟨?_, ?_, ?_⟩, (commas_read_alike_iff "it".toList).2.2 '\'' "s late".toList _ word
    (by decide) fun c member => Bool.eq_false_iff.2 (List.any_eq_false.1 plain c member)⟩
  · rw [alike _ (by decide)]
    decide +kernel
  · rw [alike _ (by decide)]
    decide +kernel
  · rw [alike _ List.prefix_rfl]
    decide +kernel

/- The item behind the name is lost in it, and so is the action that needs both. -/
theorem apostrophe_swallows_item :
    ¬(CutBetween "Eli's phone".toList " offline".toList ↔ endsQuoted "Eli's phone".toList = false) ∧
      Params.splitItems none "Eli's phone, offline".toList = ["Eli's phone, offline".toList] ∧
      Params.read "Eli's phone, offline".toList = ⟨∅, ["Eli's phone, offline"]⟩ ∧
      (read "set_contact_status: Eli's phone, offline".toList).action = none ∧
      (read "set_contact_status: Eli's phone, offline".toList).findings =
        [.missingField "set_contact_status" "status"] := by
  refine ⟨fun alike => ?_, by decide +kernel, by decide +kernel, by decide +kernel, by decide +kernel⟩
  have closed := Params.cutBetween_iff.1 (alike.2 (by decide +kernel))
  exact absurd closed (by decide +kernel)

end Action

end ChatStory
