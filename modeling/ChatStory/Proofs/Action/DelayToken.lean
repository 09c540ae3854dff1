import ChatStory.Proofs.Action.DelaySearch
import ChatStory.Proofs.Decimal.Digits

/-!
The delay among the parameters of an action. It is taken out of the list together with the blank or comma
before it and the comma behind it, and one blank is put in its place.
-/
namespace ChatStory

/-- Two lists of parameters that differ in the one named after the delay at most. -/
structure Params.Alike (params others : Params) : Prop where
  positional : params.positional = others.positional
  named : ∀ name, name ≠ "delay" → params.named.get? name = others.named.get? name

namespace Action

open Params (isQuote Item texts listed led trailed)

section Token

variable {before after more : List Char} {n : Nat}

/-- The item that gives an action its delay. -/
def delayItem (n : Nat) : List Char := "delay: ".toList ++ Nat.toDigits 10 n

theorem delayItem_append (n : Nat) (more : List Char) :
    delayItem n ++ more = "delay".toList ++ ':' :: ' ' :: (Nat.toDigits 10 n ++ more) := by
  have letters : "delay: ".toList = "delay".toList ++ [':', ' '] := by decide
  unfold delayItem
  rw [letters, List.append_assoc, List.append_assoc]
  generalize Nat.toDigits 10 n = digits
  rfl

/-- A character of a number is none of the marks by which a list is read. -/
structure Numeral (c : Char) : Prop where
  seen : Text.isBlank c = false
  comma : c ≠ ','
  unquoted : isQuote c = false
  minus : c ≠ '-'
  digit : Text.isDigit c = true
  letter : c.toLower ∉ "delay".toList

theorem numeral_of_digit {c : Char} (digit : c.isDigit = true) : Numeral c := by
  have listed : c ∈ (List.range' 48 10).map Char.ofNat := by
    simp only [Char.isDigit, Bool.and_eq_true, decide_eq_true_eq, ge_iff_le, UInt32.le_iff_toNat_le] at digit
    have low : 48 ≤ c.toNat := digit.1
    have high : c.toNat ≤ 57 := digit.2
    refine List.mem_map.2 ⟨c.toNat, List.mem_range'_1.2 ?_, Char.ofNat_toNat c⟩
    omega
  have all : ∀ c ∈ (List.range' 48 10).map Char.ofNat, Text.isBlank c = false ∧ c ≠ ',' ∧ isQuote c = false ∧
      c ≠ '-' ∧ Text.isDigit c = true ∧ c.toLower ∉ "delay".toList :=
    List.all_iff_forall_prop.1 (by decide +kernel)
  obtain ⟨seen, comma, unquoted, minus, digit, letter⟩ := all c listed
  exact ⟨seen, comma, unquoted, minus, digit, letter⟩

theorem numerals (n : Nat) : ∀ c ∈ Nat.toDigits 10 n, Numeral c := fun c member =>
  numeral_of_digit (Decimal.digits_of_toDigits n c member)

/- It is read as a delay, together with the comma behind it. -/
theorem delayHere?_delayItem (n : Nat) (blank : ∀ c ∈ after, Text.isBlank c = true) (ends : Ends more) :
    delayHere? (delayItem n ++ (after ++ more)) = some (Nat.toDigits 10 n, behindComma more) := by
  have digits : ∀ c ∈ Nat.toDigits 10 n, Text.isDigit c = true := fun c member => (numerals n c member).digit
  have stop := stop_of_blank blank ends
  have shape : ∃ d ds, Nat.toDigits 10 n = d :: ds := List.exists_cons_of_ne_nil Nat.toDigits_ne_nil
  obtain ⟨d, ds, shape⟩ := shape
  have first := numerals n d (shape ▸ List.mem_cons_self)
  have number : signed (dropQuote (Text.dropBlank (' ' :: (Nat.toDigits 10 n ++ (after ++ more))))) =
      ([], Nat.toDigits 10 n ++ (after ++ more)) := by
    have visible : Text.dropBlank (' ' :: (d :: ds ++ (after ++ more))) = d :: (ds ++ (after ++ more)) :=
      Text.dropBlank_cons first.seen _
    rw [shape, visible, dropQuote, if_neg (Bool.eq_false_iff.1 first.unquoted)]
    simp [signed, first.minus]
  have taken : (Nat.toDigits 10 n ++ (after ++ more)).takeWhile Text.isDigit = Nat.toDigits 10 n ∧
      (Nat.toDigits 10 n ++ (after ++ more)).dropWhile Text.isDigit = after ++ more := by
    cases rest : after ++ more with
    | nil =>
      rw [List.takeWhile_append_of_pos digits, List.dropWhile_append_of_pos digits]
      exact ⟨List.append_nil _, rfl⟩
    | cons c others => exact Text.span_of_stop digits (stop c (by rw [rest]; rfl)).2 others
  have unquoted : dropQuote (after ++ more) = after ++ more := by
    cases after with
    | nil => rcases ends with rfl | ⟨rest, rfl⟩ <;> rfl
    | cons c rest =>
      exact if_neg (Bool.eq_false_iff.1 (Params.isQuote_of_blank (blank c List.mem_cons_self)))
  have behind : Text.dropBlank (after ++ more) = more := by
    rw [Text.dropBlank_append_of_blank blank]
    rcases ends with rfl | ⟨rest, rfl⟩ <;> rfl
  have word : Text.afterKeyword "delay".toList (delayItem n ++ (after ++ more)) =
      some (':' :: ' ' :: (Nat.toDigits 10 n ++ (after ++ more))) := by
    have all : Text.afterKeyword "delay".toList "delay".toList = some [] := by decide
    rw [delayItem_append, afterKeyword_append (barrier_cons (by decide) _), all]
    rfl
  rw [delayHere?_eq, word, Option.bind_some]
  change delayNumber? (' ' :: (Nat.toDigits 10 n ++ (after ++ more))) = _
  rw [delayNumber?, number]
  dsimp only
  rw [taken.1, taken.2, unquoted, behind, shape]
  rfl

/- Behind a blank or a comma the delay is found. -/
theorem delayAt?_edge {c : Char} (edge : Text.isBlank c = true ∨ c = ',') {cs : List Char}
    {found : List Char × List Char} (next : delayHere? cs = some found) (start : Bool) :
    delayAt? start (c :: cs) = some found := by
  have barrier : Barrier (c :: cs) := by
    rcases edge with blank | rfl
    · exact barrier_blank blank cs
    · exact barrier_cons (by decide) cs
  have here : delayHere? (c :: cs) = none := delayHere?_barrier barrier
  rw [delayAt?, here, next]
  simp [edge]

theorem takeDelay?_found {c : Char} {cs number rest : List Char} (closed : (followed before).1 = none)
    (found : delayAt? before.isEmpty (c :: cs) = some (number, rest)) :
    takeDelay? before (c :: cs) = some (number, before ++ ' ' :: rest) := by
  rw [takeDelay?, found]
  dsimp only
  rw [endsQuoted_eq, closed, if_pos (by decide)]

/- Where the comma before it is taken away, the delay is not found. -/
theorem takeDelay?_unseen (started : before ≠ []) (closed : (followed before).1 = none)
    (blank : ∀ c ∈ after, Text.isBlank c = true) (items : List Item) :
    takeDelay? before (delayItem n ++ (after ++ trailed (texts items))) = none := by
  have digits := numerals n
  have shape : ∃ d ds, Nat.toDigits 10 n = d :: ds := List.exists_cons_of_ne_nil Nat.toDigits_ne_nil
  have ends := ends_trailed (texts items)
  rw [delayItem_append]
  generalize Nat.toDigits 10 n = number at digits shape
  obtain ⟨d, ds, shape⟩ := shape
  have barrier : Barrier (number ++ (after ++ trailed (texts items))) := by
    rw [shape]
    exact barrier_cons (digits d (shape ▸ List.mem_cons_self)).letter _
  have parts : "delay".toList ++ ':' :: ' ' :: (number ++ (after ++ trailed (texts items))) =
      "delay:".toList ++ ([' '] ++ (number ++ (after ++ trailed (texts items)))) := rfl
  have run : ∀ c ∈ number, Text.isBlank c = false ∧ c ≠ ',' := fun c member =>
    ⟨(digits c member).seen, (digits c member).comma⟩
  have letters : ∀ c ∈ "delay:".toList, Text.isBlank c = false ∧ c ≠ ',' :=
    List.all_iff_forall_prop.1 (by decide)
  have space : ∀ c ∈ [' '], Text.isBlank c = true := List.forall_mem_singleton.2 rfl
  rw [parts, takeDelay?_run started letters, takeDelay?_blank space (delayHere?_barrier barrier),
    takeDelay?_run (by simp) run, takeDelay?_blank blank (delayHere?_barrier ends.barrier)]
  cases items with
  | nil => rw [Params.texts_nil, trailed, List.flatMap_nil, takeDelay?]
  | cons item more =>
    have plain : ∀ c ∈ "delay:".toList ++ ([' '] ++ (number ++ after)), isQuote c = false := by
      simp only [List.forall_mem_append]
      exact ⟨List.all_iff_forall_prop.1 (by decide), List.forall_mem_singleton.2 rfl,
        fun c member => (digits c member).unquoted, fun c member => Params.isQuote_of_blank (blank c member)⟩
    have closed' := unquoted_plain closed plain
    have fresh : Fresh (before ++ "delay:".toList ++ [' '] ++ number ++ after ++ [',']) := by
      refine fresh_snoc ?_ (.inl rfl)
      simpa only [List.append_assoc] using closed'
    have comma : trailed (texts (item :: more)) = ',' :: listed (texts (item :: more)) :=
      Params.trailed_cons _ _
    rw [comma, takeDelay?_comma (delayHere?_listed (item :: more)), takeDelay?_listed fresh (item :: more)]

section Search

variable {front left right : List Item} {last : Item}

theorem behindComma_trailed (pieces : List (List Char)) : behindComma (trailed pieces) = listed pieces := by
  cases pieces with
  | nil => rfl
  | cons text more =>
    rw [Params.trailed_cons]
    rfl

/- At the start of the list the delay is found. -/
theorem takeDelay?_first (blank : ∀ c ∈ after, Text.isBlank c = true) (right : List Item) :
    takeDelay? [] (delayItem n ++ (after ++ trailed (texts right))) =
      some (Nat.toDigits 10 n, ' ' :: listed (texts right)) := by
  have here := delayHere?_delayItem n blank (ends_trailed (texts right))
  rw [behindComma_trailed] at here
  have shape : ∃ c cs, delayItem n ++ (after ++ trailed (texts right)) = c :: cs := by
    rw [delayItem_append]
    exact ⟨_, _, rfl⟩
  obtain ⟨c, cs, shape⟩ := shape
  rw [shape] at here ⊢
  refine takeDelay?_found rfl ?_
  rw [delayAt?, here]
  rfl

/- Behind a blank it is found, and the comma before the blank is kept. -/
theorem takeDelay?_behindBlank {b : Char} (blank : ∀ c ∈ before ++ [b], Text.isBlank c = true)
    (blank' : ∀ c ∈ after, Text.isBlank c = true) (left right : List Item) :
    takeDelay? [] (led (texts left) ++ (before ++ b :: (delayItem n ++ (after ++ trailed (texts right))))) =
      some (Nat.toDigits 10 n, led (texts left) ++ before ++ ' ' :: listed (texts right)) := by
  have here := delayHere?_delayItem n blank' (ends_trailed (texts right))
  rw [behindComma_trailed] at here
  obtain ⟨first, last⟩ := List.forall_mem_append.1 blank
  have last : Text.isBlank b = true := last b List.mem_cons_self
  have dull : ∀ cs, delayHere? (b :: cs) = none := fun cs => delayHere?_barrier (barrier_blank last cs)
  have dull' : delayHere? (before ++ b :: (delayItem n ++ (after ++ trailed (texts right)))) = none := by
    cases before with
    | nil => exact dull _
    | cons c rest => exact delayHere?_barrier (barrier_blank (first c List.mem_cons_self) _)
  have fresh := (fresh_nil.led left).blank first
  rw [List.nil_append] at fresh
  rw [takeDelay?_led fresh_nil left dull', takeDelay?_blank first (dull _), List.nil_append,
    takeDelay?_found fresh.unquoted (delayAt?_edge (.inl last) here _)]

/- Directly behind a comma it is found with the comma, if the search comes to the comma. -/
theorem takeDelay?_behindComma (blank : ∀ c ∈ after, Text.isBlank c = true) (front right : List Item)
    (last : Item) :
    takeDelay? [] (led (texts (front ++ [last])) ++ (delayItem n ++ (after ++ trailed (texts right)))) =
      if last.endsInDelay then none
      else some (Nat.toDigits 10 n, led (texts front) ++ last.text ++ ' ' :: listed (texts right)) := by
  have here := delayHere?_delayItem n blank (ends_trailed (texts right))
  rw [behindComma_trailed] at here
  have fresh := fresh_nil.led front
  have parts : led (texts (front ++ [last])) ++ (delayItem n ++ (after ++ trailed (texts right))) =
      led (texts front) ++ (last.text ++ ',' :: (delayItem n ++ (after ++ trailed (texts right)))) := by
    simp [led]
  rw [parts, takeDelay?_led fresh_nil front (delayHere?_item last (.inr ⟨_, rfl⟩)), takeDelay?_item fresh,
    List.nil_append]
  rw [List.nil_append] at fresh
  congr 1
  · exact takeDelay?_unseen (by simp) (fresh.item last).unquoted blank right
  · exact takeDelay?_found (unquoted_item fresh last) (delayAt?_edge (.inr rfl) here _)

end Search

end Token

section Alike

variable {params others : Params}

theorem get?_alike (alike : params.Alike others) {names : List String} (absent : "delay" ∉ names) :
    params.get? names = others.get? names := by
  induction names with
  | nil => rfl
  | cons name rest ih =>
    obtain ⟨first, later⟩ := not_or.1 (mt List.mem_cons.2 absent)
    have same : params.get? rest = others.get? rest := ih later
    unfold Params.get? at same ⊢
    rw [List.findSome?_cons, List.findSome?_cons, alike.named name (Ne.symm first), same]

theorem field?_alike (alike : params.Alike others) {names : List String} (absent : "delay" ∉ names)
    (index : Nat) : params.field? names index = others.field? names index := by
  rw [Params.field?, Params.field?, get?_alike alike absent, Params.position?, Params.position?,
    alike.positional]

theorem joined?_alike (alike : params.Alike others) {names : List String} (absent : "delay" ∉ names) :
    params.joined? names = others.joined? names := by
  rw [Params.joined?, Params.joined?, get?_alike alike absent, alike.positional]

/- No effect reads a parameter named after the delay. -/
theorem effect?_alike (alike : params.Alike others) (kind : String) :
    effect? kind params = effect? kind others := by
  have assignment : assignment? params = assignment? others := by
    unfold assignment?
    rw [alike.positional, field?_alike alike (by decide), field?_alike alike (by decide)]
  have notification : notification? params = notification? others := by
    unfold notification?
    rw [alike.positional, get?_alike alike (by decide), get?_alike alike (by decide)]
  unfold effect?
  rw [assignment, notification]
  simp (disch := decide) only [field?_alike alike, joined?_alike alike, get?_alike alike]

theorem alike_add (alike : params.Alike others) (entry : List Char) :
    (params.add entry).Alike (others.add entry) := by
  unfold Params.add
  split
  · rename_i name value _
    refine ⟨alike.positional, fun other apart => ?_⟩
    rw [Table.get?_insert, Table.get?_insert, alike.named other apart]
  · exact ⟨congrArg (· ++ _) alike.positional, alike.named⟩

theorem alike_foldl (alike : params.Alike others) (entries : List (List Char)) :
    (entries.foldl Params.add params).Alike (entries.foldl Params.add others) := by
  induction entries generalizing params others with
  | nil => exact alike
  | cons entry rest ih => exact ih (alike_add alike entry)

/- The item of the delay, if it is not taken out of the list, is a parameter of its own name. -/
theorem alike_delayItem (params : Params) (n : Nat) : (params.add (delayItem n)).Alike params := by
  have parts := delayItem_append n []
  rw [List.append_nil] at parts
  have shape : delayItem n = 'd' :: ("elay".toList ++ ':' :: ' ' :: (Nat.toDigits 10 n ++ [])) := parts
  have letters : ∀ c ∈ "delay".toList, Text.isWord c = true := List.all_eq_true.1 (by decide +kernel)
  have colon : Text.isWord ':' = false := by decide +kernel
  obtain ⟨taken, left⟩ := Text.span_of_stop letters colon (' ' :: (Nat.toDigits 10 n ++ []))
  rw [← parts] at taken left
  have name : String.ofList (Text.lower "delay".toList) = "delay" := by decide
  have named : Params.namedItem? (delayItem n) =
      some ("delay", String.ofList (Params.unquote (' ' :: (Nat.toDigits 10 n ++ [])))) := by
    unfold Params.namedItem?
    rw [taken, left, shape]
    dsimp only
    rw [name]
    rfl
  unfold Params.add
  rw [named]
  refine ⟨rfl, fun other apart => ?_⟩
  rw [Table.get?_insert, if_neg apart]

/- A number ends in a digit. -/
theorem dropBlankEnd_delayItem (front : List Char) (n : Nat) :
    Text.dropBlankEnd (front ++ delayItem n) = front ++ delayItem n := by
  have digits := numerals n
  have some_digit : Nat.toDigits 10 n ≠ [] := Nat.toDigits_ne_nil
  unfold delayItem
  generalize Nat.toDigits 10 n = number at digits some_digit
  obtain ⟨ds, d, shape⟩ := (List.eq_nil_or_concat number).resolve_left some_digit
  rw [List.concat_eq_append] at shape
  have seen := (digits d (shape ▸ List.mem_append_right ds List.mem_cons_self)).seen
  rw [shape, ← List.append_assoc, ← List.append_assoc]
  exact Text.dropBlankEnd_append_cons seen _ []

theorem entries_delayItem {before after : List Char} (first : ∀ c ∈ before, Text.isBlank c = true) (n : Nat)
    (last : ∀ c ∈ after, Text.isBlank c = true) :
    Params.entries (before ++ (delayItem n ++ after)) = [delayItem n] := by
  have digits := numerals n
  have ends := dropBlankEnd_delayItem [] n
  rw [Params.entries_blank_append first, Params.entries_append_blank last]
  unfold delayItem at ends ⊢
  generalize Nat.toDigits 10 n = number at digits ends
  have plain : ∀ c ∈ "delay: ".toList ++ number, isQuote c = false ∧ c ≠ ',' := by
    rw [List.forall_mem_append]
    exact ⟨List.all_iff_forall_prop.1 (by decide), fun c member =>
      ⟨(digits c member).unquoted, (digits c member).comma⟩⟩
  have trimmed : Text.trim ("delay: ".toList ++ number) = "delay: ".toList ++ number := by
    have letters : "delay: ".toList = 'd' :: "elay: ".toList := by decide
    have starts : Text.dropBlank ("delay: ".toList ++ number) = "delay: ".toList ++ number := by
      rw [letters, List.cons_append]
      exact Text.dropBlank_cons (by decide) _
    rw [Text.trim, starts]
    exact ends
  have whole := Params.splitItems_plain plain []
  rw [List.append_nil] at whole
  rw [Params.entries, whole, Params.splitItems, List.modifyHead_cons, List.append_nil, List.map_singleton,
    trimmed]
  rfl

end Alike

section Reading

variable {kind list params : List Char} {n : Nat}

/-- The text of an action whose parameters are listed so. -/
def actionText (kind : List Char) (pieces : List (List Char)) : List Char := kind ++ ':' :: listed pieces

/-- What an action of this kind comes to with a delay and parameters. -/
def ofParams (kind : List Char) (delay : Nat) (params : Params) : Outcome :=
  match effect? (String.ofList (Text.lower kind)) params with
  | .ok effect => ⟨some ⟨effect, delay⟩, []⟩
  | .error finding => ⟨none, [finding]⟩

/-- The same with another delay, if it is an action. -/
def Outcome.delayed (n : Nat) (o : Outcome) : Outcome := ⟨o.action.map ({ · with delay := n }), o.findings⟩

theorem delayed_ofParams (kind : List Char) (delay : Nat) (params : Params) :
    (ofParams kind delay params).delayed n = ofParams kind n params := by
  unfold ofParams
  split <;> rfl

theorem word_toDigits (small : n < Decimal.wordLimit) : Decimal.word? (Nat.toDigits 10 n) = some n := by
  have digits : (Nat.toDigits 10 n).all Char.isDigit = true :=
    List.all_eq_true.2 (Decimal.digits_of_toDigits n)
  have some_digit : (Nat.toDigits 10 n).isEmpty = false := List.isEmpty_eq_false_iff.2 Nat.toDigits_ne_nil
  have unsigned : ∀ rest, Nat.toDigits 10 n ≠ '+' :: rest := by
    intro rest shape
    rw [shape] at digits
    cases digits
  rw [Decimal.word?, digits, some_digit, Decimal.natOf_toDigits]
  · exact if_pos small
  · exact fun rest => unsigned rest

/- The parameters are what stands behind the colon, without the blanks at the end. -/
theorem source_parts (named : kind ≠ []) (letters : ∀ c ∈ kind, isKindChar c = true) (list : List Char) :
    (Text.trim (kind ++ ':' :: list)).takeWhile isKindChar = kind ∧
      Text.dropBlank ((Text.trim (kind ++ ':' :: list)).dropWhile isKindChar) =
        ':' :: Text.dropBlankEnd list := by
  obtain ⟨c, cs, rfl⟩ := List.exists_cons_of_ne_nil named
  have seen : Text.isBlank c = false := by
    have letter := letters c List.mem_cons_self
    refine Text.seen_of_word ?_
    rw [isKindChar] at letter
    rw [Text.isWord, letter, Bool.true_or]
  have trimmed : Text.trim (c :: cs ++ ':' :: list) = c :: cs ++ ':' :: Text.dropBlankEnd list := by
    rw [List.cons_append, Text.trim, Text.dropBlank_cons seen, ← List.cons_append]
    exact Text.dropBlankEnd_append_cons (by decide) (c :: cs) list
  have colon : isKindChar ':' = false := by decide
  obtain ⟨taken, left⟩ := Text.span_of_stop letters colon (Text.dropBlankEnd list)
  rw [trimmed, taken, left]
  exact ⟨rfl, Text.dropBlank_cons (by decide) _⟩

theorem kind_ne_empty (named : kind ≠ []) : String.ofList (Text.lower kind) ≠ "" := by
  intro empty
  have none : Text.lower kind = [] := String.ofList_injective empty
  exact named (List.map_eq_nil_iff.1 none)

theorem read_plain (named : kind ≠ []) (letters : ∀ c ∈ kind, isKindChar c = true)
    (none : takeDelay? [] (Text.dropBlankEnd list) = none) :
    read (kind ++ ':' :: list) =
      ofParams kind 0 (.read (dropCommas (Text.trim (Text.dropBlankEnd list)))) := by
  obtain ⟨taken, left⟩ := source_parts named letters list
  unfold read ofParams
  dsimp only
  rw [taken, left, if_neg (kind_ne_empty named)]
  simp only [none]
  rfl

theorem read_found (named : kind ≠ []) (letters : ∀ c ∈ kind, isKindChar c = true)
    (small : n < Decimal.wordLimit)
    (found : takeDelay? [] (Text.dropBlankEnd list) = some (Nat.toDigits 10 n, params)) :
    read (kind ++ ':' :: list) = ofParams kind n (.read (dropCommas (Text.trim params))) := by
  obtain ⟨taken, left⟩ := source_parts named letters list
  unfold read ofParams
  dsimp only
  rw [taken, left, if_neg (kind_ne_empty named)]
  simp only [found, word_toDigits small]
  rfl

/- Without a delay an action is read from its items. -/
theorem read_items (named : kind ≠ []) (letters : ∀ c ∈ kind, isKindChar c = true) (items : List Item) :
    read (actionText kind (texts items)) =
      ofParams kind 0 (.ofEntries ((texts items).flatMap Params.entries)) := by
  obtain ⟨shorn, blanks, parts, ends, blank, -⟩ := Params.exists_shorn_listed items
  have none := takeDelay?_listed fresh_nil shorn
  have closed := Params.closed_listed (Params.closed_texts shorn)
  rw [← ends] at none
  rw [actionText, read_plain named letters none, ends, Params.read_tidied closed,
    ← Params.entries_append_blank blank, ← parts, Params.entries_listed (Params.closed_texts items)]

end Reading

section Delayed

variable {kind before after : List Char} {n : Nat} {left right front rest : List Item} {first last : Item}

/-- The texts of items with the one that gives the delay between them, and blanks around that one. -/
def withDelay (left : List Item) (before : List Char) (n : Nat) (after : List Char) (right : List Item) :
    List (List Char) :=
  texts left ++ (before ++ (delayItem n ++ after)) :: texts right

theorem listed_withDelay (left : List Item) (before : List Char) (n : Nat) (after : List Char)
    (right : List Item) :
    listed (withDelay left before n after right) =
      led (texts left) ++ (before ++ (delayItem n ++ (after ++ trailed (texts right)))) := by
  rw [withDelay, Params.listed_append, Params.listed_cons]
  simp only [List.append_assoc]

/- The blanks at the end of the list stand behind the delay or behind the last item. -/
theorem exists_shorn_withDelay (blank : ∀ c ∈ after, Text.isBlank c = true) (left : List Item)
    (before : List Char) (n : Nat) (right : List Item) :
    ∃ after' : List Char, ∃ right' : List Item, ∃ blanks : List Char,
      Text.dropBlankEnd (listed (withDelay left before n after right)) =
          listed (withDelay left before n after' right') ∧
        listed (texts right) = listed (texts right') ++ blanks ∧
        (∀ c ∈ after', Text.isBlank c = true) ∧ (∀ c ∈ blanks, Text.isBlank c = true) := by
  cases right with
  | nil =>
    refine ⟨[], [], [], ?_, rfl, (fun _ member => nomatch member), (fun _ member => nomatch member)⟩
    rw [listed_withDelay, listed_withDelay, Params.texts_nil, trailed, List.flatMap_nil, List.append_nil,
      List.append_nil, List.append_nil, Params.dropBlankEnd_led, ← List.append_assoc before,
      Text.dropBlankEnd_append_of_blank _ blank, dropBlankEnd_delayItem]
  | cons item more =>
    obtain ⟨shorn, blanks, parts, ends, blank', some_item⟩ := Params.exists_shorn_listed (item :: more)
    obtain ⟨next, others, rfl⟩ := List.exists_cons_of_ne_nil (mt some_item.1 (List.cons_ne_nil item more))
    refine ⟨after, next :: others, blanks, ?_, parts, blank, blank'⟩
    have comma : ∀ (item : Item) (more : List Item), trailed (texts (item :: more)) =
        ',' :: listed (texts (item :: more)) := fun item more => Params.trailed_cons _ _
    have assoc : ∀ cs : List Char, led (texts left) ++ (before ++ (delayItem n ++ (after ++ cs))) =
        led (texts left) ++ before ++ delayItem n ++ after ++ cs := by
      intro cs
      simp only [List.append_assoc]
    rw [listed_withDelay, listed_withDelay, comma, comma, assoc, assoc,
      Text.dropBlankEnd_append_cons (by decide), ends]

/-- Whether the search for the delay misses the comma that stands behind these items. -/
def missesComma (left : List Item) : Bool := left.getLast?.any (·.endsInDelay)

theorem read_of_found {front : List Char} (named : kind ≠ []) (letters : ∀ c ∈ kind, isKindChar c = true)
    (small : n < Decimal.wordLimit) (blank : ∀ c ∈ after, Text.isBlank c = true) (closed : Params.Closed front)
    (found : ∀ (after : List Char) (right : List Item), (∀ c ∈ after, Text.isBlank c = true) →
      takeDelay? [] (listed (withDelay left before n after right)) =
        some (Nat.toDigits 10 n, front ++ ' ' :: listed (texts right))) (right : List Item) :
    read (actionText kind (withDelay left before n after right)) =
      ofParams kind n (.ofEntries (Params.entries (front ++ ' ' :: listed (texts right)))) := by
  obtain ⟨after', right', blanks, ends, parts, blank', trailing⟩ :=
    exists_shorn_withDelay blank left before n right
  have found := found after' right' blank'
  rw [← ends] at found
  have blank_closed : Params.Closed [' '] := rfl
  have closed := closed.append (blank_closed.append (Params.closed_listed (Params.closed_texts right')))
  have same : front ++ ' ' :: listed (texts right) = front ++ ' ' :: listed (texts right') ++ blanks := by
    rw [parts, List.append_assoc]
    rfl
  rw [actionText, read_found named letters small found, same, Params.entries_append_blank trailing]
  exact congrArg (ofParams kind n) (Params.read_tidied closed)

theorem missesComma_concat (front : List Item) (last : Item) :
    missesComma (front ++ [last]) = last.endsInDelay := by
  rw [missesComma, List.getLast?_concat, Option.any_some]

theorem exists_last_of_missesComma (missed : missesComma left = true) :
    ∃ front last, left = front ++ [last] := by
  rcases List.eq_nil_or_concat left with rfl | ⟨front, last, rfl⟩
  · cases missed
  · exact ⟨front, last, List.concat_eq_append⟩

theorem closed_withDelay (first : ∀ c ∈ before, Text.isBlank c = true)
    (last : ∀ c ∈ after, Text.isBlank c = true) (left : List Item) (n : Nat) (right : List Item) :
    ∀ text ∈ withDelay left before n after right, Params.Closed text := by
  have blank : ∀ {text : List Char}, (∀ c ∈ text, Text.isBlank c = true) → Params.Closed text := fun blank =>
    Params.closed_of_plain fun c member => Params.isQuote_of_blank (blank c member)
  have word : Params.Closed "delay: ".toList := rfl
  have number : Params.Closed (Nat.toDigits 10 n) :=
    Params.closed_of_plain fun c member => (numerals n c member).unquoted
  have delay : Params.Closed (delayItem n) := word.append number
  exact List.forall_mem_append.2 ⟨Params.closed_texts left, List.forall_mem_cons.2
    ⟨(blank first).append (delay.append (blank last)), Params.closed_texts right⟩⟩

/- Where the delay is not found, it is an item that no effect reads. -/
theorem read_of_unseen (named : kind ≠ []) (letters : ∀ c ∈ kind, isKindChar c = true)
    (first : ∀ c ∈ before, Text.isBlank c = true) (blank : ∀ c ∈ after, Text.isBlank c = true)
    (unseen : ∀ (after : List Char) (right : List Item), (∀ c ∈ after, Text.isBlank c = true) →
      takeDelay? [] (listed (withDelay left before n after right)) = none) (right : List Item) :
    read (actionText kind (withDelay left before n after right)) =
      ofParams kind 0 (.ofEntries ((texts (left ++ right)).flatMap Params.entries)) := by
  obtain ⟨after', right', blanks, ends, parts, blank', trailing⟩ :=
    exists_shorn_withDelay blank left before n right
  have none := unseen after' right' blank'
  have closed := closed_withDelay first blank' left n right'
  have whole := Params.read_tidied (Params.closed_listed closed)
  have same : (texts right').flatMap Params.entries = (texts right).flatMap Params.entries := by
    rw [← Params.entries_listed (Params.closed_texts right'),
      ← Params.entries_listed (Params.closed_texts right), parts, Params.entries_append_blank trailing]
  have items : (withDelay left before n after' right').flatMap Params.entries =
      (texts left).flatMap Params.entries ++ delayItem n :: (texts right).flatMap Params.entries := by
    rw [withDelay, List.flatMap_append, List.flatMap_cons, entries_delayItem first n blank', same]
    rfl
  rw [Params.entries_listed closed, items] at whole
  rw [← ends] at none
  rw [actionText, read_plain named letters none, ends, whole, Params.texts_append, List.flatMap_append]
  unfold ofParams Params.ofEntries
  rw [List.foldl_append, List.foldl_append, List.foldl_cons,
    effect?_alike (alike_foldl (alike_delayItem _ n) _)]

/- What the items around the delay come to, if it leaves the comma before it. -/
theorem entries_around (left right : List Item) (blank : ∀ c ∈ before, Text.isBlank c = true) :
    Params.entries (led (texts left) ++ before ++ ' ' :: listed (texts right)) =
      (texts (left ++ right)).flatMap Params.entries := by
  have space : ∀ c ∈ before ++ [' '], Text.isBlank c = true :=
    List.forall_mem_append.2 ⟨blank, List.forall_mem_singleton.2 rfl⟩
  rw [List.append_cons, List.append_assoc _ before, List.append_assoc,
    Params.entries_led (Params.closed_texts left), Params.entries_blank_append space,
    Params.entries_listed (Params.closed_texts right), Params.texts_append, List.flatMap_append]

theorem read_first (named : kind ≠ []) (letters : ∀ c ∈ kind, isKindChar c = true)
    (small : n < Decimal.wordLimit) (blank : ∀ c ∈ after, Text.isBlank c = true) (right : List Item) :
    read (actionText kind (withDelay [] [] n after right)) =
      ofParams kind n (.ofEntries ((texts right).flatMap Params.entries)) := by
  have found : ∀ (after : List Char) (right : List Item), (∀ c ∈ after, Text.isBlank c = true) →
      takeDelay? [] (listed (withDelay [] [] n after right)) =
        some (Nat.toDigits 10 n, [] ++ ' ' :: listed (texts right)) := by
    intro after right blank
    rw [listed_withDelay]
    exact takeDelay?_first blank right
  have around := entries_around [] right (List.forall_mem_nil _)
  have closed : Params.Closed [] := rfl
  exact (read_of_found named letters small blank closed found right).trans
    (congrArg (ofParams kind n ∘ .ofEntries) around)

theorem read_behindBlank {b : Char} (named : kind ≠ []) (letters : ∀ c ∈ kind, isKindChar c = true)
    (small : n < Decimal.wordLimit) (first : ∀ c ∈ before ++ [b], Text.isBlank c = true)
    (blank : ∀ c ∈ after, Text.isBlank c = true) (left right : List Item) :
    read (actionText kind (withDelay left (before ++ [b]) n after right)) =
      ofParams kind n (.ofEntries ((texts (left ++ right)).flatMap Params.entries)) := by
  have found : ∀ (after : List Char) (right : List Item), (∀ c ∈ after, Text.isBlank c = true) →
      takeDelay? [] (listed (withDelay left (before ++ [b]) n after right)) =
        some (Nat.toDigits 10 n, led (texts left) ++ before ++ ' ' :: listed (texts right)) := by
    intro after right blank
    rw [listed_withDelay, List.append_assoc before]
    exact takeDelay?_behindBlank first blank left right
  have spaces := (List.forall_mem_append.1 first).1
  have closed : Params.Closed (led (texts left) ++ before) :=
    (Params.closed_led (Params.closed_texts left)).append
      (Params.closed_of_plain fun c member => Params.isQuote_of_blank (spaces c member))
  rw [read_of_found named letters small blank closed found right, entries_around left right spaces]

theorem read_behindComma (named : kind ≠ []) (letters : ∀ c ∈ kind, isKindChar c = true)
    (small : n < Decimal.wordLimit) (blank : ∀ c ∈ after, Text.isBlank c = true)
    (found : last.endsInDelay = false) (front right : List Item) :
    read (actionText kind (withDelay (front ++ [last]) [] n after right)) = ofParams kind n (.ofEntries
      (Params.entries (led (texts front) ++ last.text ++ ' ' :: listed (texts right)))) := by
  have closed : Params.Closed (led (texts front) ++ last.text) :=
    (Params.closed_led (Params.closed_texts front)).append (Params.closed_item last)
  refine read_of_found named letters small blank closed (fun after right blank => ?_) right
  rw [listed_withDelay, List.nil_append, takeDelay?_behindComma blank, found]
  rfl

/- The delay `n` is taken out of a list of items, and the action is the one of the other items with this delay,
if the delay stands first, or behind a blank, or last behind an item that does not end in a delay itself.
Otherwise the comma before it is taken with it: behind an item that ends in a delay it is not found, and
elsewhere the items on both sides of it run together. -/
theorem read_withDelay (named : kind ≠ []) (letters : ∀ c ∈ kind, isKindChar c = true)
    (blank : ∀ c ∈ before ++ after, Text.isBlank c = true) (small : n < Decimal.wordLimit) :
    (left = [] ∨ before ≠ [] ∨ right = [] ∧ missesComma left = false →
      read (actionText kind (withDelay left before n after right)) =
        (read (actionText kind (texts (left ++ right)))).delayed n) ∧
    (before = [] → missesComma left = true →
      read (actionText kind (withDelay left before n after right)) =
        read (actionText kind (texts (left ++ right)))) ∧
    (∀ front last first rest, left = front ++ [last] → right = first :: rest → before = [] →
      missesComma left = false →
      read (actionText kind (withDelay left before n after right)) = ofParams kind n (.read (listed
        (texts front ++ (last.text ++ ' ' :: first.text) :: texts rest)))) := by
  obtain ⟨first, last⟩ := List.forall_mem_append.1 blank
  refine ⟨fun kept => ?_, fun nothing missed => ?_, ?_⟩
  · rw [read_items named letters, delayed_ofParams]
    rcases List.eq_nil_or_concat before with rfl | ⟨blanks, b, rfl⟩
    · rcases List.eq_nil_or_concat left with rfl | ⟨front, item, rfl⟩
      · exact read_first named letters small last right
      · rw [List.concat_eq_append] at kept ⊢
        obtain ⟨rfl, found⟩ := (kept.resolve_left (by simp)).resolve_left (by simp)
        rw [missesComma_concat] at found
        have space : ∀ c ∈ ' ' :: listed [], Text.isBlank c = true := List.forall_mem_singleton.2 rfl
        rw [read_behindComma named letters small last found, List.append_nil, Params.texts_append,
          List.flatMap_append, List.append_assoc, Params.entries_led (Params.closed_texts front),
          Params.texts_nil, Params.entries_append_blank space, Params.texts_cons, Params.texts_nil,
          List.flatMap_singleton]
    · rw [List.concat_eq_append] at first ⊢
      exact read_behindBlank named letters small first last left right
  · obtain ⟨front, item, rfl⟩ := exists_last_of_missesComma missed
    rw [missesComma_concat] at missed
    rw [read_items named letters, nothing]
    refine read_of_unseen named letters (List.forall_mem_nil _) last (fun after right blank => ?_) right
    rw [listed_withDelay, List.nil_append, takeDelay?_behindComma blank, if_pos missed]
  · rintro front item next rest rfl rfl rfl found
    rw [missesComma_concat] at found
    rw [read_behindComma named letters small last found, Params.read_eq, Params.listed_append,
      Params.listed_cons, Params.texts_cons, Params.listed_cons]
    simp only [List.append_assoc, List.cons_append]

theorem read_withDelay_spaced :
    (read "set_contact_status: Eli, delay: 5,\"off, delay: 7, line\"".toList).action =
      some ⟨.setContactStatus "Eli" "off, delay: 7, line", 5⟩ := by
  have plain : ∀ c ∈ " Eli".toList, isQuote c = false ∧ c ≠ ',' ∧ c ≠ ':' :=
    List.all_iff_forall_prop.1 (by decide)
  have label : Params.Label [] := .blank (List.forall_mem_nil _)
  have trail : ∀ c ∈ [], Text.isBlank c = true := List.forall_mem_nil _
  let contact : Item := .bare " Eli".toList plain
  let status : Item := .quoted ⟨[], label, '"', rfl, "off, delay: 7, line".toList, by decide, [], trail⟩
  have letters : ∀ c ∈ "set_contact_status".toList, isKindChar c = true := List.all_eq_true.1 (by decide)
  have transparent := (@read_withDelay "set_contact_status".toList [' '] [] 5 [contact] [status]
    (by decide) letters (List.forall_mem_singleton.2 rfl) (by decide)).1 (.inr (.inl (by decide)))
  have delayed : actionText "set_contact_status".toList (withDelay [contact] [' '] 5 [] [status]) =
      "set_contact_status: Eli, delay: 5,\"off, delay: 7, line\"".toList := rfl
  have bare : actionText "set_contact_status".toList (texts ([contact] ++ [status])) =
      "set_contact_status: Eli,\"off, delay: 7, line\"".toList := rfl
  rw [← delayed, transparent, bare]
  decide +kernel

/- Between two items and directly behind the comma, the delay runs them together, and the action is lost. -/
theorem delay_joins_items :
    (read "set_contact_status: Eli,offline".toList).action = some ⟨.setContactStatus "Eli" "offline", 0⟩ ∧
      (read "set_contact_status: Eli,offline".toList).findings = [] ∧
      (read "set_contact_status: Eli,delay: 5,offline".toList).action = none ∧
      (read "set_contact_status: Eli,delay: 5,offline".toList).findings =
        [.missingField "set_contact_status" "status"] := by
  decide +kernel

end Delayed

end Action

end ChatStory
