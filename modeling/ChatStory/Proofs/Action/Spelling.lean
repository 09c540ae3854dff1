import ChatStory.Proofs.Action.DelayToken
import ChatStory.Proofs.Action.Fields
import ChatStory.Proofs.Table
import Mathlib

/-!
The ways of writing an action. The values of its fields stand in a list, either in the order of the fields or
each behind a name of its field and then in any order, bare or in quotes, with blanks around them. All lists that
give the same values to the same fields are read as the same action, or leave the same finding.
-/
namespace ChatStory

namespace Text

variable {c : Char} {cs : List Char}

/- Both cases of a letter open an identifier. -/
theorem isIdentStart_toLower (c : Char) : isIdentStart c.toLower = isIdentStart c := by
  by_cases upper : c.isUpper = true
  · have letter : c.isAlpha = true := by rw [Char.isAlpha, upper, Bool.true_or]
    rw [isIdentStart, isIdentStart, Char.isAlpha_toLower_eq_isAlpha, letter, Bool.true_or, Bool.true_or]
  · rw [Char.toLower_eq_of_not_isUpper upper]

theorem ident_of_lower (ident : (lower cs).all isIdentStart = true) : ∀ c ∈ cs, isIdentStart c = true := by
  intro c member
  rw [← isIdentStart_toLower]
  exact List.all_eq_true.1 ident _ (List.mem_map_of_mem member)

theorem isAlphanum_of_isIdentStart (ident : isIdentStart c = true) : (c.isAlphanum || c == '_') = true := by
  rw [isIdentStart, Bool.or_eq_true] at ident
  rw [Bool.or_eq_true]
  refine ident.imp_left fun letter => ?_
  rw [Char.isAlphanum, letter, Bool.true_or]

theorem isWord_of_isIdentStart (ident : isIdentStart c = true) : isWord c = true := by
  rw [isWord, isAlphanum_of_isIdentStart ident, Bool.true_or]

end Text

namespace Action

open Params (isQuote Label listed led trailed entries)

section Names

variable {kind name : String} {names others : List String} {i j : Nat}

/-- A name is written with letters and is not the one of the delay. -/
def isFieldName (name : String) : Bool :=
  name ≠ "" && name ≠ "delay" && name.toList.all Text.isIdentStart

theorem isFieldName_of_mem (kind : String) : (fieldNames kind).all (·.all isFieldName) = true := by
  fun_cases fieldNames kind <;> decide

theorem nodup_fieldNames (kind : String) : (fieldNames kind).flatten.Nodup := by
  fun_cases fieldNames kind <;> decide

theorem kind_of_fieldNames (known : fieldNames kind ≠ []) :
    kind ≠ "" ∧ kind.toList.all Text.isIdentStart = true := by
  unfold fieldNames at known
  split at known
  case h_14 => exact absurd rfl known
  all_goals decide

/- A name belongs to one field. -/
theorem field_unique (first : (fieldNames kind)[i]? = some names) (second : (fieldNames kind)[j]? = some others)
    (member : name ∈ names) (member' : name ∈ others) : i = j := by
  have apart := List.pairwise_iff_getElem.1 (List.nodup_flatten.1 (nodup_fieldNames kind)).2
  obtain ⟨low, rfl⟩ := List.getElem?_eq_some_iff.1 first
  obtain ⟨high, rfl⟩ := List.getElem?_eq_some_iff.1 second
  rcases Nat.lt_trichotomy i j with less | same | less
  · exact absurd member' (apart i j low high less member)
  · exact same
  · exact absurd member (apart j i high low less member')

theorem nodup_of_unnamedForms {form : List Nat} (formed : form ∈ unnamedForms kind) : form.Nodup := by
  unfold unnamedForms at formed
  split at formed
  · exact List.all_iff_forall_prop.1 (by decide : ([[], [0]] : List (List Nat)).all (·.Nodup)) form formed
  · exact List.all_iff_forall_prop.1 (by decide : ([[], [1], [0, 1]] : List (List Nat)).all (·.Nodup)) form formed
  · obtain ⟨n, -, rfl⟩ := List.mem_map.1 formed
    exact List.nodup_range

end Names

section Passing

variable {label body before text : List Char} {pieces : List (List Char)}

/-- What the search for the delay goes past, wherever it stands in a list. -/
structure Passed (text : List Char) : Prop where
  closed : Params.Closed text
  here : ∀ more, Ends more → delayHere? (text ++ more) = none
  past : ∀ before more, Ends more → takeDelay? before (text ++ more) = takeDelay? (before ++ text) more

/- It goes past a value without a colon, and past the name before it. -/
theorem passed_labelled (labelled : Label label) (closed : Params.Closed body) (plain : ∀ c ∈ body, c ≠ ':') :
    Passed (label ++ body) := by
  have next : ∀ more, Ends more → delayHere? (body ++ more) = none := fun more ends => delayHere?_bare plain ends
  refine ⟨?_, fun more ends => ?_, fun before more ends => ?_⟩
  · exact (Params.closed_of_plain (Params.plain_of_label labelled)).append closed
  · rw [List.append_assoc]
    exact delayHere?_label labelled (next more ends)
  · have dull : ∀ s, s <:+ body → delayHere? (s ++ more) = none := fun s part =>
      delayHere?_bare (fun c member => plain c (part.subset member)) ends
    rw [List.append_assoc, takeDelay?_label labelled (next more ends), takeDelay?_dull dull, List.append_assoc]

theorem takeDelay?_passed (passed : ∀ text ∈ pieces, Passed text) (before : List Char) :
    takeDelay? before (listed pieces) = none := by
  induction pieces generalizing before with
  | nil => rw [listed, List.intercalate_nil, takeDelay?]
  | cons text rest ih =>
    obtain ⟨first, later⟩ := List.forall_mem_cons.1 passed
    rw [Params.listed_cons, first.past _ _ (ends_trailed rest)]
    cases rest with
    | nil => rw [trailed, List.flatMap_nil, takeDelay?]
    | cons next more =>
      have here : delayHere? (listed (next :: more)) = none := by
        rw [Params.listed_cons]
        exact (later next List.mem_cons_self).here _ (ends_trailed more)
      rw [Params.trailed_cons, takeDelay?_comma here]
      exact ih later _

/- A list whose last blanks are dropped is a list of such pieces. -/
theorem exists_shorn_passed (passed : ∀ text ∈ pieces, Passed text ∧ Passed (Text.dropBlankEnd text)) :
    ∃ shorn blanks, listed pieces = listed shorn ++ blanks ∧ Text.dropBlankEnd (listed pieces) = listed shorn ∧
      (∀ c ∈ blanks, Text.isBlank c = true) ∧ ∀ text ∈ shorn, Passed text := by
  rcases List.eq_nil_or_concat pieces with rfl | ⟨front, last, rfl⟩
  · exact ⟨[], [], rfl, rfl, List.forall_mem_nil _, List.forall_mem_nil _⟩
  · rw [List.concat_eq_append] at *
    obtain ⟨first, final⟩ := List.forall_mem_append.1 passed
    obtain ⟨blanks, parts, blank⟩ := Text.exists_blank_end last
    have split : ∀ text, listed (front ++ [text]) = led front ++ text := fun text => by
      rw [Params.listed_append, Params.listed_single]
    refine ⟨front ++ [Text.dropBlankEnd last], blanks, ?_, ?_, blank, ?_⟩
    · rw [split, split, List.append_assoc, ← parts]
    · rw [split, split, Params.dropBlankEnd_led]
    · exact List.forall_mem_append.2 ⟨fun text member => (first text member).1,
        List.forall_mem_singleton.2 (final last List.mem_cons_self).2⟩

/- Where the search goes past all pieces of a list, the action is read from them. -/
theorem read_passed {kind : List Char} (named : kind ≠ []) (letters : ∀ c ∈ kind, isKindChar c = true)
    (passed : ∀ text ∈ pieces, Passed text ∧ Passed (Text.dropBlankEnd text)) :
    read (actionText kind pieces) = ofParams kind 0 (.ofEntries (pieces.flatMap entries)) := by
  obtain ⟨shorn, blanks, parts, ends, blank, gone⟩ := exists_shorn_passed passed
  have none := takeDelay?_passed gone []
  rw [← ends] at none
  rw [actionText, read_plain named letters none, ends,
    Params.read_tidied (Params.closed_listed fun text member => (gone text member).closed),
    ← Params.entries_append_blank blank, ← parts,
    Params.entries_listed fun text member => (passed text member).1.closed]

end Passing

/- A list without commas is one item. -/
theorem splitItems_of_no_comma {cs : List Char} {quote : Option Char} (plain : ∀ c ∈ cs, c ≠ ',') :
    Params.splitItems quote cs = [cs] := by
  induction cs generalizing quote with
  | nil => rfl
  | cons c rest ih =>
    obtain ⟨first, later⟩ := List.forall_mem_cons.1 plain
    rw [Params.splitItems_cons, if_neg (not_and_of_not_right _ first), ih later]
    rfl

/-- What a field may hold so that each way of writing can give it. -/
structure FieldValue where
  text : List Char
  some_text : text ≠ []
  tight : Text.trim text = text
  plain : ∀ c ∈ text, isQuote c = false ∧ c ≠ ',' ∧ c ≠ ':'
  phrase : Text.cutFirst " to ".toList text = none

/-- The value of a field as it stands in a list, bare or in quotes, with blanks around it. -/
structure Entry where
  field : Nat
  value : FieldValue
  mark : Option Char
  marked : ∀ c, mark = some c → isQuote c = true
  before : List Char
  after : List Char
  first : ∀ c ∈ before, Text.isBlank c = true
  last : ∀ c ∈ after, Text.isBlank c = true

/-- The value of a field behind one of its names, in any letter case. -/
structure NamedEntry (kind : String) extends Entry where
  lead : List Char
  name : List Char
  gap : List Char
  known : ∃ names, (fieldNames kind)[field]? = some names ∧ String.ofList (Text.lower name) ∈ names
  leading : ∀ c ∈ lead, Text.isBlank c = true
  between : ∀ c ∈ gap, Text.isBlank c = true

namespace Entry

variable (e : Entry) {cs : List Char} {c : Char}

/-- The value with its quotes. -/
def core : List Char := e.mark.toList ++ (e.value.text ++ e.mark.toList)

def text : List Char := e.before ++ (e.core ++ e.after)

/-- The field with the value that it is given. -/
def given : Nat × String := (e.field, String.ofList e.value.text)

theorem givable : Params.Givable e.given.2 where
  some_text empty := e.value.some_text (String.ofList_injective empty)
  phrase := (congrArg (Text.cutFirst " to ".toList) String.toList_ofList).trans e.value.phrase

theorem core_cases : (e.mark = none ∧ e.core = e.value.text) ∨
    ∃ mark, isQuote mark = true ∧ e.core = mark :: (e.value.text ++ [mark]) := by
  unfold core
  cases shape : e.mark with
  | none => exact .inl ⟨rfl, List.append_nil _⟩
  | some mark => exact .inr ⟨mark, e.marked mark shape, rfl⟩

theorem core_ne_nil : e.core ≠ [] := by
  rcases e.core_cases with ⟨-, bare⟩ | ⟨mark, -, quoted⟩
  · exact bare ▸ e.value.some_text
  · exact quoted ▸ List.cons_ne_nil _ _

theorem seen_ends : (∀ c, e.core.head? = some c → Text.isBlank c = false) ∧
    ∀ c, e.core.getLast? = some c → Text.isBlank c = false := by
  rcases e.core_cases with ⟨-, bare⟩ | ⟨mark, marked, quoted⟩
  · rw [bare]
    exact Text.seen_of_trim e.value.tight
  · rw [quoted]
    refine ⟨fun c first => ?_, fun c last => ?_⟩
    · cases first
      exact (seen_mark marked).1
    · rw [← List.cons_append, List.getLast?_concat] at last
      cases last
      exact (seen_mark marked).1

theorem plain_core : ∀ c ∈ e.core, c ≠ ',' ∧ c ≠ ':' := by
  have value : ∀ c ∈ e.value.text, c ≠ ',' ∧ c ≠ ':' := fun c member => (e.value.plain c member).2
  rcases e.core_cases with ⟨-, bare⟩ | ⟨mark, marked, quoted⟩
  · exact bare ▸ value
  · have sign : mark ≠ ',' ∧ mark ≠ ':' := by rcases mark_cases marked with rfl | rfl <;> decide
    rw [quoted]
    exact List.forall_mem_cons.2 ⟨sign, List.forall_mem_append.2 ⟨value, List.forall_mem_singleton.2 sign⟩⟩

theorem closed_core : Params.Closed e.core := by
  rcases e.core_cases with ⟨-, bare⟩ | ⟨mark, marked, quoted⟩
  · exact bare ▸ Params.closed_of_plain fun c member => (e.value.plain c member).1
  · refine quoted ▸ Params.closed_quote marked fun member => ?_
    rw [(e.value.plain mark member).1] at marked
    cases marked

/- The quotes around a value are taken off again, and blanks before it do not count. -/
theorem unquote_core (blank : ∀ c ∈ cs, Text.isBlank c = true) :
    Params.unquote (cs ++ e.core) = e.value.text := by
  have tight : Text.trim (cs ++ e.core) = e.core :=
    (Text.trim_append_of_blank blank _).trans (Text.trim_of_seen e.seen_ends.1 e.seen_ends.2)
  rw [Params.unquote, tight]
  rcases e.core_cases with ⟨-, bare⟩ | ⟨mark, marked, quoted⟩
  · have unwrapped : ∀ mark, isQuote mark = true → Text.unwrap mark e.value.text = none := by
      intro mark marked
      obtain ⟨c, rest, shape⟩ := List.exists_cons_of_ne_nil e.value.some_text
      have other : c ≠ mark := by
        rintro rfl
        rw [(e.value.plain c (shape ▸ List.mem_cons_self)).1] at marked
        cases marked
      simp [shape, Text.unwrap, other]
    rw [bare, Text.quoted?, unwrapped _ rfl, unwrapped _ rfl]
    rfl
  · rw [quoted, Text.quoted?]
    rcases mark_cases marked with rfl | rfl
    · rw [Text.unwrap_quote]
      rfl
    · have other : Text.unwrap '"' ('\'' :: (e.value.text ++ ['\''])) = none := rfl
      rw [other, Text.unwrap_quote]
      rfl

/- What stands before the value may be anything that ends in it, so long as it holds no comma. -/
theorem entries_core {front : List Char} (comma : ∀ c ∈ front, c ≠ ',')
    (first : ∀ c, (front ++ e.core).head? = some c → Text.isBlank c = false) :
    entries (front ++ (e.core ++ e.after)) = [front ++ e.core] := by
  have single : Params.splitItems none (front ++ e.core) = [front ++ e.core] :=
    splitItems_of_no_comma fun c member => (List.mem_append.1 member).elim (comma c) fun inside =>
      (e.plain_core c inside).1
  have ends : (front ++ e.core).getLast? = e.core.getLast? := List.getLast?_append_of_ne_nil _ e.core_ne_nil
  have tight : Text.trim (front ++ e.core) = front ++ e.core :=
    Text.trim_of_seen first fun c last => e.seen_ends.2 c (ends ▸ last)
  have some_text : (front ++ e.core).isEmpty = false :=
    List.isEmpty_eq_false_iff.2 (List.append_ne_nil_of_right_ne_nil _ e.core_ne_nil)
  rw [← List.append_assoc, Params.entries_append_blank e.last, entries, single, List.map_singleton, tight,
    List.filter_singleton, some_text]
  rfl

theorem entries_text : entries e.text = [e.core] := by
  have own := e.entries_core (List.forall_mem_nil _) e.seen_ends.1
  rw [text, Params.entries_blank_append e.first]
  exact own

/- The search for the delay goes past the value with what stands before it, and past these without the blanks
behind them. -/
theorem passed_core {label : List Char} (labelled : Label label) :
    Passed (label ++ (e.core ++ e.after)) ∧ Passed (Text.dropBlankEnd (label ++ (e.core ++ e.after))) := by
  have colon : ∀ c ∈ e.core, c ≠ ':' := fun c member => (e.plain_core c member).2
  have spaces : ∀ c ∈ e.after, isQuote c = false ∧ c ≠ ':' := by
    intro c member
    refine ⟨Params.isQuote_of_blank (e.last c member), ?_⟩
    rintro rfl
    cases e.last _ member
  have ends : (label ++ e.core).getLast? = e.core.getLast? := List.getLast?_append_of_ne_nil _ e.core_ne_nil
  have shorn : Text.dropBlankEnd (label ++ (e.core ++ e.after)) = label ++ e.core := by
    rw [← List.append_assoc, Text.dropBlankEnd_append_of_blank _ e.last]
    exact Text.dropBlankEnd_of_seen fun c last => e.seen_ends.2 c (ends ▸ last)
  rw [shorn]
  refine ⟨passed_labelled labelled ?_ ?_, passed_labelled labelled e.closed_core colon⟩
  · exact e.closed_core.append (Params.closed_of_plain fun c member => (spaces c member).1)
  · exact List.forall_mem_append.2 ⟨colon, fun c member => (spaces c member).2⟩

theorem namedItem?_core : Params.namedItem? e.core = none := by
  have colon : ∀ c ∈ e.core, c ≠ ':' := fun c member => (e.plain_core c member).2
  obtain ⟨c, rest, shape⟩ := List.exists_cons_of_ne_nil e.core_ne_nil
  rw [shape] at colon ⊢
  unfold Params.namedItem?
  dsimp only
  split
  · split
    · rename_i value same
      have member : ':' ∈ Text.dropBlank ((c :: rest).dropWhile Text.isWord) := same ▸ List.mem_cons_self
      have within := (List.dropWhile_sublist Text.isWord).subset ((List.dropWhile_sublist Text.isBlank).subset member)
      exact absurd rfl (colon ':' within)
    · rfl
  · rfl

/- Each value without a name is one positional item more. -/
theorem foldl_add_core (values : List Entry) (params : Params) : (values.map core).foldl Params.add params =
    { params with positional := params.positional ++ values.map fun e => String.ofList e.value.text } := by
  induction values generalizing params with
  | nil => rw [List.map_nil, List.foldl_nil, List.map_nil, List.append_nil]
  | cons e rest ih =>
    have added : params.add e.core =
        { params with positional := params.positional ++ [String.ofList e.value.text] } := by
      rw [Params.add, e.namedItem?_core]
      exact congrArg (fun v => { params with positional := params.positional ++ [String.ofList v] })
        (e.unquote_core (List.forall_mem_nil _))
    rw [List.map_cons, List.foldl_cons, added, ih, List.append_assoc]
    rfl

end Entry

namespace NamedEntry

variable {kind : String} (e : NamedEntry kind)

/-- The name of the field with its colon, and the blanks before the value. -/
def label : List Char := e.lead ++ (e.name ++ (e.gap ++ ':' :: e.before))

def text : List Char := e.label ++ (e.core ++ e.after)

/-- The name as it is looked up. -/
def key : String := String.ofList (Text.lower e.name)

theorem isFieldName_key : isFieldName e.key = true := by
  obtain ⟨names, listed, member⟩ := e.known
  exact List.all_eq_true.1 (List.all_eq_true.1 (isFieldName_of_mem kind) names (List.mem_of_getElem? listed))
    _ member

theorem ident_name : e.name ≠ [] ∧ Text.lower e.name ≠ "delay".toList ∧
    ∀ c ∈ e.name, Text.isIdentStart c = true := by
  have known := e.isFieldName_key
  rw [isFieldName, Bool.and_eq_true, Bool.and_eq_true, decide_eq_true_eq, decide_eq_true_eq, key,
    String.toList_ofList] at known
  refine ⟨?_, ?_, Text.ident_of_lower known.2⟩
  · intro empty
    rw [empty] at known
    exact known.1.1 rfl
  · intro delay
    rw [delay] at known
    exact known.1.2 rfl

/-- The item of the list, without blanks at its ends. -/
def item : List Char := e.name ++ (e.gap ++ ':' :: (e.before ++ e.core))

theorem labelled : Label e.label :=
  .named e.leading (fun c member => Text.isWord_of_isIdentStart (e.ident_name.2.2 c member)) e.ident_name.2.1
    e.between e.first

/- The item is read as the name of the field with its value. -/
theorem namedItem?_item : Params.namedItem? e.item = some (e.key, String.ofList e.value.text) := by
  obtain ⟨some_letter, -, letters⟩ := e.ident_name
  have words : ∀ c ∈ e.name, Text.isWord c = true := fun c member =>
    Text.isWord_of_isIdentStart (letters c member)
  have span : e.item.takeWhile Text.isWord = e.name ∧
      e.item.dropWhile Text.isWord = e.gap ++ ':' :: (e.before ++ e.core) := by
    unfold item
    cases shape : e.gap with
    | nil => exact Text.span_of_stop words (by decide +kernel) _
    | cons b rest =>
      have blank := e.between b (shape ▸ List.mem_cons_self)
      refine Text.span_of_stop words (Bool.eq_false_iff.2 fun word => ?_) _
      rw [Text.seen_of_word word] at blank
      cases blank
  have colon : Text.dropBlank (e.gap ++ ':' :: (e.before ++ e.core)) = ':' :: (e.before ++ e.core) :=
    (Text.dropBlank_append_of_blank e.between _).trans (Text.dropBlank_cons (by decide) _)
  obtain ⟨c, rest, shape⟩ := List.exists_cons_of_ne_nil some_letter
  have starts : e.item = c :: (rest ++ (e.gap ++ ':' :: (e.before ++ e.core))) := by rw [item, shape]; rfl
  have opens : Text.isIdentStart c = true := letters c (shape ▸ List.mem_cons_self)
  unfold Params.namedItem?
  rw [span.1, span.2, colon, starts]
  dsimp only
  rw [if_pos opens]
  exact congrArg (fun value => some (e.key, String.ofList value)) (e.unquote_core e.first)

theorem entries_text : entries e.text = [e.item] := by
  have comma : ∀ {text : List Char}, (∀ c ∈ text, Text.isBlank c = true) → ∀ c ∈ text, c ≠ ',' := by
    rintro text blank c member rfl
    cases blank _ member
  have front : ∀ c ∈ e.name ++ (e.gap ++ ':' :: e.before), c ≠ ',' := by
    refine List.forall_mem_append.2 ⟨?_, List.forall_mem_append.2 ⟨comma e.between, List.forall_mem_cons.2
      ⟨by decide, comma e.first⟩⟩⟩
    rintro c member rfl
    cases e.ident_name.2.2 _ member
  have first : ∀ c, (e.name ++ (e.gap ++ ':' :: e.before) ++ e.core).head? = some c → Text.isBlank c = false := by
    intro c starts
    obtain ⟨d, rest, shape⟩ := List.exists_cons_of_ne_nil e.ident_name.1
    have letter := e.ident_name.2.2 d (shape ▸ List.mem_cons_self)
    rw [shape] at starts
    rw [← Option.some.inj starts]
    exact Text.seen_of_word (Text.isWord_of_isIdentStart letter)
  have own := e.entries_core front first
  have parts : e.name ++ (e.gap ++ ':' :: e.before) ++ e.core = e.item := by simp [item]
  rw [text, label, List.append_assoc, Params.entries_blank_append e.leading, own, parts]

/-- The entry of the value in the table of the parameters. -/
def pair : String × String := (e.key, String.ofList e.value.text)

theorem foldl_add_item (values : List (NamedEntry kind)) (params : Params) :
    (values.map item).foldl Params.add params =
      { params with named := params.named.insertMany (values.map pair) } := by
  induction values generalizing params with
  | nil => rfl
  | cons e rest ih =>
    have added : params.add e.item =
        { params with named := params.named.insert e.key (String.ofList e.value.text) } := by
      rw [Params.add, e.namedItem?_item]
    rw [List.map_cons, List.foldl_cons, added, ih]
    rfl

/- A name belongs to one field, and each field is written once. -/
theorem field_of_key {e e' : NamedEntry kind} (same : e.key = e'.key) : e.field = e'.field := by
  obtain ⟨names, listed, member⟩ := e.known
  obtain ⟨others, listed', member'⟩ := e'.known
  have same : String.ofList (Text.lower e.name) = String.ofList (Text.lower e'.name) := same
  exact field_unique listed listed' (same ▸ member) member'

theorem distinct_pairs {values : List (NamedEntry kind)} (once : (values.map (·.field)).Nodup) :
    Table.Distinct (values.map pair) :=
  List.pairwise_map.2 ((List.pairwise_map.1 once).imp fun apart same => apart (field_of_key same))

end NamedEntry

/-- A way of writing the values of fields: in the order of the fields, or each behind a name. -/
inductive Spelling (kind : String) where
  | unnamed (values : List Entry) (formed : values.map (·.field) ∈ unnamedForms kind)
  | named (values : List (NamedEntry kind)) (once : (values.map (·.field)).Nodup)

namespace Spelling

variable {kind : String} (s t : Spelling kind)

/-- What stands between the commas of the list. -/
def texts : List (List Char) :=
  match s with
  | unnamed values _ => values.map (·.text)
  | named values _ => values.map (·.text)

/-- The fields in the order in which they are written, each with its value. -/
def items : List (Nat × String) :=
  match s with
  | unnamed values _ => values.map (·.given)
  | named values _ => values.map (·.given)

/-- The value that is given to a field. -/
def value? (i : Nat) : Option String := Table.lookup i s.items

theorem distinct_items : Table.Distinct s.items := by
  cases s with
  | unnamed values formed => exact List.pairwise_map.2 (List.pairwise_map.1 (nodup_of_unnamedForms formed))
  | named values once => exact List.pairwise_map.2 (List.pairwise_map.1 once)

theorem value?_eq_some_iff {i : Nat} {v : String} : s.value? i = some v ↔ (i, v) ∈ s.items :=
  Table.lookup_eq_some_iff_of_distinct s.distinct_items

/- The order in which the fields are written makes no difference to their values. -/
theorem value?_of_perm (same : s.items.Perm t.items) : s.value? = t.value? := by
  funext i
  refine Option.ext fun v => ?_
  rw [value?_eq_some_iff, value?_eq_some_iff, same.mem_iff]

theorem givable (i : Nat) (v : String) (found : s.value? i = some v) : Params.Givable v := by
  rw [value?_eq_some_iff] at found
  cases s with
  | unnamed values formed =>
    obtain ⟨e, -, same⟩ := List.mem_map.1 found
    exact (Prod.mk.inj same).2 ▸ e.givable
  | named values once =>
    obtain ⟨e, -, same⟩ := List.mem_map.1 found
    exact (Prod.mk.inj same).2 ▸ e.givable

theorem passed_texts : ∀ text ∈ s.texts, Passed text ∧ Passed (Text.dropBlankEnd text) := by
  cases s with
  | unnamed values formed =>
    exact List.forall_mem_map.2 fun e _ => e.passed_core (.blank e.first)
  | named values once =>
    exact List.forall_mem_map.2 fun e _ => e.passed_core e.labelled

/-- The parameters that are read from the list. -/
def params : Params := .ofEntries (s.texts.flatMap entries)

section Reading

variable {values : List (NamedEntry kind)} (once : (values.map (·.field)).Nodup)

theorem params_unnamed {values : List Entry} (formed : values.map (·.field) ∈ unnamedForms kind) :
    (unnamed values formed).params = ⟨∅, values.map (·.given.2)⟩ := by
  have items : (values.map (·.text)).flatMap entries = values.map (·.core) := by
    rw [List.flatMap_map, List.map_eq_flatMap]
    exact List.flatMap_congr fun e _ => e.entries_text
  rw [params, texts, items]
  exact Entry.foldl_add_core values _

theorem params_named : (named values once).params = ⟨.ofList (values.map (·.pair)), []⟩ := by
  have items : (values.map (·.text)).flatMap entries = values.map (·.item) := by
    rw [List.flatMap_map, List.map_eq_flatMap]
    exact List.flatMap_congr fun e _ => e.entries_text
  rw [params, texts, items]
  exact NamedEntry.foldl_add_item values _

theorem get?_named {name v : String} :
    (named values once).params.named.get? name = some v ↔ ∃ e ∈ values, e.pair = (name, v) := by
  have distinct := NamedEntry.distinct_pairs once
  rw [params_named, Table.get?_ofList distinct, Table.lookup_eq_some_iff_of_distinct distinct, List.mem_map]

/- A value that is found under a name of a field is the one that is given to the field, and it is found under
each of the names. -/
theorem get?_eq_value? {i : Nat} {names : List String} (known : (fieldNames kind)[i]? = some names) :
    (named values once).params.get? names = (named values once).value? i := by
  have sound : ∀ {v}, (named values once).params.get? names = some v → (named values once).value? i = some v := by
    intro v found
    obtain ⟨name, listed, found⟩ := List.exists_of_findSome?_eq_some found
    obtain ⟨e, member, same⟩ := (get?_named once).1 found
    cases same
    obtain ⟨others, listed', member'⟩ := e.known
    rw [field_unique known listed' listed member']
    exact (value?_eq_some_iff _).2 (List.mem_map_of_mem member)
  cases found : (named values once).params.get? names with
  | some v => exact (sound found).symm
  | none =>
    cases given : (named values once).value? i with
    | none => rfl
    | some v =>
      obtain ⟨e, member, same⟩ := List.mem_map.1 ((value?_eq_some_iff _).1 given)
      cases same
      obtain ⟨others, listed, member'⟩ := e.known
      obtain rfl : names = others := Option.some.inj (known.symm.trans listed)
      have absent := List.findSome?_eq_none_iff.1 found e.key member'
      rw [(get?_named once).2 ⟨e, member, rfl⟩] at absent
      cases absent

end Reading

/- The parameters of a list give the fields the values that are written in it. -/
theorem gives_params : s.params.Gives kind s.value? := by
  cases s with
  | named values once =>
    exact .named (by rw [params_named]) fun i names known => get?_eq_value? once known
  | unnamed values formed =>
    rw [params_unnamed]
    refine .unnamed _ formed (fun names => ?_) ?_ fun i other => ?_
    · rw [Params.get?, List.findSome?_eq_none_iff]
      exact fun _ _ => rfl
    · rw [List.map_map, List.map_map]
      exact List.map_congr_left fun e member => (value?_eq_some_iff _).2 (List.mem_map_of_mem member)
    · refine Table.lookup_eq_none fun item member same => other ?_
      obtain ⟨e, listed, rfl⟩ := List.mem_map.1 member
      exact List.mem_map.2 ⟨e, listed, same⟩

end Spelling

theorem ofParams_cases (kind : List Char) (delay : Nat) (params : Params) :
    (∃ effect, ofParams kind delay params = ⟨some ⟨effect, delay⟩, []⟩) ∨
      ∃ finding, ofParams kind delay params = ⟨none, [finding]⟩ := by
  unfold ofParams
  split
  · exact .inl ⟨_, rfl⟩
  · exact .inr ⟨_, rfl⟩

/- All ways of writing the same values for the fields of a kind are read alike: as one action without a delay,
or as none with one finding. -/
theorem read_spelling {kind : List Char} (known : fieldNames (String.ofList (Text.lower kind)) ≠ [])
    (s t : Spelling (String.ofList (Text.lower kind))) (same : s.items.Perm t.items) :
    read (actionText kind s.texts) = read (actionText kind t.texts) ∧
      ((∃ effect, read (actionText kind s.texts) = ⟨some ⟨effect, 0⟩, []⟩) ∨
        ∃ finding, read (actionText kind s.texts) = ⟨none, [finding]⟩) := by
  obtain ⟨some_letter, letters⟩ := kind_of_fieldNames known
  rw [String.toList_ofList] at letters
  have named : kind ≠ [] := by
    rintro rfl
    exact some_letter rfl
  have letters : ∀ c ∈ kind, isKindChar c = true := fun c member =>
    Text.isAlphanum_of_isIdentStart (Text.ident_of_lower letters c member)
  have alike : ofParams kind 0 s.params = ofParams kind 0 t.params := by
    have second := t.gives_params
    rw [← s.value?_of_perm t same] at second
    unfold ofParams
    rw [effect?_of_gives s.givable s.gives_params second]
  rw [read_passed named letters s.passed_texts, read_passed named letters t.passed_texts]
  exact ⟨alike, ofParams_cases kind 0 s.params⟩

theorem read_spelling_of_status :
    read "Set_Contact_Status: \"Eli\",gone for now".toList =
        read "Set_Contact_Status:status: 'gone for now' , NAME :Eli".toList ∧
      (read "Set_Contact_Status: \"Eli\",gone for now".toList).action =
        some ⟨.setContactStatus "Eli" "gone for now", 0⟩ := by
  have nothing : ∀ c ∈ [], Text.isBlank c = true := List.forall_mem_nil _
  have space : ∀ c ∈ [' '], Text.isBlank c = true := List.forall_mem_singleton.2 rfl
  have bare : ∀ c, none = some c → isQuote c = true := nofun
  have double : ∀ c, some '"' = some c → isQuote c = true := by rintro _ ⟨⟩; rfl
  have single : ∀ c, some '\'' = some c → isQuote c = true := by rintro _ ⟨⟩; rfl
  let eli : FieldValue := ⟨"Eli".toList, by decide, by decide, List.all_iff_forall_prop.1 (by decide), by decide⟩
  let gone : FieldValue :=
    ⟨"gone for now".toList, by decide, by decide, List.all_iff_forall_prop.1 (by decide), by decide⟩
  let places : List Entry := [⟨0, eli, some '"', double, [' '], [], space, nothing⟩,
    ⟨1, gone, none, bare, [], [], nothing, nothing⟩]
  let names : List (NamedEntry "set_contact_status") :=
    [⟨⟨1, gone, some '\'', single, [' '], [' '], space, space⟩, [], "status".toList, [],
        ⟨_, rfl, by decide⟩, nothing, nothing⟩,
      ⟨⟨0, eli, none, bare, [], [], nothing, nothing⟩, [' '], "NAME".toList, [' '],
        ⟨_, rfl, by decide⟩, space, space⟩]
  have formed : places.map (·.field) ∈ unnamedForms "set_contact_status" :=
    (by decide : [0, 1] ∈ unnamedForms "set_contact_status")
  have once : (names.map (·.field)).Nodup := (by decide : [1, 0].Nodup)
  have swapped : (Spelling.unnamed places formed).items.Perm (Spelling.named names once).items :=
    List.Perm.swap _ _ []
  have alike := @read_spelling "Set_Contact_Status".toList (by decide) (.unnamed places formed)
    (.named names once) swapped
  exact ⟨alike.1, by decide +kernel⟩

end Action

end ChatStory
