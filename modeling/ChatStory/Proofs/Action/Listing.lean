import ChatStory.Action.Reader
import ChatStory.Proofs.Operand
import Mathlib.Data.Bool.AllAny

/-!
The items of a parameter list. What stands between two commas outside of quotes is one item. Blanks around an
item do not count, and neither do commas at the ends of the list, so that the parameters are what the items
come to, one after the other.
-/
namespace ChatStory

namespace Text

variable {cs more : List Char}

theorem trim_append (blank : ∀ c ∈ more, isBlank c = true) (cs : List Char) : trim (cs ++ more) = trim cs := by
  cases visible : dropBlank cs with
  | nil =>
    have all : ∀ c ∈ cs, isBlank c = true := by
      intro c member
      have parts := takeBlank_append_dropBlank cs
      rw [visible, List.append_nil] at parts
      rw [← parts] at member
      exact blank_of_takeBlank cs c member
    rw [trim_append_of_blank all, ← List.append_nil cs, trim_append_of_blank all, ← List.append_nil more,
      trim_append_of_blank blank]
  | cons c rest =>
    have seen := seen_of_dropBlank visible
    have parts : cs = cs.takeWhile isBlank ++ c :: rest := by rw [← visible, takeBlank_append_dropBlank]
    have same : trim cs = dropBlankEnd (c :: rest) := by rw [trim, visible]
    rw [same, trim, parts, List.append_assoc, List.cons_append,
      dropBlank_append_of_blank (blank_of_takeBlank cs), dropBlank_cons seen, ← List.cons_append,
      dropBlankEnd_append_of_blank _ blank]

/- Only blanks at its ends are dropped from a text. -/
theorem dropBlankEnd_of_seen (last : ∀ c, cs.getLast? = some c → isBlank c = false) : dropBlankEnd cs = cs := by
  rcases List.eq_nil_or_concat cs with rfl | ⟨front, e, rfl⟩
  · rfl
  · rw [List.concat_eq_append] at *
    exact dropBlankEnd_append_cons (last e List.getLast?_concat) front []

theorem trim_of_seen (first : ∀ c, cs.head? = some c → isBlank c = false)
    (last : ∀ c, cs.getLast? = some c → isBlank c = false) : trim cs = cs := by
  cases cs with
  | nil => rfl
  | cons c rest => rw [trim, dropBlank_cons (first c rfl), dropBlankEnd_of_seen last]

theorem length_trim_le (cs : List Char) : (trim cs).length ≤ cs.length := by
  obtain ⟨before, after, parts, -, -⟩ := exists_blanks_around cs
  have long := congrArg List.length parts
  rw [List.length_append, List.length_append] at long
  omega

/- So a text that is trimmed has no blanks at its ends. -/
theorem seen_of_trim (tight : trim cs = cs) : (∀ c, cs.head? = some c → isBlank c = false) ∧
    ∀ c, cs.getLast? = some c → isBlank c = false := by
  constructor
  · intro c first
    obtain ⟨rest, rfl⟩ := List.head?_eq_some_iff.1 first
    refine Bool.eq_false_iff.2 fun blank => ?_
    have dropped : trim (c :: rest) = trim rest := trim_append_of_blank (List.forall_mem_singleton.2 blank) rest
    have short := length_trim_le rest
    rw [← dropped, tight, List.length_cons] at short
    omega
  · intro c last
    obtain ⟨front, rfl⟩ := List.getLast?_eq_some_iff.1 last
    refine Bool.eq_false_iff.2 fun blank => ?_
    have dropped : trim (front ++ [c]) = trim front := trim_append (List.forall_mem_singleton.2 blank) front
    have short := length_trim_le front
    rw [← dropped, tight, List.length_append, List.length_singleton] at short
    omega

theorem unwrap_quote (quote : Char) (cs : List Char) : unwrap quote (quote :: (cs ++ [quote])) = some cs := by
  simp [unwrap]

/-- The characters that are blank. -/
def blankChars : List Char := blankRanges.flatMap fun r => (List.range' r.1 (r.2 + 1 - r.1)).map Char.ofNat

theorem mem_blankChars {c : Char} (blank : isBlank c = true) : c ∈ blankChars := by
  obtain ⟨r, listed, within⟩ := List.any_eq_true.1 blank
  simp only [Bool.and_eq_true, decide_eq_true_eq] at within
  refine List.mem_flatMap.2 ⟨r, listed, List.mem_map.2 ⟨c.toNat, List.mem_range'_1.2 ?_, Char.ofNat_toNat c⟩⟩
  omega

theorem seen_of_word {c : Char} (word : isWord c = true) : isBlank c = false := by
  refine Bool.eq_false_iff.2 fun blank => ?_
  have apart : ∀ c ∈ blankChars, isWord c = false := List.all_iff_forall_prop.1 (by decide +kernel)
  rw [apart c (mem_blankChars blank)] at word
  cases word

end Text

namespace Params

/-- The quote that is open behind a character. -/
def openQuote : Option Char → Char → Option Char
  | some mark, c => if c == mark then none else some mark
  | none, c => if isQuote c then some c else none

/-- The quotes of a text are closed at its end. -/
def Closed (cs : List Char) : Prop := cs.foldl openQuote none = none

theorem isQuote_of_blank {c : Char} (blank : Text.isBlank c = true) : isQuote c = false := by
  refine Bool.eq_false_iff.2 fun quoted => ?_
  rw [isQuote, Bool.or_eq_true, beq_iff_eq, beq_iff_eq] at quoted
  rcases quoted with rfl | rfl <;> exact absurd blank (by decide)

section Quotes

variable {quote : Option Char} {cs before after : List Char}

theorem isQuote_of_none : ∀ mark, none = some mark → isQuote mark = true := nofun

/- Only quotes are open. -/
theorem isQuote_of_open (known : ∀ mark, quote = some mark → isQuote mark = true) (cs : List Char) :
    ∀ mark, cs.foldl openQuote quote = some mark → isQuote mark = true := by
  induction cs generalizing quote with
  | nil => exact known
  | cons c rest ih =>
    refine ih fun mark opened => ?_
    cases quote with
    | some other =>
      rw [openQuote] at opened
      split at opened
      · cases opened
      · exact known mark opened
    | none =>
      rw [openQuote] at opened
      split at opened
      · rename_i quoted
        cases opened
        exact quoted
      · cases opened

theorem foldl_openQuote_plain (known : ∀ mark, quote = some mark → isQuote mark = true)
    (plain : ∀ c ∈ cs, isQuote c = false) : cs.foldl openQuote quote = quote := by
  induction cs with
  | nil => rfl
  | cons c rest ih =>
    obtain ⟨first, later⟩ := List.forall_mem_cons.1 plain
    have same : openQuote quote c = quote := by
      cases quote with
      | none => exact if_neg (Bool.eq_false_iff.1 first)
      | some mark =>
        refine if_neg fun met => ?_
        rw [beq_iff_eq.1 met, known mark rfl] at first
        cases first
    rw [List.foldl_cons, same, ih later]

theorem Closed.middle (closed : Closed (before ++ (cs ++ after))) (first : ∀ c ∈ before, isQuote c = false)
    (last : ∀ c ∈ after, isQuote c = false) : Closed cs := by
  have known : ∀ mark, cs.foldl openQuote none = some mark → isQuote mark = true :=
    isQuote_of_open isQuote_of_none cs
  rwa [Closed, List.foldl_append, foldl_openQuote_plain isQuote_of_none first, List.foldl_append,
    foldl_openQuote_plain known last] at closed

theorem Closed.append (first : Closed before) (last : Closed after) : Closed (before ++ after) := by
  rw [Closed, List.foldl_append, first]
  exact last

theorem closed_of_plain (plain : ∀ c ∈ cs, isQuote c = false) : Closed cs :=
  foldl_openQuote_plain isQuote_of_none plain

/- A quote is open until its mark comes up again. -/
theorem foldl_openQuote_absent {mark : Char} (absent : mark ∉ cs) : cs.foldl openQuote (some mark) = some mark := by
  induction cs with
  | nil => rfl
  | cons c rest ih =>
    obtain ⟨first, later⟩ := not_or.1 (mt List.mem_cons.2 absent)
    have same : openQuote (some mark) c = some mark := if_neg fun met => first (beq_iff_eq.1 met).symm
    rw [List.foldl_cons, same, ih later]

theorem closed_quote {mark : Char} (marked : isQuote mark = true) (absent : mark ∉ cs) :
    Closed (mark :: (cs ++ [mark])) := by
  have opened : openQuote none mark = some mark := if_pos marked
  rw [Closed, List.foldl_cons, opened, List.foldl_append, foldl_openQuote_absent absent]
  exact if_pos (beq_self_eq_true mark)

end Quotes

section Splitting

variable {quote : Option Char} {cs more : List Char}

theorem splitItems_ne_nil (quote : Option Char) (cs : List Char) : splitItems quote cs ≠ [] := by
  cases cs with
  | nil => exact List.cons_ne_nil _ _
  | cons c cs =>
    unfold splitItems
    dsimp only
    split
    · split <;> exact List.cons_ne_nil _ _
    · split
      · split <;> exact List.cons_ne_nil _ _
      · split
        · exact List.cons_ne_nil _ _
        · split <;> exact List.cons_ne_nil _ _

/- A comma outside of quotes ends an item, and any other character is one of the item. -/
theorem splitItems_cons (quote : Option Char) (c : Char) (cs : List Char) :
    splitItems quote (c :: cs) = if quote = none ∧ c = ',' then [] :: splitItems none cs
      else (splitItems (openQuote quote c) cs).modifyHead (c :: ·) := by
  obtain ⟨item, items, shape⟩ := List.exists_cons_of_ne_nil (splitItems_ne_nil (openQuote quote c) cs)
  cases quote with
  | some mark =>
    rw [if_neg (by simp), shape, splitItems]
    rw [openQuote] at shape
    simp only [shape]
    rfl
  | none =>
    by_cases quoted : isQuote c = true
    · have other : c ≠ ',' := by
        rintro rfl
        cases quoted
      rw [if_neg (by simp [other]), shape, splitItems]
      rw [openQuote, if_pos quoted] at shape
      simp only [if_pos quoted, shape]
      rfl
    · rw [shape, splitItems]
      rw [openQuote, if_neg quoted] at shape
      by_cases comma : c = ','
      · simp only [comma]
        rfl
      · simp only [if_neg quoted, beq_iff_eq, comma, and_false, if_false, shape]
        rfl

theorem splitItems_comma (closed : cs.foldl openQuote quote = none) (more : List Char) :
    splitItems quote (cs ++ ',' :: more) = splitItems quote cs ++ splitItems none more := by
  induction cs generalizing quote with
  | nil =>
    obtain rfl : quote = none := closed
    rw [List.nil_append, splitItems_cons, if_pos ⟨rfl, rfl⟩]
    rfl
  | cons c rest ih =>
    rw [List.cons_append, splitItems_cons, splitItems_cons]
    split
    · rename_i ends
      obtain ⟨rfl, rfl⟩ := ends
      have closed : rest.foldl openQuote none = none := closed
      rw [ih closed]
      rfl
    · rw [ih closed]
      cases shape : splitItems (openQuote quote c) rest with
      | nil => exact absurd shape (splitItems_ne_nil _ rest)
      | cons item items => rfl

/- A blank at the end belongs to the last item. -/
theorem splitItems_blank {b : Char} (blank : Text.isBlank b = true) (quote : Option Char) (cs : List Char) :
    ∃ front last, splitItems quote cs = front ++ [last] ∧
      splitItems quote (cs ++ [b]) = front ++ [last ++ [b]] := by
  induction cs generalizing quote with
  | nil =>
    have other : b ≠ ',' := by
      rintro rfl
      cases blank
    refine ⟨[], [], rfl, ?_⟩
    rw [List.nil_append, splitItems_cons, if_neg (by simp [other])]
    rfl
  | cons c rest ih =>
    rw [List.cons_append, splitItems_cons, splitItems_cons]
    split
    · obtain ⟨front, last, short, long⟩ := ih none
      exact ⟨[] :: front, last, by rw [short]; rfl, by rw [long]; rfl⟩
    · obtain ⟨front, last, short, long⟩ := ih (openQuote quote c)
      rw [short, long]
      cases front with
      | nil => exact ⟨[], c :: last, rfl, rfl⟩
      | cons first front => exact ⟨(c :: first) :: front, last, rfl, rfl⟩

/- A text without quotes and commas is one item with what follows. -/
theorem splitItems_plain (plain : ∀ c ∈ cs, isQuote c = false ∧ c ≠ ',') (more : List Char) :
    splitItems none (cs ++ more) = (splitItems none more).modifyHead (cs ++ ·) := by
  induction cs with
  | nil => exact (congrFun List.modifyHead_id _).symm
  | cons c rest ih =>
    obtain ⟨⟨quotes, comma⟩, later⟩ := List.forall_mem_cons.1 plain
    rw [List.cons_append, splitItems_cons, if_neg (by simp [comma]), openQuote, quotes, if_neg (by decide),
      ih later, List.modifyHead_modifyHead]
    rfl

end Splitting

/-- The items of a list, trimmed, without those that hold nothing. -/
def entries (cs : List Char) : List (List Char) :=
  ((splitItems none cs).map Text.trim).filter (!·.isEmpty)

/-- The parameters with one item more. -/
def add (params : Params) (entry : List Char) : Params :=
  match namedItem? entry with
  | some (name, value) => { params with named := params.named.insert name value }
  | none => { params with positional := params.positional ++ [String.ofList (unquote entry)] }

/-- What a list of items comes to. -/
def ofEntries (entries : List (List Char)) : Params := entries.foldl add ⟨∅, []⟩

theorem read_eq (cs : List Char) : read cs = ofEntries (entries cs) := by
  rw [ofEntries, entries, List.foldl_filter, List.foldl_map]
  unfold read
  congr 1
  funext params item
  dsimp only
  cases empty : (Text.trim item).isEmpty with
  | true => rfl
  | false => rfl

section Entries

variable {cs blanks commas : List Char}

theorem entries_comma (closed : Closed cs) (more : List Char) :
    entries (cs ++ ',' :: more) = entries cs ++ entries more := by
  rw [entries, splitItems_comma closed, List.map_append, List.filter_append]
  rfl

theorem entries_blank_append (blank : ∀ c ∈ blanks, Text.isBlank c = true) (cs : List Char) :
    entries (blanks ++ cs) = entries cs := by
  have plain : ∀ c ∈ blanks, isQuote c = false ∧ c ≠ ',' := by
    intro c member
    refine ⟨isQuote_of_blank (blank c member), ?_⟩
    rintro rfl
    exact absurd (blank _ member) (by decide)
  rw [entries, entries, splitItems_plain plain]
  cases splitItems none cs with
  | nil => rfl
  | cons item items =>
    simp only [List.modifyHead_cons, List.map_cons]
    rw [Text.trim_append_of_blank blank]

theorem entries_append_blank (blank : ∀ c ∈ blanks, Text.isBlank c = true) (cs : List Char) :
    entries (cs ++ blanks) = entries cs := by
  induction blanks generalizing cs with
  | nil => rw [List.append_nil]
  | cons b rest ih =>
    obtain ⟨first, later⟩ := List.forall_mem_cons.1 blank
    have last : ∀ c ∈ [b], Text.isBlank c = true := List.forall_mem_singleton.2 first
    obtain ⟨front, item, short, long⟩ := splitItems_blank first none cs
    rw [List.append_cons, ih later, entries, entries, short, long, List.map_append, List.map_append,
      List.map_singleton, List.map_singleton, Text.trim_append last]

theorem entries_trim (cs : List Char) : entries (Text.trim cs) = entries cs := by
  obtain ⟨before, after, parts, first, last⟩ := Text.exists_blanks_around cs
  have whole := congrArg entries parts
  rwa [entries_blank_append first, entries_append_blank last, eq_comm] at whole

theorem entries_commas_append (all : ∀ c ∈ commas, c = ',') (cs : List Char) :
    entries (commas ++ cs) = entries cs := by
  induction commas with
  | nil => rfl
  | cons c rest ih =>
    obtain ⟨rfl, later⟩ := List.forall_mem_cons.1 all
    have first : entries (',' :: (rest ++ cs)) = entries [] ++ entries (rest ++ cs) :=
      @entries_comma [] rfl (rest ++ cs)
    rw [List.cons_append, first, ih later]
    rfl

theorem entries_append_commas (closed : Closed cs) (all : ∀ c ∈ commas, c = ',') :
    entries (cs ++ commas) = entries cs := by
  cases commas with
  | nil => rw [List.append_nil]
  | cons c rest =>
    obtain ⟨rfl, later⟩ := List.forall_mem_cons.1 all
    have empty : entries rest = [] := by
      have same := entries_commas_append later []
      rwa [List.append_nil] at same
    rw [entries_comma closed, empty, List.append_nil]

/- Commas at the ends of a list make no items. -/
theorem entries_dropCommas (closed : Closed cs) : entries (Action.dropCommas cs) = entries cs := by
  have comma : ∀ {text : List Char}, ∀ c ∈ text.takeWhile (· == ','), c = ',' := fun c member =>
    beq_iff_eq.1 (List.all_eq_true.1 List.all_takeWhile c member)
  have plain : ∀ {text : List Char}, (∀ c ∈ text, c = ',') → ∀ c ∈ text, isQuote c = false := by
    intro text all c member
    rw [all c member]
    rfl
  have ends : cs.dropWhile (· == ',') = Action.dropCommas cs ++
      ((cs.dropWhile (· == ',')).reverse.takeWhile (· == ',')).reverse := by
    rw [Action.dropCommas, ← List.reverse_append, List.takeWhile_append_dropWhile, List.reverse_reverse]
  have parts : cs = cs.takeWhile (· == ',') ++ (Action.dropCommas cs ++
      ((cs.dropWhile (· == ',')).reverse.takeWhile (· == ',')).reverse) := by
    rw [← ends, List.takeWhile_append_dropWhile]
  have last : ∀ c ∈ ((cs.dropWhile (· == ',')).reverse.takeWhile (· == ',')).reverse, c = ',' :=
    fun c member => comma c (List.mem_reverse.1 member)
  rw [parts] at closed
  have within := closed.middle (plain comma) (plain last)
  conv => rhs; rw [parts]
  rw [entries_commas_append comma, entries_append_commas within last]

/- So the parameters are read from the items of a list, whatever stands around it. -/
theorem read_tidied (closed : Closed cs) :
    read (Action.dropCommas (Text.trim cs)) = ofEntries (entries cs) := by
  obtain ⟨before, after, parts, first, last⟩ := Text.exists_blanks_around cs
  have plain : ∀ {text : List Char}, (∀ c ∈ text, Text.isBlank c = true) → ∀ c ∈ text, isQuote c = false :=
    fun blank c member => isQuote_of_blank (blank c member)
  rw [parts] at closed
  rw [read_eq, entries_dropCommas (closed.middle (plain first) (plain last)), entries_trim]

end Entries

/-- The name before a quoted value, with its colon, is not the one of the delay. -/
inductive Label : List Char → Prop
  | blank {lead : List Char} : (∀ c ∈ lead, Text.isBlank c = true) → Label lead
  | named {lead name gap behind : List Char} : (∀ c ∈ lead, Text.isBlank c = true) →
      (∀ c ∈ name, Text.isWord c = true) → Text.lower name ≠ "delay".toList →
      (∀ c ∈ gap, Text.isBlank c = true) → (∀ c ∈ behind, Text.isBlank c = true) →
      Label (lead ++ (name ++ (gap ++ ':' :: behind)))

/-- An item whose value is in quotes. -/
structure Quotation where
  label : List Char
  labelled : Label label
  mark : Char
  marked : isQuote mark = true
  value : List Char
  whole : mark ∉ value
  trail : List Char
  blank : ∀ c ∈ trail, Text.isBlank c = true

/-- What may stand between two commas of a list, with the blanks around it. -/
inductive Item where
  | bare (text : List Char) (plain : ∀ c ∈ text, isQuote c = false ∧ c ≠ ',' ∧ c ≠ ':')
  | quoted (quotation : Quotation)

def Quotation.text (q : Quotation) : List Char := q.label ++ q.mark :: (q.value ++ q.mark :: q.trail)

def Item.text : Item → List Char
  | bare text _ => text
  | quoted quotation => quotation.text

def texts (items : List Item) : List (List Char) := items.map (·.text)

@[simp] theorem texts_nil : texts [] = [] := rfl

@[simp] theorem texts_cons (item : Item) (more : List Item) :
    texts (item :: more) = item.text :: texts more := rfl

@[simp] theorem texts_append (left right : List Item) : texts (left ++ right) = texts left ++ texts right :=
  List.map_append

/-- Items with commas between them. -/
def listed (pieces : List (List Char)) : List Char := [','].intercalate pieces

/-- Items with a comma behind each of them. -/
def led (pieces : List (List Char)) : List Char := pieces.flatMap (· ++ [','])

theorem plain_of_label {label : List Char} (labelled : Label label) : ∀ c ∈ label, isQuote c = false := by
  have blank : ∀ {text : List Char}, (∀ c ∈ text, Text.isBlank c = true) → ∀ c ∈ text, isQuote c = false :=
    fun blank c member => isQuote_of_blank (blank c member)
  cases labelled with
  | blank first => exact blank first
  | @named lead name gap behind first word _ between last =>
    have letters : ∀ c ∈ name, isQuote c = false := by
      intro c member
      refine Bool.eq_false_iff.2 fun quoted => ?_
      rw [isQuote, Bool.or_eq_true, beq_iff_eq, beq_iff_eq] at quoted
      rcases quoted with rfl | rfl <;> exact absurd (word _ member) (by decide +kernel)
    exact List.forall_mem_append.2 ⟨blank first, List.forall_mem_append.2 ⟨letters, List.forall_mem_append.2
      ⟨blank between, List.forall_mem_cons.2 ⟨rfl, blank last⟩⟩⟩⟩

theorem closed_item (item : Item) : Closed item.text := by
  cases item with
  | bare text plain => exact closed_of_plain fun c member => (plain c member).1
  | quoted q =>
    have parts : q.text = q.label ++ (q.mark :: (q.value ++ [q.mark]) ++ q.trail) := by
      simp [Quotation.text]
    rw [Item.text, parts]
    exact (closed_of_plain (plain_of_label q.labelled)).append ((closed_quote q.marked q.whole).append
      (closed_of_plain fun c member => isQuote_of_blank (q.blank c member)))

/- An item whose last blanks are dropped is an item. -/
theorem exists_shorn (item : Item) : ∃ shorn : Item, shorn.text = Text.dropBlankEnd item.text := by
  cases item with
  | bare text plain =>
    obtain ⟨blanks, parts, -⟩ := Text.exists_blank_end text
    exact ⟨.bare (Text.dropBlankEnd text) fun c member => plain c (by
      rw [parts]
      exact List.mem_append_left _ member), rfl⟩
  | quoted q =>
    have seen : Text.isBlank q.mark = false := by
      refine Bool.eq_false_iff.2 fun blank => ?_
      exact absurd (q.marked.symm.trans (isQuote_of_blank blank)) (by decide)
    have parts : q.text = (q.label ++ q.mark :: q.value) ++ q.mark :: q.trail := by simp [Quotation.text]
    have gone := Text.dropBlankEnd_append_of_blank (q.label ++ q.mark :: q.value ++ [q.mark]) q.blank
    have kept := Text.dropBlankEnd_append_cons seen (q.label ++ q.mark :: q.value) []
    refine ⟨.quoted { q with trail := [], blank := fun _ member => nomatch member }, ?_⟩
    rw [Item.text, Item.text, parts, List.append_cons, gone, kept]
    simp [Quotation.text, Text.dropBlankEnd, Text.dropBlank]

/-- Items with a comma before each of them. -/
def trailed (pieces : List (List Char)) : List Char := pieces.flatMap (',' :: ·)

section Listed

variable {pieces : List (List Char)}

theorem listed_cons (text : List Char) (more : List (List Char)) :
    listed (text :: more) = text ++ trailed more := by
  induction more generalizing text with
  | nil => rw [listed, List.intercalate_singleton, trailed, List.flatMap_nil, List.append_nil]
  | cons next rest ih =>
    have split : listed (text :: next :: rest) = text ++ ',' :: listed (next :: rest) := by
      rw [listed, List.intercalate_cons_cons, List.append_assoc]
      rfl
    rw [split, ih, trailed, trailed, List.flatMap_cons]
    rfl

theorem listed_single (text : List Char) : listed [text] = text := List.intercalate_singleton

theorem trailed_cons (text : List Char) (more : List (List Char)) :
    trailed (text :: more) = ',' :: listed (text :: more) := by
  rw [listed_cons, trailed, List.flatMap_cons]
  rfl

theorem listed_append (pieces : List (List Char)) (text : List Char) (more : List (List Char)) :
    listed (pieces ++ text :: more) = led pieces ++ listed (text :: more) := by
  induction pieces with
  | nil => rfl
  | cons first rest ih =>
    have next : trailed (rest ++ text :: more) = ',' :: listed (rest ++ text :: more) := by
      cases rest with
      | nil => exact trailed_cons text more
      | cons other rest => exact trailed_cons other (rest ++ text :: more)
    rw [List.cons_append, listed_cons, next, ih, led, led, List.flatMap_cons, List.append_assoc,
      List.append_assoc]
    rfl

theorem closed_led (closed : ∀ text ∈ pieces, Closed text) : Closed (led pieces) := by
  induction pieces with
  | nil => rfl
  | cons text more ih =>
    obtain ⟨first, later⟩ := List.forall_mem_cons.1 closed
    have comma : Closed [','] := rfl
    rw [led, List.flatMap_cons]
    exact (first.append comma).append (ih later)

theorem entries_led (closed : ∀ text ∈ pieces, Closed text) (cs : List Char) :
    entries (led pieces ++ cs) = pieces.flatMap entries ++ entries cs := by
  induction pieces with
  | nil => rfl
  | cons text more ih =>
    obtain ⟨first, later⟩ := List.forall_mem_cons.1 closed
    have parts : led (text :: more) ++ cs = text ++ ',' :: (led more ++ cs) := by
      rw [led, List.flatMap_cons, List.append_assoc, List.append_assoc]
      rfl
    rw [parts, entries_comma first, ih later, List.flatMap_cons, List.append_assoc]

theorem closed_trailed (closed : ∀ text ∈ pieces, Closed text) : Closed (trailed pieces) := by
  induction pieces with
  | nil => rfl
  | cons text more ih =>
    obtain ⟨first, later⟩ := List.forall_mem_cons.1 closed
    have comma : Closed [','] := rfl
    exact (comma.append first).append (ih later)

theorem closed_listed (closed : ∀ text ∈ pieces, Closed text) : Closed (listed pieces) := by
  cases pieces with
  | nil => rfl
  | cons text more =>
    obtain ⟨first, later⟩ := List.forall_mem_cons.1 closed
    rw [listed_cons]
    exact first.append (closed_trailed later)

theorem closed_texts (items : List Item) : ∀ text ∈ texts items, Closed text := by
  intro text member
  obtain ⟨item, -, rfl⟩ := List.mem_map.1 member
  exact closed_item item

theorem entries_listed (closed : ∀ text ∈ pieces, Closed text) :
    entries (listed pieces) = pieces.flatMap entries := by
  induction pieces with
  | nil => rfl
  | cons text more ih =>
    obtain ⟨first, later⟩ := List.forall_mem_cons.1 closed
    rw [listed_cons, List.flatMap_cons]
    cases more with
    | nil => rw [trailed, List.flatMap_nil, List.append_nil, List.flatMap_nil, List.append_nil]
    | cons next rest => rw [trailed_cons, entries_comma first, ih later]

theorem dropBlankEnd_led (pieces : List (List Char)) (cs : List Char) :
    Text.dropBlankEnd (led pieces ++ cs) = led pieces ++ Text.dropBlankEnd cs := by
  induction pieces with
  | nil => rfl
  | cons text more ih =>
    have parts : ∀ cs, led (text :: more) ++ cs = text ++ ',' :: (led more ++ cs) := by simp [led]
    rw [parts, parts, Text.dropBlankEnd_append_cons (by decide), ih]

/- A list whose last blanks are dropped is a list of items. -/
theorem exists_shorn_listed (items : List Item) : ∃ shorn : List Item, ∃ blanks : List Char,
    listed (texts items) = listed (texts shorn) ++ blanks ∧
      Text.dropBlankEnd (listed (texts items)) = listed (texts shorn) ∧
      (∀ c ∈ blanks, Text.isBlank c = true) ∧ (shorn = [] ↔ items = []) := by
  rcases List.eq_nil_or_concat items with rfl | ⟨front, last, rfl⟩
  · exact ⟨[], [], rfl, rfl, (fun _ member => nomatch member), Iff.rfl⟩
  · obtain ⟨shorn, same⟩ := exists_shorn last
    obtain ⟨blanks, parts, blank⟩ := Text.exists_blank_end last.text
    have split : ∀ item : Item, listed (texts (front ++ [item])) = led (texts front) ++ item.text := by
      intro item
      rw [texts_append, texts_cons, texts_nil, listed_append, listed_single]
    refine ⟨front ++ [shorn], blanks, ?_, ?_, blank, by simp⟩
    · rw [List.concat_eq_append, split, split, same, List.append_assoc, ← parts]
    · rw [List.concat_eq_append, split, split, same, dropBlankEnd_led]

end Listed

end Params
end ChatStory
