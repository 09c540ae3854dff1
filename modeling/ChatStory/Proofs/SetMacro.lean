import ChatStory.Proofs.Operand
import ChatStory.Proofs.Targets

/-!
Two readings of one set macro. A body finds the end of the macro by matching brackets and quotes, and
the survey reads the macro from its start, with a bare operand up to the next parenthesis. The survey
finds what the body assigns exactly if the macro is written plainly.
-/
namespace ChatStory

namespace Markup

/-- The marks by which the inside of a bracket is found. -/
def Bracket.marks (b : Bracket) (c : Char) : Bool :=
  b.quotes.contains c || c == b.opening || c == b.closing

namespace Bracket

variable {b : Bracket} {depth : Nat} {quote : Option Char} {cs inside : List Char}

/- The inside is followed by the closing bracket. -/
theorem eq_append (found : b.insideFrom? depth quote cs = some inside) :
    ∃ after, cs = inside ++ b.closing :: after := by
  induction cs generalizing depth quote inside with
  | nil => cases found
  | cons c rest ih =>
    have onward : ∀ {d q}, (b.insideFrom? d q rest).map (c :: ·) = some inside →
        ∃ after, c :: rest = inside ++ b.closing :: after := by
      intro d q found
      obtain ⟨others, found, same⟩ := Option.map_eq_some_iff.1 found
      obtain ⟨after, parts⟩ := ih found
      refine ⟨after, ?_⟩
      rw [← same, parts]
      rfl
    unfold insideFrom? at found
    split at found
    · cases found
    · split at found
      · exact onward found
      · split at found
        · exact onward found
        · split at found
          · exact onward found
          · split at found
            · rename_i closes
              split at found
              · cases found
                rw [beq_iff_eq.1 closes]
                exact ⟨rest, rfl⟩
              · exact onward found
            · exact onward found

/- What holds no marks is passed over. -/
theorem inside_of_plain {front : List Char} (plain : ∀ c ∈ front, b.marks c = false)
    (found : b.insideFrom? depth none (front ++ cs) = some (front ++ inside)) :
    b.insideFrom? depth none cs = some inside := by
  induction front with
  | nil => exact found
  | cons c rest ih =>
    obtain ⟨first, others⟩ := List.forall_mem_cons.1 plain
    simp only [marks, Bool.or_eq_false_iff] at first
    obtain ⟨⟨quotes, opens⟩, closes⟩ := first
    apply ih others
    rw [List.cons_append, List.cons_append] at found
    unfold insideFrom? at found
    split at found
    · cases found
    · simp only [quotes, opens, closes, Bool.false_eq_true, ↓reduceIte] at found
      obtain ⟨_, found, same⟩ := Option.map_eq_some_iff.1 found
      rw [found, (List.cons.inj same).2]

/- A quote that is open ends within the inside. -/
theorem inside_of_quote {mark : Char} (found : b.insideFrom? depth (some mark) cs = some inside) :
    ∃ text rest after, mark ∉ text ∧ inside = text ++ mark :: rest ∧ cs = text ++ mark :: after ∧
      b.insideFrom? depth none after = some rest := by
  induction cs generalizing inside with
  | nil => cases found
  | cons c others ih =>
    unfold insideFrom? at found
    split at found
    · cases found
    · obtain ⟨later, found, same⟩ := Option.map_eq_some_iff.1 found
      split at found
      · rename_i ends
        rw [beq_iff_eq.1 ends] at same ⊢
        exact ⟨[], later, others, List.not_mem_nil, same.symm, rfl, found⟩
      · rename_i other
        obtain ⟨text, rest, after, absent, parts, whole, found⟩ := ih found
        refine ⟨c :: text, rest, after, ?_, ?_, ?_, found⟩
        · rw [List.mem_cons, not_or]
          exact ⟨fun same => other (beq_iff_eq.2 same.symm), absent⟩
        · rw [← same, parts]
          rfl
        · rw [whole]
          rfl

end Bracket

variable {c : Char}

theorem plain_of_class (holds : Char → Bool) (others : ['"', '\'', '(', ')'].any holds = false)
    (kind : holds c = true) : round.marks c = false := by
  refine Bool.eq_false_iff.2 fun marked => ?_
  have listed : c ∈ ['"', '\'', '(', ')'] := by
    simpa [Bracket.marks, round, or_assoc] using marked
  exact List.any_eq_false.1 others c listed kind

theorem plain_of_blank (blank : Text.isBlank c = true) : round.marks c = false :=
  plain_of_class Text.isBlank (by decide) blank

theorem plain_of_word (word : Text.isWord c = true) : round.marks c = false :=
  plain_of_class Text.isWord (by decide +kernel) word

end Markup

namespace Text

variable {key cs rest : List Char}

/- A keyword is read in the same way whatever follows. -/
theorem afterKeyword_cases (read : afterKeyword key cs = some rest) :
    ∃ front, cs = front ++ rest ∧ (∀ c ∈ front, ∃ letter ∈ key, isKeyLetter letter c = true) ∧
      ∀ more, afterKeyword key (cs ++ more) = some (rest ++ more) := by
  induction key generalizing cs with
  | nil =>
    cases read
    exact ⟨[], rfl, List.forall_mem_nil _, fun _ => rfl⟩
  | cons letter key ih =>
    cases cs with
    | nil => cases read
    | cons c cs =>
      unfold afterKeyword at read
      split at read
      · rename_i met
        obtain ⟨front, parts, letters, onward⟩ := ih read
        refine ⟨c :: front, by rw [parts]; rfl, ?_, ?_⟩
        · refine List.forall_mem_cons.2 ⟨⟨letter, List.mem_cons_self, met⟩, ?_⟩
          intro d member
          obtain ⟨other, listed, met⟩ := letters d member
          exact ⟨other, List.mem_cons_of_mem letter listed, met⟩
        · intro more
          rw [List.cons_append, afterKeyword, if_pos met]
          exact onward more
      · cases read

/- What stands before the first character of another kind is taken, whatever follows. -/
theorem span_of_stop {holds : Char → Bool} {front : List Char} {c : Char}
    (kind : ∀ c ∈ front, holds c = true) (stop : holds c = false) (more : List Char) :
    (front ++ c :: more).takeWhile holds = front ∧ (front ++ c :: more).dropWhile holds = c :: more := by
  rw [List.takeWhile_append_of_pos kind, List.dropWhile_append_of_pos kind,
    List.takeWhile_cons_of_neg (Bool.eq_false_iff.1 stop),
    List.dropWhile_cons_of_neg (Bool.eq_false_iff.1 stop), List.append_nil]
  exact ⟨rfl, rfl⟩

theorem afterBlanks_cases (read : afterBlanks cs = some rest) :
    cs.takeWhile isBlank ≠ [] ∧ rest = dropBlank cs := by
  cases cs with
  | nil => cases read
  | cons c others =>
    by_cases blank : isBlank c = true
    · rw [afterBlanks, if_pos blank] at read
      cases read
      rw [List.takeWhile_cons_of_pos blank, dropBlank, dropBlank, List.dropWhile_cons_of_pos blank]
      exact ⟨List.cons_ne_nil _ _, rfl⟩
    · rw [afterBlanks, if_neg blank] at read
      cases read

theorem afterBlanks_of_ne (blank : cs.takeWhile isBlank ≠ []) : afterBlanks cs = some (dropBlank cs) := by
  cases cs with
  | nil => exact absurd rfl blank
  | cons c cs =>
    by_cases first : isBlank c = true
    · rw [afterBlanks, if_pos first, dropBlank, dropBlank, List.dropWhile_cons_of_pos first]
    · rw [List.takeWhile_cons_of_neg first] at blank
      exact absurd rfl blank

theorem afterBlanks_append (read : afterBlanks cs = some rest) (left : rest ≠ []) (more : List Char) :
    afterBlanks (cs ++ more) = some (rest ++ more) := by
  obtain ⟨blank, rfl⟩ := afterBlanks_cases read
  obtain ⟨c, others, visible⟩ := List.exists_cons_of_ne_nil left
  have parts : cs = cs.takeWhile isBlank ++ c :: others := by
    rw [← visible, takeBlank_append_dropBlank]
  have seen := seen_of_dropBlank visible
  have whole : cs ++ more = cs.takeWhile isBlank ++ c :: (others ++ more) := by
    conv => lhs; rw [parts]
    rw [List.append_assoc]
    rfl
  obtain ⟨taken, dropped⟩ := span_of_stop (blank_of_takeBlank cs) seen (others ++ more)
  rw [whole, afterBlanks_of_ne (by rwa [taken]), dropBlank, dropped, visible]
  rfl

end Text

open Markup Text

variable {cs rest : List Char} {name : String}

theorem variableName?_cases (read : variableName? cs = some (name, rest)) (more : rest ≠ []) :
    ∃ front, cs = front ++ rest ∧ (∀ c ∈ front, round.marks c = false) ∧
      ∀ more, variableName? (cs ++ more) = some (name, rest ++ more) := by
  unfold variableName? at read
  split at read
  · rename_i word visible
    dsimp only at read
    split at read
    · cases read
    · rename_i named
      obtain ⟨rfl, rfl⟩ := Prod.mk.inj (Option.some.inj read)
      obtain ⟨c, others, stops⟩ := List.exists_cons_of_ne_nil more
      have other : isWord c = false := by
        have stop := List.head?_dropWhile_not isWord word
        rw [stops] at stop
        simpa using stop
      have letters : ∀ c ∈ word.takeWhile isWord, isWord c = true :=
        List.all_eq_true.1 List.all_takeWhile
      have parts : cs = cs.takeWhile isBlank ++ '$' :: (word.takeWhile isWord ++ c :: others) := by
        rw [← stops, List.takeWhile_append_dropWhile, ← visible, takeBlank_append_dropBlank]
      rw [stops]
      refine ⟨cs.takeWhile isBlank ++ '$' :: word.takeWhile isWord, ?_, ?_, ?_⟩
      · rw [List.append_assoc]
        exact parts
      · refine List.forall_mem_append.2 ⟨?_, List.forall_mem_cons.2 ⟨by decide, ?_⟩⟩
        · exact fun c member => plain_of_blank (blank_of_takeBlank cs c member)
        · exact fun c member => plain_of_word (letters c member)
      · intro more
        obtain ⟨taken, left⟩ := span_of_stop letters other (others ++ more)
        have visible : dropBlank (cs ++ more) =
            '$' :: (word.takeWhile isWord ++ c :: (others ++ more)) := by
          conv => lhs; rw [parts]
          rw [List.append_assoc, dropBlank_append_of_blank (blank_of_takeBlank cs)]
          simp [dropBlank_cons (show isBlank '$' = false by decide)]
        rw [variableName?, visible]
        change (if ((word.takeWhile isWord ++ c :: (others ++ more)).takeWhile isWord).isEmpty = true then
          none else some (_, (word.takeWhile isWord ++ c :: (others ++ more)).dropWhile isWord)) = _
        rw [taken, left, if_neg named]
        rfl
  · cases read

namespace Assignment

theorem eq_of_fields {a b : Assignment} (names : a.name = b.name) (values : a.value = b.value) : a = b := by
  cases a
  cases b
  cases names
  cases values
  rfl

/- Up to the operand an assignment is read in the same way whatever follows, and no marks are read. -/
theorem target?_cases (read : target? cs = some (name, rest)) :
    ∃ front, cs = front ++ rest ∧ (∀ c ∈ front, round.marks c = false) ∧
      ∀ more, target? (cs ++ more) = some (name, rest ++ more) := by
  obtain ⟨⟨_, behind⟩, named, read⟩ := Option.bind_eq_some_iff.1 read
  obtain ⟨keyword, blanks, read⟩ := Option.bind_eq_some_iff.1 read
  obtain ⟨_, keyed, same⟩ := Option.bind_eq_some_iff.1 read
  cases same
  have read : keyword ≠ [] := by
    rintro rfl
    cases keyed
  obtain ⟨blank, rfl⟩ := afterBlanks_cases blanks
  obtain ⟨front, parts, plain, named⟩ := variableName?_cases named fun none => blank (by rw [none]; rfl)
  obtain ⟨key, whole, letters, keyed⟩ := afterKeyword_cases keyed
  refine ⟨front ++ (behind.takeWhile isBlank ++ key), ?_, ?_, ?_⟩
  · rw [List.append_assoc, List.append_assoc, ← whole, takeBlank_append_dropBlank]
    exact parts
  · refine List.forall_mem_append.2 ⟨plain, List.forall_mem_append.2 ⟨?_, ?_⟩⟩
    · exact fun c member => plain_of_blank (blank_of_takeBlank _ c member)
    · intro c member
      refine plain_of_class (fun c => "to".toList.any (isKeyLetter · c)) (by decide) ?_
      exact List.any_eq_true.2 (letters c member)
  · intro more
    rw [target?, named more]
    change ((afterBlanks (behind ++ more)).bind fun operand => _) = _
    rw [afterBlanks_append blanks read more]
    change ((afterKeyword "to".toList (dropBlank behind ++ more)).bind fun rest => _) = _
    rw [keyed more]
    rfl

end Assignment

namespace Markup

/-- What a set macro says: its name, up to the colon, and the operand of the assignment. -/
def writing? (inside : List Char) : Option (List Char × List Char) := do
  let (head, argument) ← cutFirst [':'] inside
  let (_, operand) ← Assignment.target? argument
  return (head, trim operand)

/-- A text in quotes that does not hold the quote. -/
def Quoted (quote : Char) (operand : List Char) : Prop :=
  ∃ text, quote ∉ text ∧ operand = quote :: (text ++ [quote])

/-- A set macro as the survey reads it: no blank stands before the colon, and the operand has a closing
parenthesis only within quotes that are around all of it. -/
def Plain (inside : List Char) : Prop :=
  ∃ head operand, writing? inside = some (head, operand) ∧ dropBlankEnd head = head ∧
    (')' ∈ operand → Quoted '"' operand ∨ Quoted '\'' operand)

theorem set_of_macroSpan {inside : List Char} {a : Assignment}
    (set : (macroSpan inside).piece = .markup (.assign a.name a.value)) :
    ∃ head argument, cutFirst [':'] inside = some (head, argument) ∧
      lower (trim head) = "set".toList ∧ Assignment.read? argument = some a := by
  unfold macroSpan at set
  dsimp only at set
  split at set
  · split at set <;> cases set
  · split at set <;> cases set
  · split at set <;> cases set
  · split at set <;> cases set
  · rename_i named
    split at set
    · rename_i read
      obtain ⟨names, values⟩ := Fragment.assign.inj (Piece.markup.inj set)
      rw [← Assignment.eq_of_fields names values]
      cases cut : cutFirst [':'] inside with
      | none =>
        rw [macroParts, cut] at read
        cases read
      | some parts =>
        rw [macroParts, cut] at read named
        exact ⟨parts.1, parts.2, rfl, String.ofList_injective named, read⟩
    · cases set
  all_goals cases set

end Markup

namespace Text

/- A blank has one case. -/
theorem toLower_of_blank {c : Char} (blank : isBlank c = true) : c.toLower = c := by
  unfold Char.toLower
  split
  · rename_i upper
    simp only [ge_iff_le, UInt32.le_iff_toNat_le] at upper
    have low : 'A'.toNat ≤ c.toNat := upper.1
    have high : c.toNat ≤ 'Z'.toNat := upper.2
    simp [isBlank, Ranges.has, blankRanges] at blank low high
    omega
  · rfl

theorem seen_of_lower {c letter : Char} (seen : isBlank letter = false) (met : c.toLower = letter) :
    isBlank c = false := by
  refine Bool.eq_false_iff.2 fun blank => ?_
  rw [toLower_of_blank blank] at met
  rw [met, seen] at blank
  cases blank

theorem no_colon_of_blank {c : Char} (blank : isBlank c = true) : isKeyLetter ':' c = false := by
  rw [isKeyLetter, toLower_of_blank blank]
  refine Bool.eq_false_iff.2 fun met => ?_
  rw [Bool.or_eq_true, beq_iff_eq] at met
  rcases met with rfl | other
  · cases blank
  · cases other

end Text

namespace Markup

variable {head argument body after : List Char}

theorem plain_head (named : lower (trim head) = "set".toList) : ∀ c ∈ head, round.marks c = false := by
  intro c member
  obtain ⟨before, blanks, parts, first, last⟩ := exists_blanks_around head
  rw [parts, List.mem_append, List.mem_append] at member
  rcases member with blank | letter | blank
  · exact plain_of_blank (first c blank)
  · refine plain_of_class (fun c => "set".toList.contains c.toLower) (by decide) ?_
    rw [List.contains_iff_mem, ← named]
    exact List.mem_map_of_mem letter
  · exact plain_of_blank (last c blank)

/- The keyword of the survey meets the name of a set macro if no blank stands before the colon. -/
theorem afterKeyword_head (named : lower (trim head) = "set".toList) (more : List Char) :
    afterKeyword "set:".toList (dropBlank (head ++ ':' :: more)) =
      if dropBlankEnd head = head then some more else none := by
  obtain ⟨before, blanks, parts, first, last⟩ := exists_blanks_around head
  obtain ⟨s, e, t, shape, isS, isE, isT⟩ : ∃ s e t, trim head = [s, e, t] ∧
      s.toLower = 's' ∧ e.toLower = 'e' ∧ t.toLower = 't' := by
    obtain ⟨s, others, shape, isS, named⟩ := List.map_eq_cons_iff.1 named
    obtain ⟨e, others, rfl, isE, named⟩ := List.map_eq_cons_iff.1 named
    obtain ⟨t, others, rfl, isT, named⟩ := List.map_eq_cons_iff.1 named
    rw [List.map_eq_nil_iff.1 named] at shape
    exact ⟨s, e, t, shape, isS, isE, isT⟩
  rw [shape] at parts
  have ends : dropBlankEnd head = before ++ [s, e, t] := by
    rw [parts, ← List.append_assoc, dropBlankEnd_append_of_blank _ last]
    have kept := dropBlankEnd_append_cons (seen_of_lower (by decide) isT) (before ++ [s, e]) []
    rwa [List.append_assoc, List.append_assoc] at kept
  have visible : dropBlank (head ++ ':' :: more) = s :: e :: t :: (blanks ++ ':' :: more) := by
    rw [parts, List.append_assoc, dropBlank_append_of_blank first]
    exact dropBlank_cons (seen_of_lower (by decide) isS) _
  rw [ends, visible]
  cases blanks with
  | nil =>
    rw [if_pos (by rw [parts, List.append_nil])]
    simp [afterKeyword, isKeyLetter, isS, isE, isT]
  | cons b others =>
    rw [if_neg (by rw [parts]; simp)]
    simp [afterKeyword, no_colon_of_blank (last b List.mem_cons_self)]


/- The place at which a text is cut by a character that the front does not have. -/
theorem eq_of_cut {c : Char} {front other rest others : List Char} (absent : c ∉ front)
    (another : c ∉ other) (same : front ++ c :: rest = other ++ c :: others) :
    front = other ∧ rest = others := by
  have away : ∀ {text : List Char}, c ∉ text → ∀ d ∈ text, (d != c) = true := by
    intro text absent d member
    exact bne_iff_ne.2 fun same => absent (same ▸ member)
  obtain ⟨taken, left⟩ := span_of_stop (c := c) (away absent) (bne_self_eq_false c) rest
  obtain ⟨taken', left'⟩ := span_of_stop (c := c) (away another) (bne_self_eq_false c) others
  rw [same] at taken left
  exact ⟨taken.symm.trans taken', (List.cons.inj (left.symm.trans left')).2⟩

end Markup

namespace Assignment

open Markup

variable {body after text blanks : List Char} {quote : Char}

theorem quotedOperand?_of_quoted (absent : quote ∉ text) (blank : ∀ c ∈ blanks, isBlank c = true)
    (after : List Char) :
    quotedOperand? quote (quote :: (text ++ quote :: (blanks ++ ')' :: after))) =
      some (quote :: (text ++ [quote]), after) := by
  have away : ∀ d ∈ text, (d != quote) = true := by
    intro d member
    exact bne_iff_ne.2 fun same => absent (same ▸ member)
  obtain ⟨taken, left⟩ := span_of_stop away (bne_self_eq_false quote) (blanks ++ ')' :: after)
  have closed : afterClose (blanks ++ ')' :: after) = some after := by
    rw [afterClose, dropBlank_append_of_blank blank, dropBlank_cons (by decide)]
    rfl
  rw [quotedOperand?, bne_self_eq_false, if_neg Bool.false_ne_true, left]
  dsimp only
  rw [closed, taken]
  rfl

theorem afterClose_cases {cs left : List Char} (read : afterClose cs = some left) :
    ∃ blanks, (∀ c ∈ blanks, isBlank c = true) ∧ cs = blanks ++ ')' :: left := by
  unfold afterClose at read
  split at read
  · rename_i visible
    cases read
    refine ⟨cs.takeWhile isBlank, blank_of_takeBlank cs, ?_⟩
    rw [← visible, takeBlank_append_dropBlank]
  · cases read

theorem quotedOperand?_cases {cs : List Char} {taken : List Char × List Char}
    (read : quotedOperand? quote cs = some taken) : ∃ text blanks, quote ∉ text ∧
      (∀ c ∈ blanks, isBlank c = true) ∧ cs = quote :: (text ++ quote :: (blanks ++ ')' :: taken.2)) := by
  cases cs with
  | nil => cases read
  | cons c cs =>
    rw [quotedOperand?] at read
    split at read
    · cases read
    · rename_i same
      have same : c = quote := by simpa using same
      split at read
      · rename_i d rest ends
        obtain ⟨left, closed, rfl⟩ := Option.map_eq_some_iff.1 read
        obtain ⟨blanks, blank, rfl⟩ := afterClose_cases closed
        refine ⟨cs.takeWhile (· != quote), blanks, ?_, blank, ?_⟩
        · intro member
          have away := List.all_eq_true.1 List.all_takeWhile quote member
          exact absurd away (by simp)
        · have stop := List.head?_dropWhile_not (· != quote) cs
          rw [ends] at stop
          have marks : d = quote := by simpa using stop
          have parts := List.takeWhile_append_dropWhile (p := (· != quote)) (l := cs)
          rw [ends, marks] at parts
          rw [same, parts]
      · cases read

/- A bracket that closes behind blanks has nothing but these inside. -/
theorem eq_of_close {rest left : List Char} (blank : ∀ c ∈ blanks, isBlank c = true)
    (found : round.insideFrom? 0 none (rest ++ ')' :: after) = some rest)
    (same : rest ++ ')' :: after = blanks ++ ')' :: left) : rest = blanks := by
  rcases List.append_eq_append_iff.1 same with ⟨front, parts, ends⟩ | ⟨front, parts, ends⟩
  · cases front with
    | nil => rw [parts, List.append_nil]
    | cons c others =>
      rw [← (List.cons.inj ends).1] at parts
      have inside : isBlank ')' = true := blank ')' (by rw [parts]; simp)
      cases inside
  · cases front with
    | nil => rw [parts, List.append_nil]
    | cons c others =>
      rw [← (List.cons.inj ends).1] at parts
      rw [parts, List.append_assoc] at found
      have plain : ∀ c ∈ blanks, round.marks c = false := fun c member => plain_of_blank (blank c member)
      cases Bracket.inside_of_plain plain found

/- Where brackets and quotes are matched, a quoted operand is all that stands before the bracket. -/
theorem quoted_of_operand {taken : List Char × List Char} (listed : quote ∈ round.quotes)
    (found : round.insideFrom? 0 none (body ++ ')' :: after) = some body)
    (read : quotedOperand? quote (body ++ ')' :: after) = some taken) :
    ∃ text blanks, quote ∉ text ∧ (∀ c ∈ blanks, isBlank c = true) ∧
      body = quote :: (text ++ quote :: blanks) := by
  obtain ⟨text, blanks, absent, blank, parts⟩ := quotedOperand?_cases read
  refine ⟨text, blanks, absent, blank, ?_⟩
  cases body with
  | nil =>
    rw [← (List.cons.inj parts).1] at listed
    exact absurd listed (by decide)
  | cons c cs =>
    obtain ⟨rfl, parts⟩ := List.cons.inj parts
    -- the quote opens and ends within the body, so that the rest of the body is matched as well
    obtain ⟨text', rest, after', absent', inside, whole, found⟩ : ∃ text rest after', c ∉ text ∧
        cs = text ++ c :: rest ∧ cs ++ ')' :: after = text ++ c :: after' ∧
        round.insideFrom? 0 none after' = some rest := by
      rw [List.cons_append, Bracket.insideFrom?] at found
      split at found
      · cases found
      · rw [if_pos (List.contains_iff_mem.2 listed)] at found
        obtain ⟨others, found, same⟩ := Option.map_eq_some_iff.1 found
        rw [(List.cons.inj same).2] at found
        exact Bracket.inside_of_quote found
    have follows : after' = rest ++ ')' :: after := by
      rw [inside, List.append_assoc] at whole
      exact (List.cons.inj (List.append_cancel_left whole)).2.symm
    rw [follows] at found whole
    obtain ⟨rfl, same⟩ := eq_of_cut absent absent' (parts.symm.trans whole)
    rw [inside, eq_of_close blank found same.symm]

theorem quotedOperand?_of_inside (quote : Char) (listed : quote ∈ round.quotes)
    (found : round.insideFrom? 0 none (body ++ ')' :: after) = some body) :
    Quoted quote (dropBlankEnd body) ∧
        quotedOperand? quote (body ++ ')' :: after) = some (dropBlankEnd body, after) ∨
      ¬Quoted quote (dropBlankEnd body) ∧ quotedOperand? quote (body ++ ')' :: after) = none := by
  have whole : ∀ {text blanks : List Char}, quote :: (text ++ quote :: blanks) =
      quote :: (text ++ [quote]) ++ blanks := by simp
  cases read : quotedOperand? quote (body ++ ')' :: after) with
  | some taken =>
    left
    obtain ⟨text, blanks, absent, blank, rfl⟩ := quoted_of_operand listed found read
    have ends : dropBlankEnd (quote :: (text ++ quote :: blanks)) = quote :: (text ++ [quote]) := by
      have seen : isBlank quote = false :=
        Bool.eq_false_iff.2 (List.any_eq_false.1 (by decide : round.quotes.any isBlank = false) quote listed)
      rw [whole, dropBlankEnd_append_of_blank _ blank]
      exact dropBlankEnd_append_cons seen (quote :: text) []
    rw [ends, ← read]
    refine ⟨⟨text, absent, rfl⟩, ?_⟩
    have result := quotedOperand?_of_quoted absent blank after
    simpa using result
  | none =>
    refine .inr ⟨?_, rfl⟩
    rintro ⟨text, absent, ends⟩
    obtain ⟨blanks, parts, blank⟩ := exists_blank_end body
    rw [ends, ← whole] at parts
    have result := quotedOperand?_of_quoted absent blank after
    rw [parts, List.cons_append, List.append_assoc, List.cons_append, result] at read
    cases read

/-- The operand at the start of a text, with what follows the parenthesis behind it. -/
def operand? (cs : List Char) : Option (List Char × List Char) :=
  (quotedOperand? '"' cs).or <| (quotedOperand? '\'' cs).or (bareOperand? cs)

theorem bareOperand?_of_close (absent : ')' ∉ body) :
    bareOperand? (body ++ ')' :: after) = some (dropBlankEnd body, after) := by
  have away : ∀ d ∈ body, (d != ')') = true := by
    intro d member
    exact bne_iff_ne.2 fun same => absent (same ▸ member)
  obtain ⟨taken, left⟩ := span_of_stop away (bne_self_eq_false ')') after
  rw [bareOperand?, left, taken]

theorem close_of_bareOperand? {cs source left : List Char}
    (read : bareOperand? cs = some (source, left)) : ')' ∉ source := by
  unfold bareOperand? at read
  split at read
  · cases read
    intro member
    rw [dropBlankEnd, List.mem_reverse] at member
    have inside := List.mem_reverse.1 ((List.dropWhile_sublist isBlank).subset member)
    exact absurd (List.all_eq_true.1 List.all_takeWhile ')' inside) (by decide)
  · cases read

/- Between matched brackets the survey reads all that stands there if a closing parenthesis in it is
quoted with all the rest, and something without such a parenthesis else. -/
theorem operand?_cases (found : round.insideFrom? 0 none (body ++ ')' :: after) = some body) :
    ((')' ∈ dropBlankEnd body → Quoted '"' (dropBlankEnd body) ∨ Quoted '\'' (dropBlankEnd body)) ∧
      operand? (body ++ ')' :: after) = some (dropBlankEnd body, after)) ∨
    (')' ∈ dropBlankEnd body ∧ ¬(Quoted '"' (dropBlankEnd body) ∨ Quoted '\'' (dropBlankEnd body)) ∧
      ∀ source left, operand? (body ++ ')' :: after) = some (source, left) → ')' ∉ source) := by
  rw [operand?]
  rcases quotedOperand?_of_inside '"' (by decide) found with ⟨double, read⟩ | ⟨double, read⟩
  · rw [read]
    exact .inl ⟨fun _ => .inl double, rfl⟩
  rw [read, Option.none_or]
  rcases quotedOperand?_of_inside '\'' (by decide) found with ⟨single, read⟩ | ⟨single, read⟩
  · rw [read]
    exact .inl ⟨fun _ => .inr single, rfl⟩
  rw [read, Option.none_or]
  obtain ⟨blanks, parts, blank⟩ := exists_blank_end body
  by_cases close : ')' ∈ dropBlankEnd body
  · exact .inr ⟨close, not_or.2 ⟨double, single⟩, fun _ _ => close_of_bareOperand?⟩
  · refine .inl ⟨fun member => absurd member close, bareOperand?_of_close ?_⟩
    rw [parts, List.mem_append, not_or]
    refine ⟨close, fun member => ?_⟩
    cases blank ')' member

/- A literal is read behind one blank, and further blanks around it do not count. -/
theorem literal?_trim (cs : List Char) : literal? (cs.takeWhile isBlank ++ trim cs) = literal? cs := by
  cases cs with
  | nil => rfl
  | cons c others =>
    by_cases blank : isBlank c = true
    · have same : Value.ofLiteral (others.takeWhile isBlank ++ trim others) = .ofLiteral others := by
        refine Value.ofLiteral_congr ?_
        rw [trim_append_of_blank (blank_of_takeBlank others), trim_trim]
      have empty : (others.takeWhile isBlank ++ trim others).isEmpty = others.isEmpty := by
        cases others with
        | nil => rfl
        | cons d rest =>
          by_cases next : isBlank d = true
          · rw [List.takeWhile_cons_of_pos next]
            rfl
          · rw [List.takeWhile_cons_of_neg next, trim_cons (Bool.eq_false_iff.2 next)]
            rfl
      rw [List.takeWhile_cons_of_pos blank, trim, dropBlank, List.dropWhile_cons_of_pos blank,
        List.cons_append, literal?, literal?]
      rw [trim, dropBlank] at same empty
      rw [same, empty]
    · have seen := Bool.eq_false_iff.2 blank
      rw [List.takeWhile_cons_of_neg blank, trim_cons seen, List.nil_append, literal?, literal?, seen]
      rfl

theorem literal?_cases {cs : List Char} {value : Value} (read : literal? cs = some value) :
    ∃ c rest, cs = c :: rest ∧ isBlank c = true ∧ value = .ofLiteral rest := by
  cases cs with
  | nil => cases read
  | cons c rest =>
    rw [literal?] at read
    split at read
    · rename_i both
      cases read
      exact ⟨c, rest, rfl, (Bool.and_eq_true_iff.1 both).1, rfl⟩
    · cases read

/- A value whose literal has a closing parenthesis is not read from one without it. -/
theorem literal?_ne {cs other : List Char} {value : Value} (read : literal? cs = some value)
    (member : ')' ∈ cs) (absent : ')' ∉ other) : literal? other ≠ some value := by
  intro again
  obtain ⟨c, rest, rfl, blank, same⟩ := literal?_cases read
  obtain ⟨d, others, rfl, _, same'⟩ := literal?_cases again
  have inside : ')' ∈ rest := by
    refine (List.mem_cons.1 member).resolve_left ?_
    rintro rfl
    cases blank
  exact Value.ofLiteral_ne inside (fun other => absent (List.mem_cons_of_mem d other)) (same.symm.trans same')

theorem macroAt?_eq {cs body rest : List Char} {name : String}
    (keyed : afterKeyword "set:".toList (dropBlank cs) = some body)
    (aimed : target? body = some (name, rest)) (blank : rest.takeWhile isBlank ≠ []) :
    macroAt? ('(' :: cs) = (operand? (dropBlank rest)).map fun taken =>
      ((literal? (rest.takeWhile isBlank ++ taken.1)).map (⟨name, ·⟩), taken.2) := by
  change ((afterKeyword "set:".toList (dropBlank cs)).bind fun body => _) = _
  rw [keyed, Option.bind_some]
  change ((target? body).bind fun target => _) = _
  rw [aimed, Option.bind_some]
  change ((afterBlanks rest).bind fun operand => _) = _
  rw [afterBlanks_of_ne blank, Option.bind_some, Option.map_eq_bind]
  rfl

section Written

variable {inside head argument rest : List Char} {name : String}
  (cut : cutFirst [':'] inside = some (head, argument)) (aimed : target? argument = some (name, rest))

include cut aimed

theorem plain_iff_of_cut : Plain inside ↔ dropBlankEnd head = head ∧
    (')' ∈ trim rest → Quoted '"' (trim rest) ∨ Quoted '\'' (trim rest)) := by
  have writes : writing? inside = some (head, trim rest) := by
    rw [writing?, cut]
    change ((target? argument).bind fun target => some (head, trim target.2)) = _
    rw [aimed]
    rfl
  constructor
  · rintro ⟨_, _, written, plain⟩
    rw [writes] at written
    cases written
    exact plain
  · exact fun plain => ⟨head, trim rest, writes, plain⟩

/- The parenthesis that closes a set macro closes its operand. -/
theorem operand_inside (named : lower (trim head) = "set".toList)
    (found : round.inside? (inside ++ ')' :: after) = some inside) :
    round.insideFrom? 0 none (dropBlank rest ++ ')' :: after) = some (dropBlank rest) := by
  obtain ⟨front, parts, plain, _⟩ := target?_cases aimed
  have before : inside = head ++ ':' :: (front ++ rest.takeWhile isBlank) ++ dropBlank rest := by
    rw [List.append_assoc, List.cons_append, List.append_assoc, takeBlank_append_dropBlank, ← parts]
    exact RoundKey.eq_of_cutFirst cut
  rw [before, List.append_assoc] at found
  refine Bracket.inside_of_plain ?_ found
  refine List.forall_mem_append.2 ⟨plain_head named, List.forall_mem_cons.2 ⟨by decide, ?_⟩⟩
  exact List.forall_mem_append.2 ⟨plain, fun c member => plain_of_blank (blank_of_takeBlank rest c member)⟩

end Written

/- What the survey finds at the parenthesis of a set macro. -/
theorem macroAt?_of_set {inside : List Char} {a : Assignment}
    (found : round.inside? (inside ++ ')' :: after) = some inside)
    (set : (macroSpan inside).piece = .markup (.assign a.name a.value)) :
    Plain inside ∧ macroAt? ('(' :: (inside ++ ')' :: after)) = some (some a, after) ∨
      ¬Plain inside ∧ ∀ left, macroAt? ('(' :: (inside ++ ')' :: after)) ≠ some (some a, left) := by
  obtain ⟨head, argument, cut, named, read⟩ := set_of_macroSpan set
  obtain ⟨⟨name, rest⟩, aimed, read⟩ := Option.bind_eq_some_iff.1 read
  obtain ⟨value, literal, same⟩ := Option.bind_eq_some_iff.1 read
  cases same
  have plain_iff := plain_iff_of_cut cut aimed
  have whole := RoundKey.eq_of_cutFirst cut
  have keyed : afterKeyword "set:".toList (dropBlank (inside ++ ')' :: after)) =
      if dropBlankEnd head = head then some (argument ++ ')' :: after) else none := by
    rw [whole, List.append_assoc]
    exact afterKeyword_head named (argument ++ ')' :: after)
  by_cases tight : dropBlankEnd head = head
  · rw [if_pos tight] at keyed
    obtain ⟨_, _, _, onward⟩ := target?_cases aimed
    obtain ⟨c, others, begins, blank, _⟩ := literal?_cases literal
    have blanks : (rest ++ ')' :: after).takeWhile isBlank = rest.takeWhile isBlank :=
      takeBlank_append_cons (by decide) rest after
    have apart : rest.takeWhile isBlank ≠ [] := by
      rw [begins, List.takeWhile_cons_of_pos blank]
      exact List.cons_ne_nil _ _
    have matched := operand_inside cut aimed named found
    have reads := macroAt?_eq keyed (onward (')' :: after)) (by rwa [blanks])
    rw [blanks, dropBlank_append_cons (by decide)] at reads
    rw [reads, plain_iff]
    rcases operand?_cases matched with ⟨plain, read⟩ | ⟨close, bare, read⟩
    · left
      rw [read]
      refine ⟨⟨tight, plain⟩, ?_⟩
      change some ((literal? (rest.takeWhile isBlank ++ trim rest)).map _, after) = _
      rw [literal?_trim, literal]
      rfl
    · right
      refine ⟨fun plain => bare (plain.2 close), ?_⟩
      intro left same
      obtain ⟨⟨source, _⟩, taken, same⟩ := Option.map_eq_some_iff.1 same
      obtain ⟨_, again, same⟩ := Option.map_eq_some_iff.1 (Prod.mk.inj same).1
      rw [(Assignment.mk.inj same).2] at again
      refine literal?_ne literal ((mem_trim (by decide)).1 close) ?_ again
      rw [List.mem_append, not_or]
      refine ⟨fun member => ?_, read source _ taken⟩
      cases blank_of_takeBlank rest ')' member
  · right
    rw [if_neg tight] at keyed
    refine ⟨fun plain => tight (plain_iff.1 plain).1, ?_⟩
    intro left
    change ((afterKeyword "set:".toList (dropBlank (inside ++ ')' :: after))).bind fun body => _) ≠ _
    rw [keyed]
    nofun

end Assignment

end ChatStory
