import ChatStory.Proofs.Separators
import Mathlib.Data.List.Count

/-!
The lines of a text, and the text that they are the lines of. A line feed ends a line, with the carriage returns
before it that are dropped along; the last line ends with the text. Joined by line feeds again, lines stand in
the text as they are, but for the carriage returns.
-/
namespace ChatStory.Text

variable {cs front rest text line : List Char} {lines others : List (List Char)}

theorem mem_takeWhile_iff {α : Type} {holds : α → Bool} {a : α} {xs : List α} :
    a ∈ xs.takeWhile holds ↔
      ∃ before after, xs = before ++ a :: after ∧ ∀ b ∈ before ++ [a], holds b = true := by
  constructor
  · intro member
    obtain ⟨before, after, parts⟩ := List.append_of_mem member
    refine ⟨before, after ++ xs.dropWhile holds, ?_, ?_⟩
    · rw [← List.cons_append, ← List.append_assoc, ← parts, List.takeWhile_append_dropWhile]
    · intro b within
      have listed : b ∈ xs.takeWhile holds := by
        rw [parts]
        simp only [List.mem_append, List.mem_cons, List.not_mem_nil] at within ⊢
        tauto
      exact List.all_eq_true.1 List.all_takeWhile b listed
  · rintro ⟨before, after, rfl, all⟩
    rw [List.append_cons, List.takeWhile_append_of_pos all]
    exact List.mem_append_left _ (List.mem_append_right _ List.mem_cons_self)

theorem dropReturns_parts (n : Nat) (cs : List Char) :
    ∃ returns, cs = dropReturns n cs ++ returns ∧ (∀ c ∈ returns, c = '\r') ∧ returns.length ≤ n := by
  have taken : (cs.reverse.take n).takeWhile (· == '\r') <+: cs.reverse :=
    (List.takeWhile_prefix _).trans (List.take_prefix n cs.reverse)
  generalize stripped : (cs.reverse.take n).takeWhile (· == '\r') = returns at taken
  obtain ⟨kept, parts⟩ := taken
  have whole : cs = kept.reverse ++ returns.reverse := by
    rw [← List.reverse_append, parts, List.reverse_reverse]
  have dropped : dropReturns n cs = kept.reverse := by
    unfold dropReturns
    rw [stripped, whole]
    simp
  refine ⟨returns.reverse, dropped ▸ whole, ?_, ?_⟩
  · intro c member
    rw [List.mem_reverse, ← stripped] at member
    exact beq_iff_eq.1 (List.all_eq_true.1 List.all_takeWhile c member)
  · have shorter : returns.length ≤ (cs.reverse.take n).length := stripped ▸ (List.takeWhile_prefix _).length_le
    rw [List.length_reverse]
    exact Nat.le_trans shorter (List.length_take_le n _)

theorem lines_append (whole : '\n' ∉ front) (rest : List Char) :
    Text.lines (front ++ '\n' :: rest) = dropReturns 2 front :: Text.lines rest := by
  obtain ⟨piece, pieces, more⟩ := List.exists_cons_of_ne_nil (splitAt_ne_nil '\n' rest)
  unfold Text.lines
  rw [splitAt_append, splitAt_of_absent whole, more]
  simp only [List.singleton_append, List.dropLast_cons_cons, List.getLast?_cons_cons, List.map_cons]
  split <;> rfl

theorem lines_last (whole : '\n' ∉ line) (some : line ≠ []) : Text.lines line = [dropReturns 1 line] := by
  obtain ⟨c, cs, rfl⟩ := List.exists_cons_of_ne_nil some
  unfold Text.lines
  rw [splitAt_of_absent whole]
  rfl

/-- The text has the lines. What ends a line is left out of it: a line feed and up to two carriage returns
before it, or up to one at the end of the text. -/
inductive Spelled : List (List Char) → List Char → Prop where
  | nil : Spelled [] []
  | last {line returns : List Char} (whole : '\n' ∉ line) (ends : ∀ c ∈ returns, c = '\r')
      (few : returns.length ≤ 1) : Spelled [line] (line ++ returns)
  | cons {line returns text : List Char} {lines : List (List Char)} (whole : '\n' ∉ line)
      (ends : ∀ c ∈ returns, c = '\r') (few : returns.length ≤ 2) (later : Spelled lines text) :
      Spelled (line :: lines) (line ++ (returns ++ '\n' :: text))

/- A text has its lines. By induction on its length, line by line. -/
theorem spelled_lines (cs : List Char) : Spelled (Text.lines cs) cs := by
  induction length : cs.length using Nat.strongRecOn generalizing cs with
  | ind n ih =>
    by_cases fed : '\n' ∈ cs
    · obtain ⟨front, rest, rfl, whole⟩ := List.eq_append_cons_of_mem fed
      obtain ⟨returns, parts, ends, few⟩ := dropReturns_parts 2 front
      have shorter : rest.length < n := by
        simp only [List.length_append, List.length_cons] at length
        omega
      have kept : '\n' ∉ dropReturns 2 front := fun member => whole (parts ▸ List.mem_append_left _ member)
      have spelled := Spelled.cons kept ends few (ih rest.length shorter rest rfl)
      rwa [← List.append_assoc, ← parts, ← lines_append whole] at spelled
    · by_cases blank : cs = []
      · rw [blank]
        exact .nil
      · obtain ⟨returns, parts, ends, few⟩ := dropReturns_parts 1 cs
        have kept : '\n' ∉ dropReturns 1 cs := fun member => fed (parts ▸ List.mem_append_left _ member)
        have spelled := Spelled.last kept ends few
        rwa [← parts, ← lines_last fed blank] at spelled

/- The lines from one on have the text from the place where that line starts, and as many line feeds stand before
it as lines. -/
theorem Spelled.behind (spelled : Spelled (lines ++ others) text) (more : others ≠ []) :
    ∃ before after, text = before ++ after ∧ before.count '\n' = lines.length ∧ Spelled others after := by
  induction lines generalizing text with
  | nil => exact ⟨[], text, rfl, rfl, spelled⟩
  | cons line rest ih =>
    generalize all : line :: rest ++ others = all at spelled
    cases spelled with
    | nil => cases all
    | last whole ends few =>
      have none := (List.cons.inj all).2
      exact absurd (List.append_eq_nil_iff.1 none).2 more
    | cons whole ends few later =>
      rename_i returns text all
      obtain ⟨rfl, rfl⟩ := List.cons.inj all
      obtain ⟨before, after, rfl, counted, spelled⟩ := ih later
      refine ⟨line ++ (returns ++ '\n' :: before), after, by simp, ?_, spelled⟩
      have plain : returns.count '\n' = 0 := List.count_eq_zero.2 fun member => absurd (ends _ member) (by decide)
      simp [List.count_eq_zero.2 whole, plain, counted]

/-- The text has the characters, with carriage returns before a line feed or at the end that these do not have. -/
inductive Loosely : List Char → List Char → Prop where
  | ends {returns : List Char} (ends : ∀ c ∈ returns, c = '\r') : Loosely [] returns
  | letter {c : Char} {cs text : List Char} (other : c ≠ '\n') (later : Loosely cs text) :
      Loosely (c :: cs) (c :: text)
  | feed {returns cs text : List Char} (ends : ∀ c ∈ returns, c = '\r') (later : Loosely cs text) :
      Loosely ('\n' :: cs) (returns ++ '\n' :: text)

theorem Loosely.letters (whole : '\n' ∉ line) (later : Loosely cs text) : Loosely (line ++ cs) (line ++ text) := by
  induction line with
  | nil => exact later
  | cons c rest ih =>
    exact .letter (List.ne_of_not_mem_cons whole).symm (ih (List.not_mem_of_not_mem_cons whole))

/- Lines that are joined stand in the text that has them, up to where a line ends, and a line feed stands between
each two of them. -/
theorem Spelled.joined (spelled : Spelled (lines ++ others) text) (more : lines ≠ []) :
    ∃ middle after, text = middle ++ after ∧ Loosely (['\n'].intercalate lines) middle ∧
      middle.count '\n' + 1 = lines.length ∧ ∀ c ∈ after.head?, c = '\n' := by
  have plain : ∀ {line returns : List Char}, '\n' ∉ line → (∀ c ∈ returns, c = '\r') →
      (line ++ returns).count '\n' = 0 := by
    intro line returns whole ends
    rw [List.count_eq_zero, List.mem_append, not_or]
    exact ⟨whole, fun member => absurd (ends _ member) (by decide)⟩
  induction lines generalizing text with
  | nil => exact absurd rfl more
  | cons line rest ih =>
    generalize all : line :: rest ++ others = all at spelled
    cases spelled with
    | nil => cases all
    | last whole ends few =>
      rename_i returns
      obtain ⟨rfl, none⟩ := List.cons.inj all
      obtain ⟨rfl, -⟩ := List.append_eq_nil_iff.1 none
      refine ⟨line ++ returns, [], (List.append_nil _).symm, ?_, ?_, fun c none => by cases none⟩
      · have loosely := Loosely.letters whole (.ends ends)
        simpa using loosely
      · rw [plain whole ends]
        rfl
    | cons whole ends few later =>
      rename_i returns text all
      obtain ⟨rfl, rfl⟩ := List.cons.inj all
      cases rest with
      | nil =>
        refine ⟨line ++ returns, '\n' :: text, by simp, ?_, ?_, fun c first => (Option.some.inj first).symm⟩
        · have loosely := Loosely.letters whole (.ends ends)
          simpa using loosely
        · rw [plain whole ends]
          rfl
      | cons next rest =>
        obtain ⟨middle, after, rfl, loosely, counted, stops⟩ := ih later (List.cons_ne_nil next rest)
        refine ⟨line ++ (returns ++ '\n' :: middle), after, by simp, ?_, ?_, stops⟩
        · exact Loosely.letters whole (.feed ends loosely)
        · rw [← List.append_assoc, List.count_append, plain whole ends, List.count_cons_self, counted]
          simp

end ChatStory.Text
