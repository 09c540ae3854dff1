import ChatStory.Proofs.Separators
import ChatStory.Proofs.SetMacro
import Mathlib.Data.Bool.AllAny

/-!
An action in a choice. A link finds its end by counting brackets, and an action finds its own by counting
the brackets outside of quotes. The same text is read as the same action within a choice and alone exactly
if the brackets within its quotes do not mislead the link.
-/
namespace ChatStory

namespace Markup

namespace Bracket

variable {b : Bracket} {depth : Nat} {quote : Option Char} {inside after : List Char}

/- What is done at a character does not depend on what follows: the search fails, it ends, or it goes on. -/
theorem insideFrom?_cons (b : Bracket) (depth : Nat) (quote : Option Char) (c : Char) :
    (∀ cs, b.insideFrom? depth quote (c :: cs) = none) ∨
      (∀ cs, b.insideFrom? depth quote (c :: cs) = some []) ∨
      ∃ depth' quote', ∀ cs,
        b.insideFrom? depth quote (c :: cs) = (b.insideFrom? depth' quote' cs).map (c :: ·) := by
  simp only [insideFrom?]
  split
  · exact .inl fun _ => rfl
  · split
    · exact .inr (.inr ⟨_, _, fun _ => rfl⟩)
    · split
      · exact .inr (.inr ⟨_, _, fun _ => rfl⟩)
      · split
        · exact .inr (.inr ⟨_, _, fun _ => rfl⟩)
        · split
          · split
            · exact .inr (.inl fun _ => rfl)
            · exact .inr (.inr ⟨_, _, fun _ => rfl⟩)
          · exact .inr (.inr ⟨_, _, fun _ => rfl⟩)

/- So the inside is found in the same way whatever follows it. -/
theorem inside_before (found : b.insideFrom? depth quote (inside ++ b.closing :: after) = some inside)
    (more : List Char) : b.insideFrom? depth quote (inside ++ b.closing :: more) = some inside := by
  induction inside generalizing depth quote with
  | nil =>
    rw [List.nil_append] at found ⊢
    rcases insideFrom?_cons b depth quote b.closing with fails | ends | ⟨depth', quote', onward⟩
    · rw [fails] at found
      cases found
    · exact ends more
    · rw [onward] at found
      obtain ⟨_, _, none⟩ := Option.map_eq_some_iff.1 found
      cases none
  | cons c rest ih =>
    rw [List.cons_append] at found ⊢
    rcases insideFrom?_cons b depth quote c with fails | ends | ⟨depth', quote', onward⟩
    · rw [fails] at found
      cases found
    · rw [ends] at found
      cases found
    · rw [onward] at found ⊢
      obtain ⟨_, found, same⟩ := Option.map_eq_some_iff.1 found
      obtain rfl := (List.cons.inj same).2
      rw [ih found]
      rfl

end Bracket

/- An action that is not read is found fault with. -/
theorem findings_of_read {source : List Char} (dropped : (Action.read source).action = none) :
    (Action.read source).findings ≠ [] := by
  unfold Action.read at dropped ⊢
  dsimp only at dropped ⊢
  split
  · exact List.cons_ne_nil _ _
  · rename_i named
    rw [if_neg named] at dropped
    revert dropped
    generalize Action.effect? _ _ = read
    cases read with
    | ok effect =>
      intro none
      cases none
    | error finding => exact fun _ => List.append_ne_nil_of_right_ne_nil _ (List.cons_ne_nil _ _)

/- What is dropped from a body is found fault with. -/
theorem findings_of_dropped {c : Char} {cs : List Char}
    (dropped : (firstSpan c cs).piece = .droppedAction ∨ (firstSpan c cs).piece = .droppedAssignment) :
    (firstSpan c cs).findings ≠ [] := by
  revert dropped
  unfold firstSpan
  split
  · rintro (none | none) <;> cases none
  · rintro (none | none) <;> cases none
  · unfold linkSpan
    split <;> rintro (none | none) <;> cases none
  · cases round.inside? _ with
    | none => rintro (none | none) <;> cases none
    | some inside =>
      change (macroSpan inside).piece = _ ∨ (macroSpan inside).piece = _ → (macroSpan inside).findings ≠ []
      unfold macroSpan
      dsimp only
      repeat' split
      all_goals first
        | exact fun _ => List.cons_ne_nil _ _
        | rintro (none | none) <;> cases none
  · cases actionInside? _ _ with
    | none => rintro (none | none) <;> cases none
    | some inside =>
      change (actionSpan inside).piece = _ ∨ (actionSpan inside).piece = _ → (actionSpan inside).findings ≠ []
      unfold actionSpan
      dsimp only
      split
      · rintro (none | none) <;> cases none
      · rename_i dropped
        exact fun _ => findings_of_read dropped

/- Letters that are gathered end up in a text. -/
theorem fragments_of_letters {letters : List Char} (some_letter : letters ≠ []) (all : List Span) :
    ∃ text rest, fragmentsFrom letters all = .text text :: rest := by
  have gathers : ∀ {letters : List Char}, letters ≠ [] → ∃ text, gathered letters.reverse = [.text text] := by
    intro letters some_letter
    unfold gathered
    rw [if_neg (by simpa using some_letter)]
    exact ⟨_, rfl⟩
  induction all generalizing letters with
  | nil =>
    obtain ⟨text, same⟩ := gathers some_letter
    exact ⟨text, [], same⟩
  | cons span rest ih =>
    obtain ⟨text, same⟩ := gathers some_letter
    unfold fragmentsFrom
    split
    · exact ih (List.cons_ne_nil _ letters)
    · exact ih some_letter
    all_goals
      rw [same]
      exact ⟨text, _, rfl⟩

/- So a text that leaves no fragments and no findings is empty. -/
theorem nil_of_silent {cs letters : List Char} {line : Nat} (blank : fragmentsFrom letters (spans cs) = [])
    (quiet : diagnosticsFrom line (spans cs) = []) : cs = [] := by
  cases cs with
  | nil => rfl
  | cons c cs =>
    rw [spans] at blank quiet
    unfold diagnosticsFrom at quiet
    have silent : (firstSpan c cs).findings = [] :=
      List.map_eq_nil_iff.1 (List.append_eq_nil_iff.1 quiet).1
    have kept := mt findings_of_dropped (not_not_intro silent)
    unfold fragmentsFrom at blank
    split at blank
    · obtain ⟨text, rest, same⟩ := fragments_of_letters (List.cons_ne_nil _ letters) _
      rw [same] at blank
      cases blank
    · rename_i dropped
      exact absurd (.inr dropped) kept
    · exact absurd blank (List.append_ne_nil_of_right_ne_nil _ (List.cons_ne_nil _ _))
    · exact absurd blank (List.append_ne_nil_of_right_ne_nil _ (List.cons_ne_nil _ _))
    · rename_i dropped
      exact absurd (.inl dropped) kept

/- A text that comes to one piece of markup and no findings is the span of this piece. -/
theorem sole_span {c : Char} {cs : List Char} {fragment : Fragment} {line : Nat}
    (marked : fragment.isMarkup = true) (sole : fragmentsFrom [] (spans (c :: cs)) = [fragment])
    (quiet : diagnosticsFrom line (spans (c :: cs)) = []) :
    (firstSpan c cs).piece = .markup fragment ∧ (firstSpan c cs).findings = [] ∧
      cs.drop (firstSpan c cs).more = [] := by
  rw [spans] at sole quiet
  unfold diagnosticsFrom at quiet
  obtain ⟨silent, later⟩ := List.append_eq_nil_iff.1 quiet
  have silent : (firstSpan c cs).findings = [] := List.map_eq_nil_iff.1 silent
  have kept := mt findings_of_dropped (not_not_intro silent)
  unfold fragmentsFrom at sole
  split at sole
  · obtain ⟨text, rest, same⟩ := fragments_of_letters (List.cons_ne_nil _ []) (spans _)
    obtain ⟨rfl, -⟩ := List.cons.inj (same.symm.trans sole)
    cases marked
  · rename_i dropped
    exact absurd (.inr dropped) kept
  · obtain ⟨rfl, -⟩ := List.cons.inj sole
    cases marked
  · rename_i found piece
    obtain ⟨rfl, blank⟩ := List.cons.inj sole
    exact ⟨piece, silent, nil_of_silent blank later⟩
  · rename_i dropped
    exact absurd (.inl dropped) kept

/-- How many square brackets are open behind a text, quotes unheeded. One that closes none is passed over. -/
def level (depth : Nat) (cs : List Char) : Nat :=
  cs.foldl (fun depth c => if c == '[' then depth + 1 else if c == ']' then depth - 1 else depth) depth

/-- Within a text, no two closing brackets stand together where none is open. -/
def Unclosed (depth : Nat) (cs : List Char) : Prop :=
  ∀ before after, cs = before ++ ']' :: ']' :: after → level depth before ≠ 0

section Link

variable {depth : Nat} {front before more : List Char}

theorem linkInsideFrom?_cons (depth : Nat) (c : Char) (cs : List Char) :
    linkInsideFrom? depth (c :: cs) =
      if c = '\n' then none
      else if c = ']' ∧ depth = 0 ∧ cs.head? = some ']' then some []
      else (linkInsideFrom? (level depth [c]) cs).map (c :: ·) := by
  by_cases line : c = '\n'
  · simp [linkInsideFrom?, line]
  by_cases opens : c = '['
  · simp [linkInsideFrom?, opens, level]
  by_cases closes : c = ']'
  · cases depth with
    | zero => simp [linkInsideFrom?, closes, level]
    | succ depth => simp [linkInsideFrom?, closes, level]
  · simp [linkInsideFrom?, line, opens, closes, level]

theorem Unclosed.tail {c : Char} {rest : List Char} (unclosed : Unclosed depth (c :: rest)) :
    Unclosed (level depth [c]) rest := by
  intro before after parts none
  refine unclosed (c :: before) after ?_ none
  rw [parts, List.cons_append]

theorem Unclosed.cons {c : Char} {rest : List Char} (unclosed : Unclosed (level depth [c]) rest)
    (opened : depth ≠ 0) : Unclosed depth (c :: rest) := by
  intro before after parts none
  cases before with
  | nil => exact opened none
  | cons d before =>
    obtain ⟨first, later⟩ := List.cons.inj parts
    subst first
    exact unclosed before after later none

/- A link goes on behind a text that holds no end of it, with the brackets that are open there. By induction on
the text. -/
theorem linkInsideFrom?_append (line : '\n' ∉ front) (unclosed : Unclosed depth front)
    (next : more.head? ≠ some ']' ∨ front.getLast? ≠ some ']') :
    linkInsideFrom? depth (front ++ more) =
      (linkInsideFrom? (level depth front) more).map (front ++ ·) := by
  induction front generalizing depth with
  | nil => exact Option.map_id'.symm
  | cons c rest ih =>
    obtain ⟨first, later⟩ := not_or.1 (mt List.mem_cons.2 line)
    have onward : ¬(c = ']' ∧ depth = 0 ∧ (rest ++ more).head? = some ']') := by
      rintro ⟨rfl, rfl, closes⟩
      cases rest with
      | nil =>
        rcases next with next | last
        · exact next closes
        · exact last rfl
      | cons d rest =>
        cases closes
        exact unclosed [] rest rfl rfl
    have next' : more.head? ≠ some ']' ∨ rest.getLast? ≠ some ']' := by
      refine next.imp_right fun last same => last ?_
      rw [List.getLast?_cons, same]
      rfl
    rw [List.cons_append, linkInsideFrom?_cons, if_neg (Ne.symm first), if_neg onward,
      ih later unclosed.tail next', Option.map_map]
    rfl

/- A text that holds an end of the link is not gone through. -/
theorem linkInsideFrom?_ends (line : '\n' ∉ before) (none : level depth before = 0) :
    ∃ inside, linkInsideFrom? depth (before ++ ']' :: ']' :: more) = some inside ∧
      inside.length ≤ before.length := by
  induction before generalizing depth with
  | nil =>
    obtain rfl : depth = 0 := none
    exact ⟨[], rfl, Nat.le_refl 0⟩
  | cons c rest ih =>
    obtain ⟨first, later⟩ := not_or.1 (mt List.mem_cons.2 line)
    rw [List.cons_append, linkInsideFrom?_cons, if_neg (Ne.symm first)]
    split
    · exact ⟨[], rfl, Nat.zero_le _⟩
    · have rest_none : level (level depth [c]) rest = 0 := none
      obtain ⟨inside, found, shorter⟩ := ih later rest_none
      exact ⟨c :: inside, by rw [found]; rfl, Nat.succ_le_succ shorter⟩

theorem linkInsideFrom?_close (depth : Nat) :
    linkInsideFrom? depth [']', ']'] = if depth = 0 then some [] else Option.none := by
  cases depth with
  | zero => rfl
  | succ depth =>
    cases depth with
    | zero => rfl
    | succ depth => rfl

theorem eq_of_linkInside {cs inside : List Char} (found : linkInsideFrom? depth cs = some inside) :
    ∃ after, cs = inside ++ ']' :: ']' :: after := by
  induction cs generalizing depth inside with
  | nil => cases found
  | cons c rest ih =>
    rw [linkInsideFrom?_cons] at found
    split at found
    · cases found
    · split at found
      · rename_i ends
        obtain ⟨rfl, -, closes⟩ := ends
        cases found
        obtain ⟨after, same⟩ := List.head?_eq_some_iff.1 closes
        exact ⟨after, congrArg _ same⟩
      · obtain ⟨later, onward, rfl⟩ := Option.map_eq_some_iff.1 found
        obtain ⟨after, same⟩ := ih onward
        exact ⟨after, congrArg (c :: ·) same⟩

theorem level_of_plain (plain : ∀ c ∈ front, c ≠ '[' ∧ c ≠ ']') : level depth front = depth := by
  induction front with
  | nil => rfl
  | cons c rest ih =>
    obtain ⟨⟨opens, closes⟩, later⟩ := List.forall_mem_cons.1 plain
    have same : level depth [c] = depth := by simp [level, opens, closes]
    have split : level depth (c :: rest) = level (level depth [c]) rest := rfl
    rw [split, same, ih later]

theorem unclosed_of_plain (plain : ∀ c ∈ front, c ≠ '[' ∧ c ≠ ']') : Unclosed depth front := by
  rintro before after rfl
  exact absurd rfl (plain ']' (List.mem_append_right _ List.mem_cons_self)).2

end Link

/-- The brackets of an action, quotes unheeded, do not mislead the link around it: of those that it opens one
is left at most, and no two closing ones stand together where none is open. -/
structure Discreet (source : List Char) : Prop where
  level : level 1 source ≤ 1
  unclosed : Unclosed 1 (source ++ [']'])

variable {a d t : List Char}

/-- What a link holds that shows `d`, does the action `a` and leads to `t`. -/
def linkText (d a t : List Char) : List Char :=
  d ++ ' ' :: '[' :: ("Action:".toList ++ (a ++ ']' :: '|' :: t))

/- The link ends where it is meant to exactly if the action is discreet. -/
theorem linkInside?_iff (line : '\n' ∉ a) (display : ∀ c ∈ d, c ≠ '\n' ∧ c ≠ '[' ∧ c ≠ ']')
    (target : ∀ c ∈ t, c ≠ '\n' ∧ c ≠ '[' ∧ c ≠ ']') :
    linkInside? (linkText d a t ++ [']', ']']) = some (linkText d a t) ↔ Discreet a := by
  have plain : ∀ {xs : List Char}, (∀ c ∈ xs, c ≠ '\n' ∧ c ≠ '[' ∧ c ≠ ']') → ∀ depth more,
      linkInsideFrom? depth (xs ++ more) = (linkInsideFrom? depth more).map (xs ++ ·) := by
    intro xs letters depth more
    have brackets : ∀ c ∈ xs, c ≠ '[' ∧ c ≠ ']' := fun c member => (letters c member).2
    rw [linkInsideFrom?_append (fun member => (letters _ member).1 rfl) (unclosed_of_plain brackets)
      (.inr fun last => (brackets ']' (List.mem_of_getLast? last)).2 rfl), level_of_plain brackets]
  have before : linkInside? (linkText d a t ++ [']', ']']) =
      (linkInsideFrom? 1 (a ++ [']'] ++ ('|' :: (t ++ [']', ']'])))).map
        (d ++ ' ' :: '[' :: "Action:".toList ++ ·) := by
    have parts : linkText d a t ++ [']', ']'] =
        d ++ ([' '] ++ '[' :: ("Action:".toList ++ (a ++ [']'] ++ ('|' :: (t ++ [']', ']']))))) := by
      simp [linkText]
    have opens : ∀ cs : List Char, ¬('[' = ']' ∧ 0 = 0 ∧ cs.head? = some ']') := fun _ closes =>
      absurd closes.1 (by decide)
    have space : ∀ c ∈ [' '], c ≠ '\n' ∧ c ≠ '[' ∧ c ≠ ']' := List.all_iff_forall_prop.1 (by decide)
    have name : ∀ c ∈ "Action:".toList, c ≠ '\n' ∧ c ≠ '[' ∧ c ≠ ']' := List.all_iff_forall_prop.1 (by decide)
    rw [linkInside?, parts, plain display, plain space, linkInsideFrom?_cons, if_neg (by decide),
      if_neg (opens _), plain name]
    simp only [Option.map_map, Function.comp_def, List.cons_append, List.append_assoc, List.nil_append]
    rfl
  have behind : ∀ depth, linkInsideFrom? depth ('|' :: (t ++ [']', ']'])) =
      if depth = 0 then some ('|' :: t) else none := by
    intro depth
    have parts : '|' :: (t ++ [']', ']']) = '|' :: t ++ [']', ']'] := rfl
    rw [parts, plain (List.forall_mem_cons.2 ⟨by decide, target⟩), linkInsideFrom?_close]
    split
    · rw [Option.map_some, List.append_nil]
    · rfl
  have line' : '\n' ∉ a ++ [']'] := by simpa using line
  have closed : level 1 (a ++ [']']) = level 1 a - 1 := by
    rw [level, List.foldl_append]
    rfl
  rw [before]
  constructor
  · intro found
    obtain ⟨inside, found, whole⟩ := Option.map_eq_some_iff.1 found
    have same : d ++ ' ' :: '[' :: "Action:".toList ++ inside =
        d ++ ' ' :: '[' :: "Action:".toList ++ (a ++ [']'] ++ '|' :: t) := by
      rw [whole]
      simp [linkText]
    obtain rfl := List.append_cancel_left same
    have unclosed : Unclosed 1 (a ++ [']']) := by
      intro before after parts none
      have early : '\n' ∉ before := fun member => line' (parts ▸ List.mem_append_left _ member)
      obtain ⟨inside, ends, shorter⟩ :
          ∃ inside, linkInsideFrom? 1 (before ++ ']' :: ']' :: (after ++ '|' :: (t ++ [']', ']']))) =
            some inside ∧ inside.length ≤ before.length := linkInsideFrom?_ends early none
      have whole' : a ++ [']'] ++ '|' :: (t ++ [']', ']']) =
          before ++ ']' :: ']' :: (after ++ '|' :: (t ++ [']', ']'])) := by
        rw [parts, List.append_assoc]
        rfl
      rw [whole', ends] at found
      have lengths := congrArg List.length (Option.some.inj found)
      rw [parts] at lengths
      simp only [List.length_append, List.length_cons] at lengths
      omega
    refine ⟨?_, unclosed⟩
    rw [linkInsideFrom?_append line' unclosed (.inl (by simp)), behind, closed] at found
    split at found
    · rename_i low
      exact Nat.le_of_sub_eq_zero low
    · cases found
  · intro discreet
    rw [linkInsideFrom?_append line' discreet.unclosed (.inl (by simp)), behind, closed,
      if_pos (Nat.sub_eq_zero_of_le discreet.level)]
    simp [linkText]

/-- The characters of an action that stand within quotes; `quoted` says whether one is open. -/
def withinQuotes (quoted : Bool) : List Char → List Char
  | [] => []
  | c :: cs =>
    if c == '"' then withinQuotes (!quoted) cs
    else if quoted then c :: withinQuotes quoted cs else withinQuotes quoted cs

/- Both count alike where no bracket stands within quotes. By induction on the action, with one bracket more
for the link, the one that opens the action. -/
theorem level_of_inside {depth : Nat} {quoted : Bool} {after : List Char}
    (found : square.insideFrom? depth (if quoted then some '"' else none) (a ++ ']' :: after) = some a)
    (plain : ∀ c ∈ withinQuotes quoted a, c ≠ '[' ∧ c ≠ ']') :
    level (depth + 1) a = 1 ∧ Unclosed (depth + 1) (a ++ [']']) := by
  induction a generalizing depth quoted with
  | nil =>
    have closed : depth = 0 := by
      cases quoted with
      | true =>
        obtain ⟨_, _, none⟩ := Option.map_eq_some_iff.1 found
        cases none
      | false =>
        cases depth with
        | zero => rfl
        | succ depth =>
          obtain ⟨_, _, none⟩ := Option.map_eq_some_iff.1 found
          cases none
    subst closed
    refine ⟨rfl, ?_⟩
    intro before after parts
    have lengths := congrArg List.length parts
    simp only [List.nil_append, List.length_append, List.length_cons, List.length_nil] at lengths
    omega
  | cons c rest ih =>
    have next : ∀ (depth' : Nat) (quoted' : Bool),
        (square.insideFrom? depth' (if quoted' then some '"' else none) (rest ++ ']' :: after)).map (c :: ·) =
            some (c :: rest) →
        (∀ c ∈ withinQuotes quoted' rest, c ≠ '[' ∧ c ≠ ']') → level (depth + 1) [c] = depth' + 1 →
        level (depth + 1) (c :: rest) = 1 ∧ Unclosed (depth + 1) (c :: rest ++ [']']) := by
      intro depth' quoted' found plain stepped
      obtain ⟨_, found, same⟩ := Option.map_eq_some_iff.1 found
      obtain rfl := (List.cons.inj same).2
      obtain ⟨leveled, unclosed⟩ := ih found plain
      rw [← stepped] at leveled unclosed
      exact ⟨leveled, unclosed.cons (Nat.succ_ne_zero depth)⟩
    have other : c ≠ '[' → c ≠ ']' → level (depth + 1) [c] = depth + 1 := fun opens closes =>
      level_of_plain (List.forall_mem_singleton.2 ⟨opens, closes⟩)
    rw [List.cons_append] at found
    unfold Bracket.insideFrom? at found
    unfold withinQuotes at plain
    split at found
    · cases found
    · cases quoted with
      | true =>
        by_cases ends : c = '"'
        · subst ends
          exact next depth false found plain rfl
        · have ends' : ¬(c == '"') = true := mt beq_iff_eq.1 ends
          simp only [if_true, if_neg ends'] at found plain
          obtain ⟨⟨opens, closes⟩, later⟩ := List.forall_mem_cons.1 plain
          exact next depth true found later (other opens closes)
      | false =>
        have quotes : square.quotes.contains c = (c == '"') := Bool.eq_iff_iff.2 (by simp [square])
        simp only [Bool.false_eq_true, if_false, quotes] at found plain
        by_cases begins : c = '"'
        · subst begins
          exact next depth true found plain rfl
        · have begins' : ¬(c == '"') = true := mt beq_iff_eq.1 begins
          rw [if_neg begins'] at found plain
          split at found
          · rename_i opens
            obtain rfl := beq_iff_eq.1 opens
            exact next (depth + 1) false found plain rfl
          · rename_i opens
            split at found
            · rename_i closes
              obtain rfl := beq_iff_eq.1 closes
              cases depth with
              | zero => cases found
              | succ depth => exact next depth false found plain rfl
            · rename_i closes
              exact next depth false found plain
                (other (mt beq_iff_eq.2 opens) (mt beq_iff_eq.2 closes))

/- An action is known by its mark. -/
theorem marked_iff {cs : List Char} :
    (Text.afterLetters actionMark cs).isSome = true ↔ actionMark <+: Text.lower cs := by
  have small : Text.lower actionMark = actionMark := by decide
  have taken : Text.sameLetters actionMark (cs.take actionMark.length) = true ↔ actionMark <+: Text.lower cs := by
    rw [Text.sameLetters, beq_iff_eq, small, List.prefix_iff_eq_take, Text.lower, Text.lower, List.map_take]
  unfold Text.afterLetters
  split
  · rename_i met
    exact iff_of_true rfl (taken.1 met.2)
  · rename_i other
    refine iff_of_false Bool.false_ne_true fun starts => other ⟨?_, taken.2 starts⟩
    have shorter := starts.length_le
    rwa [Text.lower, List.length_map] at shorter

theorem actionInside?_of_marked {cs : List Char} (marked : actionMark <+: Text.lower cs) :
    actionInside? '[' cs = square.inside? cs := by
  rw [actionInside?, marked_iff.2 marked]
  rfl

theorem actionInside?_mark (cs : List Char) :
    actionInside? '[' ("Action:".toList ++ cs) = square.inside? ("Action:".toList ++ cs) := by
  have split : Text.lower ("Action:".toList ++ cs) = actionMark ++ Text.lower cs := List.map_append
  exact actionInside?_of_marked (split ▸ List.prefix_append _ _)

/- An action that is read alone ends at its own bracket and nowhere else. -/
theorem read_of_alone {a : String} {x : Action} {line : Nat}
    (alone : (Body.read ("[Action:" ++ a ++ "]") line).fragments = [.action x])
    (quiet : (Body.read ("[Action:" ++ a ++ "]") line).warnings = []) :
    square.inside? ("Action:".toList ++ (a.toList ++ [']'])) = some ("Action:".toList ++ a.toList) ∧
      Action.read a.toList = ⟨some x, []⟩ := by
  have content : ("[Action:" ++ a ++ "]").toList = '[' :: ("Action:".toList ++ (a.toList ++ [']'])) := by
    simp [String.toList_append]
  unfold Body.read at alone quiet
  rw [content] at alone quiet
  obtain ⟨piece, silent, left⟩ := sole_span rfl alone quiet
  have first : firstSpan '[' ("Action:".toList ++ (a.toList ++ [']'])) =
      ((square.inside? ("Action:".toList ++ (a.toList ++ [']']))).map actionSpan).getD
        (letterSpan '[' []) := by
    rw [← actionInside?_mark]
    rfl
  rw [first] at piece silent left
  cases found : square.inside? ("Action:".toList ++ (a.toList ++ [']'])) with
  | none =>
    rw [found] at piece
    cases piece
  | some inside =>
    rw [found, Option.map_some, Option.getD_some] at piece silent left
    obtain ⟨after, parts⟩ := Bracket.eq_append found
    have all : inside = "Action:".toList ++ a.toList := by
      have long : (actionSpan inside).more = (inside ++ [square.closing]).length := by
        rw [List.length_append]
        unfold actionSpan
        dsimp only
        split <;> rfl
      have parts' : "Action:".toList ++ (a.toList ++ [']']) = inside ++ [square.closing] ++ after := by
        rw [parts, List.append_cons]
      rw [long, parts', List.drop_left] at left
      rw [left, ← List.append_assoc] at parts
      exact (List.append_cancel_right parts).symm
    refine ⟨by rw [all], ?_⟩
    have source : inside.drop actionMark.length = a.toList := by
      rw [all]
      rfl
    unfold actionSpan at piece silent
    rw [source] at piece silent
    cases read : Action.read a.toList with
    | mk action findings =>
      rw [read] at piece silent
      cases action with
      | none => cases piece
      | some action =>
        cases piece
        cases silent
        rfl

end Markup

namespace Choice

open Markup

variable {front cs : List Char}

theorem liftActions_cons {c : Char} (outside : actionInside? c cs = none) :
    liftActions (c :: cs) = (c :: (liftActions cs).1, (liftActions cs).2) := by
  rw [liftActions]
  split
  · rename_i inside found
    rw [outside] at found
    cases found
  · rfl

theorem liftActions_append (plain : '[' ∉ front) (cs : List Char) :
    liftActions (front ++ cs) = (front ++ (liftActions cs).1, (liftActions cs).2) := by
  induction front with
  | nil => rfl
  | cons c rest ih =>
    obtain ⟨first, later⟩ := not_or.1 (mt List.mem_cons.2 plain)
    have outside : actionInside? c (rest ++ cs) = none := by
      rw [actionInside?, if_neg (by simp [Ne.symm first])]
    rw [List.cons_append, liftActions_cons outside, ih later]
    rfl

/- An action is lifted out of a link as it is read alone. -/
theorem liftActions_action {a : List Char}
    (found : square.inside? ("Action:".toList ++ (a ++ [']'])) = some ("Action:".toList ++ a))
    (cs : List Char) :
    liftActions ('[' :: ("Action:".toList ++ (a ++ ']' :: cs))) =
      (' ' :: (liftActions cs).1, Action.read a :: (liftActions cs).2) := by
  rw [← List.append_assoc] at found
  have inside : actionInside? '[' ("Action:".toList ++ (a ++ ']' :: cs)) = some ("Action:".toList ++ a) := by
    rw [actionInside?_mark, ← List.append_assoc]
    exact Bracket.inside_before found cs
  have behind : ("Action:".toList ++ (a ++ ']' :: cs)).drop (("Action:".toList ++ a).length + 1) = cs := by
    have parts : "Action:".toList ++ (a ++ ']' :: cs) = ("Action:".toList ++ a ++ [']']) ++ cs := by simp
    rw [parts]
    exact List.drop_left' (by simp)
  have source : ("Action:".toList ++ a).drop actionMark.length = a := rfl
  rw [liftActions]
  split
  · rename_i inside' found'
    obtain rfl := Option.some.inj (found'.symm.trans inside)
    rw [behind, source]
  · rename_i none
    rw [none] at inside
    cases inside

/- A link with a separate target is read as what it shows, the action in it and its target. -/
theorem read_linkText {a d t : List Char} {x : Action}
    (found : square.inside? ("Action:".toList ++ (a ++ [']'])) = some ("Action:".toList ++ a))
    (read : Action.read a = ⟨some x, []⟩) (display : '[' ∉ d) (target : '[' ∉ t ∧ '|' ∉ t)
    (named : Text.trim t ≠ []) :
    Choice.read (linkText d a t) = (⟨String.ofList ([' '].intercalate (Text.words d)),
      String.ofList (Text.trim t), RoundKey.ofReference? (String.ofList (Text.trim t)), some x⟩, []) := by
  have plain : ∀ {xs : List Char}, '[' ∉ xs → liftActions xs = (xs, []) := by
    intro xs absent
    have all := liftActions_append absent []
    rwa [List.append_nil, liftActions, List.append_nil] at all
  have lifted : liftActions (linkText d a t) = (d ++ [' ', ' '] ++ '|' :: t, [⟨some x, []⟩]) := by
    have front : '[' ∉ d ++ [' '] := by simpa using display
    have back : '[' ∉ '|' :: t := by simpa using target.1
    have parts : linkText d a t =
        d ++ [' '] ++ '[' :: ("Action:".toList ++ (a ++ ']' :: ('|' :: t))) := by simp [linkText]
    rw [parts, liftActions_append front, liftActions_action found, plain back, read]
    simp
  have shown : Text.words (d ++ [' ', ' ']) = Text.words d := by
    rw [Text.words_append_blank (by decide)]
    exact List.append_nil _
  have target_named : String.ofList (Text.trim t) ≠ "" := fun empty =>
    named (String.ofList_injective empty)
  unfold Choice.read
  rw [lifted]
  dsimp only
  rw [Choice.split, Text.cutLast_append _ target.2]
  dsimp only
  rw [shown, if_neg target_named]
  rfl

end Choice

namespace Markup

open Markup.Bracket

variable {a d t : String} {x : Action} {line : Nat}

/-- The text of a choice that shows `d`, does the action `a` and leads to `t`. -/
def choiceText (d a t : String) : String := "[[" ++ d ++ " [Action:" ++ a ++ "]|" ++ t ++ "]]"

/-- What such a choice is meant to come to, if its action is `x`. -/
def choiceMeant (d t : String) (x : Action) : Choice :=
  ⟨String.ofList ([' '].intercalate (Text.words d.toList)), Text.trimmed t,
    RoundKey.ofReference? (Text.trimmed t), some x⟩

theorem choiceText_toList (d a t : String) :
    (choiceText d a t).toList = '[' :: '[' :: (linkText d.toList a.toList t.toList ++ [']', ']']) := by
  simp [choiceText, linkText, String.toList_append]

/- An action whose quotes hold no bracket is discreet, since both readers then count the same brackets. -/
theorem discreet_of_quotes
    (found : square.inside? ("Action:".toList ++ (a.toList ++ [']'])) = some ("Action:".toList ++ a.toList))
    (plain : ∀ c ∈ withinQuotes false a.toList, c ≠ '[' ∧ c ≠ ']') : Discreet a.toList := by
  have marks : ∀ c ∈ "Action:".toList, square.marks c = false :=
    List.all_iff_forall_prop.1 (by decide)
  have found : square.insideFrom? 0 (if false then some '"' else none) (a.toList ++ [']']) = some a.toList :=
    inside_of_plain marks found
  obtain ⟨leveled, unclosed⟩ := level_of_inside found plain
  exact ⟨Nat.le_of_eq leveled, unclosed⟩

theorem firstSpan_choiceText (inside : List Char) :
    firstSpan '[' ('[' :: (inside ++ [']', ']'])) = linkSpan (inside ++ [']', ']']) := rfl

/- A choice that leaves nothing behind reaches to the end of the text. -/
theorem linkInside_of_sole {choice : Choice}
    (sole : (Body.read (choiceText d a t) line).fragments = [.choice choice])
    (silent : (Body.read (choiceText d a t) line).warnings = []) :
    linkInside? (linkText d.toList a.toList t.toList ++ [']', ']']) =
      some (linkText d.toList a.toList t.toList) := by
  unfold Body.read at sole silent
  rw [choiceText_toList] at sole silent
  obtain ⟨piece, -, left⟩ := sole_span rfl sole silent
  rw [firstSpan_choiceText] at piece left
  unfold linkSpan at piece left
  cases ends : linkInside? (linkText d.toList a.toList t.toList ++ [']', ']']) with
  | none =>
    rw [ends] at piece
    cases piece
  | some inside =>
    rw [ends] at left
    dsimp only at left
    obtain ⟨after, parts⟩ := eq_of_linkInside ends
    have long : inside.length + 3 = ('[' :: inside ++ [']', ']']).length := by simp
    have parts' : '[' :: (linkText d.toList a.toList t.toList ++ [']', ']']) =
        '[' :: inside ++ [']', ']'] ++ after := by
      rw [parts]
      simp
    rw [long, parts', List.drop_left] at left
    rw [left] at parts
    rw [List.append_cancel_right parts]

/- A choice that reaches to the end of the text is what its inside is read as. -/
theorem sole_of_linkInside {choice : Choice}
    (ends : linkInside? (linkText d.toList a.toList t.toList ++ [']', ']']) =
      some (linkText d.toList a.toList t.toList))
    (held : Choice.read (linkText d.toList a.toList t.toList) = (choice, [])) (line : Nat) :
    (Body.read (choiceText d a t) line).fragments = [.choice choice] ∧
      (Body.read (choiceText d a t) line).warnings = [] := by
  have span : firstSpan '[' ('[' :: (linkText d.toList a.toList t.toList ++ [']', ']'])) =
      ⟨.markup (.choice choice), (linkText d.toList a.toList t.toList).length + 3, []⟩ := by
    rw [firstSpan_choiceText, linkSpan, ends]
    dsimp only
    rw [held]
  have none : ('[' :: (linkText d.toList a.toList t.toList ++ [']', ']'])).drop
      ((linkText d.toList a.toList t.toList).length + 3) = [] := List.drop_of_length_le (by simp)
  unfold Body.read
  rw [choiceText_toList, spans, span]
  dsimp only
  rw [none, spans]
  exact ⟨rfl, rfl⟩

/- A choice does the action that stands in it, as it is read alone, shows its text and leads to its target,
exactly if the brackets within the quotes of the action do not mislead the link. Where no bracket stands within
quotes they do not. -/
theorem choice_meant_iff (whole : '\n' ∉ a.toList)
    (alone : (Body.read ("[Action:" ++ a ++ "]") line).fragments = [.action x])
    (quiet : (Body.read ("[Action:" ++ a ++ "]") line).warnings = [])
    (display : ∀ c ∈ d.toList, c ≠ '\n' ∧ c ≠ '[' ∧ c ≠ ']')
    (target : ∀ c ∈ t.toList, c ≠ '\n' ∧ c ≠ '[' ∧ c ≠ ']' ∧ c ≠ '|') (named : Text.trimmed t ≠ "") :
    ((Body.read (choiceText d a t) line).fragments = [.choice (choiceMeant d t x)] ∧
        (Body.read (choiceText d a t) line).warnings = [] ↔ Discreet a.toList) ∧
      ((∀ c ∈ withinQuotes false a.toList, c ≠ '[' ∧ c ≠ ']') → Discreet a.toList) := by
  obtain ⟨found, read⟩ := read_of_alone alone quiet
  refine ⟨?_, discreet_of_quotes found⟩
  have brackets : ∀ c ∈ t.toList, c ≠ '\n' ∧ c ≠ '[' ∧ c ≠ ']' := fun c member =>
    ⟨(target c member).1, (target c member).2.1, (target c member).2.2.1⟩
  have held : Choice.read (linkText d.toList a.toList t.toList) = (choiceMeant d t x, []) := by
    refine Choice.read_linkText found read (fun opens => (display _ opens).2.1 rfl)
      ⟨fun opens => (brackets _ opens).2.1 rfl, fun cut => (target _ cut).2.2.2 rfl⟩ ?_
    intro blank
    exact named (congrArg String.ofList blank)
  rw [← linkInside?_iff whole display brackets]
  constructor
  · rintro ⟨sole, silent⟩
    exact linkInside_of_sole sole silent
  · intro ends
    exact sole_of_linkInside ends held line

theorem choice_meant_unlocking :
    (Body.read (choiceText "Call  her" " unlock_contact: \"Mara\"" " A-Round-2 ") 1).fragments =
        [.choice ⟨"Call her", "A-Round-2", some ⟨2, none⟩, some ⟨.unlockContact "Mara", 0⟩⟩] ∧
      (Body.read (choiceText "Call  her" " unlock_contact: \"Mara\"" " A-Round-2 ") 1).warnings = [] :=
  have both := @choice_meant_iff " unlock_contact: \"Mara\"" "Call  her" " A-Round-2 "
    ⟨.unlockContact "Mara", 0⟩ 1 (by decide) (by decide +kernel) (by decide +kernel)
    (List.all_iff_forall_prop.1 (by decide)) (List.all_iff_forall_prop.1 (by decide)) (by decide +kernel)
  both.1.2 (both.2 (List.all_iff_forall_prop.1 (by decide +kernel)))

/- A bracket within the quotes of an action hides the end of the link, and the choice is lost: its action is
done on entering. -/
theorem choice_lost :
    (Body.read "[Action: delayed_message: \"odd [ text\"]" 1).fragments =
        [.action ⟨.delayedMessage "odd [ text" none, 0⟩] ∧
      (Body.read "[Action: delayed_message: \"odd [ text\"]" 1).warnings = [] ∧
      (Body.read (choiceText "Call" " delayed_message: \"odd [ text\"" "A-Round-2") 1).fragments =
        [.text "[[Call ", .action ⟨.delayedMessage "odd [ text" none, 0⟩, .text "|A-Round-2]]"] ∧
      (Body.read (choiceText "Call" " delayed_message: \"odd [ text\"" "A-Round-2") 1).warnings =
        [Finding.unterminatedLink.at 1] := by
  decide +kernel

end Markup
end ChatStory
