import ChatStory.Proofs.Cut
import Mathlib.Data.List.Induction
import Mathlib.Order.Bounds.Basic

/-!
Where brackets close. An opening bracket is closed at the first place of its line up to which as many brackets close
as open, those in quotes left out; a link is closed by the first two closing brackets before which no other bracket is
left open. The search for the closing bracket finds this place or nothing, and its count of open brackets is the one
that is meant all along.
-/
namespace ChatStory

namespace Markup

namespace Bracket

variable {b : Bracket} {depth : Nat} {quote : Option Char} {c : Char} {cs front inside : List Char}

/-- The quote that is open behind a character. -/
def openQuote (b : Bracket) : Option Char → Char → Option Char
  | some mark, c => if c == mark then none else some mark
  | none, c => if b.quotes.contains c then some c else none

/-- The characters outside of quotes, without the marks of the quotes; `quote` is the one that is open at the start. -/
def bare (b : Bracket) (quote : Option Char) : List Char → List Char
  | [] => []
  | c :: cs =>
    if quote.isNone && !b.quotes.contains c then c :: b.bare (b.openQuote quote c) cs
    else b.bare (b.openQuote quote c) cs

/-- How many brackets more open than close outside of quotes. -/
def excess (b : Bracket) (quote : Option Char) (cs : List Char) : Int :=
  (b.bare quote cs).count b.opening - (b.bare quote cs).count b.closing

/-- On the first line, up to this place, as many brackets close as open. -/
structure ClosedAt (b : Bracket) (text : List Char) (i : Nat) : Prop where
  inside : i < text.length
  line : '\n' ∉ text.take (i + 1)
  level : b.excess none (text.take (i + 1)) = 0

/-- The place of the closing bracket in a text that begins with the opening one. -/
def end? (b : Bracket) (text : List Char) : Option Nat := (b.inside? text.tail).map (·.length + 1)

/-- The two brackets can be told apart, and from quotes and line feeds. -/
structure Proper (b : Bracket) : Prop where
  apart : b.opening ≠ b.closing
  unquoted : b.quotes.contains b.opening = false
  feed : b.opening ≠ '\n' ∧ b.closing ≠ '\n'

theorem excess_nil (b : Bracket) (quote : Option Char) : b.excess quote [] = 0 := rfl

theorem excess_cons (b : Bracket) (quote : Option Char) (c : Char) (cs : List Char) :
    b.excess quote (c :: cs) = b.excess quote [c] + b.excess (b.openQuote quote c) cs := by
  have split : b.bare quote (c :: cs) = b.bare quote [c] ++ b.bare (b.openQuote quote c) cs := by
    rw [bare, bare]
    split <;> rfl
  unfold excess
  rw [split, List.count_append, List.count_append]
  omega

theorem excess_quoted (b : Bracket) (mark c : Char) : b.excess (some mark) [c] = 0 := rfl

theorem excess_bare (proper : b.Proper) (c : Char) : b.excess none [c] =
    if b.quotes.contains c then 0 else if c = b.opening then 1 else if c = b.closing then -1 else 0 := by
  unfold excess bare
  cases b.quotes.contains c with
  | true => rfl
  | false =>
    by_cases opens : c = b.opening
    · simp [bare, opens, proper.apart]
    · by_cases closes : c = b.closing
      · simp [bare, closes, proper.apart.symm]
      · simp [bare, opens, closes]

/- Each character changes the count as it changes the number of open brackets, until one closes more than that. -/
theorem insideFrom?_step (proper : b.Proper) (depth : Nat) (quote : Option Char) (other : c ≠ '\n') :
    (∃ next : Nat, (next : Int) = depth + b.excess quote [c] ∧ ∀ cs,
        b.insideFrom? depth quote (c :: cs) = (b.insideFrom? next (b.openQuote quote c) cs).map (c :: ·)) ∨
      (depth : Int) + b.excess quote [c] = -1 ∧ ∀ cs, b.insideFrom? depth quote (c :: cs) = some [] := by
  cases quote with
  | some mark =>
    refine .inl ⟨depth, ?_, fun cs => ?_⟩
    · rw [excess_quoted, Int.add_zero]
    · simp [insideFrom?, openQuote, other]
  | none =>
    rw [excess_bare proper]
    by_cases quoted : b.quotes.contains c = true
    · refine .inl ⟨depth, ?_, fun cs => ?_⟩
      · rw [if_pos quoted, Int.add_zero]
      · simp only [insideFrom?, openQuote, beq_iff_eq, if_neg other, if_pos quoted]
    rw [if_neg quoted]
    by_cases opens : c = b.opening
    · refine .inl ⟨depth + 1, ?_, fun cs => ?_⟩
      · rw [if_pos opens]
        rfl
      · simp only [insideFrom?, openQuote, beq_iff_eq, if_neg other, if_neg quoted, if_pos opens]
    rw [if_neg opens]
    by_cases closes : c = b.closing
    · rw [if_pos closes]
      cases depth with
      | zero =>
        refine .inr ⟨rfl, fun cs => ?_⟩
        simp only [insideFrom?, beq_iff_eq, if_neg other, if_neg quoted, if_neg opens, if_pos closes]
      | succ depth =>
        refine .inl ⟨depth, by omega, fun cs => ?_⟩
        simp only [insideFrom?, openQuote, beq_iff_eq, if_neg other, if_neg quoted, if_neg opens, if_pos closes]
    · refine .inl ⟨depth, ?_, fun cs => ?_⟩
      · rw [if_neg closes, Int.add_zero]
      · simp only [insideFrom?, openQuote, beq_iff_eq, if_neg other, if_neg quoted, if_neg opens, if_neg closes]

/- Where the search ends, one bracket more has closed than was open, and never before. By induction on the text. -/
theorem excess_of_inside (proper : b.Proper) (found : b.insideFrom? depth quote cs = some inside) :
    (depth : Int) + b.excess quote (inside ++ [b.closing]) = -1 ∧
      ∀ front, front <+: inside → 0 ≤ (depth : Int) + b.excess quote front := by
  induction cs generalizing depth quote inside with
  | nil => cases found
  | cons c rest ih =>
    have other : c ≠ '\n' := by
      rintro rfl
      simp [insideFrom?] at found
    rcases insideFrom?_step proper depth quote other with ⟨next, count, onward⟩ | ⟨count, ends⟩
    · rw [onward] at found
      obtain ⟨later, within, rfl⟩ := Option.map_eq_some_iff.1 found
      obtain ⟨last, before⟩ := ih within
      refine ⟨?_, fun front starts => ?_⟩
      · rw [List.cons_append, excess_cons]
        omega
      · rcases List.prefix_cons_iff.1 starts with rfl | ⟨front, rfl, further⟩
        · rw [excess_nil]
          omega
        · have here := before front further
          rw [excess_cons]
          omega
    · obtain ⟨after, parts⟩ := eq_append found
      rw [ends] at found
      cases found
      obtain ⟨rfl, -⟩ := List.cons.inj parts
      refine ⟨count, fun front starts => ?_⟩
      rw [List.prefix_nil.1 starts, excess_nil]
      omega

/- If the search finds nothing, the brackets that are open stay so on the whole line. -/
theorem excess_of_none (proper : b.Proper) (none : b.insideFrom? depth quote cs = none) (starts : front <+: cs)
    (line : '\n' ∉ front) : 0 ≤ (depth : Int) + b.excess quote front := by
  induction cs generalizing depth quote front with
  | nil =>
    rw [List.prefix_nil.1 starts, excess_nil]
    omega
  | cons c rest ih =>
    rcases List.prefix_cons_iff.1 starts with rfl | ⟨front, rfl, further⟩
    · rw [excess_nil]
      omega
    · obtain ⟨first, later⟩ := not_or.1 (mt List.mem_cons.2 line)
      rcases insideFrom?_step proper depth quote (Ne.symm first) with ⟨next, count, onward⟩ | ⟨_, ends⟩
      · rw [onward, Option.map_eq_none_iff] at none
        have here := ih none further later
        rw [excess_cons]
        omega
      · rw [ends] at none
        cases none

/- The search goes on behind what it has gone through without success, with the number of brackets that are open
there. -/
theorem insideFrom?_scan (proper : b.Proper) (line : '\n' ∉ front)
    (unended : b.insideFrom? depth quote front = none) : ∃ next : Nat,
      (next : Int) = depth + b.excess quote front ∧ ∀ more, b.insideFrom? depth quote (front ++ more) =
        (b.insideFrom? next (front.foldl b.openQuote quote) more).map (front ++ ·) := by
  induction front generalizing depth quote with
  | nil => exact ⟨depth, (Int.add_zero _).symm, fun _ => Option.map_id'.symm⟩
  | cons c rest ih =>
    obtain ⟨first, later⟩ := not_or.1 (mt List.mem_cons.2 line)
    rcases insideFrom?_step proper depth quote (Ne.symm first) with ⟨next, count, onward⟩ | ⟨_, ends⟩
    · rw [onward, Option.map_eq_none_iff] at unended
      obtain ⟨last, counts, scans⟩ := ih later unended
      refine ⟨last, ?_, fun more => ?_⟩
      · rw [excess_cons]
        omega
      · rw [List.cons_append, onward, scans, Option.map_map]
        rfl
    · rw [ends] at unended
      cases unended

theorem excess_opening (proper : b.Proper) (cs : List Char) :
    b.excess none (b.opening :: cs) = 1 + b.excess none cs := by
  have stays : b.openQuote none b.opening = none := if_neg (Bool.eq_false_iff.1 proper.unquoted)
  rw [excess_cons, stays, excess_bare proper, proper.unquoted, if_neg Bool.false_ne_true, if_pos rfl]

theorem end?_cons (b : Bracket) (c : Char) (cs : List Char) :
    b.end? (c :: cs) = (b.inside? cs).map (·.length + 1) := rfl

/- The search finds the first place where the opening bracket is closed. -/
theorem isLeast_of_end (proper : b.Proper) {i : Nat} (found : b.end? (b.opening :: cs) = some i) :
    IsLeast {j | b.ClosedAt (b.opening :: cs) j} i := by
  rw [end?_cons] at found
  obtain ⟨inside, within, rfl⟩ := Option.map_eq_some_iff.1 found
  obtain ⟨after, rfl⟩ := eq_append within
  obtain ⟨last, before⟩ := excess_of_inside proper within
  constructor
  · have upTo : (b.opening :: (inside ++ b.closing :: after)).take (inside.length + 1 + 1) =
        b.opening :: (inside ++ [b.closing]) := by
      simp [List.take_append, List.take_of_length_le]
    refine ⟨by simp, ?_, ?_⟩
    · rw [upTo]
      simp [whole_of_inside within, proper.feed.1.symm, proper.feed.2.symm]
    · rw [upTo, excess_opening proper]
      omega
  · intro j closed
    by_contra early
    have short : j ≤ inside.length := by omega
    have starts : inside.take j <+: inside := List.take_prefix j inside
    have level := closed.level
    rw [List.take_succ_cons, List.take_append_of_le_length short, excess_opening proper] at level
    have here := before _ starts
    omega

theorem end_eq_some_iff (proper : b.Proper) (cs : List Char) (i : Nat) :
    b.end? (b.opening :: cs) = some i ↔ IsLeast {j | b.ClosedAt (b.opening :: cs) j} i := by
  refine ⟨isLeast_of_end proper, fun least => ?_⟩
  cases found : b.end? (b.opening :: cs) with
  | some j => rw [(isLeast_of_end proper found).unique least]
  | none =>
    have closed := least.1
    rw [end?_cons, Option.map_eq_none_iff] at found
    have line := closed.line
    have level := closed.level
    rw [List.take_succ_cons] at line level
    have here := excess_of_none proper found (List.take_prefix i cs) (List.not_mem_of_not_mem_cons line)
    rw [excess_opening proper] at level
    omega

/-- What the search for the bracket that closes the first one of a text comes to. -/
structure Closes (b : Bracket) : Prop where
  /-- It finds the first place where this bracket is closed, or nothing. -/
  least : ∀ cs i, b.end? (b.opening :: cs) = some i ↔ IsLeast {j | b.ClosedAt (b.opening :: cs) j} i
  /-- While it goes on, its count is the number of brackets that are open, and at least one is. -/
  counts : ∀ front, '\n' ∉ front → b.end? (b.opening :: front) = none →
    ∃ (depth : Nat) (quote : Option Char), (depth : Int) + 1 = b.excess none (b.opening :: front) ∧
      ∀ more, b.inside? (front ++ more) = (b.insideFrom? depth quote more).map (front ++ ·)
  /-- What is taken as its inside is cut out of the text, between the two brackets. -/
  slices : ∀ cs i, b.end? (b.opening :: cs) = some i → 1 ≤ i ∧ i + 1 ≤ (b.opening :: cs).length ∧
    b.inside? cs = some (((b.opening :: cs).take i).drop 1)

theorem closes_of_proper (proper : b.Proper) : b.Closes where
  least := end_eq_some_iff proper
  counts front line unended := by
    rw [end?_cons, Option.map_eq_none_iff] at unended
    obtain ⟨depth, count, scans⟩ := insideFrom?_scan proper line unended
    refine ⟨depth, front.foldl b.openQuote none, ?_, scans⟩
    rw [excess_opening proper]
    omega
  slices cs i found := by
    rw [end?_cons] at found
    obtain ⟨inside, within, rfl⟩ := Option.map_eq_some_iff.1 found
    obtain ⟨after, rfl⟩ := eq_append within
    refine ⟨Nat.le_add_left 1 _, by simp, ?_⟩
    rw [within, List.take_succ_cons, List.drop_one, List.tail_cons, List.take_left]

end Bracket

theorem proper_square : square.Proper := ⟨by decide, by decide, by decide⟩

theorem proper_round : round.Proper := ⟨by decide, by decide, by decide⟩

section Link

variable {depth : Nat} {cs front inside more : List Char}

/-- Two closing brackets stand at a place of a link, on its first line, and from nowhere in the link up to them do more
brackets open than close. -/
structure LinkClosedAt (text : List Char) (i : Nat) : Prop where
  inside : 2 ≤ i
  closing : [']', ']'] <+: text.drop i
  line : '\n' ∉ text.take i
  level : ∀ s, s <:+ (text.take i).drop 2 → s.count '[' ≤ s.count ']'

/-- The place of the first of the two closing brackets in a text that begins with the two opening ones. -/
def linkEnd? (text : List Char) : Option Nat := (linkInside? (text.drop 2)).map (·.length + 2)

/- The count of brackets that are open is the greatest number by which they have opened more often than closed from some
place on. By induction on the text from its end. -/
theorem isGreatest_level (cs : List Char) :
    IsGreatest {n : Int | ∃ s, s <:+ cs ∧ n = s.count '[' - s.count ']'} (level 0 cs) := by
  induction cs using List.reverseRecOn with
  | nil =>
    refine ⟨⟨[], List.nil_suffix, rfl⟩, ?_⟩
    rintro n ⟨s, ends, rfl⟩
    rw [List.suffix_nil.1 ends]
    rfl
  | append_singleton cs c ih =>
    obtain ⟨⟨s, ends, same⟩, greatest⟩ := ih
    have further : s ++ [c] <:+ cs ++ [c] := List.suffix_concat_iff.2 (.inr ⟨s, rfl, ends⟩)
    have counts : ∀ (t : List Char) (x : Char), (t ++ [c]).count x = t.count x + if c = x then 1 else 0 := by
      intro t x
      rw [List.count_append, List.count_singleton]
      simp only [beq_iff_eq]
    have onward : level 0 (cs ++ [c]) =
        if c = '[' then level 0 cs + 1 else if c = ']' then level 0 cs - 1 else level 0 cs := by
      simp only [level, List.foldl_append, List.foldl_cons, List.foldl_nil, beq_iff_eq]
    rw [onward]
    constructor
    · by_cases lone : c = ']' ∧ level 0 cs = 0
      · exact ⟨[], List.nil_suffix, by simp [lone]⟩
      · refine ⟨s ++ [c], further, ?_⟩
        rw [counts, counts]
        grind
    · rintro n ⟨t, last, rfl⟩
      rcases List.suffix_concat_iff.1 last with rfl | ⟨t, rfl, before⟩
      · rw [List.count_nil, List.count_nil, Int.sub_self]
        exact Int.natCast_nonneg _
      · have bound : (t.count '[' : Int) - t.count ']' ≤ level 0 cs := greatest ⟨t, before, rfl⟩
        rw [counts, counts]
        grind

theorem level_eq_zero_iff : level 0 cs = 0 ↔ ∀ s, s <:+ cs → s.count '[' ≤ s.count ']' := by
  obtain ⟨⟨s, ends, same⟩, greatest⟩ := isGreatest_level cs
  constructor
  · intro none s ends
    have bound : (s.count '[' : Int) - s.count ']' ≤ level 0 cs := greatest ⟨s, ends, rfl⟩
    omega
  · intro closed
    have here := closed s ends
    omega

theorem level_of_linkInside (found : linkInsideFrom? depth cs = some inside) : level depth inside = 0 := by
  induction cs generalizing depth inside with
  | nil => cases found
  | cons c rest ih =>
    rw [linkInsideFrom?_cons] at found
    split at found
    · cases found
    · split at found
      · rename_i ends
        cases found
        exact ends.2.1
      · obtain ⟨later, within, rfl⟩ := Option.map_eq_some_iff.1 found
        have none : level (level depth [c]) later = 0 := ih within
        exact none

/- The search goes on behind what it has gone through without success. It looks one character ahead. -/
theorem linkInsideFrom?_scan (line : '\n' ∉ front) (unended : linkInsideFrom? depth (front ++ more.take 1) = none) :
    linkInsideFrom? depth (front ++ more) = (linkInsideFrom? (level depth front) more).map (front ++ ·) := by
  induction front generalizing depth with
  | nil => exact Option.map_id'.symm
  | cons c rest ih =>
    obtain ⟨first, later⟩ := not_or.1 (mt List.mem_cons.2 line)
    have ahead : (rest ++ more.take 1).head? = (rest ++ more).head? := by
      cases rest with
      | cons d rest => rfl
      | nil => cases more <;> rfl
    rw [List.cons_append, linkInsideFrom?_cons, if_neg (Ne.symm first), ahead] at unended
    rw [List.cons_append, linkInsideFrom?_cons, if_neg (Ne.symm first)]
    split at unended
    · cases unended
    · rename_i onward
      rw [Option.map_eq_none_iff] at unended
      rw [if_neg onward, ih later unended, Option.map_map]
      rfl

theorem linkClosedAt_iff {i : Nat} : LinkClosedAt ('[' :: '[' :: cs) i ↔
    ∃ inside after, cs = inside ++ ']' :: ']' :: after ∧ i = inside.length + 2 ∧ '\n' ∉ inside ∧
      level 0 inside = 0 := by
  constructor
  · rintro ⟨within, ⟨after, parts⟩, line, closed⟩
    obtain ⟨i, rfl⟩ := Nat.exists_eq_add_of_le' within
    have parts : ']' :: ']' :: after = cs.drop i := parts
    have long : i ≤ cs.length := by
      by_contra short
      rw [List.drop_of_length_le (by omega)] at parts
      cases parts
    refine ⟨cs.take i, after, ?_, ?_, ?_, level_eq_zero_iff.2 closed⟩
    · rw [parts, List.take_append_drop]
    · rw [List.length_take_of_le long]
    · exact List.not_mem_of_not_mem_cons (List.not_mem_of_not_mem_cons line)
  · rintro ⟨inside, after, rfl, rfl, line, none⟩
    have upTo : ('[' :: '[' :: (inside ++ ']' :: ']' :: after)).take (inside.length + 2) = '[' :: '[' :: inside := by
      simp
    refine ⟨Nat.le_add_left 2 _, ⟨after, by simp⟩, ?_, ?_⟩
    · rw [upTo]
      simpa using line
    · rw [upTo]
      exact level_eq_zero_iff.1 none

theorem linkEnd?_cons (cs : List Char) : linkEnd? ('[' :: '[' :: cs) = (linkInside? cs).map (·.length + 2) := rfl

/- The search finds the first place where the link is closed. -/
theorem isLeast_of_linkEnd {i : Nat} (found : linkEnd? ('[' :: '[' :: cs) = some i) :
    IsLeast {j | LinkClosedAt ('[' :: '[' :: cs) j} i := by
  rw [linkEnd?_cons] at found
  obtain ⟨inside, within, rfl⟩ := Option.map_eq_some_iff.1 found
  constructor
  · obtain ⟨after, parts⟩ := eq_of_linkInside within
    exact linkClosedAt_iff.2 ⟨inside, after, parts, rfl, whole_of_linkInside within, level_of_linkInside within⟩
  · intro j closed
    obtain ⟨early, after, rfl, rfl, line, none⟩ := linkClosedAt_iff.1 closed
    obtain ⟨first, same, short⟩ : ∃ first, linkInside? (early ++ ']' :: ']' :: after) = some first ∧
      first.length ≤ early.length := linkInsideFrom?_ends line none
    rw [within] at same
    cases same
    omega

theorem linkEnd_eq_some_iff (cs : List Char) (i : Nat) :
    linkEnd? ('[' :: '[' :: cs) = some i ↔ IsLeast {j | LinkClosedAt ('[' :: '[' :: cs) j} i := by
  refine ⟨isLeast_of_linkEnd, fun least => ?_⟩
  cases found : linkEnd? ('[' :: '[' :: cs) with
  | some j => rw [(isLeast_of_linkEnd found).unique least]
  | none =>
    obtain ⟨inside, after, rfl, rfl, line, level⟩ := linkClosedAt_iff.1 least.1
    obtain ⟨first, same, _⟩ : ∃ first, linkInside? (inside ++ ']' :: ']' :: after) = some first ∧
      first.length ≤ inside.length := linkInsideFrom?_ends line level
    rw [linkEnd?_cons, same] at found
    cases found

/-- What the search for the end of a link comes to. -/
structure LinkCloses : Prop where
  /-- It finds the first place where the link is closed, or nothing. -/
  least : ∀ cs i, linkEnd? ('[' :: '[' :: cs) = some i ↔ IsLeast {j | LinkClosedAt ('[' :: '[' :: cs) j} i
  /-- While it goes on, its count is the number of brackets that are open in the link; none is the least. -/
  counts : ∀ front more, '\n' ∉ front → linkEnd? ('[' :: '[' :: (front ++ more.take 1)) = none →
    IsGreatest {n : Int | ∃ s, s <:+ front ∧ n = s.count '[' - s.count ']'} (level 0 front) ∧
      linkInside? (front ++ more) = (linkInsideFrom? (level 0 front) more).map (front ++ ·)
  /-- What is taken as its inside is cut out of the text, between the brackets. -/
  slices : ∀ cs i, linkEnd? ('[' :: '[' :: cs) = some i → 2 ≤ i ∧ i + 2 ≤ ('[' :: '[' :: cs).length ∧
    linkInside? cs = some ((('[' :: '[' :: cs).take i).drop 2)

theorem linkCloses : LinkCloses where
  least := linkEnd_eq_some_iff
  counts front more line unended := by
    rw [linkEnd?_cons, Option.map_eq_none_iff] at unended
    exact ⟨isGreatest_level front, linkInsideFrom?_scan line unended⟩
  slices cs i found := by
    rw [linkEnd?_cons] at found
    obtain ⟨inside, within, rfl⟩ := Option.map_eq_some_iff.1 found
    obtain ⟨after, rfl⟩ := eq_of_linkInside within
    exact ⟨Nat.le_add_left 2 _, by simp, by rw [within]; simp⟩

end Link

/- The mark of an action stands before the place where the action is closed, so that the rest of it can be cut out. -/
theorem end_of_actionInside {c : Char} {cs inside : List Char} (found : actionInside? c cs = some inside) :
    square.end? (c :: cs) = some (inside.length + 1) ∧ actionMark.length ≤ inside.length ∧
      inside.length + 1 ≤ cs.length := by
  obtain ⟨_, marked, found⟩ := actionInside?_cases found
  have long := (marked_of_inside marked found).length_le
  rw [Text.lower, List.length_map] at long
  obtain ⟨after, parts⟩ := Bracket.eq_append found
  exact ⟨by rw [Bracket.end?_cons, found]; rfl, long, by rw [parts]; simp⟩

/- No span goes beyond the text. -/
theorem more_firstSpan_le (c : Char) (cs : List Char) : (firstSpan c cs).more ≤ cs.length := by
  rcases firstSpan_cases c cs with ⟨_, findings, letter⟩ | ⟨front, after, parts, _, breaks⟩ | ⟨_, enclosed, after, encloses⟩
  · rw [letter]
    exact Nat.zero_le _
  · rw [breaks]
    change front.length ≤ cs.length
    have long := congrArg List.length parts
    simp only [List.length_cons, List.length_append] at long
    omega
  · rw [encloses.more, encloses.parts, List.length_append]
    omega

/- The searches for closing brackets find the first place where what they begin with is closed, or nothing; they count
the brackets that are open, no fewer than none; and whatever is cut out of a text by what they have found lies
within it. -/
theorem closers_found : square.Closes ∧ round.Closes ∧ LinkCloses ∧
    (∀ c cs inside, actionInside? c cs = some inside → square.end? (c :: cs) = some (inside.length + 1) ∧
      actionMark.length ≤ inside.length ∧ inside.length + 1 ≤ cs.length) ∧
    ∀ c cs, (firstSpan c cs).more ≤ cs.length :=
  ⟨Bracket.closes_of_proper proper_square, Bracket.closes_of_proper proper_round, linkCloses,
    fun _ _ _ => end_of_actionInside, more_firstSpan_le⟩

/- Brackets in quotes, and one that closes nothing, are passed over. -/
theorem closers_found_beside_others :
    IsLeast {j | square.ClosedAt "[Action: delayed_message: \"a ] b\"] c]".toList j} 33 ∧
      IsLeast {j | round.ClosedAt "(set: $x to 'a ) (b') c)".toList j} 20 ∧
      IsLeast {j | LinkClosedAt "[[Go] [Action: vibrate]|A-Round-2]] ]]".toList j} 33 := by
  obtain ⟨action, macros, links, _⟩ := closers_found
  exact ⟨(action.least _ _).1 (by decide +kernel), (macros.least _ _).1 (by decide +kernel),
    (links.least _ _).1 (by decide +kernel)⟩

end Markup

end ChatStory
