import ChatStory.Proofs.Embedding

/-!
How a body is taken apart. Its text is cut into spans, one behind the other and without gaps. A span is a
character, a line break, or markup that stands on one line and is read as it is read alone; each of them leaves
what it was, a fragment, or a finding, so that nothing is lost.
-/
namespace ChatStory

namespace Fragment

def isText : Fragment → Bool
  | text _ => true
  | _ => false

/-- The characters that are read in a fragment; a line break reads as a line feed. -/
def letters : Fragment → List Char
  | text s => s.toList
  | lineBreak => ['\n']
  | _ => []

/-- The characters of a text one by one, and any other fragment as it is. -/
def tokens : Fragment → List (Char ⊕ Fragment)
  | text s => s.toList.map .inl
  | fragment => [.inr fragment]

end Fragment

namespace Markup

open Text (lower)

variable {c : Char} {cs inside after : List Char}

/- What a bracket holds stands on one line. -/
theorem Bracket.whole_of_inside {b : Bracket} {depth : Nat} {quote : Option Char}
    (found : b.insideFrom? depth quote cs = some inside) : '\n' ∉ inside := by
  induction cs generalizing depth quote inside with
  | nil => cases found
  | cons c rest ih =>
    have other : c ≠ '\n' := by
      rintro rfl
      simp [insideFrom?] at found
    rcases insideFrom?_cons b depth quote c with fails | ends | ⟨depth', quote', onward⟩
    · rw [fails] at found
      cases found
    · rw [ends] at found
      cases found
      exact List.not_mem_nil
    · rw [onward] at found
      obtain ⟨later, within, rfl⟩ := Option.map_eq_some_iff.1 found
      exact List.not_mem_cons_of_ne_of_not_mem other.symm (ih within)

theorem whole_of_linkInside {depth : Nat} (found : linkInsideFrom? depth cs = some inside) : '\n' ∉ inside := by
  induction cs generalizing depth inside with
  | nil => cases found
  | cons c rest ih =>
    rw [linkInsideFrom?_cons] at found
    split at found
    · cases found
    · rename_i other
      split at found
      · cases found
        exact List.not_mem_nil
      · obtain ⟨later, within, rfl⟩ := Option.map_eq_some_iff.1 found
        exact List.not_mem_cons_of_ne_of_not_mem (Ne.symm other) (ih within)

/- A link ends where it does whatever follows it. -/
theorem linkInside_before {depth : Nat}
    (found : linkInsideFrom? depth (inside ++ ']' :: ']' :: after) = some inside) (more : List Char) :
    linkInsideFrom? depth (inside ++ ']' :: ']' :: more) = some inside := by
  induction inside generalizing depth with
  | nil =>
    rw [List.nil_append, linkInsideFrom?_cons, if_neg (by decide)] at found ⊢
    split at found
    · rename_i ends
      rw [if_pos ⟨rfl, ends.2.1, rfl⟩]
    · obtain ⟨_, _, none⟩ := Option.map_eq_some_iff.1 found
      cases none
  | cons c rest ih =>
    have next : ∀ more, (rest ++ ']' :: ']' :: more).head? = (rest ++ [']']).head? := fun more => by
      cases rest <;> rfl
    rw [List.cons_append, linkInsideFrom?_cons, next] at found ⊢
    split at found
    · cases found
    · rename_i other
      split at found
      · cases found
      · rename_i onward
        obtain ⟨later, found, same⟩ := Option.map_eq_some_iff.1 found
        obtain rfl := (List.cons.inj same).2
        rw [if_neg other, if_neg onward, ih found]
        rfl

/- A prefix ends before a character that it does not have. -/
theorem prefix_before {α : Type} {a : α} {front xs ys : List α} (starts : front <+: xs ++ a :: ys)
    (absent : a ∉ front) : front <+: xs := by
  have longer : xs ++ [a] <+: xs ++ a :: ys := ⟨ys, List.append_cons xs a ys ▸ rfl⟩
  rcases List.prefix_or_prefix_of_prefix starts longer with within | beyond
  · rcases List.prefix_concat_iff.1 within with whole | before
    · exact absurd (whole ▸ List.mem_append_right xs List.mem_cons_self) absent
    · exact before
  · exact absurd (beyond.subset (List.mem_append_right xs List.mem_cons_self)) absent

theorem actionInside?_cases (found : actionInside? c cs = some inside) :
    c = '[' ∧ actionMark <+: lower cs ∧ square.inside? cs = some inside := by
  unfold actionInside? at found
  split at found
  · rename_i marked
    obtain ⟨opens, marked⟩ := Bool.and_eq_true_iff.1 marked
    exact ⟨beq_iff_eq.1 opens, marked_iff.1 marked, found⟩
  · cases found

/-- A piece that is neither a character nor a line break. -/
def Piece.isMarkup : Piece → Bool
  | .letter _ | .lineBreak => false
  | .markup fragment => fragment.isMarkup
  | .droppedAction | .droppedAssignment => true

/-- The span at the start of a text is markup that ends before `after`. It stands on one line, and what
follows it plays no part in how it is read. -/
structure Encloses (c : Char) (cs enclosed after : List Char) : Prop where
  parts : cs = enclosed ++ after
  more : (firstSpan c cs).more = enclosed.length
  whole : '\n' ∉ c :: enclosed
  alone : firstSpan c enclosed = firstSpan c cs

theorem macroSpan_cases (inside : List Char) :
    (∃ findings, macroSpan inside = letterSpan '(' findings) ∨
      ((macroSpan inside).piece.isMarkup = true ∧ (macroSpan inside).more = inside.length + 1) := by
  unfold macroSpan
  dsimp only
  repeat' split
  all_goals first
    | exact .inl ⟨_, rfl⟩
    | exact .inr ⟨rfl, rfl⟩

theorem actionSpan_cases (inside : List Char) :
    (actionSpan inside).piece.isMarkup = true ∧ (actionSpan inside).more = inside.length + 1 := by
  unfold actionSpan
  dsimp only
  split <;> exact ⟨rfl, rfl⟩

theorem firstSpan_link (cs : List Char) : firstSpan '[' ('[' :: cs) = linkSpan cs := rfl

theorem firstSpan_round (cs : List Char) :
    firstSpan '(' cs = ((round.inside? cs).map macroSpan).getD (letterSpan '(' []) := rfl

theorem firstSpan_letter (feed : c ≠ '\n') (ret : c ≠ '\r') (opens : c ≠ '[') (parenthesis : c ≠ '(') :
    firstSpan c cs = letterSpan c [] := by
  unfold firstSpan
  split
  · exact absurd rfl ret
  · exact absurd rfl feed
  · exact absurd rfl opens
  · exact absurd rfl parenthesis
  · rw [actionInside?, if_neg (by simp [opens])]
    rfl

theorem firstSpan_action (other : cs.head? ≠ some '[') :
    firstSpan '[' cs = ((actionInside? '[' cs).map actionSpan).getD (letterSpan '[' []) := by
  unfold firstSpan
  split
  · rename_i same
    cases same
  · rename_i same
    cases same
  · exact absurd rfl other
  · rename_i same
    cases same
  · rfl

/- What a link encloses is its inside, and the brackets that are left. -/
theorem encloses_link (found : linkInside? cs = some inside) :
    ∃ after, Encloses '[' ('[' :: cs) ('[' :: (inside ++ [']', ']'])) after := by
  obtain ⟨after, parts⟩ := eq_of_linkInside found
  have alone : linkInside? (inside ++ [']', ']']) = some inside := linkInside_before (parts ▸ found) []
  have span : ∀ {cs}, linkInside? cs = some inside →
      firstSpan '[' ('[' :: cs) = ⟨.markup (.choice (Choice.read inside).1), inside.length + 3,
        (Choice.read inside).2⟩ := by
    intro cs found
    rw [firstSpan_link, linkSpan, found]
  refine ⟨after, ?_, ?_, ?_, (span alone).trans (span found).symm⟩
  · simp [parts]
  · rw [span found]
    simp
  · simp [whole_of_linkInside found]

/- What a macro encloses is its inside, and the bracket that is left. -/
theorem encloses_round (found : round.inside? cs = some inside)
    (more : (macroSpan inside).more = inside.length + 1) :
    ∃ after, Encloses '(' cs (inside ++ [')']) after := by
  obtain ⟨after, parts⟩ := Bracket.eq_append found
  have span : ∀ {cs}, round.inside? cs = some inside → firstSpan '(' cs = macroSpan inside := by
    intro cs found
    rw [firstSpan_round, found]
    rfl
  have alone : round.inside? (inside ++ [')']) = some inside := Bracket.inside_before (parts ▸ found) []
  refine ⟨after, ?_, ?_, ?_, (span alone).trans (span found).symm⟩
  · simp [parts, round]
  · rw [span found, more, List.length_append]
    rfl
  · simp [Bracket.whole_of_inside found]

/- The mark of an action stands within its brackets. -/
theorem marked_of_inside (marked : actionMark <+: lower cs) (found : square.inside? cs = some inside) :
    actionMark <+: lower inside := by
  obtain ⟨after, rfl⟩ := Bracket.eq_append found
  have split : lower (inside ++ ']' :: after) = lower inside ++ ']' :: lower after := List.map_append
  rw [square, split] at marked
  exact prefix_before marked (by decide)

/- What an action encloses is its inside, and the bracket that is left. -/
theorem encloses_action (other : cs.head? ≠ some '[') (marked : actionMark <+: lower cs)
    (found : square.inside? cs = some inside) : ∃ after, Encloses '[' cs (inside ++ [']']) after := by
  obtain ⟨after, parts⟩ := Bracket.eq_append found
  have span : ∀ {cs}, cs.head? ≠ some '[' → actionMark <+: lower cs → square.inside? cs = some inside →
      firstSpan '[' cs = actionSpan inside := by
    intro cs other marked found
    rw [firstSpan_action other, actionInside?_of_marked marked, found]
    rfl
  have within := marked_of_inside marked found
  have alone : firstSpan '[' (inside ++ [']']) = actionSpan inside := by
    refine span ?_ ?_ (Bracket.inside_before (parts ▸ found) [])
    · have first : (inside ++ [']']).head? = cs.head? := by
        rw [parts]
        cases inside <;> rfl
      rwa [first]
    · have split : lower (inside ++ [']']) = lower inside ++ [']'] := List.map_append
      rw [split]
      exact within.trans (List.prefix_append _ _)
  refine ⟨after, ?_, ?_, ?_, alone.trans (span other marked found).symm⟩
  · simp [parts, square]
  · rw [span other marked found, (actionSpan_cases inside).2, List.length_append]
    rfl
  · simp [Bracket.whole_of_inside found]

/- A text begins with a character, with a line break, or with markup. -/
theorem firstSpan_cases (c : Char) (cs : List Char) :
    (c ≠ '\n' ∧ ∃ findings, firstSpan c cs = letterSpan c findings) ∨
      (∃ front after, c :: cs = front ++ '\n' :: after ∧ (front = [] ∨ front = ['\r']) ∧
        firstSpan c cs = ⟨.lineBreak, front.length, []⟩) ∨
      ((firstSpan c cs).piece.isMarkup = true ∧ ∃ enclosed after, Encloses c cs enclosed after) := by
  generalize same : firstSpan c cs = span
  unfold firstSpan at same
  split at same
  · exact .inr (.inl ⟨['\r'], _, rfl, .inr rfl, same.symm⟩)
  · exact .inr (.inl ⟨[], _, rfl, .inl rfl, same.symm⟩)
  · rename_i rest
    subst same
    unfold linkSpan
    cases found : linkInside? rest with
    | none => exact .inl ⟨by decide, _, rfl⟩
    | some inside => exact .inr (.inr ⟨rfl, _, encloses_link found⟩)
  · subst same
    cases found : round.inside? cs with
    | none => exact .inl ⟨by decide, _, rfl⟩
    | some inside =>
      rcases macroSpan_cases inside with ⟨findings, letter⟩ | ⟨markup, more⟩
      · exact .inl ⟨by decide, findings, letter⟩
      · exact .inr (.inr ⟨markup, _, encloses_round found more⟩)
  · rename_i line parenthesis feed link
    subst same
    cases found : actionInside? c cs with
    | none => exact .inl ⟨line, _, rfl⟩
    | some inside =>
      obtain ⟨rfl, marked, ends⟩ := actionInside?_cases found
      have other : cs.head? ≠ some '[' := by
        intro opens
        obtain ⟨rest, same⟩ := List.head?_eq_some_iff.1 opens
        exact link rest rfl same
      exact .inr (.inr ⟨(actionSpan_cases inside).1, _, encloses_action other marked ends⟩)

/-- A stretch of a body, and the span that it is read as. -/
structure Cut where
  text : List Char
  span : Span

/-- A body, cut into its spans. -/
def cuts : List Char → List Cut
  | [] => []
  | c :: cs =>
    let span := firstSpan c cs
    ⟨c :: cs.take span.more, span⟩ :: cuts (cs.drop span.more)
termination_by cs => cs.length
decreasing_by simp only [List.length_cons, List.length_drop]; omega

theorem cuts_spans (cs : List Char) : (cuts cs).map (·.span) = spans cs := by
  fun_induction cuts cs with
  | case1 => rw [spans, List.map_nil]
  | case2 c cs span ih => rw [spans, List.map_cons, ih]

theorem cuts_text (cs : List Char) : (cuts cs).flatMap (·.text) = cs := by
  fun_induction cuts cs with
  | case1 => rfl
  | case2 c cs span ih => rw [List.flatMap_cons, ih, List.cons_append, List.take_append_drop]

/- Every stretch takes a character at least, so there are no more of them than characters. -/
theorem cuts_length_le (cs : List Char) : (cuts cs).length ≤ cs.length := by
  fun_induction cuts cs with
  | case1 => exact Nat.le_refl 0
  | case2 c cs span ih =>
    rw [List.length_drop] at ih
    rw [List.length_cons, List.length_cons]
    omega

/-- What a stretch is read as is what it is: a character, or a line break. Markup is read as it is read alone,
and comes to one fragment; what is dropped comes to a finding at least. -/
def Cut.Accounted (cut : Cut) : Prop :=
  match cut.span.piece with
  | .letter c => cut.text = [c]
  | .lineBreak => cut.text = ['\n'] ∨ cut.text = ['\r', '\n']
  | .markup fragment => spans cut.text = [cut.span] ∧ fragment.isMarkup = true
  | .droppedAction | .droppedAssignment => spans cut.text = [cut.span] ∧ cut.span.findings ≠ []

theorem accounted_first (c : Char) (cs : List Char) :
    Cut.Accounted ⟨c :: cs.take (firstSpan c cs).more, firstSpan c cs⟩ := by
  rcases firstSpan_cases c cs with ⟨-, findings, letter⟩ | ⟨front, after, parts, front', breaks⟩ |
    ⟨markup, enclosed, after, encloses⟩
  · rw [letter]
    rfl
  · have text : c :: cs.take front.length = front ++ ['\n'] := by
      rw [← List.take_succ_cons, parts, List.append_cons]
      exact List.take_left' (by simp)
    rw [breaks]
    change c :: cs.take front.length = _ ∨ c :: cs.take front.length = _
    rw [text]
    rcases front' with rfl | rfl
    · exact .inl rfl
    · exact .inr rfl
  · have text : cs.take (firstSpan c cs).more = enclosed := by
      rw [encloses.more, encloses.parts, List.take_left]
    have alone : spans (c :: enclosed) = [firstSpan c cs] := by
      rw [spans, encloses.alone, encloses.more, List.drop_length, spans]
    rw [text]
    unfold Cut.Accounted
    dsimp only
    cases piece : (firstSpan c cs).piece with
    | letter | lineBreak =>
      rw [piece] at markup
      cases markup
    | markup fragment =>
      rw [piece] at markup
      exact ⟨alone, markup⟩
    | droppedAction => exact ⟨alone, findings_of_dropped (.inl piece)⟩
    | droppedAssignment => exact ⟨alone, findings_of_dropped (.inr piece)⟩

theorem accounted_of_cuts {cs : List Char} {cut : Cut} (member : cut ∈ cuts cs) : cut.Accounted := by
  fun_induction cuts cs with
  | case1 => cases member
  | case2 c cs span ih =>
    rcases List.mem_cons.1 member with rfl | later
    · exact accounted_first c cs
    · exact ih later

theorem diagnostics_findings (line : Nat) (all : List Span) :
    (diagnosticsFrom line all).map (·.finding) = all.flatMap (·.findings) := by
  induction all generalizing line with
  | nil => rfl
  | cons span rest ih =>
    have own : (span.findings.map (·.at line)).map (·.finding) = span.findings := by
      rw [List.map_map]
      exact List.map_id span.findings
    rw [diagnosticsFrom, List.map_append, ih, own, List.flatMap_cons]

namespace Piece

/-- The fragment of a piece that is not a character. -/
def fragment? : Piece → Option Fragment
  | lineBreak => some .lineBreak
  | markup fragment => some fragment
  | _ => none

/-- The character that a piece reads as; a line break reads as a line feed. -/
def letter? : Piece → Option Char
  | letter c => some c
  | lineBreak => some '\n'
  | _ => none

/-- A character, or the fragment of any other piece. -/
def token? : Piece → Option (Char ⊕ Fragment)
  | letter c => some (.inl c)
  | piece => piece.fragment?.map .inr

end Piece

/-- The stretches `cuts` account for a body that is read as `body`: one behind the other they are all of
it, each comes to what it is, and what they come to is what the body is read as, in the same order. -/
structure Account (content : String) (body : Body) (cuts : List Cut) : Prop where
  whole : cuts.flatMap (·.text) = content.toList
  each : ∀ cut ∈ cuts, cut.Accounted
  tokens : body.fragments.flatMap Fragment.tokens = cuts.filterMap (·.span.piece.token?)
  fragments : body.fragments.filter (!·.isText) = cuts.filterMap (·.span.piece.fragment?)
  letters : body.fragments.flatMap Fragment.letters = cuts.filterMap (·.span.piece.letter?)
  findings : body.warnings.map (·.finding) = cuts.flatMap (·.span.findings)

/- What the fragments of a body tell is what its stretches come to. -/
theorem fragments_noted {β : Type} (tell : Fragment → List β) (note : Piece → Option β)
    (texts : ∀ text, tell (.text text) = text.toList.flatMap fun c => (note (.letter c)).toList)
    (breaks : tell .lineBreak = (note .lineBreak).toList)
    (markup : ∀ fragment, fragment.isMarkup = true → tell fragment = (note (.markup fragment)).toList)
    (dropped : note .droppedAction = none ∧ note .droppedAssignment = none) (content : String) (line : Nat) :
    (Body.read content line).fragments.flatMap tell =
      (cuts content.toList).filterMap (note ·.span.piece) := by
  have each : ∀ cut ∈ cuts content.toList,
      cut.span.piece.told tell (fun c => (note (.letter c)).toList) = (note cut.span.piece).toList := by
    intro cut member
    have accounted := accounted_of_cuts member
    revert accounted
    unfold Cut.Accounted
    cases cut.span.piece with
    | letter c => exact fun _ => rfl
    | lineBreak => exact fun _ => breaks
    | markup fragment => exact fun met => markup fragment met.2
    | droppedAction =>
      rw [dropped.1]
      exact fun _ => rfl
    | droppedAssignment =>
      rw [dropped.2]
      exact fun _ => rfl
  calc (Body.read content line).fragments.flatMap tell
      = (spans content.toList).flatMap (·.piece.told tell fun c => (note (.letter c)).toList) :=
        fragments_told tell texts [] _
    _ = (cuts content.toList).flatMap (·.span.piece.told tell fun c => (note (.letter c)).toList) := by
        rw [← cuts_spans, List.flatMap_map]
    _ = (cuts content.toList).flatMap fun cut => (note cut.span.piece).toList := List.flatMap_congr each
    _ = (cuts content.toList).filterMap (note ·.span.piece) := (List.filterMap_eq_flatMap_toList _ _).symm

theorem fragments_tokens (content : String) (line : Nat) :
    (Body.read content line).fragments.flatMap Fragment.tokens =
      (cuts content.toList).filterMap (·.span.piece.token?) := by
  refine fragments_noted _ Piece.token? ?_ rfl ?_ ⟨rfl, rfl⟩ content line
  · intro text
    exact List.map_eq_flatMap
  · intro fragment markup
    cases fragment with
    | text | lineBreak => cases markup
    | _ => rfl

theorem fragments_others (content : String) (line : Nat) :
    (Body.read content line).fragments.filter (!·.isText) =
      (cuts content.toList).filterMap (·.span.piece.fragment?) := by
  rw [← List.filterMap_eq_filter, List.filterMap_eq_flatMap_toList]
  refine fragments_noted _ Piece.fragment? ?_ rfl ?_ ⟨rfl, rfl⟩ content line
  · intro text
    exact (List.flatMap_eq_nil_iff.2 fun _ _ => rfl).symm
  · intro fragment markup
    cases fragment with
    | text | lineBreak => cases markup
    | _ => rfl

theorem fragments_letters (content : String) (line : Nat) :
    (Body.read content line).fragments.flatMap Fragment.letters =
      (cuts content.toList).filterMap (·.span.piece.letter?) := by
  refine fragments_noted _ Piece.letter? ?_ rfl ?_ ⟨rfl, rfl⟩ content line
  · intro text
    exact (List.flatMap_singleton' text.toList).symm
  · intro fragment markup
    cases fragment with
    | text | lineBreak => cases markup
    | _ => rfl

theorem findings_of_body (content : String) (line : Nat) :
    (Body.read content line).warnings.map (·.finding) = (cuts content.toList).flatMap (·.span.findings) := by
  rw [Body.read, diagnostics_findings, ← cuts_spans, List.flatMap_map]

/- The reading of a body comes to an end, with no more spans than there are characters, and nothing of the body
is lost. -/
theorem body_accounted (content : String) (line : Nat) :
    (cuts content.toList).map (·.span) = spans content.toList ∧
      (spans content.toList).length ≤ content.length ∧
      Account content (Body.read content line) (cuts content.toList) := by
  refine ⟨cuts_spans _, ?_, ?_⟩
  · rw [← cuts_spans, List.length_map]
    exact cuts_length_le content.toList
  · exact ⟨cuts_text _, fun cut => accounted_of_cuts, fragments_tokens content line,
      fragments_others content line, fragments_letters content line, findings_of_body content line⟩

example : (cuts "Hi\r\n[[B]](set: x)]".toList).map (String.ofList ·.text) =
    ["H", "i", "\r\n", "[[B]]", "(set: x)", "]"] := by
  decide +kernel

end Markup

end ChatStory
