import ChatStory.Proofs.Cut
import ChatStory.Proofs.Partition

/-!
Where warnings point. What a passage keeps as its content is text of the script but for the carriage returns at the
ends of lines, and markup is read within one line. So what is found wrong with the content is found in the script as
well, at the place where the markup starts, and the line that is reported is the line of this place.
-/
namespace ChatStory

namespace Markup

open Text (lower)

/-- Up to the first line feed there is nothing but carriage returns. -/
def EndsLine (text : List Char) : Prop := ∀ c ∈ text.takeWhile (· != '\n'), c = '\r'

variable {c : Char} {line rest text cs : List Char}

theorem endsLine_of_head (first : ∀ c ∈ text.head?, c = '\n') : EndsLine text := by
  cases text with
  | nil => exact List.forall_mem_nil _
  | cons c text =>
    obtain rfl := first c rfl
    exact List.forall_mem_nil _

theorem EndsLine.returns {returns : List Char} (ends : EndsLine rest) (all : ∀ c ∈ returns, c = '\r') :
    EndsLine (returns ++ rest) := by
  have within : ∀ c ∈ returns, (c != '\n') = true := fun c member => by
    rw [all c member]
    rfl
  unfold EndsLine
  rw [List.takeWhile_append_of_pos within, List.forall_mem_append]
  exact ⟨all, ends⟩

theorem EndsLine.return_of_parts (ends : EndsLine text) (parts : text = line ++ c :: rest) (whole : '\n' ∉ line)
    (other : c ≠ '\n') : c = '\r' := by
  apply ends
  rw [Text.mem_takeWhile_iff]
  refine ⟨line, rest, parts, ?_⟩
  rw [List.forall_mem_append, List.forall_mem_singleton]
  exact ⟨fun d member => bne_iff_ne.2 (ne_of_mem_of_not_mem member whole), bne_iff_ne.2 other⟩

/- Nothing is enclosed in the end of a line. -/
theorem Bracket.inside_of_endsLine {b : Bracket} (closing : b.closing ≠ '\n' ∧ b.closing ≠ '\r') (ends : EndsLine text)
    (depth : Nat) (quote : Option Char) : b.insideFrom? depth quote text = none := by
  rw [Option.eq_none_iff_forall_not_mem]
  intro inside found
  obtain ⟨after, parts⟩ := eq_append found
  exact closing.2 (ends.return_of_parts parts (whole_of_inside found) closing.1)

theorem linkInside_of_endsLine (ends : EndsLine text) (depth : Nat) : linkInsideFrom? depth text = none := by
  rw [Option.eq_none_iff_forall_not_mem]
  intro inside found
  obtain ⟨after, parts⟩ := eq_of_linkInside found
  exact absurd (ends.return_of_parts parts (whole_of_linkInside found) (by decide)) (by decide)

/- So what is enclosed does not depend on what comes behind the line. -/
theorem Bracket.inside_append {b : Bracket} (closing : b.closing ≠ '\n' ∧ b.closing ≠ '\r') (ends : EndsLine rest)
    (depth : Nat) (quote : Option Char) (line : List Char) :
    b.insideFrom? depth quote (line ++ rest) = b.insideFrom? depth quote line := by
  induction line generalizing depth quote with
  | nil => exact inside_of_endsLine closing ends depth quote
  | cons c line ih =>
    rw [List.cons_append]
    rcases insideFrom?_cons b depth quote c with fails | stops | ⟨depth', quote', onward⟩
    · rw [fails, fails]
    · rw [stops, stops]
    · rw [onward, onward, ih]

theorem head_append (ends : EndsLine rest) (other : c ≠ '\n') (other' : c ≠ '\r') :
    (line ++ rest).head? = some c ↔ line.head? = some c := by
  cases line with
  | cons d line => exact Iff.rfl
  | nil =>
    refine iff_of_false ?_ nofun
    intro first
    obtain ⟨after, parts⟩ := List.head?_eq_some_iff.1 first
    have parts : rest = [] ++ c :: after := parts
    exact other' (ends.return_of_parts parts List.not_mem_nil other)

theorem linkInside_append (ends : EndsLine rest) (depth : Nat) (line : List Char) :
    linkInsideFrom? depth (line ++ rest) = linkInsideFrom? depth line := by
  induction line generalizing depth with
  | nil => exact linkInside_of_endsLine ends depth
  | cons c line ih =>
    have closes : (line ++ rest).head? = some ']' ↔ line.head? = some ']' :=
      head_append ends (by decide) (by decide)
    simp only [List.cons_append, linkInsideFrom?_cons, ih, closes]

theorem marked_append (ends : EndsLine rest) : actionMark <+: lower (line ++ rest) ↔ actionMark <+: lower line := by
  have split : lower (line ++ rest) = lower line ++ lower rest := List.map_append
  refine ⟨fun starts => ?_, fun starts => split ▸ starts.trans (List.prefix_append _ _)⟩
  cases rest with
  | nil => rwa [List.append_nil] at starts
  | cons c rest =>
    rw [split] at starts
    have first : c = '\n' ∨ c = '\r' := by
      by_cases other : c = '\n'
      · exact .inl other
      · exact .inr (ends.return_of_parts (List.nil_append _).symm List.not_mem_nil other)
    rcases first with rfl | rfl
    · exact prefix_before starts (by decide)
    · exact prefix_before starts (by decide)

theorem actionInside_append (ends : EndsLine rest) (line : List Char) :
    actionInside? '[' (line ++ rest) = actionInside? '[' line := by
  have marked : (Text.afterLetters actionMark (line ++ rest)).isSome =
      (Text.afterLetters actionMark line).isSome :=
    Bool.eq_iff_iff.2 (marked_iff.trans ((marked_append ends).trans marked_iff.symm))
  rw [actionInside?, actionInside?, marked, Bracket.inside?, Bracket.inside?,
    Bracket.inside_append (by decide) ends]

/- What a line begins with does not depend on what comes behind it. -/
theorem firstSpan_append (ends : EndsLine rest) (feed : c ≠ '\n') (ret : c ≠ '\r') :
    firstSpan c (line ++ rest) = firstSpan c line := by
  by_cases parenthesis : c = '('
  · subst parenthesis
    rw [firstSpan_round, firstSpan_round, Bracket.inside?, Bracket.inside?, Bracket.inside_append (by decide) ends]
  by_cases opens : c = '['
  · subst opens
    by_cases link : line.head? = some '['
    · obtain ⟨line, rfl⟩ := List.head?_eq_some_iff.1 link
      rw [List.cons_append, firstSpan_link, firstSpan_link, linkSpan, linkSpan, linkInside?, linkInside?,
        linkInside_append ends]
    · have link' : (line ++ rest).head? ≠ some '[' := mt (head_append ends (by decide) (by decide)).1 link
      rw [firstSpan_action link, firstSpan_action link', actionInside_append ends]
  · rw [firstSpan_letter feed ret opens parenthesis, firstSpan_letter feed ret opens parenthesis]

theorem opens_of_findings (found : (firstSpan c cs).findings ≠ []) : c = '[' ∨ c = '(' := by
  by_contra other
  rw [not_or] at other
  refine found ?_
  unfold firstSpan
  split
  · rfl
  · rfl
  · exact absurd rfl other.1
  · exact absurd rfl other.2
  · rw [actionInside?, if_neg (by simp [other.1])]
    rfl

/- A span is a line break, or stands on one line. -/
theorem firstSpan_stretch (c : Char) (cs : List Char) :
    (∃ front later, c :: cs = front ++ '\n' :: later ∧ (front = [] ∨ front = ['\r']) ∧
        firstSpan c cs = ⟨.lineBreak, front.length, []⟩) ∨
      ∃ enclosed later, cs = enclosed ++ later ∧ (firstSpan c cs).more = enclosed.length ∧
        '\n' ∉ c :: enclosed ∧ (firstSpan c cs).piece ≠ .lineBreak := by
  rcases firstSpan_cases c cs with ⟨other, findings, letter⟩ | breaks | ⟨markup, enclosed, later, encloses⟩
  · refine .inr ⟨[], cs, rfl, ?_, ?_, ?_⟩
    · rw [letter]
      rfl
    · exact fun member => other (List.mem_singleton.1 member).symm
    · rw [letter]
      exact nofun
  · exact .inl breaks
  · refine .inr ⟨enclosed, later, encloses.parts, encloses.more, encloses.whole, ?_⟩
    intro breaks
    rw [breaks] at markup
    cases markup

end Markup

namespace Text

open Markup (EndsLine)

variable {line cs text after : List Char}

/- Text that is no line feed is met as it is. -/
theorem Loosely.split (loosely : Loosely (line ++ cs) text) (whole : '\n' ∉ line) :
    ∃ later, text = line ++ later ∧ Loosely cs later := by
  induction line generalizing text with
  | nil => exact ⟨text, rfl, loosely⟩
  | cons c rest ih =>
    generalize all : c :: rest ++ cs = all at loosely
    cases loosely with
    | ends => cases all
    | letter other later =>
      obtain ⟨rfl, rfl⟩ := List.cons.inj all
      obtain ⟨behind, rfl, loosely⟩ := ih later (List.not_mem_of_not_mem_cons whole)
      exact ⟨behind, rfl, loosely⟩
    | feed ends later =>
      obtain ⟨rfl, -⟩ := List.cons.inj all
      exact absurd List.mem_cons_self whole

/- Text up to a line feed is met with one line feed at its end, which may stand behind carriage returns. -/
theorem Loosely.fed (loosely : Loosely (line ++ '\n' :: cs) text) (whole : '\n' ∉ line) :
    ∃ met later, text = met ++ later ∧ met.count '\n' = 1 ∧ Loosely cs later := by
  obtain ⟨rest, rfl, feed⟩ := loosely.split whole
  cases feed with
  | letter other => exact absurd rfl other
  | feed ends later =>
    rename_i returns text
    have plain : '\n' ∉ returns := fun member => absurd (ends _ member) (by decide)
    refine ⟨line ++ (returns ++ ['\n']), text, by simp, ?_, later⟩
    simp [List.count_append, List.count_eq_zero.2 whole, List.count_eq_zero.2 plain]

/- The first line is the same in both, up to its end. -/
theorem Loosely.first_line (loosely : Loosely cs text) (ends : EndsLine after) : ∃ line rest rest',
    cs = line ++ rest ∧ text ++ after = line ++ rest' ∧ EndsLine rest ∧ EndsLine rest' := by
  induction loosely with
  | ends all => exact ⟨[], [], _, rfl, rfl, List.forall_mem_nil _, ends.returns all⟩
  | letter other later ih =>
    obtain ⟨line, rest, rest', parts, parts', ends⟩ := ih
    exact ⟨_ :: line, rest, rest', congrArg _ parts, congrArg _ parts', ends⟩
  | feed all later ih =>
    have fed : ∀ {text : List Char}, EndsLine ('\n' :: text) := Markup.endsLine_of_head fun c first =>
      (Option.some.inj first).symm
    exact ⟨[], _, _, rfl, List.append_assoc _ _ _, fed, fed.returns all⟩

end Text

namespace Markup

open Text (Loosely)

/- So the same is read at both. -/
theorem firstSpan_loosely {c : Char} {cs text after : List Char} (loosely : Loosely cs text) (ends : EndsLine after)
    (feed : c ≠ '\n') (ret : c ≠ '\r') : firstSpan c (text ++ after) = firstSpan c cs := by
  obtain ⟨line, rest, rest', rfl, parts, ends, ends'⟩ := loosely.first_line ends
  rw [parts, firstSpan_append ends feed ret, firstSpan_append ends' feed ret]

/-- A spot in a text: what stands before it, the character that stands there, and what comes behind. -/
structure Spot where
  before : List Char
  first : Char
  after : List Char

namespace Spot

def text (spot : Spot) : List Char := spot.before ++ spot.first :: spot.after

/-- The line of a spot. The first line is 1, and every line feed begins one more. -/
def line (spot : Spot) : Nat := spot.before.count '\n' + 1

/-- What is found wrong with what begins at a spot, reported at the line of the spot. -/
def diagnostics (spot : Spot) : List Diagnostic :=
  (firstSpan spot.first spot.after).findings.map (·.at spot.line)

end Spot

/-- Spots of the text `before ++ (middle ++ after)` that stand in its middle, one behind the other, at each of
which something is found wrong. -/
structure Spread (before middle after : List Char) (spots : List Spot) : Prop where
  text : ∀ spot ∈ spots, spot.text = before ++ (middle ++ after)
  within : ∀ spot ∈ spots, ∃ passed left, spot.before = before ++ passed ∧ middle = passed ++ spot.first :: left
  ascending : spots.Pairwise (·.before.length < ·.before.length)
  found : ∀ spot ∈ spots, spot.diagnostics ≠ []

section Spread

variable {before middle after chunk : List Char} {spots : List Spot}

theorem Spread.nil : Spread before middle after [] :=
  ⟨List.forall_mem_nil _, List.forall_mem_nil _, .nil, List.forall_mem_nil _⟩

theorem Spread.passed (spread : Spread (before ++ chunk) middle after spots) :
    Spread before (chunk ++ middle) after spots := by
  refine ⟨?_, ?_, spread.ascending, spread.found⟩
  · intro spot member
    rw [spread.text spot member]
    simp only [List.append_assoc]
  · intro spot member
    obtain ⟨passed, left, parts, parts'⟩ := spread.within spot member
    refine ⟨chunk ++ passed, left, ?_, ?_⟩
    · rw [parts, List.append_assoc]
    · rw [parts', List.append_assoc]

theorem Spread.cons {c : Char} (spread : Spread (before ++ c :: chunk) middle after spots)
    (found : (Spot.mk before c (chunk ++ middle ++ after)).diagnostics ≠ []) :
    Spread before (c :: chunk ++ middle) after (⟨before, c, chunk ++ middle ++ after⟩ :: spots) := by
  have later := spread.passed
  refine ⟨List.forall_mem_cons.2 ⟨rfl, later.text⟩, List.forall_mem_cons.2 ⟨?_, later.within⟩,
    List.pairwise_cons.2 ⟨?_, spread.ascending⟩, List.forall_mem_cons.2 ⟨found, spread.found⟩⟩
  · exact ⟨[], chunk ++ middle, (List.append_nil before).symm, rfl⟩
  · intro spot member
    obtain ⟨passed, left, parts, -⟩ := spread.within spot member
    rw [parts]
    simp only [List.length_append, List.length_cons]
    omega

end Spread

/- In front of spots there is one more where the markup that comes first is found fault with. -/
theorem Spread.stretch {c : Char} {before enclosed later middle after : List Char} {spots : List Spot}
    (spread : Spread (before ++ c :: enclosed) middle after spots) (whole : '\n' ∉ enclosed)
    (loosely : Loosely later middle) (ends : EndsLine after) :
    ∃ more, Spread before (c :: enclosed ++ middle) after more ∧ more.flatMap Spot.diagnostics =
      (firstSpan c (enclosed ++ later)).findings.map (·.at (before.count '\n' + 1)) ++
        spots.flatMap Spot.diagnostics := by
  by_cases silent : (firstSpan c (enclosed ++ later)).findings = []
  · refine ⟨spots, spread.passed, ?_⟩
    rw [silent]
    rfl
  · have here : firstSpan c (enclosed ++ middle ++ after) = firstSpan c (enclosed ++ later) := by
      rcases opens_of_findings silent with rfl | rfl
      · exact firstSpan_loosely (loosely.letters whole) ends (by decide) (by decide)
      · exact firstSpan_loosely (loosely.letters whole) ends (by decide) (by decide)
    have own : (Spot.mk before c (enclosed ++ middle ++ after)).diagnostics =
        (firstSpan c (enclosed ++ later)).findings.map (·.at (before.count '\n' + 1)) := by
      rw [Spot.diagnostics, here]
      rfl
    refine ⟨_, spread.cons ?_, ?_⟩
    · rw [own]
      exact mt List.map_eq_nil_iff.1 silent
    · rw [List.flatMap_cons, own]

section Line

variable {span : Span} (line : Nat) (rest : List Span)

theorem diagnostics_break (breaks : span.piece = .lineBreak) : diagnosticsFrom line (span :: rest) =
    span.findings.map (·.at line) ++ diagnosticsFrom (line + 1) rest := by
  rw [diagnosticsFrom, breaks]

theorem diagnostics_within (other : span.piece ≠ .lineBreak) : diagnosticsFrom line (span :: rest) =
    span.findings.map (·.at line) ++ diagnosticsFrom line rest := by
  rw [diagnosticsFrom]
  split
  · contradiction
  · rfl

end Line

/- What is found wrong with a text is found wrong in the text around it, at the line of the spot where the span
begins. By induction on the spans: behind each of them, the line is that of what has been passed. -/
theorem diagnostics_spread {cs middle after : List Char} (before : List Char) (loosely : Loosely cs middle)
    (ends : EndsLine after) : ∃ spots, Spread before middle after spots ∧
      diagnosticsFrom (before.count '\n' + 1) (spans cs) = spots.flatMap Spot.diagnostics := by
  fun_induction spans cs generalizing before middle with
  | case1 => exact ⟨[], .nil, rfl⟩
  | case2 c cs span =>
    rename_i ih
    rcases firstSpan_stretch c cs with ⟨front, later, parts, front', breaks⟩ |
      ⟨enclosed, later, rfl, more, whole, other⟩
    · have whole : '\n' ∉ front := by
        rcases front' with rfl | rfl <;> decide
      have left : cs.drop span.more = later := by
        have more : span.more + 1 = (front ++ ['\n']).length := by
          rw [List.length_append]
          exact congrArg (Span.more · + 1) breaks
        rw [← List.drop_succ_cons, parts, List.append_cons, more, List.drop_left]
      rw [parts] at loosely
      obtain ⟨met, middle, rfl, counted, behind⟩ := loosely.fed whole
      rw [left] at ih ⊢
      obtain ⟨spots, spread, findings⟩ := ih (before ++ met) behind
      refine ⟨spots, spread.passed, ?_⟩
      rw [diagnostics_break _ _ (congrArg Span.piece breaks), ← findings, List.count_append, counted, breaks]
      rfl
    · have loosely : Loosely ((c :: enclosed) ++ later) middle := loosely
      obtain ⟨middle, rfl, behind⟩ := loosely.split whole
      have left : (enclosed ++ later).drop span.more = later := List.drop_left' more.symm
      rw [left] at ih ⊢
      obtain ⟨spots, spread, findings⟩ := ih (before ++ c :: enclosed) behind
      have counted : (before ++ c :: enclosed).count '\n' = before.count '\n' := by
        rw [List.count_append, List.count_eq_zero.2 whole, Nat.add_zero]
      obtain ⟨all, spread, told⟩ := spread.stretch (List.not_mem_of_not_mem_cons whole) behind ends
      refine ⟨all, spread, ?_⟩
      rw [diagnostics_within _ _ other, ← counted, findings, counted, told]

end Markup

namespace Passage

open Markup

variable {source : String} {passage : Passage}

/- The next header stands behind all that a passage holds. -/
theorem StandsIn.next {lines before body after before' rest : List (List Char)} {header header' : List Char}
    (stands : StandsIn lines before header body after) (parts : lines = before' ++ header' :: rest)
    (begins : Passage.isHeader header' = true) (behind : before.length < before'.length) :
    before.length + body.length < before'.length := by
  by_contra within
  obtain ⟨k, place⟩ := Nat.exists_eq_add_of_lt behind
  have short : k < body.length := by omega
  have here : lines[before'.length]? = some header' := by
    rw [parts, List.getElem?_append_right (Nat.le_refl _), Nat.sub_self]
    rfl
  have held : lines[before'.length]? = some body[k] := by
    have passed : before.length + k + 1 - before.length = k + 1 := by omega
    rw [stands.parts, place, List.getElem?_append_right (by omega), passed, List.getElem?_cons_succ,
      List.getElem?_append_left short, List.getElem?_eq_getElem short]
  have plain := stands.body _ (List.getElem_mem short)
  rw [← Option.some.inj (here.symm.trans held), begins] at plain
  cases plain

/-- The content of a passage stands in the middle of the script, but for carriage returns at the ends of its lines. It
begins on the line that the passage names for it and ends above the next passage. -/
structure Occupies (source : String) (passage : Passage) (before middle after : List Char) : Prop where
  parts : source.toList = before ++ (middle ++ after)
  content : Text.Loosely passage.content.toList middle
  ends : EndsLine after
  first : passage.contentLine = before.count '\n' + 1
  behind : passage.line < passage.contentLine
  above : ∀ other ∈ (split source).passages, passage.line < other.line →
    before.count '\n' + middle.count '\n' + 1 < other.line

theorem occupies_of_passage (member : passage ∈ (split source).passages) (some : passage.content ≠ "") :
    ∃ before middle after, Occupies source passage before middle after := by
  obtain ⟨part, listed, rfl⟩ := mem_passages_split member
  obtain ⟨front, rest, stands, numbered⟩ := sections_stand listed
  obtain ⟨blanks, kept, others, keeps⟩ := keeps_ofSection part
  have number := line_ofSection part
  have some_line : kept ≠ [] := by
    rintro rfl
    exact some keeps.content
  have spelled := Text.spelled_lines source.toList
  have lines : Text.lines source.toList =
      (front ++ part.header :: blanks) ++ (kept ++ (others ++ rest)) := by
    rw [stands.parts, keeps.parts]
    simp
  rw [lines] at spelled
  obtain ⟨before, text, parts, passed, spelled⟩ := spelled.behind (List.append_ne_nil_of_left_ne_nil some_line _)
  obtain ⟨middle, after, rfl, loosely, fed, stops⟩ := spelled.joined some_line
  have first := keeps.contentLine
  simp only [List.length_append, List.length_cons] at passed
  refine ⟨before, middle, after, parts, ?_, endsLine_of_head stops, by omega, by omega, ?_⟩
  · rwa [keeps.content, String.toList_ofList]
  · intro other listed' later
    obtain ⟨part', made, rfl⟩ := mem_passages_split listed'
    obtain ⟨front', rest', stands', numbered'⟩ := sections_stand made
    have number' := line_ofSection part'
    have next := stands.next stands'.parts stands'.isHeader (by omega)
    rw [keeps.parts, List.length_append, List.length_append] at next
    omega

/- What is found wrong with the content of a passage is found at spots of the script, on lines that are the passage's
own. -/
theorem spots_of_passage (member : passage ∈ (split source).passages) : ∃ before middle after spots,
    source.toList = before ++ (middle ++ after) ∧ Spread before middle after spots ∧
      (Body.read passage.content passage.contentLine).warnings = spots.flatMap Spot.diagnostics ∧
      ∀ spot ∈ spots, passage.line < spot.line ∧
        ∀ other ∈ (split source).passages, other.line ≤ spot.line → other.line ≤ passage.line := by
  by_cases none : passage.content = ""
  · refine ⟨source.toList, [], [], [], by simp, .nil, ?_, List.forall_mem_nil _⟩
    rw [none, Body.read, String.toList_empty, spans]
    rfl
  · obtain ⟨before, middle, after, occupies⟩ := occupies_of_passage member none
    obtain ⟨spots, spread, findings⟩ := diagnostics_spread before occupies.content occupies.ends
    have first := occupies.first
    have behind := occupies.behind
    refine ⟨before, middle, after, spots, occupies.parts, spread, ?_, ?_⟩
    · rw [Body.read, first]
      exact findings
    · intro spot inside
      obtain ⟨passed, left, own, parts⟩ := spread.within spot inside
      have line : spot.line = before.count '\n' + passed.count '\n' + 1 := by
        rw [Spot.line, own, List.count_append]
      have few : passed.count '\n' ≤ middle.count '\n' := by
        rw [parts, List.count_append]
        exact Nat.le_add_right _ _
      refine ⟨by omega, fun other listed below => ?_⟩
      by_contra later
      have above := occupies.above other listed (by omega)
      omega

end Passage

namespace Compile.Draft

theorem warnings_foldl (draft : Draft) (passages : List Passage) :
    draft.warnings <+: (passages.foldl readPassage draft).warnings := by
  induction passages generalizing draft with
  | nil => exact List.prefix_rfl
  | cons passage rest ih =>
    obtain ⟨found, added, -⟩ := draft.warnings_readPassage passage
    exact List.IsPrefix.trans ⟨found, added.symm⟩ (ih _)

end Compile.Draft

namespace RoundPassage

open Markup

variable {source : String} {e : RoundPassage}

/- The warnings of a body are taken over as they are. -/
theorem warnings_taken (listed : e ∈ Passage.rounds source) : e.body.warnings <:+: (compile source).warnings := by
  obtain ⟨passage, member, read⟩ := List.mem_filterMap.1 listed
  obtain ⟨before, after, parts⟩ := List.append_of_mem member
  have taken : ∀ draft : Compile.Draft,
      e.body.warnings <:+: ((Passage.split source).passages.foldl Compile.Draft.readPassage draft).warnings := by
    intro draft
    rw [parts, List.foldl_append, List.foldl_cons]
    generalize before.foldl Compile.Draft.readPassage draft = draft
    have own : e.body.warnings <:+ (draft.readPassage passage).warnings := by
      rw [Compile.Draft.readPassage_of_round read, Compile.Draft.warnings_keepRound]
      exact List.suffix_append _ _
    exact own.isInfix.trans (Compile.Draft.warnings_foldl _ after).isInfix
  exact (taken _).trans (List.prefix_append _ _).isInfix

/-- Spots of the script at which something is found wrong with the markup of a round passage, in their order. The
warnings of the body are what is found there, each at the line of its spot. -/
structure Located (source : String) (e : RoundPassage) (spots : List Spot) : Prop where
  text : ∀ spot ∈ spots, spot.text = source.toList
  ascending : spots.Pairwise (·.before.length < ·.before.length)
  /-- A spot is on a line of the passage. -/
  within : ∀ spot ∈ spots, e.passage.line < spot.line ∧
    ∀ other ∈ (Passage.split source).passages, other.line ≤ spot.line → other.line ≤ e.passage.line
  opens : ∀ spot ∈ spots, spot.first = '[' ∨ spot.first = '('
  found : ∀ spot ∈ spots, spot.diagnostics ≠ []
  warnings : e.body.warnings = spots.flatMap Spot.diagnostics

/- The warnings that are taken over from a body point at the lines of the script on which the markup starts. -/
theorem warnings_located (listed : e ∈ Passage.rounds source) :
    e.body.warnings <:+: (compile source).warnings ∧ ∃ spots, e.Located source spots := by
  refine ⟨warnings_taken listed, ?_⟩
  obtain ⟨passage, member, read⟩ := List.mem_filterMap.1 listed
  obtain ⟨rfl, -⟩ := Passage.passage_of_asRound? read
  obtain ⟨before, middle, after, spots, parts, spread, warnings, within⟩ := Passage.spots_of_passage member
  refine ⟨spots, ?_, spread.ascending, within, ?_, spread.found, warnings⟩
  · intro spot inside
    rw [spread.text spot inside, parts]
  · intro spot inside
    exact opens_of_findings (mt List.map_eq_nil_iff.2 (spread.found spot inside))

/-- A script with carriage returns, text in front, an earlier passage, and blank lines before the markup. -/
def straying : String :=
  "stray\r\n:: Mara-Round-1 [a]\r\nHi\r\n\r\n:: Mara-Round-2 [a]\r\n \r\n\r\n" ++
    "Hi (unless: $x)\r\n[Action: dance]\r\nA [[lost\r\n\r\n"

theorem warnings_located_straying : ∃ e ∈ Passage.rounds straying,
    e.body.warnings = [(Finding.unsupportedMacro "unless").at 8, (Finding.unknownAction "dance").at 9,
        Finding.unterminatedLink.at 10] ∧
      e.body.warnings <:+: (compile straying).warnings ∧ ∃ spots, e.Located straying spots := by
  have told : (Passage.rounds straying)[1]?.map (·.body.warnings) =
      some [(Finding.unsupportedMacro "unless").at 8, (Finding.unknownAction "dance").at 9,
        Finding.unterminatedLink.at 10] := by
    decide +kernel
  obtain ⟨e, second, told⟩ := Option.map_eq_some_iff.1 told
  exact ⟨e, List.mem_of_getElem? second, told, warnings_located (List.mem_of_getElem? second)⟩

end RoundPassage

end ChatStory
