import ChatStory.Proofs.Assembly
import ChatStory.Proofs.Lines
import Mathlib.Data.List.DropRight
import Mathlib.Data.List.Nodup

/-!
How a script is divided. Every header begins a passage, which reaches up to the next header or to the end of the
script; no line gets lost between two passages, and none is in both.
-/
namespace ChatStory.Passage

open Text (isBlankText)

variable {first : Nat} {lines before body after : List (List Char)} {header text : List Char}

/-- A header on its line, among the lines of a text that are counted from `first`, and what stands behind it
up to the next header or the end. -/
structure StandsIn (lines before : List (List Char)) (header : List Char)
    (body after : List (List Char)) : Prop where
  parts : lines = before ++ header :: (body ++ after)
  isHeader : isHeader header = true
  body : ∀ text ∈ body, Passage.isHeader text = false
  ends : ∀ text ∈ after.head?, Passage.isHeader text = true

theorem front_sections (first : Nat) (lines : List (List Char)) :
    (sections first lines).1 = lines.takeWhile (!isHeader ·) := by
  induction lines generalizing first with
  | nil => rfl
  | cons text rest ih =>
    rw [List.takeWhile_cons, sections, ← ih (first + 1)]
    cases isHeader text <;> rfl

/- The lines up to the first header, and what begins with it. -/
theorem parts_at_header (lines : List (List Char)) :
    lines = lines.takeWhile (!isHeader ·) ++ lines.dropWhile (!isHeader ·) ∧
      (∀ text ∈ lines.takeWhile (!isHeader ·), isHeader text = false) ∧
      ∀ text ∈ (lines.dropWhile (!isHeader ·)).head?, isHeader text = true := by
  refine ⟨List.takeWhile_append_dropWhile.symm, ?_, ?_⟩
  · intro text member
    simpa using List.all_eq_true.1 List.all_takeWhile text member
  · intro text next
    have stops := List.head?_dropWhile_not (!isHeader ·) lines
    rw [Option.mem_def.1 next] at stops
    simpa using stops

/- A section holds all that stands between its header and the next one. By induction on the lines: a line more in
front moves every section by one. -/
theorem sections_stand {part : Section} (member : part ∈ (sections first lines).2) :
    ∃ before after, StandsIn lines before part.header part.body after ∧ part.line = first + before.length := by
  induction lines generalizing first with
  | nil => cases member
  | cons text rest ih =>
    have later : part ∈ (sections (first + 1) rest).2 → ∃ before after,
        StandsIn (text :: rest) before part.header part.body after ∧ part.line = first + before.length := by
      intro member
      obtain ⟨before, after, stands, numbered⟩ := ih member
      refine ⟨text :: before, after, ?_, ?_⟩
      · exact ⟨congrArg (text :: ·) stands.parts, stands.isHeader, stands.body, stands.ends⟩
      · rw [List.length_cons]
        omega
    unfold sections at member
    dsimp only at member
    split at member
    · rename_i begins
      rcases List.mem_cons.1 member with rfl | member
      · obtain ⟨parts, front, ends⟩ := parts_at_header rest
        refine ⟨[], rest.dropWhile (!isHeader ·), ?_, rfl⟩
        rw [front_sections]
        exact ⟨congrArg (text :: ·) parts, begins, front, ends⟩
      · exact later member
    · exact later member

/-- What a passage keeps of the lines behind its header: all but the blank ones at both ends. -/
structure Keeps (passage : Passage) (body blanks kept others : List (List Char)) : Prop where
  parts : body = blanks ++ (kept ++ others)
  blank : ∀ text ∈ blanks ++ others, isBlankText text = true
  first : ∀ text ∈ kept.head?, isBlankText text = false
  last : ∀ text ∈ kept.getLast?, isBlankText text = false
  content : passage.content = String.ofList (['\n'].intercalate kept)
  contentLine : passage.contentLine = passage.line + 1 + blanks.length

theorem blank_of_takeWhile (lines : List (List Char)) :
    ∀ text ∈ lines.takeWhile isBlankText, isBlankText text = true :=
  List.all_eq_true.1 List.all_takeWhile

/- Lines are what is left of them when they are trimmed, with blank lines around it. -/
theorem trimLines_parts (lines : List (List Char)) :
    lines = lines.takeWhile isBlankText ++
        (trimLines lines ++ (lines.dropWhile isBlankText).rtakeWhile isBlankText) ∧
      (∀ text ∈ (trimLines lines).head?, isBlankText text = false) ∧
      ∀ text ∈ (trimLines lines).getLast?, isBlankText text = false := by
  have trimmed : trimLines lines = (lines.dropWhile isBlankText).rdropWhile isBlankText := rfl
  rw [trimmed]
  refine ⟨?_, ?_, ?_⟩
  · rw [List.rdropWhile_append_rtakeWhile, List.takeWhile_append_dropWhile]
  · intro text first
    obtain ⟨rest, parts⟩ := List.rdropWhile_prefix isBlankText (lines.dropWhile isBlankText)
    have stops := List.head?_dropWhile_not isBlankText lines
    rw [← parts, List.head?_append, Option.mem_def.1 first] at stops
    simpa using stops
  · intro text last
    obtain ⟨some, rfl⟩ := List.mem_getLast?_eq_getLast last
    simpa using List.rdropWhile_last_not isBlankText _ some

theorem content_ofSection (part : Section) :
    (ofSection part).passage.content = String.ofList (['\n'].intercalate (trimLines part.body)) ∧
      (ofSection part).passage.contentLine = part.line + 1 + (part.body.takeWhile isBlankText).length := by
  unfold ofSection
  dsimp only
  repeat' split
  all_goals exact ⟨rfl, rfl⟩

theorem keeps_ofSection (part : Section) : ∃ blanks kept others,
    (ofSection part).passage.Keeps part.body blanks kept others := by
  obtain ⟨content, contentLine⟩ := content_ofSection part
  obtain ⟨parts, first, last⟩ := trimLines_parts part.body
  refine ⟨_, trimLines part.body, _, parts, ?_, first, last, content, ?_⟩
  · rw [List.forall_mem_append]
    exact ⟨blank_of_takeWhile part.body, fun text member => List.mem_rtakeWhile_imp member⟩
  · rw [contentLine, line_ofSection]

/- A header that cannot be read leaves an error and a placeholder, and any other one neither. -/
theorem error_ofSection (part : Section) :
    (ofSection part).error.isSome = (ofSection part).passage.placeholder := by
  unfold ofSection
  dsimp only
  repeat' split
  all_goals rfl

theorem warning_ofSection (part : Section) : (ofSection part).warning ≠ some .strayPreamble := by
  unfold ofSection
  dsimp only
  repeat' split
  all_goals simp

/- The errors stand at the lines of the placeholders, one for each, in order. -/
theorem errors_split (source : String) :
    (split source).errors.map (·.line) =
      ((split source).passages.filter (·.placeholder)).map fun passage => some passage.line := by
  unfold split
  dsimp only
  generalize (sections 1 (Text.lines source.toList)).2 = parts
  induction parts with
  | nil => rfl
  | cons part rest ih =>
    have found := error_ofSection part
    rw [List.map_cons, List.map_cons, List.filterMap_cons, List.filter_cons, ← found]
    cases (ofSection part).error with
    | none => exact ih
    | some error => exact congrArg (some (ofSection part).passage.line :: ·) ih

theorem mem_passages_split {source : String} {passage : Passage}
    (member : passage ∈ (split source).passages) :
    ∃ part ∈ (sections 1 (Text.lines source.toList)).2, passage = (ofSection part).passage := by
  obtain ⟨outcome, made, rfl⟩ := List.mem_map.1 member
  obtain ⟨part, listed, rfl⟩ := List.mem_map.1 made
  exact ⟨part, listed, rfl⟩

theorem lines_nodup (source : String) : ((split source).passages.map (·.line)).Nodup :=
  lines_split source ▸ List.nodup_findIdxs

/- Since no two passages stand at one line, the errors at the line of a passage are its own. -/
theorem errors_at_line {source : String} {passage : Passage} (member : passage ∈ (split source).passages) :
    passage.placeholder = true ↔
      ((split source).errors.filter (·.line == some passage.line)).length = 1 := by
  have distinct := lines_nodup source
  have counted : ((split source).errors.filter (·.line == some passage.line)).length =
      (((split source).passages.filter (·.placeholder)).map (·.line)).count passage.line := by
    calc ((split source).errors.filter (·.line == some passage.line)).length
      _ = (split source).errors.countP (·.line == some passage.line) := List.countP_eq_length_filter.symm
      _ = ((split source).errors.map (·.line)).count (some passage.line) := by
        rw [List.count, List.countP_map]
        rfl
      _ = ((((split source).passages.filter (·.placeholder)).map (·.line)).map some).count (some passage.line) := by
        rw [errors_split, List.map_map]
        rfl
      _ = _ := List.count_map_of_injective _ some (fun _ _ => Option.some.inj) passage.line
  have once : (((split source).passages.filter (·.placeholder)).map (·.line)).Nodup :=
    distinct.sublist (List.filter_sublist.map _)
  rw [counted, once.count]
  have own : passage.line ∈ ((split source).passages.filter (·.placeholder)).map (·.line) ↔
      passage.placeholder = true := by
    constructor
    · intro listed
      obtain ⟨other, found, same⟩ := List.mem_map.1 listed
      obtain ⟨held, marked⟩ := List.mem_filter.1 found
      rwa [← List.inj_on_of_nodup_map distinct held member same]
    · intro marked
      exact List.mem_map_of_mem (List.mem_filter.2 ⟨member, marked⟩)
  rw [← own]
  split
  · rename_i listed
    exact iff_of_true listed rfl
  · rename_i absent
    exact iff_of_false absent (by decide)

/- The warning of a stray preamble is given exactly if something stands before the first header. -/
theorem preamble_split (source : String) :
    (∃ warning ∈ (split source).warnings, warning.finding = .strayPreamble) ↔
      ∃ before text after, Text.lines source.toList = before ++ text :: after ∧
        (∀ other ∈ before ++ [text], isHeader other = false) ∧ isBlankText text = false := by
  have headed : ¬∃ warning ∈ ((sections 1 (Text.lines source.toList)).2.map ofSection).filterMap
      (fun outcome => outcome.warning.map (·.at outcome.passage.line)), warning.finding = .strayPreamble := by
    rintro ⟨warning, member, stray⟩
    obtain ⟨outcome, made, found⟩ := List.mem_filterMap.1 member
    obtain ⟨part, -, rfl⟩ := List.mem_map.1 made
    obtain ⟨finding, cause, rfl⟩ := Option.map_eq_some_iff.1 found
    exact warning_ofSection part (cause.trans (congrArg some stray))
  have front : (∃ text ∈ (Text.lines source.toList).takeWhile (!isHeader ·), isBlankText text = false) ↔
      ∃ before text after, Text.lines source.toList = before ++ text :: after ∧
        (∀ other ∈ before ++ [text], isHeader other = false) ∧ isBlankText text = false := by
    simp only [Text.mem_takeWhile_iff, Bool.not_eq_true']
    grind
  rw [← front, ← front_sections 1]
  unfold split
  dsimp only
  simp only [List.mem_append, or_and_right, exists_or]
  rw [or_iff_right headed]
  split
  · rename_i blank
    refine iff_of_false (by simp) ?_
    rintro ⟨text, member, seen⟩
    rw [List.all_eq_true.1 blank text member] at seen
    cases seen
  · rename_i seen
    refine iff_of_true ⟨_, List.mem_singleton_self _, rfl⟩ ?_
    simpa using seen

/-- The passages of a script share its lines among them. -/
structure Script.Partitions (script : Script) (lines : List (List Char)) : Prop where
  /-- Each header begins a passage, at its own line. -/
  headers : script.passages.map (·.line) = lines.findIdxs isHeader 1
  /-- A passage reaches to the next header or to the end, and keeps all but the blank lines at both ends. -/
  passages : ∀ passage ∈ script.passages, ∃ before header body after,
    StandsIn lines before header body after ∧ passage.line = before.length + 1 ∧
      ∃ blanks kept others, passage.Keeps body blanks kept others
  /-- A passage is made up exactly if one error, and no more, is reported at its line. -/
  placeholders : ∀ passage ∈ script.passages, passage.placeholder = true ↔
    (script.errors.filter (·.line == some passage.line)).length = 1
  /-- What stands before the first header is warned of, unless it is blank. -/
  preamble : (∃ warning ∈ script.warnings, warning.finding = .strayPreamble) ↔
    ∃ before text after, lines = before ++ text :: after ∧
      (∀ other ∈ before ++ [text], isHeader other = false) ∧ isBlankText text = false

/- A script is partitioned into its passages, and its lines are all of its text but the line ends. -/
theorem partitioned_split (source : String) :
    Text.Spelled (Text.lines source.toList) source.toList ∧
      (split source).Partitions (Text.lines source.toList) := by
  refine ⟨Text.spelled_lines source.toList, ?_⟩
  constructor
  case headers =>
    exact lines_split source
  case passages =>
    intro passage member
    obtain ⟨part, listed, rfl⟩ := mem_passages_split member
    obtain ⟨before, after, stands, numbered⟩ := sections_stand listed
    refine ⟨before, part.header, part.body, after, stands, ?_, keeps_ofSection part⟩
    rw [line_ofSection, numbered]
    exact Nat.add_comm 1 before.length
  case placeholders =>
    exact fun passage member => errors_at_line member
  case preamble =>
    exact preamble_split source

end ChatStory.Passage
