import ChatStory.Proofs.Program
import Mathlib.Data.List.Basic
import Mathlib.Data.List.Induction

/-!
What a program is put together from. Some passages of a script are read as rounds; the first one under a
title gives the round of the program, later ones are reported, and each of them may unlock its contact.
-/
namespace ChatStory

/-- A passage that is read as a round, and what its title says. -/
structure RoundPassage where
  passage : Passage
  title : RoundTitle

theorem eraseDups_concat {α : Type} [DecidableEq α] (xs : List α) (x : α) :
    (xs ++ [x]).eraseDups = if x ∈ xs then xs.eraseDups else xs.eraseDups ++ [x] := by
  rw [List.eraseDups_append, List.removeAll]
  split
  · rename_i old
    simp [old]
  · rename_i new
    simp [new, List.eraseDups_cons]

namespace Passage

/-- A passage is read as a round if its header could be read and has a tag list and the title of a round,
unless it is one of those that set the initial variables. -/
def asRound? (passage : Passage) : Option RoundPassage :=
  if passage.placeholder || Compile.setsDefaults passage || passage.isAbout then none
  else (RoundTitle.read? passage.title).map (⟨passage, ·⟩)

/-- The passages of a script that are read as rounds, in the order in which they stand there. -/
def rounds (source : String) : List RoundPassage := (split source).passages.filterMap asRound?

end Passage

namespace RoundPassage

def contact (e : RoundPassage) : String := e.title.contact

def unlocks (e : RoundPassage) : Bool := e.passage.hasTag "initial_contact"

def body (e : RoundPassage) : Markup.Body := Markup.Body.read e.passage.content e.passage.contentLine

/-- The round that the passage is read as, when the bodies before have left the variables so. -/
def round (e : RoundPassage) (values : Variables) : Round where
  key := e.title.key
  title := e.passage.title
  text := (evaluate e.body.fragments values).1.text
  choices := (evaluate e.body.fragments values).1.choices
  actions := (evaluate e.body.fragments values).1.actions
  content := e.passage.content
  body := e.body.fragments
  condition := if e.title.key.isConditional then openingCondition? e.body.fragments else none

/-- The variables as the bodies leave them. -/
def leave (values : Variables) (rounds : List RoundPassage) : Variables :=
  rounds.foldl (fun values e => (evaluate e.body.fragments values).2) values

def report (e : RoundPassage) : Diagnostic :=
  (Finding.duplicateRound e.title.key e.contact).at e.passage.line

/-- The first of the rounds that has the title, and those before it. -/
def FirstWith (rounds : List RoundPassage) (title : RoundTitle) (before : List RoundPassage)
    (e : RoundPassage) : Prop :=
  (∃ after, rounds = before ++ e :: after) ∧ e.title = title ∧ ∀ other ∈ before, other.title ≠ title

/-- Those that repeat the title of an earlier one, after others with the titles in `seen`. -/
def repeated (seen : List RoundTitle) : List RoundPassage → List RoundPassage
  | [] => []
  | e :: rest => if e.title ∈ seen then e :: repeated seen rest else repeated (e.title :: seen) rest

variable {rounds before : List RoundPassage} {title : RoundTitle} {e last : RoundPassage}

theorem firstWith_append : FirstWith (rounds ++ [last]) title before e ↔
    FirstWith rounds title before e ∨
      (before = rounds ∧ e = last ∧ last.title = title ∧ ∀ other ∈ rounds, other.title ≠ title) := by
  constructor
  · rintro ⟨⟨after, parts⟩, titled, fresh⟩
    rcases List.append_eq_append_iff.1 parts with ⟨more, longer, ends⟩ | ⟨more, shorter, ends⟩
    · rcases List.append_eq_singleton_iff.1 ends.symm with ⟨none, ends⟩ | ⟨_, none⟩
      · obtain ⟨rfl, -⟩ := List.cons.inj ends
        rw [none, List.append_nil] at longer
        subst longer
        exact .inr ⟨rfl, rfl, titled, fresh⟩
      · cases none
    · cases more with
      | nil =>
        rw [List.append_nil] at shorter
        obtain ⟨rfl, -⟩ := List.cons.inj ends
        subst shorter
        exact .inr ⟨rfl, rfl, titled, fresh⟩
      | cons first more =>
        obtain ⟨rfl, -⟩ := List.cons.inj ends
        exact .inl ⟨⟨more, shorter⟩, titled, fresh⟩
  · rintro (⟨⟨after, parts⟩, titled, fresh⟩ | ⟨rfl, rfl, titled, fresh⟩)
    · refine ⟨⟨after ++ [last], ?_⟩, titled, fresh⟩
      rw [parts, List.append_assoc, List.cons_append]
    · exact ⟨⟨[], rfl⟩, titled, fresh⟩

/- Where a title occurs, it occurs for a first time. -/
theorem exists_firstWith_iff :
    (∃ before e, FirstWith rounds title before e) ↔ title ∈ rounds.map (·.title) := by
  constructor
  · rintro ⟨before, e, ⟨after, parts⟩, titled, _⟩
    rw [parts, ← titled]
    exact List.mem_map_of_mem (List.mem_append_right before List.mem_cons_self)
  · intro member
    induction rounds with
    | nil => cases member
    | cons first rest ih =>
      by_cases here : first.title = title
      · exact ⟨[], first, ⟨rest, rfl⟩, here, List.forall_mem_nil _⟩
      · rw [List.map_cons, List.mem_cons] at member
        obtain ⟨before, e, ⟨after, parts⟩, titled, fresh⟩ := ih (member.resolve_left (Ne.symm here))
        refine ⟨first :: before, e, ⟨after, ?_⟩, titled, List.forall_mem_cons.2 ⟨here, fresh⟩⟩
        rw [parts, List.cons_append]

/- It does not matter how often a title has been seen. -/
theorem repeated_congr {seen others : List RoundTitle} (same : ∀ title, title ∈ seen ↔ title ∈ others)
    (rounds : List RoundPassage) : repeated seen rounds = repeated others rounds := by
  induction rounds generalizing seen others with
  | nil => rfl
  | cons e rest ih =>
    have next : ∀ title, title ∈ e.title :: seen ↔ title ∈ e.title :: others := fun title => by
      rw [List.mem_cons, List.mem_cons, same]
    rw [repeated, repeated, ih same, ih next]
    simp only [same]

theorem repeated_append (seen : List RoundTitle) (rounds more : List RoundPassage) :
    repeated seen (rounds ++ more) =
      repeated seen rounds ++ repeated (seen ++ rounds.map (·.title)) more := by
  induction rounds generalizing seen with
  | nil => rw [List.map_nil, List.append_nil]; rfl
  | cons e rest ih =>
    rw [List.cons_append, repeated, repeated, List.map_cons]
    split
    · rename_i old
      have same : ∀ title, title ∈ seen ++ rest.map (·.title) ↔
          title ∈ seen ++ e.title :: rest.map (·.title) := by
        grind
      rw [ih, List.cons_append, repeated_congr same]
    · have same : ∀ title, title ∈ e.title :: seen ++ rest.map (·.title) ↔
          title ∈ seen ++ e.title :: rest.map (·.title) := by
        grind
      rw [ih, repeated_congr same]

theorem repeated_singleton (seen : List RoundTitle) (e : RoundPassage) :
    repeated seen [e] = if e.title ∈ seen then [e] else [] := rfl

theorem repeated_sublist (seen : List RoundTitle) (rounds : List RoundPassage) :
    (repeated seen rounds).Sublist rounds := by
  induction rounds generalizing seen with
  | nil => exact .slnil
  | cons e rest ih =>
    rw [repeated]
    split
    · exact (ih seen).cons_cons e
    · exact (ih (e.title :: seen)).cons e

theorem mem_repeated (member : e ∈ repeated [] rounds) :
    ∃ before after, rounds = before ++ e :: after ∧ e.title ∈ before.map (·.title) := by
  induction rounds using List.reverseRecOn with
  | nil => cases member
  | append_singleton rounds last ih =>
    rw [repeated_append, repeated_singleton, List.nil_append, List.mem_append] at member
    rcases member with earlier | here
    · obtain ⟨before, after, parts, old⟩ := ih earlier
      refine ⟨before, after ++ [last], ?_, old⟩
      rw [parts, List.append_assoc, List.cons_append]
    · split at here
      · rename_i old
        obtain rfl := List.mem_singleton.1 here
        exact ⟨rounds, [], rfl, old⟩
      · cases here

/- In a script each header stands on a line of its own, so that a line names one of the rounds. -/
theorem repeated_at_line (ascending : rounds.Pairwise fun a b => a.passage.line < b.passage.line)
    {after : List RoundPassage} (parts : rounds = before ++ e :: after) :
    (repeated [] rounds).filter (fun other => other.passage.line == e.passage.line) =
      if e.title ∈ before.map (·.title) then [e] else [] := by
  rw [parts] at ascending
  obtain ⟨-, behind, earlier⟩ := List.pairwise_append.1 ascending
  have before_here : ∀ other ∈ before, other.passage.line ≠ e.passage.line :=
    fun other member => Nat.ne_of_lt (earlier other member e List.mem_cons_self)
  have behind_here : ∀ other ∈ after, other.passage.line ≠ e.passage.line :=
    fun other member => Nat.ne_of_gt ((List.pairwise_cons.1 behind).1 other member)
  have silent : ∀ {seen : List RoundTitle} {others : List RoundPassage},
      (∀ other ∈ others, other.passage.line ≠ e.passage.line) →
      (repeated seen others).filter (fun other => other.passage.line == e.passage.line) = [] := by
    intro seen others apart
    rw [List.filter_eq_nil_iff]
    intro other member same
    exact apart other ((repeated_sublist seen others).mem member) (beq_iff_eq.1 same)
  rw [parts, List.append_cons, repeated_append, repeated_append, repeated_singleton, List.nil_append,
    List.filter_append, List.filter_append, silent before_here, silent behind_here, List.nil_append,
    List.append_nil]
  split
  · simp
  · rfl

end RoundPassage

namespace Compile.Draft

open RoundPassage

variable {draft : Draft} {passage : Passage} {e : RoundPassage}

def round? (draft : Draft) (name : String) (key : RoundKey) : Option Round :=
  (draft.contacts.get? name).bind (·.rounds.get? key)

def unlocks (draft : Draft) (name : String) : Bool :=
  (draft.contacts.get? name).any (·.initiallyUnlocked)

theorem rounds_getD (draft : Draft) (name : String) (key : RoundKey) :
    ((draft.contacts.get? name).getD ⟨name, false, ∅⟩).rounds.get? key = draft.round? name key := by
  unfold round?
  cases draft.contacts.get? name with
  | none => rfl
  | some contact => rfl

theorem initiallyUnlocked_getD (draft : Draft) (name : String) :
    ((draft.contacts.get? name).getD ⟨name, false, ∅⟩).initiallyUnlocked = draft.unlocks name := by
  unfold unlocks
  cases draft.contacts.get? name with
  | none => rfl
  | some contact => rfl

section KeepRound

variable (draft) (name : String) (round : Round) (initial : Bool) (line : Nat)

/- A contact whose round is kept is known from then on. -/
theorem contains_keepRound (other : String) :
    (draft.keepRound name round initial line).contacts.contains other = true ↔
      other = name ∨ draft.contacts.contains other = true := by
  unfold keepRound
  dsimp only
  split
  · exact Table.contains_insert ..
  · exact Table.contains_insert ..

theorem order_keepRound : (draft.keepRound name round initial line).order =
    if draft.contacts.contains name then draft.order else draft.order ++ [name] := by
  unfold keepRound
  dsimp only
  split
  · rfl
  · rfl

/- The round under a key stays the one that came first. -/
theorem round?_keepRound (other : String) (key : RoundKey) :
    (draft.keepRound name round initial line).round? other key =
      if other = name ∧ key = round.key then (draft.round? name round.key).or (some round)
      else draft.round? other key := by
  have kept := rounds_getD draft name
  unfold keepRound
  dsimp only
  rw [Table.contains, kept]
  cases taken : draft.round? name round.key with
  | none =>
    rw [if_neg (by simp), round?, Table.get?_insert]
    by_cases same : other = name
    · subst same
      simp only [if_true, Option.bind_some, Table.get?_insert, kept, true_and, Option.none_or]
    · simp only [same, if_false, false_and, round?]
  | some first =>
    rw [if_pos Option.isSome_some, round?, Table.get?_insert]
    by_cases same : other = name
    · subst same
      simp only [if_true, Option.bind_some, kept, true_and, Option.some_or]
      split
      · rename_i same
        rw [same, taken]
      · rfl
    · simp only [same, if_false, false_and, round?]

theorem unlocks_keepRound (other : String) :
    (draft.keepRound name round initial line).unlocks other =
      (draft.unlocks other || (initial && other == name)) := by
  have kept := initiallyUnlocked_getD draft name
  unfold keepRound
  dsimp only
  split
  all_goals
    rw [unlocks, Table.get?_insert]
    by_cases same : other = name
    · subst same
      simp [kept]
    · simp [same, unlocks]

/- A round under a key that is taken is reported. -/
theorem errors_keepRound : (draft.keepRound name round initial line).errors = draft.errors ++
    if (draft.round? name round.key).isSome then
      [(Finding.duplicateRound round.key name).at line] else [] := by
  unfold keepRound
  dsimp only
  rw [Table.contains, rounds_getD]
  split
  · rfl
  · exact (List.append_nil _).symm

theorem snapshot_keepRound : (draft.keepRound name round initial line).snapshot = draft.snapshot := by
  unfold keepRound
  dsimp only
  split
  · rfl
  · rfl

end KeepRound

/- A passage that is read as a round leaves the round that it is read as and the variables after it. -/
theorem readPassage_of_round (read : passage.asRound? = some e) :
    draft.readPassage passage =
      { draft.warn e.body.warnings with snapshot := leave draft.snapshot [e] }.keepRound e.contact
        (e.round draft.snapshot) e.unlocks e.passage.line := by
  unfold Passage.asRound? at read
  split at read
  · cases read
  · rename_i usable
    obtain ⟨title, titled, rfl⟩ := Option.map_eq_some_iff.1 read
    simp only [Bool.or_eq_true, not_or, Bool.not_eq_true] at usable
    unfold readPassage
    rw [usable.1.1, usable.1.2, usable.2]
    simp only [Bool.or_self, Bool.false_eq_true, if_false]
    unfold readRound
    rw [titled]
    rfl

/- Any other passage leaves them as they are. -/
theorem readPassage_of_other (read : passage.asRound? = none) :
    (draft.readPassage passage).contacts = draft.contacts ∧
      (draft.readPassage passage).order = draft.order ∧
      (draft.readPassage passage).errors = draft.errors ∧
      (draft.readPassage passage).snapshot = draft.snapshot := by
  unfold Passage.asRound? at read
  unfold readPassage
  split
  · exact ⟨rfl, rfl, rfl, rfl⟩
  · rename_i set
    split
    · unfold readAbout
      dsimp only
      repeat' split
      all_goals exact ⟨rfl, rfl, rfl, rfl⟩
    · rename_i told
      rw [if_neg (by simp [set, told])] at read
      unfold readRound
      rw [Option.map_eq_none_iff.1 read]
      exact ⟨rfl, rfl, rfl, rfl⟩

/-- What a draft is after the given rounds of a script. -/
structure MadeOf (defaults : Variables) (errors : List Diagnostic) (rounds : List RoundPassage)
    (draft : Draft) : Prop where
  snapshot : draft.snapshot = leave defaults rounds
  order : draft.order = (rounds.map (·.contact)).eraseDups
  known : ∀ name, draft.contacts.contains name = true ↔ name ∈ rounds.map (·.contact)
  round : ∀ name key round, draft.round? name key = some round ↔
    ∃ before e, FirstWith rounds ⟨name, key⟩ before e ∧ e.round (leave defaults before) = round
  unlocked : ∀ name, draft.unlocks name = true ↔ ∃ e ∈ rounds, e.contact = name ∧ e.unlocks = true
  errors : draft.errors = errors ++ (repeated [] rounds).map (·.report)

variable {defaults : Variables} {errors : List Diagnostic} {rounds : List RoundPassage}

theorem MadeOf.start (defaults : Variables) (errors warnings : List Diagnostic) (about : About) :
    MadeOf defaults errors [] ⟨defaults, ∅, [], about, errors, warnings⟩ := by
  constructor
  · rfl
  · rfl
  · intro name
    exact iff_of_false Bool.false_ne_true List.not_mem_nil
  · intro name key round
    refine iff_of_false ?_ ?_
    · intro found
      cases found
    · rintro ⟨before, e, ⟨⟨after, parts⟩, _⟩, _⟩
      exact absurd parts.symm (List.append_ne_nil_of_right_ne_nil before (List.cons_ne_nil e after))
  · intro name
    refine iff_of_false Bool.false_ne_true ?_
    rintro ⟨e, none, _⟩
    cases none
  · exact (List.append_nil errors).symm

theorem MadeOf.taken_iff (made : MadeOf defaults errors rounds draft) (title : RoundTitle) :
    (draft.round? title.contact title.key).isSome = true ↔ title ∈ rounds.map (·.title) := by
  rw [← exists_firstWith_iff, Option.isSome_iff_exists]
  constructor
  · rintro ⟨round, found⟩
    obtain ⟨before, e, first, _⟩ := (made.round _ _ _).1 found
    exact ⟨before, e, first⟩
  · rintro ⟨before, e, first⟩
    exact ⟨_, (made.round _ _ _).2 ⟨before, e, first, rfl⟩⟩

/- One round more: every field follows from what keeping a round does to it. -/
theorem MadeOf.keep (made : MadeOf defaults errors rounds draft) (e : RoundPassage)
    (found : List Diagnostic) : MadeOf defaults errors (rounds ++ [e])
      ({ draft.warn found with snapshot := leave draft.snapshot [e] }.keepRound e.contact
        (e.round draft.snapshot) e.unlocks e.passage.line) := by
  generalize warned : { draft.warn found with snapshot := leave draft.snapshot [e] } = next
  have contacts : next.contacts = draft.contacts := by rw [← warned]; rfl
  have known : ∀ name, next.contacts.contains name = true ↔ name ∈ rounds.map (·.contact) := by
    rw [contacts]
    exact made.known
  have round : next.round? = draft.round? := by unfold round?; rw [contacts]
  have unlocked : next.unlocks = draft.unlocks := by unfold unlocks; rw [contacts]
  have order : next.order = draft.order := by rw [← warned]; rfl
  have reported : next.errors = draft.errors := by rw [← warned]; rfl
  have snapshot : next.snapshot = leave draft.snapshot [e] := by rw [← warned]
  constructor
  · rw [snapshot_keepRound, snapshot, made.snapshot]
    exact List.foldl_append.symm
  · rw [order_keepRound, List.map_append, List.map_singleton, eraseDups_concat, ← made.order, order]
    simp only [known e.contact]
  · intro name
    rw [contains_keepRound, List.map_append, List.mem_append, List.map_singleton, List.mem_singleton]
    exact (or_congr_right (known name)).trans or_comm
  · intro name key kept
    have none_iff : draft.round? name key = none ↔
        ∀ other ∈ rounds, other.title ≠ ⟨name, key⟩ := by
      have taken := made.taken_iff ⟨name, key⟩
      rw [← Option.not_isSome_iff_eq_none, taken, List.mem_map, not_exists]
      exact forall_congr' fun other => not_and
    have further : (∃ before first, FirstWith (rounds ++ [e]) ⟨name, key⟩ before first ∧
          first.round (leave defaults before) = kept) ↔
        draft.round? name key = some kept ∨ (e.title = ⟨name, key⟩ ∧ draft.round? name key = none ∧
          e.round draft.snapshot = kept) := by
      rw [made.round, none_iff, made.snapshot]
      simp only [firstWith_append, or_and_right, exists_or]
      refine or_congr_right ⟨?_, ?_⟩
      · rintro ⟨before, first, ⟨rfl, rfl, same, fresh⟩, kept⟩
        exact ⟨same, fresh, kept⟩
      · rintro ⟨same, fresh, kept⟩
        exact ⟨rounds, e, ⟨rfl, rfl, same, fresh⟩, kept⟩
    rw [round?_keepRound, round, further]
    by_cases same : e.title = ⟨name, key⟩
    · have named : e.contact = name := congrArg RoundTitle.contact same
      have keyed : (e.round draft.snapshot).key = key := congrArg RoundTitle.key same
      rw [named, keyed, if_pos ⟨rfl, rfl⟩]
      cases draft.round? name key with
      | none => simp [same]
      | some first => simp
    · have apart : ¬(name = e.contact ∧ key = (e.round draft.snapshot).key) := by
        rintro ⟨rfl, rfl⟩
        exact same rfl
      rw [if_neg apart]
      simp [same]
  · intro name
    rw [unlocks_keepRound, unlocked, Bool.or_eq_true, made.unlocked, Bool.and_eq_true, beq_iff_eq]
    simp only [List.mem_append, List.mem_singleton, or_and_right, exists_or, exists_eq_left]
    rw [and_comm (a := e.unlocks = true), eq_comm (a := name)]
  · have taken := made.taken_iff e.title
    rw [errors_keepRound, reported, round, made.errors, repeated_append, List.nil_append, List.map_append,
      List.append_assoc]
    rw [repeated_singleton, apply_ite (List.map _)]
    simp only [← taken]
    rfl

theorem MadeOf.readPassage (made : MadeOf defaults errors rounds draft) (passage : Passage) :
    MadeOf defaults errors (rounds ++ passage.asRound?.toList) (draft.readPassage passage) := by
  cases read : passage.asRound? with
  | none =>
    have kept : (draft.readPassage passage).contacts = draft.contacts ∧
        (draft.readPassage passage).order = draft.order ∧
        (draft.readPassage passage).errors = draft.errors ∧
        (draft.readPassage passage).snapshot = draft.snapshot := readPassage_of_other read
    obtain ⟨contacts, order, reported, snapshot⟩ := kept
    rw [Option.toList_none, List.append_nil]
    constructor
    · rw [snapshot, made.snapshot]
    · rw [order, made.order]
    · rw [contacts]
      exact made.known
    · unfold round?
      rw [contacts]
      exact made.round
    · unfold unlocks
      rw [contacts]
      exact made.unlocked
    · rw [reported, made.errors]
  | some e =>
    rw [readPassage_of_round read]
    exact made.keep e e.body.warnings

theorem MadeOf.readPassages (made : MadeOf defaults errors rounds draft) (passages : List Passage) :
    MadeOf defaults errors (rounds ++ passages.filterMap Passage.asRound?)
      (passages.foldl Draft.readPassage draft) := by
  induction passages generalizing draft rounds with
  | nil =>
    rw [List.filterMap_nil, List.append_nil]
    exact made
  | cons passage rest ih =>
    have next := ih (made.readPassage passage)
    rw [List.append_assoc] at next
    rw [List.foldl_cons, List.filterMap_cons]
    cases read : passage.asRound? with
    | none =>
      rw [read] at next
      exact next
    | some e =>
      rw [read] at next
      exact next

end Compile.Draft

namespace Passage

theorem line_ofSection (part : Section) : (ofSection part).passage.line = part.line := by
  unfold ofSection
  dsimp only
  repeat' split
  all_goals rfl

/- Each header begins a section, at its line. -/
theorem lines_sections (first : Nat) (lines : List (List Char)) :
    (sections first lines).2.map (·.line) = lines.findIdxs isHeader first := by
  induction lines generalizing first with
  | nil => rfl
  | cons text rest ih =>
    rw [List.findIdxs_cons, ← ih (first + 1), sections]
    cases isHeader text <;> rfl

theorem lines_split (source : String) :
    (split source).passages.map (·.line) = (Text.lines source.toList).findIdxs isHeader 1 := by
  rw [← lines_sections, split, List.map_map, List.map_map]
  exact List.map_congr_left fun part _ => line_ofSection part

theorem passages_ascending (source : String) :
    (split source).passages.Pairwise fun a b => a.line < b.line := by
  have ascending : ((split source).passages.map (·.line)).Pairwise (· < ·) := by
    rw [lines_split]
    exact List.pairwise_findIdxs
  exact List.pairwise_map.1 ascending

theorem passage_of_asRound? {passage : Passage} {e : RoundPassage} (read : passage.asRound? = some e) :
    e.passage = passage ∧ RoundTitle.read? passage.title = some e.title := by
  unfold asRound? at read
  split at read
  · cases read
  · obtain ⟨title, titled, rfl⟩ := Option.map_eq_some_iff.1 read
    exact ⟨rfl, titled⟩

theorem rounds_ascending (source : String) :
    (rounds source).Pairwise fun a b => a.passage.line < b.passage.line := by
  refine (passages_ascending source).filterMap asRound? ?_
  intro a b less e read f read'
  rw [(passage_of_asRound? read).1, (passage_of_asRound? read').1]
  exact less

/- Nothing that is wrong with a header is a repetition. -/
theorem code_of_split {source : String} {d : Diagnostic} (member : d ∈ (split source).errors) :
    d.code ≠ "ROUND_KEY_DUPLICATE" := by
  obtain ⟨outcome, made, found⟩ := List.mem_filterMap.1 member
  obtain ⟨part, -, rfl⟩ := List.mem_map.1 made
  obtain ⟨finding, cause, rfl⟩ := Option.map_eq_some_iff.1 found
  unfold ofSection at cause
  dsimp only at cause
  split at cause
  · cases cause
    simp [Finding.at, Diagnostic.code, Finding.code]
  · split at cause
    · cases cause
      simp [Finding.at, Diagnostic.code, Finding.code]
    · repeat' split at cause
      all_goals cases cause

end Passage

open RoundPassage

/-- What a compilation makes of the passages that are read as rounds. -/
structure Compilation.AssembledFrom (rounds : List RoundPassage) (compilation : Compilation) : Prop where
  /-- Contacts stand in order of first appearance, and those that do are the ones there are. -/
  order : compilation.program.order = (rounds.map (·.contact)).eraseDups
  distinct : compilation.program.order.Nodup
  contacts : ∀ name, name ∈ compilation.program.order ↔ name ∈ compilation.program.contacts.keys
  named : ∀ name contact, compilation.program.contact? name = some contact →
    contact.name = name ∧ ∃ key round, contact.rounds.get? key = some round
  /-- Any of its passages may unlock a contact, one that is not kept as well. -/
  unlocked : ∀ name contact, compilation.program.contact? name = some contact →
    (contact.initiallyUnlocked = true ↔ ∃ e ∈ rounds, e.contact = name ∧ e.unlocks = true)
  /-- A round is what the first passage with its title is read as. -/
  round : ∀ name key round, compilation.program.round? name key = some round ↔
    ∃ before e, FirstWith rounds ⟨name, key⟩ before e ∧
      e.round (leave compilation.program.defaults before) = round
  titled : ∀ name key round, compilation.program.round? name key = some round →
    round.key = key ∧ RoundTitle.read? round.title = some ⟨name, key⟩ ∧
      (round.condition.isSome = true → key.minor = some 0)
  /-- A passage whose title has occurred before is reported once, at its own line. -/
  reported : ∀ before e after, rounds = before ++ e :: after →
    compilation.errors.filter
        (fun d => d.code == "ROUND_KEY_DUPLICATE" && d.line == some e.passage.line) =
      if e.title ∈ before.map (·.title) then [e.report] else []
  repeats : ∀ d ∈ compilation.errors, d.code = "ROUND_KEY_DUPLICATE" →
    ∃ before e after, rounds = before ++ e :: after ∧ e.title ∈ before.map (·.title) ∧ d = e.report

theorem assembled_compile (source : String) :
    (compile source).AssembledFrom (Passage.rounds source) := by
  have formed := wellFormed_compile source
  have made := (Compile.Draft.MadeOf.start (compile source).program.defaults
    (Passage.split source).errors (Passage.split source).warnings default).readPassages
      (Passage.split source).passages
  have errors : (compile source).errors =
      (Passage.split source).errors ++ (repeated [] (Passage.rounds source)).map (·.report) := made.errors
  constructor
  case order =>
    exact made.order
  case distinct =>
    exact distinct_compile source
  case contacts =>
    intro name
    rw [← Table.contains_iff_mem_keys]
    exact formed.order name
  case named =>
    intro name contact found
    obtain ⟨key, first⟩ := (formed.contacts name contact found).some_round
    obtain ⟨round, kept⟩ := Option.isSome_iff_exists.1 (Contact.get?_firstKey first)
    exact ⟨formed.names name contact found, key, round, kept⟩
  case unlocked =>
    intro name contact found
    have known := congrArg (Option.any (·.initiallyUnlocked)) found
    rw [← Option.any_some (p := fun contact : Contact => contact.initiallyUnlocked), ← known]
    exact made.unlocked name
  case round =>
    exact made.round
  case titled =>
    intro name key round found
    refine round_compile (P := fun name key round => round.key = key ∧
      RoundTitle.read? round.title = some ⟨name, key⟩ ∧
        (round.condition.isSome = true → key.minor = some 0)) found ?_
    intro passage title round read
    refine ⟨read.key, ?_, fun conditional => ?_⟩
    · rw [read.title, read.read]
    · rw [read.condition] at conditional
      split at conditional
      · rename_i gated
        exact beq_iff_eq.1 gated
      · cases conditional
  case reported =>
    intro before e after parts
    have headers : (Passage.split source).errors.filter
        (fun d => d.code == "ROUND_KEY_DUPLICATE" && d.line == some e.passage.line) = [] := by
      rw [List.filter_eq_nil_iff]
      intro d member here
      exact Passage.code_of_split member (beq_iff_eq.1 (Bool.and_eq_true_iff.1 here).1)
    have reports : ∀ other : RoundPassage, (other.report.code == "ROUND_KEY_DUPLICATE" &&
        other.report.line == some e.passage.line) = (other.passage.line == e.passage.line) :=
      fun other => rfl
    have here := repeated_at_line (Passage.rounds_ascending source) parts
    rw [errors, List.filter_append, headers, List.nil_append, List.filter_map]
    simp only [Function.comp_def, reports]
    rw [here, apply_ite (List.map _)]
    rfl
  case repeats =>
    intro d member coded
    rw [errors, List.mem_append] at member
    rcases member with header | repeats
    · exact absurd coded (Passage.code_of_split header)
    · obtain ⟨e, again, rfl⟩ := List.mem_map.1 repeats
      obtain ⟨before, after, parts, old⟩ := mem_repeated again
      exact ⟨before, e, after, parts, old, rfl⟩

end ChatStory
