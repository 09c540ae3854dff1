import ChatStory.Proofs.Program
import ChatStory.Proofs.RoundKey

/-!
What a script says about the targets of its choices. A choice carries the key that its target names, a
round stands in the program under the contact and the key of its title, and the targets that are
reported missing are those whose round the contact does not have.
-/
namespace ChatStory

namespace Markup

theorem targetRound_read (inside : List Char) :
    (Choice.read inside).1.targetRound = RoundKey.ofReference? (Choice.read inside).1.target := by
  simp only [Choice.read]

theorem macroSpan_no_choice (inside : List Char) (choice : Choice) :
    (macroSpan inside).piece ≠ .markup (.choice choice) := by
  unfold macroSpan
  dsimp only
  split
  · split <;> nofun
  · split <;> nofun
  · split <;> nofun
  · split <;> nofun
  · split <;> nofun
  all_goals nofun

theorem actionSpan_no_choice (inside : List Char) (choice : Choice) :
    (actionSpan inside).piece ≠ .markup (.choice choice) := by
  unfold actionSpan
  dsimp only
  split <;> nofun

theorem choice_of_linkSpan {cs : List Char} {choice : Choice}
    (found : (linkSpan cs).piece = .markup (.choice choice)) :
    choice.targetRound = RoundKey.ofReference? choice.target := by
  unfold linkSpan at found
  split at found
  · rename_i inside _
    cases found
    exact targetRound_read inside
  · cases found

/- A choice in a body names the round that its target refers to. -/
theorem choice_of_firstSpan {c : Char} {cs : List Char} {choice : Choice}
    (found : (firstSpan c cs).piece = .markup (.choice choice)) :
    choice.targetRound = RoundKey.ofReference? choice.target := by
  unfold firstSpan at found
  split at found
  · cases found
  · cases found
  · exact choice_of_linkSpan found
  · cases inside : round.inside? cs with
    | none =>
      rw [inside] at found
      cases found
    | some inside' =>
      rw [inside] at found
      exact absurd found (macroSpan_no_choice inside' choice)
  · cases inside : actionInside? c cs with
    | none =>
      rw [inside] at found
      cases found
    | some inside' =>
      rw [inside] at found
      exact absurd found (actionSpan_no_choice inside' choice)

theorem choice_of_spans {cs : List Char} {span : Span} {choice : Choice} (member : span ∈ spans cs)
    (found : span.piece = .markup (.choice choice)) :
    choice.targetRound = RoundKey.ofReference? choice.target := by
  fun_induction spans cs with
  | case1 => cases member
  | case2 c cs first ih =>
    rcases List.mem_cons.1 member with same | later
    · rw [same] at found
      exact choice_of_firstSpan found
    · exact ih later

section Told

variable {β : Type} (tell : Fragment → List β) {letter : Char → List β}

/-- What a piece tells: a character what it tells in a text, any other piece what its fragment tells, and what is
dropped nothing. -/
def Piece.told (letter : Char → List β) : Piece → List β
  | .letter c => letter c
  | .lineBreak => tell .lineBreak
  | .markup fragment => tell fragment
  | .droppedAction | .droppedAssignment => []

theorem gathered_told (texts : ∀ text, tell (.text text) = text.toList.flatMap letter) (letters : List Char) :
    (gathered letters).flatMap tell = letters.flatMap letter := by
  unfold gathered
  split
  · rename_i none
    rw [List.isEmpty_iff.1 none]
    rfl
  · rw [List.flatMap_singleton, texts, String.toList_ofList]

/- The fragments of a body tell what its spans tell, if a text tells what its characters do. -/
theorem fragments_told (texts : ∀ text, tell (.text text) = text.toList.flatMap letter) (letters : List Char)
    (all : List Span) : (fragmentsFrom letters all).flatMap tell =
      letters.reverse.flatMap letter ++ all.flatMap (·.piece.told tell letter) := by
  induction all generalizing letters with
  | nil => rw [fragmentsFrom, gathered_told tell texts, List.flatMap_nil, List.append_nil]
  | cons span rest ih =>
    rw [List.flatMap_cons]
    unfold fragmentsFrom
    cases span.piece with
    | letter c =>
      dsimp only
      rw [ih, List.reverse_cons, List.flatMap_append, List.flatMap_singleton, List.append_assoc]
      rfl
    | droppedAssignment => exact ih letters
    | lineBreak =>
      dsimp only
      rw [List.flatMap_append, gathered_told tell texts, List.flatMap_cons, ih]
      rfl
    | droppedAction =>
      dsimp only
      rw [List.flatMap_append, gathered_told tell texts, ih]
      rfl
    | markup fragment =>
      dsimp only
      rw [List.flatMap_append, gathered_told tell texts, List.flatMap_cons, ih]
      rfl

/- Where texts tell nothing, characters do not either. -/
theorem fragments_told_markup (texts : ∀ text, tell (.text text) = []) (letters : List Char) (all : List Span) :
    (fragmentsFrom letters all).flatMap tell = all.flatMap (·.piece.told tell fun _ => []) := by
  have silent : ∀ text : List Char, text.flatMap (fun _ => ([] : List β)) = [] := fun text =>
    List.flatMap_eq_nil_iff.2 fun _ _ => rfl
  rw [fragments_told tell (fun text => (texts text).trans (silent text.toList).symm), silent, List.nil_append]

end Told

/- A fragment that is markup is the markup of a span. -/
theorem span_of_fragment {letters : List Char} {all : List Span} {fragment : Fragment}
    (member : fragment ∈ fragmentsFrom letters all) (markup : fragment.isMarkup = true) :
    ∃ span ∈ all, span.piece = .markup fragment := by
  let marked (other : Fragment) : List Fragment := if other.isMarkup then [other] else []
  have listed : fragment ∈ (fragmentsFrom letters all).flatMap marked :=
    List.mem_flatMap.2 ⟨fragment, member, by simp [marked, markup]⟩
  rw [fragments_told_markup marked fun _ => rfl] at listed
  obtain ⟨span, inside, tells⟩ := List.mem_flatMap.1 listed
  refine ⟨span, inside, ?_⟩
  revert tells
  cases span.piece with
  | markup other =>
    intro tells
    simp only [Piece.told, marked] at tells
    split at tells
    · rw [List.mem_singleton.1 tells]
    · cases tells
  | letter | lineBreak | droppedAction | droppedAssignment => exact nofun

theorem choice_of_body {content : String} (line : Nat) {choice : Choice}
    (member : .choice choice ∈ (Body.read content line).fragments) :
    choice.targetRound = RoundKey.ofReference? choice.target := by
  obtain ⟨span, inside, found⟩ := span_of_fragment member rfl
  exact choice_of_spans inside found

end Markup

/-- The round stands under what its title says, and its choices name the rounds that their targets
refer to. -/
structure Round.Written (round : Round) (name : String) (key : RoundKey) : Prop where
  title : RoundTitle.read? round.title = some ⟨name, key⟩
  choices : ∀ choice, .choice choice ∈ round.body →
    choice.targetRound = RoundKey.ofReference? choice.target

namespace Compile.Draft

/-- Every round so far is written where its title says, and every warning so far has a line. -/
structure Traced (draft : Draft) : Prop where
  rounds : ∀ name contact, draft.contacts.get? name = some contact →
    ∀ key round, contact.rounds.get? key = some round → round.Written name key
  warnings : ∀ warning ∈ draft.warnings, warning.line.isSome = true

variable {draft : Draft}

theorem placed_diagnosticsFrom (line : Nat) (all : List Markup.Span) :
    ∀ warning ∈ Markup.diagnosticsFrom line all, warning.line.isSome = true := by
  induction all generalizing line with
  | nil => exact List.forall_mem_nil _
  | cons span rest ih =>
    exact List.forall_mem_append.2 ⟨List.forall_mem_map.2 fun _ _ => rfl, ih _⟩

theorem warnings_keepRound (name : String) (round : Round) (initial : Bool) (line : Nat) :
    (draft.keepRound name round initial line).warnings = draft.warnings := by
  unfold keepRound
  dsimp only
  split <;> rfl

/- Warnings are added behind the ones that are there, and each of them has a line. -/
theorem warnings_readPassage (draft : Draft) (passage : Passage) :
    ∃ found, (draft.readPassage passage).warnings = draft.warnings ++ found ∧
      ∀ warning ∈ found, warning.line.isSome = true := by
  have silent : ∃ found, draft.warnings = draft.warnings ++ found ∧
      ∀ warning ∈ found, warning.line.isSome = true :=
    ⟨[], (List.append_nil _).symm, List.forall_mem_nil _⟩
  have one : ∀ finding : Finding, ∀ line, ∃ found,
      (draft.warn [finding.at line]).warnings = draft.warnings ++ found ∧
        ∀ warning ∈ found, warning.line.isSome = true := fun _ _ =>
    ⟨_, rfl, List.forall_mem_singleton.2 rfl⟩
  unfold readPassage
  split
  · exact silent
  · split
    · unfold readAbout
      split
      · dsimp only
        split
        · exact silent
        · exact silent
      · split
        · split
          · exact silent
          · exact one _ _
        · exact silent
    · unfold readRound
      split
      · exact one _ _
      · dsimp only
        rw [warnings_keepRound]
        exact ⟨_, rfl, placed_diagnosticsFrom passage.contentLine (Markup.spans passage.content.toList)⟩

theorem traced_readPassage (traced : draft.Traced) (passage : Passage) :
    (draft.readPassage passage).Traced := by
  refine ⟨eachRound_readPassage traced.rounds ?_, ?_⟩
  · intro title round read
    refine ⟨read.title ▸ read.read, ?_⟩
    intro choice member
    rw [read.body] at member
    exact Markup.choice_of_body passage.contentLine member
  · obtain ⟨found, added, placed⟩ := draft.warnings_readPassage passage
    rw [added]
    exact List.forall_mem_append.2 ⟨traced.warnings, placed⟩

theorem traced_foldl (traced : draft.Traced) (passages : List Passage) :
    (passages.foldl readPassage draft).Traced := by
  induction passages generalizing draft with
  | nil => exact traced
  | cons passage rest ih => exact ih (traced_readPassage traced passage)

end Compile.Draft

theorem placed_split (source : String) :
    ∀ warning ∈ (Passage.split source).warnings, warning.line.isSome = true := by
  have located : ∀ (outcomes : List Passage.Outcome), ∀ warning ∈ outcomes.filterMap fun outcome =>
      outcome.warning.map (·.at outcome.passage.line), warning.line.isSome = true := by
    intro outcomes warning member
    obtain ⟨_, _, found⟩ := List.mem_filterMap.1 member
    obtain ⟨_, _, rfl⟩ := Option.map_eq_some_iff.1 found
    rfl
  refine List.forall_mem_append.2 ⟨located _, ?_⟩
  split
  · exact List.forall_mem_nil _
  · exact List.forall_mem_singleton.2 rfl

open Compile in
/-- What a script is compiled from, passage by passage. -/
def draftOf (source : String) : Draft :=
  (Passage.split source).passages.foldl Draft.readPassage
    ⟨defaultsOf source (Passage.split source).passages, ∅, [], default, (Passage.split source).errors,
      (Passage.split source).warnings⟩

theorem traced_draftOf (source : String) : (draftOf source).Traced := by
  apply Compile.Draft.traced_foldl
  refine ⟨?_, placed_split source⟩
  intro name contact none
  cases none

variable {source : String} {program : Program} {name : String} {key : RoundKey} {round : Round}

theorem Program.Scripted.written (scripted : program.Scripted)
    (found : program.round? name key = some round) : round.Written name key := by
  obtain ⟨source, rfl⟩ := scripted
  obtain ⟨contact, known, kept⟩ := Option.bind_eq_some_iff.1 found
  exact (traced_draftOf source).rounds name contact known key round kept

/- Which choices are reported: those whose key the contact has no round for. -/
theorem missing_iff {contact : Contact} {warning : Diagnostic} :
    warning ∈ Compile.missingTargets contact round ↔ ∃ choice key, .choice choice ∈ round.body ∧
      choice.targetRound = some key ∧ contact.rounds.contains key = false ∧
      warning = ⟨.missingTarget choice.text round.title choice.target contact.name key, none⟩ := by
  unfold Compile.missingTargets
  rw [List.mem_filterMap]
  constructor
  · rintro ⟨fragment, member, found⟩
    split at found
    · rename_i choice
      obtain ⟨key, named, found⟩ := Option.bind_eq_some_iff.1 found
      split at found
      · cases found
      · rename_i absent
        cases found
        exact ⟨choice, key, member, named, Bool.eq_false_iff.2 absent, rfl⟩
    · cases found
  · rintro ⟨choice, key, member, named, absent, rfl⟩
    refine ⟨_, member, ?_⟩
    dsimp only
    rw [named, Option.bind_some, if_neg (Bool.eq_false_iff.1 absent)]

theorem warnings_compile : (compile source).warnings = (draftOf source).warnings ++
    (compile source).program.inOrder.flatMap fun contact =>
      contact.rounds.values.flatMap (Compile.missingTargets contact) := rfl

theorem Program.round?_eq_none_iff {contact : Contact} (known : program.contact? name = some contact) :
    program.round? name key = none ↔ contact.rounds.contains key = false := by
  rw [Program.round?, known, Option.bind_some, Table.contains, Option.isSome_eq_false_iff,
    Option.isNone_iff_eq_none]

/- A choice is reported exactly if its contact does not have the round that it names. -/
theorem reported_iff (found : (compile source).program.round? name key = some round) {choice : Choice}
    {target : RoundKey} (member : .choice choice ∈ round.body)
    (named : choice.targetRound = some target) :
    ⟨.missingTarget choice.text round.title choice.target name target, none⟩ ∈
        (compile source).warnings ↔
      (compile source).program.round? name target = none := by
  have formed := wellFormed_compile source
  obtain ⟨contact, known, kept⟩ := Option.bind_eq_some_iff.1 found
  rw [Program.round?_eq_none_iff known, warnings_compile, List.mem_append]
  constructor
  · rintro (early | late)
    · exact absurd ((traced_draftOf source).warnings _ early) Bool.false_ne_true
    · obtain ⟨other, listed, late⟩ := List.mem_flatMap.1 late
      obtain ⟨_, _, missing⟩ := List.mem_flatMap.1 late
      obtain ⟨_, _, _, _, absent, same⟩ := missing_iff.1 missing
      simp only [Diagnostic.mk.injEq, Finding.missingTarget.injEq] at same
      obtain ⟨⟨_, _, _, names, keys⟩, _⟩ := same
      have own := formed.mem_inOrder listed
      rw [← names, known] at own
      cases own
      rw [keys]
      exact absent
  · intro absent
    right
    refine List.mem_flatMap.2 ⟨contact, formed.inOrder_of_contact known, List.mem_flatMap.2 ⟨round,
      ?_, missing_iff.2 ⟨choice, target, member, named, absent, ?_⟩⟩⟩
    · exact List.mem_map.2 ⟨(key, round), Table.get?_eq_some_iff.1 kept, rfl⟩
    · rw [formed.names name contact known]

end ChatStory
