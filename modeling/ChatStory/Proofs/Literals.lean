import ChatStory.Proofs.Document.Readable
import ChatStory.Proofs.Targets

/-!
The numbers that a script names are finite: a literal beyond the range of doubles is a text. So are the
defaults of its program, and every value that a body assigns or that an action sets.
-/
namespace ChatStory

theorem Value.isFinite_ofLiteral (source : List Char) : (ofLiteral source).isFinite = true := by
  unfold ofLiteral
  dsimp only
  split
  · rfl
  · split
    · rfl
    · split
      · rename_i x found
        exact (Option.filter_eq_some_iff.1 found).2
      · rfl

theorem isFinite_of_literal {cs : List Char} {value : Value} (read : literal? cs = some value) :
    value.isFinite = true := by
  unfold literal? at read
  split at read
  · cases read
  · split at read
    · cases read
      exact Value.isFinite_ofLiteral _
    · cases read

namespace Assignment

theorem isFinite_of_read {source : List Char} {a : Assignment} (found : read? source = some a) :
    a.value.isFinite = true := by
  obtain ⟨_, _, found⟩ := Option.bind_eq_some_iff.1 found
  obtain ⟨value, literal, same⟩ := Option.bind_eq_some_iff.1 found
  cases same
  exact isFinite_of_literal literal

theorem isFinite_of_macroAt {cs rest : List Char} {found : Option Assignment}
    (read : macroAt? cs = some (found, rest)) : ∀ a ∈ found, a.value.isFinite = true := by
  unfold macroAt? at read
  split at read
  · obtain ⟨_, _, read⟩ := Option.bind_eq_some_iff.1 read
    obtain ⟨_, _, read⟩ := Option.bind_eq_some_iff.1 read
    obtain ⟨_, _, read⟩ := Option.bind_eq_some_iff.1 read
    obtain ⟨_, _, read⟩ := Option.bind_eq_some_iff.1 read
    cases read
    intro a named
    obtain ⟨value, literal, rfl⟩ := Option.map_eq_some_iff.1 named
    exact isFinite_of_literal literal
  · cases read

theorem isFinite_of_survey {cs : List Char} {a : Assignment} (member : a ∈ survey cs) :
    a.value.isFinite = true := by
  fun_induction survey cs with
  | case1 => cases member
  | case2 c cs found rest read _ ih =>
    rcases List.mem_append.1 member with here | later
    · exact isFinite_of_macroAt read a (Option.mem_toList.1 here)
    · exact ih later
  | case3 c cs _ _ _ _ ih => exact ih member
  | case4 c cs _ ih => exact ih member

end Assignment

theorem Variables.isFinite_surveyed {source : String} {value : Value}
    (member : value ∈ (surveyed source).values) : value.isFinite = true := by
  obtain ⟨e, listed, rfl⟩ := Table.mem_values_ofList member
  obtain ⟨a, found, rfl⟩ := List.mem_map.1 listed
  exact Assignment.isFinite_of_survey found

theorem Compile.isFinite_defaultsOf (source : String) (passages : List Passage) :
    ∀ value ∈ (defaultsOf source passages).values, value.isFinite = true := by
  have kept : ∀ (others : List Passage) (values : Variables),
      (∀ value ∈ values.values, value.isFinite = true) →
        ∀ value ∈ (others.foldl (fun values passage =>
          values.insertMany (Variables.surveyed passage.content).toList) values).values,
            value.isFinite = true := by
    intro others
    induction others with
    | nil => exact fun _ finite => finite
    | cons passage rest ih =>
      intro values finite
      apply ih
      intro value member
      rcases Table.mem_values_insertMany member with ⟨e, listed, rfl⟩ | old
      · exact Variables.isFinite_surveyed (List.mem_map_of_mem (f := (·.2)) listed)
      · exact finite value old
  exact kept _ _ fun _ member => Variables.isFinite_surveyed member

namespace Action

/-- What does not fail has a property. -/
def Succeeds (P : α → Prop) (attempt : Except Finding α) : Prop := ∀ a, attempt = .ok a → P a

variable {P : β → Prop}

theorem succeeds_pure {b : β} (property : P b) : Succeeds P (pure b) := by
  rintro _ ⟨⟩
  exact property

theorem succeeds_bind {attempt : Except Finding α} {next : α → Except Finding β}
    (then_ : ∀ a, Succeeds P (next a)) : Succeeds P (attempt >>= next) := by
  intro b done
  cases attempt with
  | error finding => cases done
  | ok a => exact then_ a b done

theorem succeeds_error (finding : Finding) : Succeeds P (.error finding) := nofun

theorem succeeds_assignment (params : Params) :
    Succeeds (fun e => e.isFinite = true) (assignment? params) := by
  unfold assignment?
  dsimp only
  split
  · exact succeeds_pure (Value.isFinite_ofLiteral _)
  · exact succeeds_bind fun _ => succeeds_bind fun _ => succeeds_pure (Value.isFinite_ofLiteral _)

theorem succeeds_notification (params : Params) :
    Succeeds (fun e => e.isFinite = true) (notification? params) := by
  unfold notification?
  dsimp only
  split
  all_goals
    split
    · exact succeeds_error _
    · exact succeeds_pure rfl

/- The value of an effect is a literal, and all others have none. -/
theorem succeeds_effect (kind : String) (params : Params) :
    Succeeds (fun e => e.isFinite = true) (effect? kind params) := by
  unfold effect?
  dsimp only
  split
  case h_12 => exact succeeds_notification params
  case h_16 => exact succeeds_assignment params
  case h_17 => exact succeeds_error _
  all_goals repeat first | exact succeeds_pure rfl | refine succeeds_bind fun _ => ?_

theorem isFinite_of_read {source : List Char} {action : Action}
    (found : (read source).action = some action) : action.isFinite = true := by
  unfold read at found
  dsimp only at found
  split at found
  · cases found
  · split at found
    · rename_i effect done
      cases found
      exact succeeds_effect _ _ effect done
    · cases found

end Action

namespace Choice

theorem read_of_liftActions {cs : List Char} {outcome : Action.Outcome}
    (member : outcome ∈ (liftActions cs).2) : ∃ source, outcome = Action.read source := by
  fun_induction liftActions cs with
  | case1 => cases member
  | case2 c cs inside _ _ _ lifted ih =>
    rw [lifted] at ih
    rcases List.mem_cons.1 member with same | later
    · exact ⟨_, same⟩
    · exact ih later
  | case3 c cs _ _ _ lifted ih =>
    rw [lifted] at ih
    exact ih member

theorem of_keepFirst {kept : Option Action} {outcomes : List Action.Outcome} {action : Action}
    (found : (keepFirst kept outcomes).1 = some action) :
    kept = some action ∨ ∃ outcome ∈ outcomes, outcome.action = some action := by
  induction outcomes generalizing kept with
  | nil => exact .inl found
  | cons outcome rest ih =>
    unfold keepFirst at found
    split at found
    · rcases ih found with first | ⟨other, listed, same⟩
      · exact .inl first
      · exact .inr ⟨other, List.mem_cons_of_mem outcome listed, same⟩
    · rcases ih found with first | ⟨other, listed, same⟩
      · rcases Option.or_eq_some_iff.1 first with first | ⟨_, own⟩
        · exact .inl first
        · exact .inr ⟨outcome, List.mem_cons_self, own⟩
      · exact .inr ⟨other, List.mem_cons_of_mem outcome listed, same⟩

theorem isFinite_of_read {inside : List Char} {action : Action}
    (found : (read inside).1.action = some action) : action.isFinite = true := by
  unfold read at found
  rcases of_keepFirst found with none | ⟨outcome, listed, own⟩
  · cases none
  · obtain ⟨source, rfl⟩ := read_of_liftActions listed
    exact Action.isFinite_of_read own

end Choice

namespace Fragment

/-- The number that is assigned, or set by an action, is finite. -/
def isFinite : Fragment → Bool
  | assign _ value => value.isFinite
  | choice c => c.action.all Action.isFinite
  | action a => a.isFinite
  | _ => true

theorem isFinite_of_plain {fragment : Fragment} (plain : fragment.isMarkup = false) :
    fragment.isFinite = true := by
  cases fragment <;> first | rfl | cases plain

end Fragment

namespace Markup

/-- The fragment of a span, if it has one, names finite numbers only. -/
def Span.Finite (span : Span) : Prop :=
  ∀ fragment, span.piece = .markup fragment → fragment.isFinite = true

theorem finite_letterSpan (c : Char) (findings : List Finding) : (letterSpan c findings).Finite := nofun

theorem finite_macroSpan (inside : List Char) : (macroSpan inside).Finite := by
  intro fragment found
  unfold macroSpan at found
  dsimp only at found
  split at found
  · split at found <;> cases found <;> rfl
  · split at found <;> cases found
    rfl
  · split at found <;> cases found
    rfl
  · split at found <;> cases found
    rfl
  · split at found
    · rename_i a read
      cases found
      exact Assignment.isFinite_of_read read
    · cases found
  all_goals cases found

theorem finite_linkSpan (cs : List Char) : (linkSpan cs).Finite := by
  intro fragment found
  unfold linkSpan at found
  split at found
  · cases found
    rw [Fragment.isFinite, Option.all_eq_true]
    exact fun _ own => Choice.isFinite_of_read own
  · cases found

theorem finite_actionSpan (inside : List Char) : (actionSpan inside).Finite := by
  intro fragment found
  unfold actionSpan at found
  dsimp only at found
  split at found
  · rename_i action own
    cases found
    exact Action.isFinite_of_read own
  · cases found

theorem finite_firstSpan (c : Char) (cs : List Char) : (firstSpan c cs).Finite := by
  unfold firstSpan
  split
  · nofun
  · nofun
  · exact finite_linkSpan _
  · cases round.inside? cs with
    | none => exact finite_letterSpan _ _
    | some inside => exact finite_macroSpan inside
  · cases actionInside? c cs with
    | none => exact finite_letterSpan _ _
    | some inside => exact finite_actionSpan inside

theorem finite_of_spans {cs : List Char} {span : Span} (member : span ∈ spans cs) : span.Finite := by
  fun_induction spans cs with
  | case1 => cases member
  | case2 c cs first ih =>
    rcases List.mem_cons.1 member with same | later
    · rw [same]
      exact finite_firstSpan c cs
    · exact ih later

theorem isFinite_of_body {content : String} {line : Nat} {fragment : Fragment}
    (member : fragment ∈ (Body.read content line).fragments) : fragment.isFinite = true := by
  cases markup : fragment.isMarkup with
  | false => exact Fragment.isFinite_of_plain markup
  | true =>
    obtain ⟨span, inside, found⟩ := span_of_fragment member markup
    exact finite_of_spans inside fragment found

end Markup

/-- The default values are finite, and so are the numbers that the bodies name. -/
structure Program.Finite (program : Program) : Prop where
  defaults : ∀ value ∈ program.defaults.values, value.isFinite = true
  bodies : ∀ name key round, program.round? name key = some round →
    ∀ fragment ∈ round.body, fragment.isFinite = true

/- No script names a number that is not finite. -/
theorem Program.Scripted.finite {program : Program} (scripted : program.Scripted) : program.Finite := by
  obtain ⟨source, rfl⟩ := scripted
  refine ⟨Compile.isFinite_defaultsOf source _, ?_⟩
  intro name key round found
  apply round_compile (P := fun _ _ round => ∀ fragment ∈ round.body, fragment.isFinite = true) found
  intro passage title round read fragment member
  rw [read.body] at member
  exact Markup.isFinite_of_body member

end ChatStory
