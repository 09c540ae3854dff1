import ChatStory.Proofs.Document.Doubles
import ChatStory.Proofs.Json.Range

/-!
Saves that can be read. A save is refused exactly if a variable, or an action on the timeline that sets
one, holds a number that is not finite; and no save, whoever wrote it, gives such a number.
-/
namespace ChatStory

open Json

/- The text of a finite double can be read, and what is not finite has no text. -/
theorem rereadDouble?_isSome (x : Float) : (rereadDouble? x).isSome = x.isFinite := by
  cases finite : x.isFinite with
  | true =>
    rcases rereadReal_of_isFinite finite with ⟨y, read⟩ | ⟨i, read⟩ <;> rw [rereadDouble?, read] <;> rfl
  | false =>
    rcases real_spelled x with ⟨_, written⟩ | ⟨other, _⟩
    · rw [rereadDouble?, rereadReal_of_null written]
      rfl
    · rw [finite] at other
      cases other

theorem rereadCoordinate?_isSome (x : Option Float) : (rereadCoordinate? x).isSome = true := by
  cases x with
  | none => rfl
  | some x =>
    rw [rereadCoordinate?]
    rcases real_spelled x with ⟨_, written⟩ | ⟨finite, _⟩
    · rw [rereadReal_of_null written]
      rfl
    · rcases rereadReal_of_isFinite finite with ⟨y, read⟩ | ⟨i, read⟩ <;> rw [read] <;> rfl

theorem mapM_isSome {f : α → Option β} {items : List α} :
    (items.mapM f).isSome = items.all fun a => (f a).isSome := by
  induction items with
  | nil => rfl
  | cons a items ih =>
    rw [List.mapM_cons, List.all_cons, ← ih]
    cases f a with
    | none => rfl
    | some b => cases items.mapM f <;> rfl

theorem Table.mapM?_isSome {f : α → Option β} {t : Table String α} :
    (t.mapM? f).isSome = t.values.all fun a => (f a).isSome := by
  rw [mapM?, Option.isSome_map, ChatStory.mapM_isSome, Table.values, List.all_map]
  simp only [Option.isSome_map]
  rfl

namespace Value

/-- The value is no number, or a finite one. -/
def isFinite : Value → Bool
  | number x => x.isFinite
  | _ => true

theorem reread?_isSome (v : Value) : v.reread?.isSome = v.isFinite := by
  cases v with
  | number x => rw [reread?, Option.isSome_map, rereadDouble?_isSome, isFinite]
  | _ => rfl

theorem takes_isFinite : Takes ofJson? fun v => v.isFinite = true := by
  intro j v within read
  have real : ∀ {x}, j.asReal? = some x → x.isFinite = true := isFinite_of_asReal within
  unfold ofJson? at read
  split at read
  · cases read
    rfl
  · cases read
    rfl
  · obtain ⟨x, found, same⟩ := Option.map_eq_some_iff.1 read
    cases same
    exact real found

end Value

theorem Pin.reread?_isSome (pin : Pin) : pin.reread?.isSome = true := by
  obtain ⟨north, first⟩ := Option.isSome_iff_exists.1 (rereadCoordinate?_isSome pin.latitude)
  obtain ⟨east, second⟩ := Option.isSome_iff_exists.1 (rereadCoordinate?_isSome pin.longitude)
  rw [reread?, first, second]
  rfl

namespace Effect

/-- A value that the effect sets is no number, or a finite one. -/
def isFinite : Effect → Bool
  | setVariable _ value => value.isFinite
  | _ => true

theorem reread?_isSome (e : Effect) : e.reread?.isSome = e.isFinite := by
  cases e with
  | dropPin pin => exact (Option.isSome_map ..).trans (Pin.reread?_isSome pin)
  | setVariable name value => rw [reread?, Option.isSome_map, Value.reread?_isSome, isFinite]
  | _ => rfl

theorem yields_reader (name : String) : Yields (reader name) fun e => e.isFinite = true := by
  have text (field : String) := yields_required_anything field asText?
  have optionalText (field : String) := yields_optional_anything field asText?
  have count (field : String) := yields_required_anything field asNatural?
  unfold reader
  dsimp only
  split
  · exact yields_bind (text _) fun _ _ => yields_pure rfl
  · exact yields_pure rfl
  · exact yields_bind (text _) fun _ _ => yields_bind (optionalText _) fun _ _ => yields_pure rfl
  · exact yields_bind (text _) fun _ _ => yields_bind (optionalText _) fun _ _ => yields_pure rfl
  · exact yields_bind (text _) fun _ _ => yields_bind (optionalText _) fun _ _ => yields_pure rfl
  · exact yields_bind (yields_required_anything _ Pin.ofJson?) fun _ _ => yields_pure rfl
  · exact yields_pure rfl
  · exact yields_bind (text _) fun _ _ => yields_pure rfl
  · exact yields_pure rfl
  · exact yields_bind (count _) fun _ _ => yields_pure rfl
  · exact yields_bind (count _) fun _ _ => yields_pure rfl
  · exact yields_bind (optionalText _) fun _ _ => yields_bind (text _) fun _ _ => yields_pure rfl
  · exact yields_bind (count _) fun _ _ => yields_pure rfl
  · exact yields_bind (text _) fun _ _ => yields_bind (text _) fun _ _ => yields_pure rfl
  · exact yields_bind (optionalText _) fun _ _ => yields_pure rfl
  · exact yields_bind (text _) fun _ _ =>
      yields_bind (yields_required _ Value.takes_isFinite) fun _ finite => yields_pure finite
  · exact yields_none

theorem takes_isFinite (place : Place) : Takes (ofJson? place) fun e => e.isFinite = true :=
  takes_tagged yields_reader

end Effect

namespace Action

abbrev isFinite (action : Action) : Bool := action.effect.isFinite

theorem takes_isFinite (place : Place) : Takes (ofJson? place) fun a => a.isFinite = true := by
  apply takes_structure
  apply yields_bind (yields_required "kind" (Effect.takes_isFinite place.inner))
  intro effect finite
  apply yields_bind (yields_defaulted_anything "delay" _ asNatural?)
  intro delay _
  exact yields_pure finite

end Action

namespace Delivery

/-- A value that is set by it is no number, or a finite one. -/
def isFinite : Delivery → Bool
  | payload action => action.isFinite
  | _ => true

theorem reread?_isSome (d : Delivery) : d.reread?.isSome = d.isFinite := by
  cases d with
  | payload action => rw [reread?, Option.isSome_map, Action.reread?, Option.isSome_map,
      Effect.reread?_isSome, isFinite]
  | _ => rfl

theorem yields_reader (name : String) : Yields (reader name) fun d => d.isFinite = true := by
  unfold reader
  split
  · exact yields_pure rfl
  · exact yields_bind (yields_required_anything _ asText?) fun _ _ => yields_pure rfl
  · exact yields_bind (yields_required _ (Action.takes_isFinite .kept)) fun _ finite =>
      yields_pure finite
  · exact yields_pure rfl
  · exact yields_none

theorem takes_isFinite (place : Place) : Takes (ofJson? place) fun d => d.isFinite = true :=
  takes_tagged yields_reader

end Delivery

theorem SavedTask.reread?_isSome (pending : SavedTask) :
    pending.reread?.isSome = pending.delivery.isFinite := by
  rw [reread?, Option.isSome_map, Delivery.reread?_isSome]

theorem SavedTask.takes_isFinite (place : Place) :
    Takes (ofJson? place) fun pending => pending.delivery.isFinite = true := by
  apply takes_structure
  apply yields_bind (yields_required_anything "contact" asText?)
  intro contact _
  apply yields_bind (yields_required_anything "fireAt" asNatural?)
  intro time _
  apply yields_bind (yields_required "delivery" (Delivery.takes_isFinite place.inner))
  intro delivery finite
  exact yields_pure finite

theorem Message.reread?_isSome (m : Message) : m.reread?.isSome = true := by
  unfold reread?
  cases m.location with
  | none => rfl
  | some pin => rw [Option.isSome_map, Pin.reread?_isSome]

namespace Progress

/-- No variable, and no action on the timeline that sets one, holds a number that is not finite. -/
def isFinite (p : Progress) : Bool :=
  p.values.values.all Value.isFinite && p.deliveries.all fun pending => pending.delivery.isFinite

theorem isFinite_iff {p : Progress} : p.isFinite = true ↔
    (∀ v ∈ p.values.values, v.isFinite = true) ∧
      ∀ pending ∈ p.deliveries, pending.delivery.isFinite = true := by
  rw [isFinite, Bool.and_eq_true, List.all_eq_true, List.all_eq_true]

theorem reread?_isSome (p : Progress) : p.reread?.isSome = p.isFinite := by
  have values : (p.values.mapM? Value.reread?).isSome = p.values.values.all Value.isFinite := by
    rw [Table.mapM?_isSome]
    simp only [Value.reread?_isSome]
  have deliveries : (p.deliveries.mapM SavedTask.reread?).isSome =
      p.deliveries.all fun pending => pending.delivery.isFinite := by
    rw [mapM_isSome]
    simp only [SavedTask.reread?_isSome]
  have heard : (p.histories.mapM? fun history => history.mapM Message.reread?).isSome = true := by
    rw [Table.mapM?_isSome]
    simp only [mapM_isSome, Message.reread?_isSome, List.all_eq_true, implies_true]
  obtain ⟨histories, heard⟩ := Option.isSome_iff_exists.1 heard
  rw [isFinite, ← values, ← deliveries]
  unfold reread?
  rw [heard]
  cases p.deliveries.mapM SavedTask.reread? with
  | none => cases p.values.mapM? Value.reread? <;> rfl
  | some deliveries => cases p.values.mapM? Value.reread? <;> rfl

/- The table of variables is given back exactly if each of its doubles is. -/
theorem values_of_reread? {p q : Progress} (read : p.reread? = some q) :
    q.values = p.values ↔ ∀ v ∈ p.values.values, ∀ x ∈ v.doubles, comesBack x := by
  have values : p.values.mapM? Value.reread? = some q.values := by
    obtain ⟨_, _, read⟩ := Option.bind_eq_some_iff.1 read
    obtain ⟨_, _, read⟩ := Option.bind_eq_some_iff.1 read
    obtain ⟨values, found, same⟩ := Option.bind_eq_some_iff.1 read
    cases same
    exact found
  simp only [← Value.reread?_eq_self_iff, ← Table.mapM?_eq_self_iff]
  rw [values, Option.some.injEq]

theorem takes_isFinite (place : Place) : Takes (ofJson? place) fun p => p.isFinite = true := by
  have fixed {α : Type} := @yields_required_anything α
  have open_ended {α : Type} := @yields_defaulted_anything α
  refine takes_structure <|
    yields_bind (fixed _ _) fun _ _ => yields_bind (fixed _ _) fun _ _ =>
    yields_bind (fixed _ _) fun _ _ => yields_bind (fixed _ _) fun _ _ =>
    yields_bind (fixed _ _) fun _ _ => yields_bind (fixed _ _) fun _ _ =>
    yields_bind (open_ended _ _ _) fun _ _ => yields_bind (open_ended _ _ _) fun _ _ =>
    yields_bind (yields_defaulted _ (List.forall_mem_nil _)
      (takes_listOf (SavedTask.takes_isFinite place.inner.inner))) fun _ waiting =>
    yields_bind (open_ended _ _ _) fun _ _ =>
    yields_bind (yields_required _ (takes_tableOf Value.takes_isFinite)) fun _ known =>
    yields_bind (open_ended _ _ _) fun _ _ => yields_bind (open_ended _ _ _) fun _ _ =>
    yields_pure ?_
  exact isFinite_iff.2 ⟨known, waiting⟩

end Progress

namespace Save

/- The engine's own documents are accepted exactly if all numbers that play a part are finite. -/
theorem decode_encode_isSome {p : Progress} (words : p.fitsWords = true) :
    (decode (encode p)).toOption.isSome = p.isFinite := by
  rw [decode_encode words, Progress.reread?_isSome]

/- Whoever wrote a document, the numbers in it are finite. -/
theorem isFinite_of_decode {document : String} {p : Progress}
    (decoded : (decode document).toOption = some p) : p.isFinite = true := by
  unfold decode at decoded
  split at decoded
  · cases decoded
  · rename_i found q read
    split at decoded <;> cases decoded
    obtain ⟨j, parsed, read⟩ := Option.bind_eq_some_iff.1 read
    have takes : Takes read? fun result => result.2.isFinite = true :=
      takes_structure <| yields_bind (yields_required_anything _ asText?) fun _ _ =>
        yields_bind (yields_required _ (Progress.takes_isFinite (.direct 1))) fun _ finite =>
          yields_pure finite
    exact takes j (found, p) (inRange_parse parsed) read

end Save
end ChatStory
