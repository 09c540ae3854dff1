import ChatStory.Document.Action
import ChatStory.Proofs.Json.Fields

/-!
Actions and deliveries that were written and read back. They come back as they were but for
their doubles: a value whose text is no double makes all of it unreadable, and a coordinate
without a text of its own is left out.
-/
namespace ChatStory

open Json

/-- The double that a written double is read as. -/
def rereadDouble? (x : Float) : Option Float := (rereadReal x).asReal?

/-- A coordinate that was written as null is none. -/
def rereadCoordinate? : Option Float → Option (Option Float)
  | none => some none
  | some x => option? asReal? (rereadReal x)

theorem coordinate_reread (x : Option Float) :
    option? asReal? (ofOption real x).reread = rereadCoordinate? x := by
  cases x <;> rfl

theorem readable_of_rereadDouble {x y : Float} (read : rereadDouble? x = some y) :
    (rereadReal x).readable = true := by
  rcases rereadReal_cases x with null | unreadable | ⟨z, same⟩ | ⟨i, same⟩
  · rw [null]
    rfl
  · rw [rereadDouble?, unreadable] at read
    cases read
  · rw [same]
    rfl
  · rw [same]
    rfl

theorem readable_of_rereadCoordinate {x y : Option Float} (read : rereadCoordinate? x = some y) :
    (ofOption real x).reread.readable = true := by
  cases x with
  | none => rfl
  | some x =>
    change (rereadReal x).readable = true
    rw [rereadCoordinate?] at read
    rcases rereadReal_cases x with null | unreadable | ⟨z, same⟩ | ⟨i, same⟩
    · rw [null]
      rfl
    · rw [unreadable] at read
      cases read
    · rw [same]
      rfl
    · rw [same]
      rfl

theorem depth_rereadReal (x : Float) : (rereadReal x).depth = 0 := by
  rcases rereadReal_cases x with same | same | ⟨z, same⟩ | ⟨i, same⟩ <;> rw [same] <;> rfl

theorem depth_option_text (text : Option String) :
    (ofOption Json.text text).reread.depth = 0 := by
  cases text <;> rfl

namespace Value

def reread? : Value → Option Value
  | number x => (rereadDouble? x).map number
  | v => some v

theorem ofJson_reread (v : Value) : ofJson? v.toJson.reread = v.reread? := by
  cases v with
  | bool b => rfl
  | text s => rfl
  | number x =>
    change ofJson? (rereadReal x) = (rereadReal x).asReal?.map number
    rcases rereadReal_cases x with same | same | ⟨z, same⟩ | ⟨i, same⟩ <;> rw [same] <;> rfl

theorem readable_of_reread {v w : Value} (read : v.reread? = some w) :
    v.toJson.reread.readable = true := by
  cases v with
  | bool b => rfl
  | text s => rfl
  | number x =>
    obtain ⟨y, found, _⟩ := Option.map_eq_some_iff.1 read
    exact readable_of_rereadDouble found

theorem depth_reread (v : Value) : v.toJson.reread.depth = 0 := by
  cases v with
  | bool b => rfl
  | text s => rfl
  | number x => exact depth_rereadReal x

end Value

namespace Pin

def reread? (pin : Pin) : Option Pin := do
  return { pin with
    latitude := ← rereadCoordinate? pin.latitude
    longitude := ← rereadCoordinate? pin.longitude }

theorem ofJson_reread (pin : Pin) : ofJson? pin.toJson.reread = pin.reread? := by
  obtain ⟨label, latitude, longitude⟩ := pin
  have read : ofJson? (Pin.mk label latitude longitude).toJson.reread =
      (asText? (.text label)).bind fun label =>
        (option? asReal? (ofOption real latitude).reread).bind fun latitude =>
          (option? asReal? (ofOption real longitude).reread).bind fun longitude =>
            some ⟨label, latitude, longitude⟩ := by
    apply structure_of_reads
    apply reads_bind (reads_required rfl)
    intro label
    apply reads_bind (reads_optional rfl)
    intro latitude
    apply reads_bind (reads_optional rfl)
    intro longitude
    exact reads_pure _
  rw [read, coordinate_reread, coordinate_reread]
  rfl

theorem readable_of_reread {pin after : Pin} (read : pin.reread? = some after) :
    pin.toJson.reread.readable = true := by
  obtain ⟨latitude, first, rest⟩ := Option.bind_eq_some_iff.1 read
  obtain ⟨longitude, second, _⟩ := Option.bind_eq_some_iff.1 rest
  have north := readable_of_rereadCoordinate first
  have east := readable_of_rereadCoordinate second
  simp [toJson, Json.reread, rereadMembers, readable, membersReadable, north, east]

theorem depth_reread (pin : Pin) : pin.toJson.reread.depth = 1 := by
  obtain ⟨label, latitude, longitude⟩ := pin
  have flat : ∀ x : Option Float, (ofOption real x).reread.depth = 0 := by
    intro x
    cases x with
    | none => rfl
    | some x => exact depth_rereadReal x
  simp [toJson, Json.reread, rereadMembers, depth, memberDepth, flat]

end Pin

namespace Effect

def reread? : Effect → Option Effect
  | dropPin pin => pin.reread?.map dropPin
  | setVariable name value => value.reread?.map (setVariable name)
  | e => some e

theorem fields_not_tag (e : Effect) : ∀ field ∈ rereadMembers e.fields, field.1 ≠ "type" := by
  cases e <;> simp [fields, rereadMembers]

theorem reader_reads (e : Effect) : Reads (reader e.name) (rereadMembers e.fields) e.reread? := by
  cases e with
  | unlockContact contact | openThread contact =>
    exact (reads_bind (reads_required rfl) fun _ => reads_pure _).trans rfl
  | endThread | callEmergency | needCode => exact reads_pure _
  | delayedMessage text contact =>
    refine (reads_bind (reads_required rfl) fun _ => reads_bind (reads_optional rfl) fun _ =>
      reads_pure _).trans ?_
    rw [option_text_reread]
    rfl
  | sendPhoto media caption | sendVideo media caption =>
    refine (reads_bind (reads_required rfl) fun _ => reads_bind (reads_optional rfl) fun _ =>
      reads_pure _).trans ?_
    rw [option_text_reread]
    rfl
  | dropPin pin =>
    refine (reads_bind (reads_required rfl) fun _ => reads_pure _).trans ?_
    rw [Pin.ofJson_reread, reread?]
    cases pin.reread? <;> rfl
  | typingIndicator n | vibrate n | setTypingDelay n =>
    refine (reads_bind (reads_required rfl) fun _ => reads_pure _).trans ?_
    rw [natural_reread]
    rfl
  | showNotification title text =>
    refine (reads_bind (reads_optional rfl) fun _ => reads_bind (reads_required rfl) fun _ =>
      reads_pure _).trans ?_
    rw [option_text_reread]
    rfl
  | setContactStatus contact status =>
    exact (reads_bind (reads_required rfl) fun _ => reads_bind (reads_required rfl) fun _ =>
      reads_pure _).trans rfl
  | triggerCall number =>
    refine (reads_bind (reads_optional rfl) fun _ => reads_pure _).trans ?_
    rw [option_text_reread]
    rfl
  | setVariable name value =>
    refine (reads_bind (reads_required rfl) fun _ => reads_bind (reads_required rfl) fun _ =>
      reads_pure _).trans ?_
    rw [Value.ofJson_reread, reread?]
    cases value.reread? <;> rfl

theorem ofJson_of_tagged {place : Place} {j : Json} {name : String} {fields : List (String × Json)}
    {result : Option Effect} (tagged : tagged? place "type" names j = some (name, .named fields))
    (reads : Reads (reader name) fields result) : ofJson? place j = result := by
  unfold ofJson?
  rw [tagged]
  exact read_of_reads reads

theorem ofJson_reread (e : Effect) : ofJson? .kept e.toJson.reread = e.reread? := by
  have known : names.contains e.name = true := by
    rw [List.contains_iff_mem]
    exact name_mem_names e
  apply ofJson_of_tagged
  · apply tagged_of_leading known (fields_not_tag e)
    intro _ other
    cases other
  · exact reader_reads e

theorem readable_of_reread {e after : Effect} (read : e.reread? = some after) :
    e.toJson.reread.readable = true := by
  cases e with
  | dropPin pin =>
    obtain ⟨found, same, _⟩ := Option.map_eq_some_iff.1 read
    simp [toJson, Json.reread, rereadMembers, fields, readable, membersReadable,
      Pin.readable_of_reread same]
  | setVariable name value =>
    obtain ⟨found, same, _⟩ := Option.map_eq_some_iff.1 read
    simp [toJson, Json.reread, rereadMembers, fields, readable, membersReadable,
      Value.readable_of_reread same]
  | delayedMessage text contact => cases contact <;> rfl
  | sendPhoto media caption => cases caption <;> rfl
  | sendVideo media caption => cases caption <;> rfl
  | showNotification title text => cases title <;> rfl
  | triggerCall number => cases number <;> rfl
  | _ => rfl

theorem depth_reread (e : Effect) : e.toJson.reread.depth ≤ 2 := by
  cases e <;> simp [toJson, natural, Json.reread, rereadMembers, fields, depth, memberDepth,
    depth_option_text, Pin.depth_reread, Value.depth_reread]

end Effect

namespace Action

def reread? (action : Action) : Option Action :=
  action.effect.reread?.map fun effect => { action with effect := effect }

theorem ofJson_reread (action : Action) : ofJson? .kept action.toJson.reread = action.reread? := by
  refine (structure_of_reads (reads_bind (reads_required rfl) fun _ =>
    reads_bind (reads_defaulted rfl) fun _ => reads_pure _)).trans ?_
  change (Effect.ofJson? .kept action.effect.toJson.reread).bind _ = _
  rw [Effect.ofJson_reread, natural_reread, reread?]
  cases action.effect.reread? <;> rfl

theorem readable_of_reread {action after : Action} (read : action.reread? = some after) :
    action.toJson.reread.readable = true := by
  obtain ⟨effect, found, _⟩ := Option.map_eq_some_iff.1 read
  have kind := Effect.readable_of_reread found
  simp [toJson, natural, Json.reread, rereadMembers, readable, membersReadable, kind]

theorem depth_reread (action : Action) : action.toJson.reread.depth ≤ 3 := by
  have kind := Effect.depth_reread action.effect
  simp only [toJson, natural, Json.reread, rereadMembers, depth, memberDepth]
  omega

end Action

namespace Delivery

def reread? : Delivery → Option Delivery
  | payload action => action.reread?.map payload
  | d => some d

theorem ofJson_of_tagged {place : Place} {j : Json} {name : String} {fields : List (String × Json)}
    {result : Option Delivery} (tagged : tagged? place "type" names j = some (name, .named fields))
    (reads : Reads (reader name) fields result) : ofJson? place j = result := by
  unfold ofJson?
  rw [tagged]
  exact read_of_reads reads

/- A payload is kept whole until its kind is known, so one with an unreadable double is refused
   there and one without is read like any other structure. -/
theorem ofJson_reread (d : Delivery) {outer : Nat} (inside : outer ≤ 100) :
    ofJson? (.direct outer) d.toJson.reread = d.reread? := by
  have keeps : ∀ {j : Json}, j.readable = true → j.depth ≤ 4 → ∀ other,
      Place.direct outer = .direct other → keepable other j = true := by
    intro j whole flat other same
    cases same
    have limit : outer + j.depth ≤ 127 := by omega
    simp [keepable, whole, depthLimit, limit]
  cases d with
  | typing =>
    apply ofJson_of_tagged
    · exact tagged_of_leading (by decide) (by simp [rereadMembers]) (keeps (by decide) (by decide))
    · exact reads_pure _
  | reply text =>
    apply ofJson_of_tagged
    · exact tagged_of_leading (by decide) (by simp [rereadMembers])
        (keeps rfl (by simp [rereadMembers, Json.reread, depth, memberDepth]))
    · exact (reads_bind (reads_required rfl) fun _ => reads_pure _).trans rfl
  | notices =>
    apply ofJson_of_tagged
    · exact tagged_of_leading (by decide) (by simp [rereadMembers]) (keeps (by decide) (by decide))
    · exact reads_pure _
  | payload action =>
    have flat := Action.depth_reread action
    by_cases whole : action.toJson.reread.readable = true
    · apply ofJson_of_tagged
      · exact tagged_of_leading (by decide) (by simp [rereadMembers])
          (keeps (by simp [rereadMembers, readable, membersReadable, whole])
            (by simp [rereadMembers, depth, memberDepth]; omega))
      · refine (reads_bind (reads_required rfl) fun _ => reads_pure _).trans ?_
        rw [Action.ofJson_reread, reread?]
        cases action.reread? <;> rfl
    · have refused : tagged? (.direct outer) "type" names (payload action).toJson.reread = none := by
        apply tagged_of_not_readable
        simp [toJson, rereadMembers, Json.reread, readable, membersReadable, whole]
      unfold ofJson?
      rw [refused]
      cases read : action.reread? with
      | none => simp [reread?, read]
      | some after => exact absurd (Action.readable_of_reread read) whole

end Delivery
end ChatStory
