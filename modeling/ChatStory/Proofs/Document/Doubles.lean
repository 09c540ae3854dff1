import ChatStory.Proofs.Document.Progress

/-!
The doubles in saved progress. They stand in the values of variables, in the coordinates of places, and
in the actions that wait on the timeline; all else of a save comes back whatever it is, so a save comes
back as it was exactly if each of its doubles does.
-/
namespace ChatStory

/-- The double is read from its written text as itself. -/
def comesBack (x : Float) : Prop := rereadDouble? x = some x

instance : DecidablePred comesBack := fun x => inferInstanceAs (Decidable (rereadDouble? x = some x))

theorem mapM_eq_self_iff {α : Type} {f : α → Option α} {items : List α} :
    items.mapM f = some items ↔ ∀ item ∈ items, f item = some item := by
  induction items with
  | nil => simp
  | cons first rest ih =>
    rw [List.mapM_cons, List.forall_mem_cons, ← ih]
    cases f first with
    | none => simp
    | some other =>
      cases rest.mapM f with
      | none => simp
      | some others => simp

theorem Table.mapM?_eq_self_iff {α : Type} {f : α → Option α} {t : Table String α} :
    t.mapM? f = some t ↔ ∀ a ∈ t.values, f a = some a := by
  constructor
  · intro same a member
    obtain ⟨e, listed, rfl⟩ := List.mem_map.1 member
    have found : t.get? e.1 = some e.2 := Table.get?_eq_some_iff.2 listed
    have reread := (Table.get?_mapM? same e.1).1
    rw [found] at reread
    exact reread
  · intro same
    have entries := mapM_entries_of_all t.toList (f := f) (g := id) fun e listed =>
      same e.2 (List.mem_map_of_mem listed)
    have plain : t.toList.map (fun e => (e.1, id e.2)) = t.toList := by simp
    rw [mapM?, entries, plain, Option.map_some, ofList_toList]

namespace Value

def doubles : Value → List Float
  | number x => [x]
  | _ => []

theorem reread?_eq_self_iff (v : Value) : v.reread? = some v ↔ ∀ x ∈ v.doubles, comesBack x := by
  cases v <;> simp [reread?, doubles, comesBack]

end Value

theorem rereadCoordinate?_eq_self_iff (x : Option Float) :
    rereadCoordinate? x = some x ↔ ∀ y ∈ x.toList, comesBack y := by
  cases x with
  | none => simp [rereadCoordinate?]
  | some x =>
    have read : ∀ j : Json, Json.option? Json.asReal? j = some (some x) ↔ j.asReal? = some x := by
      intro j
      cases j <;> simp [Json.option?, Json.asReal?]
    simp only [Option.toList_some, List.forall_mem_singleton]
    exact read (Json.rereadReal x)

namespace Pin

def doubles (pin : Pin) : List Float := pin.latitude.toList ++ pin.longitude.toList

theorem reread?_eq_self_iff (pin : Pin) : pin.reread? = some pin ↔ ∀ x ∈ pin.doubles, comesBack x := by
  obtain ⟨label, latitude, longitude⟩ := pin
  unfold doubles
  rw [List.forall_mem_append, ← rereadCoordinate?_eq_self_iff, ← rereadCoordinate?_eq_self_iff]
  unfold reread?
  dsimp only
  cases rereadCoordinate? latitude with
  | none => simp
  | some north =>
    cases rereadCoordinate? longitude with
    | none => simp
    | some east => simp

end Pin

namespace Effect

def doubles : Effect → List Float
  | dropPin pin => pin.doubles
  | setVariable _ value => value.doubles
  | _ => []

theorem reread?_eq_self_iff (e : Effect) : e.reread? = some e ↔ ∀ x ∈ e.doubles, comesBack x := by
  cases e with
  | dropPin pin => simp [reread?, doubles, ← Pin.reread?_eq_self_iff]
  | setVariable name value => simp [reread?, doubles, ← Value.reread?_eq_self_iff]
  | _ => simp [reread?, doubles]

end Effect

namespace Delivery

def doubles : Delivery → List Float
  | payload action => action.effect.doubles
  | _ => []

theorem reread?_eq_self_iff (d : Delivery) : d.reread? = some d ↔ ∀ x ∈ d.doubles, comesBack x := by
  cases d with
  | payload action =>
    obtain ⟨effect, delay⟩ := action
    simp [reread?, Action.reread?, doubles, ← Effect.reread?_eq_self_iff]
  | _ => simp [reread?, doubles]

end Delivery

theorem SavedTask.reread?_eq_self_iff (pending : SavedTask) :
    pending.reread? = some pending ↔ ∀ x ∈ pending.delivery.doubles, comesBack x := by
  obtain ⟨contact, time, delivery⟩ := pending
  simp [reread?, ← Delivery.reread?_eq_self_iff]

namespace Message

def doubles (m : Message) : List Float := m.location.elim [] Pin.doubles

theorem reread?_eq_self_iff (m : Message) : m.reread? = some m ↔ ∀ x ∈ m.doubles, comesBack x := by
  obtain ⟨id, contact, text, timestamp, fromPlayer, kind, media, location, read⟩ := m
  cases location with
  | none => simp [reread?, doubles]
  | some pin => simp [reread?, doubles, ← Pin.reread?_eq_self_iff]

end Message

namespace Progress

/-- All doubles of a story: those of its variables, of the places in its histories, and of the actions
on its timeline. -/
def doubles (p : Progress) : List Float :=
  p.values.values.flatMap Value.doubles ++
    (p.histories.values.flatMap (·.flatMap Message.doubles) ++
      p.deliveries.flatMap fun pending => pending.delivery.doubles)

theorem reread?_eq_self_iff (p : Progress) : p.reread? = some p ↔ ∀ x ∈ p.doubles, comesBack x := by
  have parts : p.reread? = some p ↔ p.values.mapM? Value.reread? = some p.values ∧
      p.histories.mapM? (fun history => history.mapM Message.reread?) = some p.histories ∧
      p.deliveries.mapM SavedTask.reread? = some p.deliveries := by
    unfold reread?
    cases p.histories.mapM? fun history => history.mapM Message.reread? with
    | none => simp
    | some histories =>
      cases p.deliveries.mapM SavedTask.reread? with
      | none => simp
      | some deliveries =>
        cases p.values.mapM? Value.reread? with
        | none => simp
        | some values =>
          constructor
          · intro same
            have whole := Option.some.inj same
            have heard : histories = p.histories := congrArg Progress.histories whole
            have waiting : deliveries = p.deliveries := congrArg Progress.deliveries whole
            have known : values = p.values := congrArg Progress.values whole
            exact ⟨congrArg some known, congrArg some heard, congrArg some waiting⟩
          · rintro ⟨known, heard, waiting⟩
            cases known
            cases heard
            cases waiting
            rfl
  rw [parts, doubles, List.forall_mem_append, List.forall_mem_append, Table.mapM?_eq_self_iff,
    Table.mapM?_eq_self_iff, mapM_eq_self_iff]
  simp only [mapM_eq_self_iff, Value.reread?_eq_self_iff, Message.reread?_eq_self_iff,
    SavedTask.reread?_eq_self_iff, List.mem_flatMap, forall_exists_index, and_imp]
  grind

end Progress
end ChatStory
