import ChatStory.Action.Reader

/-!
The fields of an action. Each kind names its fields, some of them in several ways, and takes their values from
a list without names in a fixed order. What an action comes to depends on the values of its fields only, not on
the way in which its parameters give them.
-/
namespace ChatStory

namespace Action

/-- The names of the fields of a kind, field by field, in the order of the fields. -/
def fieldNames : String → List (List String)
  | "unlock_contact" | "open_thread" => [["contact", "name"]]
  | "delayed_message" => [["text", "message"], ["contact"]]
  | "send_photo" | "send_video" => [["media", "url", "src", "file", "photo", "video"], ["caption"]]
  | "drop_pin" => [["label", "name", "location"], ["lat", "latitude"], ["lng", "lon", "longitude"]]
  | "typing_indicator" | "vibrate" => [["duration"]]
  | "set_typing_delay" => [["typing_delay", "ms", "value"]]
  | "show_notification" => [["title"], ["text", "message", "body"]]
  | "set_contact_status" => [["contact", "name"], ["status"]]
  | "trigger_emergency_call" => [["number", "phone"]]
  | "set_variable" => [["name", "variable", "var"], ["value", "to"]]
  | _ => []

/-- The fields that a list of values without names gives, one after the other. A message takes the whole list
for its text and has no place for the contact, and a notification with one value only has no title. -/
def unnamedForms (kind : String) : List (List Nat) :=
  match kind with
  | "delayed_message" => [[], [0]]
  | "show_notification" => [[], [1], [0, 1]]
  | _ => (List.range ((fieldNames kind).length + 1)).map List.range

end Action

namespace Params

open ChatStory.Action (fieldNames unnamedForms)

/-- A value that every way of writing can give: it is not empty, and it is no assignment. -/
structure Givable (v : String) : Prop where
  some_text : v ≠ ""
  phrase : Text.cutFirst " to ".toList v.toList = none

/-- The parameters give these values to the fields of a kind, by their names or without any. -/
inductive Gives (kind : String) (value : Nat → Option String) (params : Params) : Prop
  | named (unlisted : params.positional = [])
      (found : ∀ i names, (fieldNames kind)[i]? = some names → params.get? names = value i)
  | unnamed (form : List Nat) (formed : form ∈ unnamedForms kind) (bare : ∀ names, params.get? names = none)
      (listed : form.map value = params.positional.map some) (absent : ∀ i, i ∉ form → value i = none)

section Reading

variable {kind : String} {value : Nat → Option String} {params : Params} {i : Nat} {names : List String}

theorem filter_of_givable (givable : ∀ i v, value i = some v → Givable v) (i : Nat) :
    (value i).filter (· ≠ "") = value i := by
  cases given : value i with
  | none => rfl
  | some v => rw [Option.filter_some, if_pos (decide_eq_true (givable i v given).some_text)]

/- Where the values stand in the order of the fields, each field has the value at its place. -/
theorem field?_of_gives (ordered : unnamedForms kind = (List.range ((fieldNames kind).length + 1)).map List.range)
    (givable : ∀ i v, value i = some v → Givable v) (gives : params.Gives kind value)
    (known : (fieldNames kind)[i]? = some names) : params.field? names i = value i := by
  rw [field?, ← filter_of_givable givable i]
  congr 1
  cases gives with
  | named unlisted found =>
    rw [found i names known, position?, unlisted, List.getElem?_nil, Option.or_none]
  | unnamed form formed bare listed absent =>
    rw [ordered] at formed
    obtain ⟨n, -, rfl⟩ := List.mem_map.1 formed
    have place := congrArg (·[i]?) listed
    simp only [List.getElem?_map] at place
    rw [bare, Option.none_or, position?]
    by_cases within : i < n
    · rw [List.getElem?_range within] at place
      cases stands : params.positional[i]? with
      | none =>
        rw [stands] at place
        cases place
      | some v =>
        rw [stands] at place
        exact (Option.some.inj place).symm
    · rw [absent i (mt List.mem_range.1 within)]
      rw [List.getElem?_eq_none (by rw [List.length_range]; omega)] at place
      exact Option.map_eq_none_iff.1 place.symm

/- No value is taken for an assignment. -/
theorem phrase_of_gives (givable : ∀ i v, value i = some v → Givable v) (gives : params.Gives kind value)
    (single : String) (alone : params.positional = [single]) :
    Text.cutFirst " to ".toList single.toList = none := by
  cases gives with
  | named unlisted found =>
    rw [unlisted] at alone
    cases alone
  | unnamed form formed bare listed absent =>
    rw [alone] at listed
    obtain ⟨i, rest, rfl, given, -⟩ := List.map_eq_cons_iff.1 listed
    exact (givable i single given).phrase

theorem message_of_gives (givable : ∀ i v, value i = some v → Givable v)
    (gives : params.Gives "delayed_message" value) :
    params.joined? ["text", "message"] = value 0 ∧ params.get? ["contact"] = value 1 := by
  rw [joined?, ← filter_of_givable givable 0]
  cases gives with
  | named unlisted found =>
    refine ⟨?_, found 1 _ rfl⟩
    rw [found 0 _ rfl, unlisted]
    cases value 0 <;> rfl
  | unnamed form formed bare listed absent =>
    rw [bare, bare]
    change form ∈ [[], [0]] at formed
    simp only [List.mem_cons, List.not_mem_nil, or_false] at formed
    rcases formed with rfl | rfl
    · rw [absent 0 List.not_mem_nil, absent 1 List.not_mem_nil, List.map_eq_nil_iff.1 listed.symm]
      exact ⟨rfl, rfl⟩
    · obtain ⟨v, rest, shape, given, ends⟩ := List.map_eq_cons_iff.1 listed.symm
      rw [shape, List.map_eq_nil_iff.1 ends, ← given, absent 1 (by decide)]
      exact ⟨rfl, rfl⟩

theorem notification_of_gives (givable : ∀ i v, value i = some v → Givable v)
    (gives : params.Gives "show_notification" value) : Action.notification? params =
      (Action.require "show_notification" "text" (value 1)).map (.showNotification (value 0)) := by
  have some_text : ∀ v, value 1 = some v → v ≠ "" := fun v given => (givable 1 v given).some_text
  unfold Action.notification?
  cases gives with
  | named unlisted found =>
    rw [found 1 _ rfl, found 0 _ rfl, unlisted]
    cases given : value 1 with
    | none => rfl
    | some text => exact if_neg (some_text text given)
  | unnamed form formed bare listed absent =>
    rw [bare, bare]
    change form ∈ [[], [1], [0, 1]] at formed
    simp only [List.mem_cons, List.not_mem_nil, or_false] at formed
    rcases formed with rfl | rfl | rfl
    · rw [absent 0 List.not_mem_nil, absent 1 List.not_mem_nil, List.map_eq_nil_iff.1 listed.symm]
      rfl
    · obtain ⟨text, rest, shape, given, ends⟩ := List.map_eq_cons_iff.1 listed.symm
      rw [shape, List.map_eq_nil_iff.1 ends, ← given, absent 0 (by decide)]
      exact if_neg (some_text text given.symm)
    · obtain ⟨title, rest, shape, given, ends⟩ := List.map_eq_cons_iff.1 listed.symm
      obtain ⟨text, rest, rfl, given', ends⟩ := List.map_eq_cons_iff.1 ends
      rw [shape, List.map_eq_nil_iff.1 ends, ← given, ← given']
      exact if_neg (some_text text given'.symm)

end Reading

end Params

namespace Action

open Params (Givable Gives)

variable {kind : String} {params others : Params} {value : Nat → Option String}

theorem effect?_of_fields (ordinary : kind ∉ ["delayed_message", "show_notification", "set_variable"])
    (same : ∀ i names, (fieldNames kind)[i]? = some names → params.field? names i = others.field? names i) :
    effect? kind params = effect? kind others := by
  unfold effect?
  dsimp only
  split
  case h_6 | h_12 | h_16 => exact absurd (by decide) ordinary
  case h_3 | h_4 | h_5 | h_17 => rfl
  all_goals simp (disch := decide) only [same]

/- Where no value is taken for an assignment it is read from its fields. -/
theorem assignment?_of_bare
    (bare : ∀ single, params.positional = [single] → Text.cutFirst " to ".toList single.toList = none) :
    assignment? params = do
      let name ← require "set_variable" "name" (params.field? ["name", "variable", "var"] 0)
      let value ← require "set_variable" "value" (params.field? ["value", "to"] 1)
      return .setVariable (String.ofList (dropDollars name.toList)) (.ofLiteral value.toList) := by
  unfold assignment?
  cases positional : params.positional with
  | nil => rfl
  | cons single rest =>
    cases rest with
    | nil =>
      dsimp only
      rw [bare single positional]
    | cons next rest => rfl

/- Parameters that give the same values to the fields of a kind have the same effect. -/
theorem effect?_of_gives (givable : ∀ i v, value i = some v → Givable v) (first : params.Gives kind value)
    (second : others.Gives kind value) : effect? kind params = effect? kind others := by
  by_cases message : kind = "delayed_message"
  · subst message
    obtain ⟨text, contact⟩ := Params.message_of_gives givable first
    obtain ⟨text', contact'⟩ := Params.message_of_gives givable second
    simp only [effect?, text, contact, text', contact']
  by_cases notification : kind = "show_notification"
  · subst notification
    exact (Params.notification_of_gives givable first).trans (Params.notification_of_gives givable second).symm
  have ordered : unnamedForms kind = (List.range ((fieldNames kind).length + 1)).map List.range := by
    unfold unnamedForms
    split
    · exact absurd rfl message
    · exact absurd rfl notification
    · rfl
  have same : ∀ i names, (fieldNames kind)[i]? = some names →
      params.field? names i = others.field? names i := fun i names known =>
    (Params.field?_of_gives ordered givable first known).trans
      (Params.field?_of_gives ordered givable second known).symm
  by_cases assignment : kind = "set_variable"
  · subst assignment
    change assignment? params = assignment? others
    rw [assignment?_of_bare (Params.phrase_of_gives givable first),
      assignment?_of_bare (Params.phrase_of_gives givable second), same 0 _ rfl, same 1 _ rfl]
  · exact effect?_of_fields (by simp [message, notification, assignment]) same

end Action

end ChatStory
