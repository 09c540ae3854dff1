import ChatStory.Document.Player
import ChatStory.Proofs.Document.Readable

/-!
Counts that documents can hold. Whoever wrote a document, every count and every time that is read from it fits a
word, so what was read can be written and read again.
-/
namespace ChatStory

open Json

namespace Json

theorem fitsWords_list {items : List Json} :
    (list items).fitsWords = true ↔ ∀ j ∈ items, j.fitsWords = true := by
  rw [fitsWords]
  induction items with
  | nil => simp [itemsFitWords]
  | cons j rest ih => rw [itemsFitWords, Bool.and_eq_true, ih, List.forall_mem_cons]

theorem fitsWords_record {members : List (String × Json)} :
    (record members).fitsWords = true ↔ ∀ member ∈ members, member.2.fitsWords = true := by
  rw [fitsWords]
  induction members with
  | nil => simp [membersFitWords]
  | cons member rest ih => rw [membersFitWords, Bool.and_eq_true, ih, List.forall_mem_cons]

theorem fitsWords_ofTable {write : α → Json} {t : Table String α} :
    (ofTable write t).fitsWords = true ↔ ∀ a ∈ t.values, (write a).fitsWords = true := by
  rw [ofTable, fitsWords_record, Table.values, Table.toList]
  simp only [List.forall_mem_map]

@[simp] theorem fitsWords_natural {n : Nat} : (natural n).fitsWords = true ↔ n < Decimal.wordLimit := by
  simp [natural, fitsWords]

@[simp] theorem fitsWords_ofOption {write : α → Json} (plain : ∀ a, (write a).fitsWords = true)
    (o : Option α) : (ofOption write o).fitsWords = true := by
  cases o with
  | none => rfl
  | some a => exact plain a

@[simp] theorem fitsWords_ofTexts (texts : List String) : (ofTexts texts).fitsWords = true := by
  rw [ofTexts, fitsWords_list]
  simp only [List.forall_mem_map]
  exact fun _ _ => rfl

theorem takes_natural : Takes asNatural? fun n => n < Decimal.wordLimit := by
  intro j n within read
  cases j with
  | integer i =>
    have fits : i.natAbs < Decimal.wordLimit := of_decide_eq_true within
    cases i with
    | ofNat k =>
      cases read
      exact fits
    | negSucc k => cases read
  | _ => cases read

end Json

@[simp] theorem Value.fitsWords_toJson (v : Value) : v.toJson.fitsWords = true := by
  cases v <;> rfl

@[simp] theorem Pin.fitsWords_toJson (pin : Pin) : pin.toJson.fitsWords = true := by
  have place (x : Option Float) : (ofOption Json.real x).fitsWords = true := fitsWords_ofOption (fun _ => rfl) x
  rw [toJson, fitsWords_record]
  simp [fitsWords, place]

namespace Effect

/-- The count that an effect may have. -/
def count? : Effect → Option Nat
  | typingIndicator n | vibrate n | setTypingDelay n => some n
  | _ => none

theorem fitsWords_toJson {e : Effect} :
    e.toJson.fitsWords = true ↔ ∀ n, e.count? = some n → n < Decimal.wordLimit := by
  have text (o : Option String) : (ofOption Json.text o).fitsWords = true := fitsWords_ofOption (fun _ => rfl) o
  rw [toJson, fitsWords_record]
  cases e <;> simp [fields, count?, fitsWords, text]

theorem yields_word (name : String) :
    Yields (reader name) fun e => ∀ n, e.count? = some n → n < Decimal.wordLimit := by
  have text (field : String) := yields_required_anything field asText?
  have optionalText (field : String) := yields_optional_anything field asText?
  have count (field : String) := yields_required field takes_natural
  unfold reader
  dsimp only
  split
  · exact yields_bind (text _) fun _ _ => yields_pure nofun
  · exact yields_pure nofun
  · exact yields_bind (text _) fun _ _ => yields_bind (optionalText _) fun _ _ => yields_pure nofun
  · exact yields_bind (text _) fun _ _ => yields_bind (optionalText _) fun _ _ => yields_pure nofun
  · exact yields_bind (text _) fun _ _ => yields_bind (optionalText _) fun _ _ => yields_pure nofun
  · exact yields_bind (yields_required_anything _ Pin.ofJson?) fun _ _ => yields_pure nofun
  · exact yields_pure nofun
  · exact yields_bind (text _) fun _ _ => yields_pure nofun
  · exact yields_pure nofun
  · exact yields_bind (count _) fun _ fits => yields_pure fun _ same => Option.some.inj same ▸ fits
  · exact yields_bind (count _) fun _ fits => yields_pure fun _ same => Option.some.inj same ▸ fits
  · exact yields_bind (optionalText _) fun _ _ => yields_bind (text _) fun _ _ => yields_pure nofun
  · exact yields_bind (count _) fun _ fits => yields_pure fun _ same => Option.some.inj same ▸ fits
  · exact yields_bind (text _) fun _ _ => yields_bind (text _) fun _ _ => yields_pure nofun
  · exact yields_bind (optionalText _) fun _ _ => yields_pure nofun
  · exact yields_bind (text _) fun _ _ => yields_bind (yields_required_anything _ Value.ofJson?) fun _ _ =>
      yields_pure nofun
  · exact yields_none

theorem takes_fitsWords (place : Place) : Takes (ofJson? place) fun e => e.toJson.fitsWords = true := by
  simp only [fitsWords_toJson]
  exact takes_tagged yields_word

end Effect

theorem Action.takes_fitsWords (place : Place) :
    Takes (ofJson? place) fun a => a.toJson.fitsWords = true := by
  apply takes_structure
  apply yields_bind (yields_required "kind" (Effect.takes_fitsWords place.inner))
  intro effect fits
  apply yields_bind (yields_defaulted "delay" (by decide) takes_natural)
  intro delay word
  apply yields_pure
  rw [toJson, fitsWords_record]
  simp [fits, word]

namespace Delivery

theorem yields_fitsWords (name : String) : Yields (reader name) fun d => d.toJson.fitsWords = true := by
  unfold reader
  split
  · exact yields_pure rfl
  · exact yields_bind (yields_required_anything _ asText?) fun _ _ => yields_pure rfl
  · apply yields_bind (yields_required _ (Action.takes_fitsWords .kept))
    intro action fits
    apply yields_pure
    rw [toJson, fitsWords_record]
    simp [fits, fitsWords]
  · exact yields_pure rfl
  · exact yields_none

theorem takes_fitsWords (place : Place) : Takes (ofJson? place) fun d => d.toJson.fitsWords = true :=
  takes_tagged yields_fitsWords

end Delivery

theorem SavedTask.takes_fitsWords (place : Place) :
    Takes (ofJson? place) fun pending => pending.toJson.fitsWords = true := by
  apply takes_structure
  apply yields_bind (yields_required_anything "contact" asText?)
  intro contact _
  apply yields_bind (yields_required "fireAt" takes_natural)
  intro time word
  apply yields_bind (yields_required "delivery" (Delivery.takes_fitsWords place.inner))
  intro delivery fits
  apply yields_pure
  rw [toJson, fitsWords_record]
  simp [fits, word, fitsWords]

theorem Notification.takes_fitsWords : Takes ofJson? fun n => n.toJson.fitsWords = true := by
  apply takes_structure
  apply yields_bind (yields_required_anything "contact" asText?)
  intro contact _
  apply yields_bind (yields_optional_anything "title" asText?)
  intro title _
  apply yields_bind (yields_required_anything "text" asText?)
  intro text _
  apply yields_bind (yields_required "timestamp" takes_natural)
  intro timestamp word
  have titled : (ofOption Json.text title).fitsWords = true := fitsWords_ofOption (fun _ => rfl) title
  apply yields_pure
  rw [toJson, fitsWords_record]
  simp [word, titled, fitsWords]

namespace Message

theorem fitsWords_toJson {m : Message} : m.toJson.fitsWords = true ↔ m.timestamp < Decimal.wordLimit := by
  have kind : m.kind.toJson.fitsWords = true := rfl
  rw [toJson, fitsWords_record]
  cases m.media <;> cases m.location <;> simp [kind, fitsWords]

theorem takes_fitsWords (place : Place) : Takes (ofJson? place) fun m => m.toJson.fitsWords = true := by
  have fixed {α : Type} := @yields_required_anything α
  have open_ended {α : Type} := @yields_defaulted_anything α
  refine takes_structure <|
    yields_bind (fixed _ _) fun _ _ => yields_bind (fixed _ _) fun _ _ =>
    yields_bind (fixed _ _) fun _ _ => yields_bind (yields_required _ takes_natural) fun _ word =>
    yields_bind (fixed _ _) fun _ _ => yields_bind (fixed _ _) fun _ _ =>
    yields_bind (open_ended _ _ _) fun _ _ => yields_bind (open_ended _ _ _) fun _ _ =>
    yields_bind (open_ended _ _ _) fun _ _ => yields_pure ?_
  exact fitsWords_toJson.2 word

end Message

namespace Progress

/- The words in progress are its counts, and those of its messages, notifications and tasks. -/
theorem fitsWords_iff {p : Progress} : p.fitsWords = true ↔
    (∀ history ∈ p.histories.values, ∀ m ∈ history, m.toJson.fitsWords = true) ∧
      (∀ pending ∈ p.deliveries, pending.toJson.fitsWords = true) ∧
      (∀ n ∈ p.notifications, n.toJson.fitsWords = true) ∧
      p.typingDelay < Decimal.wordLimit ∧ p.nextId < Decimal.wordLimit := by
  have rounds : (ofTable RoundKey.toJson p.rounds).fitsWords = true := fitsWords_ofTable.2 fun _ _ => rfl
  have threads : (ofTable ThreadState.toJson p.threads).fitsWords = true := fitsWords_ofTable.2 fun _ _ => rfl
  have unlocks : (ofTable ofTexts p.unlocks).fitsWords = true :=
    fitsWords_ofTable.2 fun texts _ => fitsWords_ofTexts texts
  have values : (ofTable Value.toJson p.values).fitsWords = true :=
    fitsWords_ofTable.2 fun value _ => value.fitsWords_toJson
  have statuses : (ofTable Json.text p.statuses).fitsWords = true := fitsWords_ofTable.2 fun _ _ => rfl
  have names (names : NameSet) : (ofNames names).fitsWords = true := fitsWords_ofTexts names.keys
  rw [fitsWords, toJson, fitsWords_record]
  simp only [List.forall_mem_cons, rounds, threads, unlocks, values, statuses, names, true_and,
    List.not_mem_nil, false_implies, implies_true, and_true, fitsWords_natural, fitsWords_ofTable,
    fitsWords_list, List.forall_mem_map]
  constructor
  · rintro ⟨histories, delay, deliveries, notifications, next⟩
    exact ⟨histories, deliveries, notifications, delay, next⟩
  · rintro ⟨histories, deliveries, notifications, delay, next⟩
    exact ⟨histories, delay, deliveries, notifications, next⟩

theorem takes_fitsWords (place : Place) : Takes (ofJson? place) fun p => p.fitsWords = true := by
  have fixed {α : Type} := @yields_required_anything α
  have open_ended {α : Type} := @yields_defaulted_anything α
  refine takes_structure <|
    yields_bind (fixed _ _) fun _ _ => yields_bind (fixed _ _) fun _ _ =>
    yields_bind (yields_required _ (takes_tableOf (takes_listOf (Message.takes_fitsWords place)))) fun _ told =>
    yields_bind (fixed _ _) fun _ _ => yields_bind (fixed _ _) fun _ _ =>
    yields_bind (yields_required _ takes_natural) fun _ delay =>
    yields_bind (open_ended _ _ _) fun _ _ => yields_bind (open_ended _ _ _) fun _ _ =>
    yields_bind (yields_defaulted _ (List.forall_mem_nil _)
      (takes_listOf (SavedTask.takes_fitsWords place.inner.inner))) fun _ waiting =>
    yields_bind (yields_defaulted _ (List.forall_mem_nil _)
      (takes_listOf Notification.takes_fitsWords)) fun _ notified =>
    yields_bind (fixed _ _) fun _ _ => yields_bind (open_ended _ _ _) fun _ _ =>
    yields_bind (yields_defaulted _ (by decide) takes_natural) fun _ next => yields_pure ?_
  exact fitsWords_iff.2 ⟨told, waiting, notified, delay, next⟩

end Progress

namespace Json

mutual
/- What is kept of a document is in range if the document is. -/
theorem inRange_settled (j : Json) (within : j.inRange = true) : j.settled.inRange = true := by
  cases j with
  | list items =>
    rw [inRange] at within
    rw [settled, inRange]
    exact itemsInRange_settled items within
  | record members =>
    rw [inRange] at within
    rw [settled, inRange]
    exact membersInRange_settled members within
  | _ => exact within

theorem itemsInRange_settled (items : List Json) (within : itemsInRange items = true) :
    itemsInRange (settledItems items) = true := by
  cases items with
  | nil => rfl
  | cons j rest =>
    rw [itemsInRange, Bool.and_eq_true] at within
    rw [settledItems, itemsInRange, Bool.and_eq_true]
    exact ⟨inRange_settled j within.1, itemsInRange_settled rest within.2⟩

theorem membersInRange_settled (members : List (String × Json)) (within : membersInRange members = true) :
    membersInRange (settledMembers members) = true := by
  cases members with
  | nil => rfl
  | cons member rest =>
    obtain ⟨name, j⟩ := member
    rw [membersInRange, Bool.and_eq_true] at within
    have others := membersInRange_settled rest within.2
    rw [settledMembers]
    split
    · exact others
    · rw [membersInRange, Bool.and_eq_true]
      exact ⟨inRange_settled j within.1, others⟩
end

end Json

namespace Player

/- Whoever wrote the state of a player, the numbers in it can be written and read again. -/
theorem rereadable_of_decode {path document : String} {player : Player}
    (decoded : decode path document = .ok player) :
    player.progress.fitsWords = true ∧ ∃ read, player.progress.reread? = some read := by
  have sound : Takes read? fun player => player.progress.fitsWords = true ∧ player.progress.isFinite = true := by
    have state : Takes (Progress.ofJson? (.direct 1)) fun p => p.fitsWords = true ∧ p.isFinite = true :=
      fun j p within read =>
        ⟨Progress.takes_fitsWords _ j p within read, Progress.takes_isFinite _ j p within read⟩
    exact takes_structure <| yields_bind (yields_required_anything _ asText?) fun _ _ =>
      yields_bind (yields_required_anything _ asText?) fun _ _ =>
        yields_bind (yields_required _ state) fun _ both => yields_pure both
  unfold decode at decoded
  split at decoded
  · cases decoded
  · rename_i j parsed
    dsimp only at decoded
    split at decoded
    · split at decoded
      · rename_i found read
        cases decoded
        have within : j.inRange = true := inRange_parse (Option.filter_eq_some_iff.1 parsed).1
        obtain ⟨fits, finite⟩ := sound _ _ (inRange_settled j within) read
        rw [← Progress.reread?_isSome] at finite
        exact ⟨fits, Option.isSome_iff_exists.1 finite⟩
      · cases decoded
    · cases decoded

end Player
end ChatStory
