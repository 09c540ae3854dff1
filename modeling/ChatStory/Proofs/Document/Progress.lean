import ChatStory.Document.Progress
import ChatStory.Document.Save
import ChatStory.Proofs.Document.Action
import ChatStory.Proofs.RoundKey

/-!
Progress that was saved and read back. Names, counts, texts and their order all come back, and so
does every double whose text reads as that double.
-/
namespace ChatStory

open Json

theorem RoundKey.ofJson_reread (key : RoundKey) : ofJson? key.toJson.reread = some key := by
  change (RoundKey.read? key.display.toList) = some key
  exact read_display key

theorem ThreadState.ofJson_reread (place : Place) (thread : ThreadState) :
    ofJson? place thread.toJson.reread = some thread := by
  cases thread <;> rfl

theorem MessageKind.ofJson_reread (place : Place) (kind : MessageKind) :
    ofJson? place kind.toJson.reread = some kind := by
  cases kind <;> rfl

namespace Message

/-- A message without a place is read back as it is. -/
def reread? (m : Message) : Option Message :=
  match m.location with
  | none => some m
  | some pin => pin.reread?.map fun pin => { m with location := some pin }

theorem ofJson_reread (place : Place) (m : Message) :
    ofJson? place m.toJson.reread = m.reread? := by
  obtain ⟨id, contact, text, timestamp, fromPlayer, kind, media, location, read⟩ := m
  refine (structure_of_reads <|
    reads_bind (reads_required (j := .text id) (by cases media <;> cases location <;> rfl)) fun _ =>
    reads_bind (reads_required (j := .text contact) (by cases media <;> cases location <;> rfl)) fun _ =>
    reads_bind (reads_required (j := .text text) (by cases media <;> cases location <;> rfl)) fun _ =>
    reads_bind (reads_required (j := (natural timestamp).reread)
      (by cases media <;> cases location <;> rfl)) fun _ =>
    reads_bind (reads_required (j := .bool fromPlayer)
      (by cases media <;> cases location <;> rfl)) fun _ =>
    reads_bind (reads_required (j := kind.toJson.reread)
      (by cases media <;> cases location <;> rfl)) fun _ =>
    reads_bind (reads_perhaps (media.map .text)
      (by cases media <;> cases location <;> rfl)) fun _ =>
    reads_bind (reads_perhaps (location.map (Pin.toJson · |>.reread))
      (by cases media <;> cases location <;> rfl)) fun _ =>
    reads_bind (reads_defaulted (j := .bool read) (by cases media <;> cases location <;> rfl)) fun _ =>
    reads_pure _).trans ?_
  rw [natural_reread, MessageKind.ofJson_reread]
  have texts : (media.map Json.text).elim (some none) (option? asText?) = some media := by
    cases media <;> rfl
  rw [texts]
  cases location with
  | none => rfl
  | some pin =>
    have pinned : ((some pin).map (Pin.toJson · |>.reread)).elim (some none) (option? Pin.ofJson?) =
        pin.reread?.map some := by
      rw [← Pin.ofJson_reread]
      rfl
    change _ = pin.reread?.map fun pin =>
      Message.mk id contact text timestamp fromPlayer kind media (some pin) read
    rw [pinned]
    cases pin.reread? <;> rfl

end Message

theorem Notification.ofJson_reread (n : Notification) : ofJson? n.toJson.reread = some n := by
  refine (structure_of_reads <| reads_bind (reads_required rfl) fun _ =>
    reads_bind (reads_optional rfl) fun _ => reads_bind (reads_required rfl) fun _ =>
    reads_bind (reads_required rfl) fun _ => reads_pure _).trans ?_
  rw [option_text_reread, natural_reread]
  rfl

namespace SavedTask

def reread? (pending : SavedTask) : Option SavedTask :=
  pending.delivery.reread?.map fun delivery => { pending with delivery := delivery }

theorem ofJson_reread (pending : SavedTask) {outer : Nat} (inside : outer < 100) :
    ofJson? (.direct outer) pending.toJson.reread = pending.reread? := by
  refine (structure_of_reads <| reads_bind (reads_required rfl) fun _ =>
    reads_bind (reads_required rfl) fun _ => reads_bind (reads_required rfl) fun _ =>
    reads_pure _).trans ?_
  change (Option.bind _ fun _ => Option.bind _ fun _ => Option.bind
    (Delivery.ofJson? (.direct (outer + 1)) pending.delivery.toJson.reread) _) = _
  rw [natural_reread, Delivery.ofJson_reread _ (by omega), reread?]
  cases pending.delivery.reread? <;> rfl

end SavedTask

namespace Progress

/-- Saved progress as it is read back. It cannot be read when one of its values or payloads
has a double without a text of its own. -/
def reread? (p : Progress) : Option Progress := do
  return { p with
    histories := ← p.histories.mapM? fun history => history.mapM Message.reread?
    deliveries := ← p.deliveries.mapM SavedTask.reread?
    values := ← p.values.mapM? Value.reread? }

theorem ofJson_reread (p : Progress) : ofJson? (.direct 1) p.toJson.reread = p.reread? := by
  have rounds : tableOf? RoundKey.ofJson? (ofTable RoundKey.toJson p.rounds).reread =
      some p.rounds := by
    rw [tableOf_reread RoundKey.ofJson_reread]
    exact Table.mapM?_of_same fun _ => rfl
  have threads : tableOf? (ThreadState.ofJson? (.direct 1))
      (ofTable ThreadState.toJson p.threads).reread = some p.threads := by
    rw [tableOf_reread (ThreadState.ofJson_reread (.direct 1))]
    exact Table.mapM?_of_same fun _ => rfl
  have histories : tableOf? (listOf? (Message.ofJson? (.direct 1)))
      (ofTable (fun history => .list (history.map Message.toJson)) p.histories).reread =
        p.histories.mapM? fun history => history.mapM Message.reread? := by
    apply tableOf_reread
    intro history
    exact listOf_reread (Message.ofJson_reread (.direct 1)) history
  have unlocks : tableOf? (listOf? asText?) (ofTable ofTexts p.unlocks).reread = some p.unlocks := by
    rw [tableOf_reread ofTexts_reread]
    exact Table.mapM?_of_same fun _ => rfl
  have deliveries : listOf? (SavedTask.ofJson? (.direct 3))
      (Json.list (p.deliveries.map SavedTask.toJson)).reread = p.deliveries.mapM SavedTask.reread? := by
    apply listOf_reread
    intro pending
    exact SavedTask.ofJson_reread pending (by decide)
  have notifications : listOf? Notification.ofJson?
      (Json.list (p.notifications.map Notification.toJson)).reread = some p.notifications := by
    rw [listOf_reread Notification.ofJson_reread]
    exact mapM_of_same (fun _ => rfl) p.notifications
  have values : tableOf? Value.ofJson? (ofTable Value.toJson p.values).reread =
      p.values.mapM? Value.reread? := tableOf_reread Value.ofJson_reread p.values
  have statuses : tableOf? asText? (ofTable Json.text p.statuses).reread = some p.statuses := by
    rw [tableOf_reread text_reread]
    exact Table.mapM?_of_same fun _ => rfl
  refine (structure_of_reads <| reads_bind (reads_required rfl) fun _ =>
    reads_bind (reads_required rfl) fun _ => reads_bind (reads_required rfl) fun _ =>
    reads_bind (reads_required rfl) fun _ => reads_bind (reads_required rfl) fun _ =>
    reads_bind (reads_required rfl) fun _ => reads_bind (reads_defaulted rfl) fun _ =>
    reads_bind (reads_defaulted rfl) fun _ => reads_bind (reads_defaulted rfl) fun _ =>
    reads_bind (reads_defaulted rfl) fun _ => reads_bind (reads_required rfl) fun _ =>
    reads_bind (reads_defaulted rfl) fun _ => reads_bind (reads_defaulted rfl) fun _ =>
    reads_pure _).trans ?_
  change (Option.bind _ fun _ => Option.bind _ fun _ => Option.bind _ fun _ => Option.bind _ fun _ =>
    Option.bind _ fun _ => Option.bind _ fun _ => Option.bind _ fun _ => Option.bind _ fun _ =>
    Option.bind (listOf? (SavedTask.ofJson? (.direct 3)) _) _) = _
  rw [rounds, threads, histories, ofNames_reread, ofNames_reread, natural_reread, unlocks,
    ofNames_reread, deliveries, notifications, values, statuses, natural_reread, reread?]
  cases p.histories.mapM? fun history => history.mapM Message.reread? with
  | none => rfl
  | some histories =>
    cases p.deliveries.mapM SavedTask.reread? with
    | none => rfl
    | some deliveries => cases p.values.mapM? Value.reread? <;> rfl

/-- Every whole number in it is a word, as the counts and times of a running story are. -/
def fitsWords (p : Progress) : Bool := p.toJson.fitsWords

end Progress

namespace Save

/- A save gives back what its doubles allow. -/
theorem decode_encode {p : Progress} (fits : p.fitsWords = true) :
    (decode (encode p)).toOption = p.reread? := by
  have whole : (Json.record [("schemaVersion", .text schema), ("state", p.toJson)]).fitsWords =
      true := by
    have state : p.toJson.fitsWords = true := fits
    simp [Json.fitsWords, membersFitWords, state]
  have read : read? (Json.record [("schemaVersion", .text schema), ("state", p.toJson)]).reread =
      p.reread?.map (schema, ·) := by
    refine (structure_of_reads <| reads_bind (reads_required rfl) fun _ =>
      reads_bind (reads_required rfl) fun _ => reads_pure _).trans ?_
    rw [Progress.ofJson_reread]
    cases p.reread? <;> rfl
  unfold decode encode
  rw [parse_render whole, Option.bind_some, read]
  cases p.reread? with
  | none => rfl
  | some after => simp [Except.toOption]

end Save
end ChatStory
