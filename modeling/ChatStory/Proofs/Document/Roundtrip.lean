import ChatStory.Proofs.Document.Doubles

/-!
Saves that give back what was saved. All of the progress is decoded as it was, whatever texts,
counts, names and kinds stand in it, exactly if each of its doubles comes back from its written text.
-/
namespace ChatStory.Save

variable {p : Progress}

theorem decode_encode_iff (words : p.fitsWords = true) :
    decode (encode p) = .ok p ↔ ∀ x ∈ p.doubles, comesBack x := by
  rw [← Progress.reread?_eq_self_iff, ← decode_encode words]
  cases decode (encode p) <;> simp [Except.toOption]

/- Progress whose doubles are finite is decoded to itself, provided that every finite double in it is
   read from its text as itself. -/
theorem decode_encode_of_finite (words : p.fitsWords = true)
    (finite : ∀ x ∈ p.doubles, x.isFinite = true)
    (printed : ∀ x ∈ p.doubles, x.isFinite = true → comesBack x) : decode (encode p) = .ok p := by
  apply (decode_encode_iff words).2
  intro x member
  exact printed x member (finite x member)

/-- Quotes, a backslash, control characters, and characters of two, three and four bytes. -/
def oddText : String := "\"\\/\n\r\t\x01\x1f\x7f é€😀"

/-- Messages of every kind, with and without media, place and read flag. -/
def everyMessage : List Message :=
  let message (kind : MessageKind) (media : Option String) (location : Option Pin) (read : Bool) :
      Message := ⟨oddText, "A", oddText, 18446744073709551615, !read, kind, media, location, read⟩
  [message .text none none false, message .photo (some oddText) none true,
    message .video (some "") none false,
    message .location none (some ⟨oddText, some 51.4779, some (-0.0)⟩) true,
    message .location none (some ⟨"", none, none⟩) false, message .typing none none true,
    message .unlockContact none none false, message .endThread none none true]

/-- Every kind of delivery, and every kind of action that can wait. -/
def everyDelivery : List Delivery :=
  let effects : List Effect := [.unlockContact oddText, .endThread, .delayedMessage oddText none,
    .delayedMessage "" (some oddText), .sendPhoto oddText (some ""), .sendVideo "" none,
    .dropPin ⟨oddText, none, some 0.1⟩, .callEmergency, .openThread "", .needCode,
    .typingIndicator 0, .setTypingDelay 18446744073709551615, .showNotification none oddText,
    .showNotification (some "") "", .vibrate 1, .setContactStatus "A" oddText, .triggerCall none,
    .triggerCall (some "911"), .setVariable oddText (.number 1.7976931348623157e308),
    .setVariable "x" (.text oddText), .setVariable "" (.bool true)]
  [.typing, .reply oddText, .notices] ++ effects.map fun effect => .payload ⟨effect, 3000⟩

/-- Progress with something in every field. -/
def fullProgress : Progress where
  rounds := .ofList [("A", ⟨1, none⟩), (oddText, ⟨4294967295, some 0⟩)]
  threads := .ofList [("A", .active), ("B", .locked), (oddText, .ended)]
  histories := .ofList [("A", everyMessage), (oddText, [])]
  unlocked := .ofNames ["A", oddText]
  viewed := .ofNames []
  typingDelay := 2000
  unlocks := .ofList [("A", ["B", oddText, "B"]), ("B", [])]
  endings := .ofNames ["", oddText]
  deliveries := everyDelivery.map fun delivery => ⟨"A", 3400, delivery⟩
  notifications := [⟨"A", some oddText, "", 0⟩, ⟨"", none, oddText, 1⟩]
  values := .ofList [("", .number 5e-324), ("n", .number (-1e23)), ("t", .text oddText),
    (oddText, .bool false)]
  statuses := .ofList [("A", oddText)]
  nextId := 7

theorem decode_encode_fullProgress : fullProgress.fitsWords = true ∧
    (∀ x ∈ fullProgress.doubles, x.isFinite = true) ∧
    (∀ x ∈ fullProgress.doubles, x.isFinite = true → comesBack x) ∧
    decode (encode fullProgress) = .ok fullProgress := by
  have words : fullProgress.fitsWords = true := by decide +kernel
  have finite : ∀ x ∈ fullProgress.doubles, x.isFinite = true := by decide +kernel
  have printed : ∀ x ∈ fullProgress.doubles, x.isFinite = true → comesBack x := by decide +kernel
  exact ⟨words, finite, printed, decode_encode_of_finite words finite printed⟩

end ChatStory.Save
