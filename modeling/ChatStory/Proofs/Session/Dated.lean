import ChatStory.Proofs.Session.Numbering

/-!
When things are said. Whatever is done at some time says things that are dated with it, each in the thread
of the contact whose message it is, and puts nothing before that time on the timeline. So as long as tasks
come up in order of time, and nothing is done before one that has come up, threads stand in order of time.
-/
namespace ChatStory

/-- Messages that are in order of time. -/
abbrev InTime (messages : List Message) : Prop :=
  messages.Pairwise fun a b => a.timestamp ≤ b.timestamp

namespace Play

/-- What is added to the threads on the way is dated with a time, and belongs to the contacts. -/
def Utters (time : Nat) (a b : Play) : Prop :=
  ∀ c, ∃ said, b.progress.history c = a.progress.history c ++ said ∧
    ∀ m ∈ said, m.timestamp = time ∧ m.contact = c

variable {a b c : Play} {time now clock : Nat}

namespace Utters

theorem of_histories (same : b.progress.histories = a.progress.histories) : Utters time a b := by
  intro contact
  refine ⟨[], ?_, List.forall_mem_nil _⟩
  rw [List.append_nil, Progress.history, Progress.history, same]

theorem refl (time : Nat) (a : Play) : Utters time a a := of_histories rfl

theorem trans (first : Utters time a b) (second : Utters time b c) : Utters time a c := by
  intro contact
  obtain ⟨said, grown, dated⟩ := first contact
  obtain ⟨more, longer, later⟩ := second contact
  refine ⟨said ++ more, ?_, ?_⟩
  · rw [longer, grown, List.append_assoc]
  · intro m member
    exact (List.mem_append.1 member).elim (dated m) (later m)

theorem say (a : Play) (contact : String) (saying : Saying) : Utters time a (a.say contact saying time) := by
  intro other
  rw [Speaks.history_say]
  split
  · rename_i own
    subst own
    refine ⟨_, rfl, ?_⟩
    rintro m member
    rw [List.mem_singleton.1 member]
    exact ⟨rfl, rfl⟩
  · exact ⟨[], (List.append_nil _).symm, List.forall_mem_nil _⟩

theorem putThread (a : Play) (contact : String) (thread : ThreadState) :
    Utters time a (a.putThread contact thread) := by
  rw [putThread_eq]
  exact of_histories rfl

theorem spans (time : Nat) : SpansAll time (Utters time) where
  refl := refl time
  trans := trans
  noted _ _ histories _ _ _ _ := of_histories histories
  scheduled _ _ _ _ _ _ := of_histories rfl
  said a contact saying _ := say a contact saying
  typed _ _ := of_histories rfl
  opened a contact := putThread a contact .active
  unlocked a contact := by
    rw [setUnlocked_eq]
    exact of_histories rfl
  assigned _ _ _ _ := of_histories rfl
  told _ _ _ := of_histories rfl
  ended a contact := putThread a contact .ended

end Utters

/-- What has been said since `told` was told is in order of time, by the clock, and belongs to the contacts;
what waits on the timeline is not before the clock. -/
structure Chronicle (told : String → List Message) (since clock : Nat) (play : Play) : Prop where
  late : since ≤ clock
  said : ∀ c, ∃ more, play.progress.history c = told c ++ more ∧ InTime more ∧
    ∀ m ∈ more, since ≤ m.timestamp ∧ m.timestamp ≤ clock ∧ m.contact = c
  ahead : ∀ slot ∈ play.queue.slots, clock ≤ slot.time

namespace Chronicle

variable {told : String → List Message} {since : Nat}

theorem of_histories (chronicle : Chronicle told since clock a)
    (histories : b.progress.histories = a.progress.histories) (slots : b.queue.slots = a.queue.slots) :
    Chronicle told since clock b := by
  refine ⟨chronicle.late, fun c => ?_, slots ▸ chronicle.ahead⟩
  rw [Progress.history, histories]
  exact chronicle.said c

/- What has been told may be taken to be all that stands in the threads. -/
theorem again (chronicle : Chronicle told since clock a) (early : now ≤ clock) :
    Chronicle a.progress.history now now a := by
  refine ⟨Nat.le_refl now, fun c => ⟨[], (List.append_nil _).symm, .nil, List.forall_mem_nil _⟩, ?_⟩
  exact fun slot member => Nat.le_trans early (chronicle.ahead slot member)

/- Time passes, up to what waits. -/
theorem later (chronicle : Chronicle told since clock a) (later : clock ≤ now)
    (ahead : ∀ slot ∈ a.queue.slots, now ≤ slot.time) : Chronicle told since now a := by
  refine ⟨Nat.le_trans chronicle.late later, fun c => ?_, ahead⟩
  obtain ⟨more, grown, ordered, dated⟩ := chronicle.said c
  refine ⟨more, grown, ordered, fun m member => ?_⟩
  obtain ⟨after, before, own⟩ := dated m member
  exact ⟨after, Nat.le_trans before later, own⟩

/- What is done by the clock goes to the end of the threads. -/
theorem happens (chronicle : Chronicle told since clock a) (utters : Utters clock a b)
    (grows : Grows clock a b) : Chronicle told since clock b := by
  refine ⟨chronicle.late, fun c => ?_, fun slot member => ?_⟩
  · obtain ⟨more, grown, ordered, dated⟩ := chronicle.said c
    obtain ⟨new, longer, now⟩ := utters c
    refine ⟨more ++ new, by rw [longer, grown, List.append_assoc], ?_, fun m member => ?_⟩
    · refine List.pairwise_append.2 ⟨ordered, ?_, fun m old n fresh => ?_⟩
      · refine List.pairwise_of_forall_mem_list fun m first n second => ?_
        rw [(now m first).1, (now n second).1]
      · rw [(now n fresh).1]
        exact (dated m old).2.1
    · rcases List.mem_append.1 member with old | fresh
      · exact dated m old
      · obtain ⟨time, own⟩ := now m fresh
        rw [time]
        exact ⟨chronicle.late, Nat.le_refl _, own⟩
  · obtain ⟨added, slots, intime⟩ := grows.queue
    rcases List.mem_append.1 (slots.mem_iff.1 member) with old | fresh
    · exact chronicle.ahead slot old
    · exact (intime slot fresh).1

/- A story begins by the clock. -/
theorem begins (chronicle : Chronicle told since clock a) :
    Chronicle told since clock (a.beginStory clock) :=
  chronicle.happens ((Utters.spans clock).beginStory a) ((Grows.spans clock).beginStory a)

/- The first task is fired when the clock has come to its time. -/
theorem fire (chronicle : Chronicle told since clock a) {slot : Slot}
    (next : a.queue.next? = some slot) : clock ≤ slot.time ∧
      Chronicle told since slot.time (a.dropFirst.fire slot) := by
  have slots : a.queue.slots = slot :: a.dropFirst.queue.slots := Queue.slots_of_next next
  have passed : clock ≤ slot.time := chronicle.ahead slot (slots ▸ List.mem_cons_self)
  have dropped : Chronicle told since clock a.dropFirst :=
    ⟨chronicle.late, chronicle.said, fun other member =>
      chronicle.ahead other (slots ▸ List.mem_cons_of_mem slot member)⟩
  have first := dropped.later passed fun other member =>
    Queue.time_le_of_next next (slots ▸ List.mem_cons_of_mem slot member)
  exact ⟨passed, first.happens ((Utters.spans slot.time).fire _) (Grows.fire _ slot)⟩

theorem fireDue (chronicle : Chronicle told since clock a) (later : clock ≤ now) :
    Chronicle told since now (a.fireDue now).1 := by
  obtain ⟨⟨moment, early, fired⟩, none⟩ := fireDue_keeps
    (P := fun play => ∃ moment, moment ≤ now ∧ Chronicle told since moment play)
    (fun _ slot ⟨_, _, before⟩ due =>
      ⟨slot.time, (next_of_due due).2, (before.fire (next_of_due due).1).2⟩)
    ⟨clock, later, chronicle⟩
  exact fired.later early fun slot member => Nat.le_of_lt (Queue.due?_eq_none.1 none slot member)

theorem fireUpTo (chronicle : Chronicle told since clock a) (limit : Nat) :
    ∃ moment, clock ≤ moment ∧ Chronicle told since moment (Play.fireUpTo limit a).1 :=
  fireUpTo_keeps (P := fun play => ∃ moment, clock ≤ moment ∧ Chronicle told since moment play)
    (fun _ slot ⟨_, late, before⟩ next =>
      ⟨slot.time, Nat.le_trans late (before.fire next).1, (before.fire next).2⟩)
    limit ⟨clock, Nat.le_refl _, chronicle⟩

end Chronicle

end Play

namespace Session

open Play

variable {s : Session} {told : String → List Message} {since clock now : Nat}

theorem chronicle_settle {play : Play} (chronicle : Chronicle told since clock play) (later : clock ≤ now)
    (s : Session) : Chronicle told since now (s.settle play now).play :=
  (chronicle.fireDue later).of_histories rfl rfl

theorem chronicle_flush (chronicle : Chronicle told since clock s.play) :
    ∃ moment, clock ≤ moment ∧ Chronicle told since moment s.flush.1.play := by
  obtain ⟨moment, late, fired⟩ := chronicle.fireUpTo fireLimit
  refine ⟨moment, late, ?_⟩
  unfold flush fireAll
  dsimp only
  split
  · exact fired
  · exact fired.of_histories rfl rfl

end Session
end ChatStory
