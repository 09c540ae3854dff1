import ChatStory.Compile
import ChatStory.Proofs.Table

/-!
Programs that come from scripts. Every contact stands under its name and in the order of the
program, has a round, and keeps its rounds under their keys.
-/
namespace ChatStory

/-- A contact with a round, each of them under its own key. -/
structure Contact.WellFormed (contact : Contact) : Prop where
  some_round : ∃ key, contact.firstKey? = some key
  keys : ∀ key round, contact.rounds.get? key = some round → round.key = key

/-- Each contact stands under its own name, and exactly the names in order have contacts. -/
structure Program.WellFormed (program : Program) : Prop where
  names : ∀ name contact, program.contact? name = some contact → contact.name = name
  contacts : ∀ name contact, program.contact? name = some contact → contact.WellFormed
  order : ∀ name, name ∈ program.order ↔ program.has name = true

namespace Table

variable {κ α : Type} [Ord κ] [Std.TransOrd κ] [Std.LawfulEqOrd κ]

theorem first?_some {t : Table κ α} {k : κ} (known : t.contains k = true) : ∃ e, t.first? = some e := by
  have member := contains_iff_mem_keys.1 known
  unfold keys at member
  unfold first?
  cases entries : t.entries with
  | nil =>
    rw [entries] at member
    cases member
  | cons e rest => exact ⟨e, rfl⟩

theorem get?_first {t : Table κ α} {e : κ × α} (first : t.first? = some e) :
    t.get? e.1 = some e.2 := by
  rw [get?_eq_some_iff]
  exact List.mem_of_head? first

end Table

theorem Contact.get?_firstKey {contact : Contact} {key : RoundKey}
    (first : contact.firstKey? = some key) : contact.rounds.contains key = true := by
  obtain ⟨e, found, rfl⟩ := Option.map_eq_some_iff.1 first
  rw [Table.contains, Table.get?_first found]
  rfl

namespace Compile.Draft

/-- What holds of the contacts of a draft after every passage. -/
structure Sound (draft : Draft) : Prop where
  names : ∀ name contact, draft.contacts.get? name = some contact → contact.name = name
  contacts : ∀ name contact, draft.contacts.get? name = some contact → contact.WellFormed
  order : ∀ name, name ∈ draft.order ↔ draft.contacts.contains name = true

theorem Sound.of_same {a b : Draft} (sound : a.Sound) (contacts : b.contacts = a.contacts)
    (order : b.order = a.order) : b.Sound := by
  refine ⟨?_, ?_, ?_⟩
  · rw [contacts]
    exact sound.names
  · rw [contacts]
    exact sound.contacts
  · rw [contacts, order]
    exact sound.order

theorem sound_insert {draft : Draft} (sound : draft.Sound) (name : String) {contact : Contact}
    (named : contact.name = name) (formed : contact.WellFormed) (errors : List Diagnostic) :
    Sound { draft with
      contacts := draft.contacts.insert name contact
      order := if (draft.contacts.get? name).isSome then draft.order else draft.order ++ [name]
      errors := errors } := by
  refine ⟨?_, ?_, ?_⟩
  · intro other found known
    rw [Table.get?_insert] at known
    split at known
    · rename_i same
      cases known
      rw [same, named]
    · exact sound.names other found known
  · intro other found known
    rw [Table.get?_insert] at known
    split at known
    · cases known
      exact formed
    · exact sound.contacts other found known
  · intro other
    have before := sound.order other
    rw [Table.contains_insert]
    split
    · rename_i known
      constructor
      · intro member
        exact .inr (before.1 member)
      · rintro (same | known')
        · subst same
          exact before.2 known
        · exact before.2 known'
    · rw [List.mem_append, List.mem_singleton, before]
      exact or_comm

theorem sound_keepRound {draft : Draft} (sound : draft.Sound) (name : String) (round : Round)
    (initial : Bool) (line : Nat) : (draft.keepRound name round initial line).Sound := by
  unfold keepRound
  dsimp only
  generalize known : (draft.contacts.get? name).getD ⟨name, false, ∅⟩ = contact
  have named : contact.name = name := by
    cases found : draft.contacts.get? name with
    | none =>
      rw [found] at known
      rw [← known]
      rfl
    | some before =>
      rw [found] at known
      rw [← known]
      exact sound.names name before found
  have keys : ∀ key other, contact.rounds.get? key = some other → other.key = key := by
    cases found : draft.contacts.get? name with
    | none =>
      rw [found] at known
      rw [← known]
      intro key other none
      cases none
    | some before =>
      rw [found] at known
      rw [← known]
      exact (sound.contacts name before found).keys
  split
  · rename_i repeated
    obtain ⟨e, first⟩ := Table.first?_some repeated
    refine sound_insert sound name ?_ ?_ _
    · exact named
    · exact ⟨⟨e.1, by simp [Contact.firstKey?, first]⟩, keys⟩
  · refine sound_insert sound name ?_ ?_ _
    · exact named
    constructor
    · have inserted : (contact.rounds.insert round.key round).contains round.key = true := by
        rw [Table.contains_insert]
        exact .inl rfl
      obtain ⟨e, first⟩ := Table.first?_some inserted
      exact ⟨e.1, by simp [Contact.firstKey?, first]⟩
    · intro key other found
      dsimp only at found
      rw [Table.get?_insert] at found
      split at found
      · rename_i same
        cases found
        exact same.symm
      · exact keys key other found

theorem sound_readPassage {draft : Draft} (sound : draft.Sound) (passage : Passage) :
    (draft.readPassage passage).Sound := by
  unfold readPassage
  split
  · exact sound
  · split
    · unfold readAbout
      split
      · dsimp only
        split
        · exact sound
        · exact sound.of_same rfl rfl
      · split
        · split
          · exact sound.of_same rfl rfl
          · exact sound.of_same rfl rfl
        · exact sound
    · unfold readRound
      split
      · exact sound.of_same rfl rfl
      · apply sound_keepRound
        exact sound.of_same rfl rfl

theorem sound_foldl {draft : Draft} (sound : draft.Sound) (passages : List Passage) :
    (passages.foldl readPassage draft).Sound := by
  induction passages generalizing draft with
  | nil => exact sound
  | cons passage rest ih => exact ih (sound_readPassage sound passage)

/- A contact is put in order once, when its first round is read. -/
theorem distinct_readPassage {draft : Draft} (sound : draft.Sound) (distinct : draft.order.Nodup)
    (passage : Passage) : (draft.readPassage passage).order.Nodup := by
  have kept : ∀ name, (if (draft.contacts.get? name).isSome then draft.order
      else draft.order ++ [name]).Nodup := by
    intro name
    split
    · exact distinct
    · rename_i unknown
      have fresh : name ∉ draft.order := fun member => unknown ((sound.order name).1 member)
      refine List.nodup_append.2 ⟨distinct, List.nodup_cons.2 ⟨List.not_mem_nil, .nil⟩, ?_⟩
      intro other member _ same
      rw [List.mem_singleton.1 same]
      exact fun equal => fresh (equal ▸ member)
  unfold readPassage
  split
  · exact distinct
  · split
    · have order : (draft.readAbout passage).order = draft.order := by
        unfold readAbout
        dsimp only
        repeat' split
        all_goals rfl
      rw [order]
      exact distinct
    · unfold readRound
      split
      · exact distinct
      · unfold keepRound
        dsimp only
        split
        · exact kept _
        · exact kept _

variable {P : String → RoundKey → Round → Prop} {draft : Draft}

/-- Every round of a draft has a property under the name of its contact and under its key. -/
def EachRound (P : String → RoundKey → Round → Prop) (draft : Draft) : Prop :=
  ∀ name contact, draft.contacts.get? name = some contact →
    ∀ key round, contact.rounds.get? key = some round → P name key round

/-- The round has the title and the body of a passage, and the condition that opens the body if it is
conditional. -/
structure ReadFrom (passage : Passage) (title : RoundTitle) (round : Round) : Prop where
  read : RoundTitle.read? passage.title = some title
  key : round.key = title.key
  condition : round.condition =
    if title.key.isConditional then openingCondition? round.body else none
  title : round.title = passage.title
  body : round.body = (Markup.Body.read passage.content passage.contentLine).fragments

theorem eachRound_insert (each : EachRound P draft) (name : String) {contact : Contact}
    (own : ∀ key round, contact.rounds.get? key = some round → P name key round)
    (order : List String) (errors : List Diagnostic) : EachRound P { draft with
      contacts := draft.contacts.insert name contact, order := order, errors := errors } := by
  intro other found known
  dsimp only at known
  rw [Table.get?_insert] at known
  split at known
  · rename_i same
    cases known
    rw [same]
    exact own
  · exact each other found known

theorem eachRound_keepRound (each : EachRound P draft) {name : String} {round : Round}
    (own : P name round.key round) (initial : Bool) (line : Nat) :
    EachRound P (draft.keepRound name round initial line) := by
  have before : ∀ key other,
      ((draft.contacts.get? name).getD ⟨name, false, ∅⟩).rounds.get? key = some other →
        P name key other := by
    intro key other found
    cases known : draft.contacts.get? name with
    | none =>
      rw [known] at found
      cases found
    | some contact =>
      rw [known] at found
      exact each name contact known key other found
  unfold keepRound
  dsimp only
  split
  · exact eachRound_insert each name (by exact before) _ _
  · refine eachRound_insert each name ?_ _ draft.errors
    intro key other found
    dsimp only at found
    rw [Table.get?_insert] at found
    split at found
    · rename_i same
      cases found
      rw [same]
      exact own
    · exact before key other found

theorem contacts_readAbout (draft : Draft) (passage : Passage) :
    (draft.readAbout passage).contacts = draft.contacts := by
  unfold readAbout
  dsimp only
  repeat' split
  all_goals rfl

theorem eachRound_readPassage (each : EachRound P draft) {passage : Passage}
    (own : ∀ title round, ReadFrom passage title round → P title.contact title.key round) :
    EachRound P (draft.readPassage passage) := by
  unfold readPassage
  split
  · exact each
  · split
    · unfold EachRound
      rw [contacts_readAbout]
      exact each
    · unfold readRound
      split
      · exact each
      · rename_i title read
        refine eachRound_keepRound (by exact each) ?_ _ _
        exact own title _ ⟨read, rfl, rfl, rfl, rfl⟩

theorem eachRound_foldl (each : EachRound P draft) {passages : List Passage}
    (own : ∀ passage title round, ReadFrom passage title round → P title.contact title.key round) :
    EachRound P (passages.foldl readPassage draft) := by
  induction passages generalizing draft with
  | nil => exact each
  | cons passage rest ih => exact ih (eachRound_readPassage each (own passage))

end Compile.Draft

theorem Compile.Draft.sound_start (source : String) :
    (Compile.Draft.mk (Compile.defaultsOf source (Passage.split source).passages) ∅ []
      default (Passage.split source).errors (Passage.split source).warnings).Sound := by
  refine ⟨?_, ?_, ?_⟩
  · intro name contact none
    cases none
  · intro name contact none
    cases none
  · intro name
    constructor
    · intro none
      cases none
    · intro none
      cases none

theorem wellFormed_compile (source : String) : (compile source).program.WellFormed := by
  have sound := Compile.Draft.sound_foldl (Compile.Draft.sound_start source)
    (Passage.split source).passages
  exact ⟨sound.names, sound.contacts, sound.order⟩

/- No contact stands in the order twice. -/
theorem distinct_compile (source : String) : (compile source).program.order.Nodup := by
  have each : ∀ (passages : List Passage) (draft : Compile.Draft), draft.Sound → draft.order.Nodup →
      (passages.foldl Compile.Draft.readPassage draft).order.Nodup := by
    intro passages
    induction passages with
    | nil => exact fun _ _ distinct => distinct
    | cons passage rest ih =>
      intro draft sound distinct
      exact ih _ (Compile.Draft.sound_readPassage sound passage)
        (Compile.Draft.distinct_readPassage sound distinct passage)
  exact each _ _ (Compile.Draft.sound_start source) .nil

/- What holds of every round that a passage is read as holds of every round of a script. -/
theorem round_compile {P : String → RoundKey → Round → Prop} {source name : String} {key : RoundKey}
    {round : Round} (found : (compile source).program.round? name key = some round)
    (own : ∀ passage title round, Compile.Draft.ReadFrom passage title round →
      P title.contact title.key round) : P name key round := by
  obtain ⟨contact, known, kept⟩ := Option.bind_eq_some_iff.1 found
  refine Compile.Draft.eachRound_foldl ?_ own name contact known key round kept
  intro name contact none
  cases none

/-- A program that a script without errors stands for. -/
def Program.Compiled (program : Program) : Prop :=
  ∃ source, (compile source).result = .ok program

/-- The program that a script stands for, whether or not it has errors. -/
def Program.Scripted (program : Program) : Prop := ∃ source, (compile source).program = program

theorem Program.Scripted.wellFormed {program : Program} (scripted : program.Scripted) :
    program.WellFormed := by
  obtain ⟨source, rfl⟩ := scripted
  exact wellFormed_compile source

theorem Compilation.program_of_result {compilation : Compilation} {program : Program}
    (accepted : compilation.result = .ok program) : compilation.program = program := by
  unfold Compilation.result at accepted
  split at accepted
  · exact Except.ok.inj accepted
  · cases accepted

theorem Program.Compiled.scripted {program : Program} (compiled : program.Compiled) :
    program.Scripted := by
  obtain ⟨source, accepted⟩ := compiled
  exact ⟨source, Compilation.program_of_result accepted⟩

theorem Program.Compiled.wellFormed {program : Program} (compiled : program.Compiled) :
    program.WellFormed :=
  compiled.scripted.wellFormed

namespace Program.WellFormed

variable {program : Program} (formed : program.WellFormed)

include formed

theorem mem_inOrder {contact : Contact} (member : contact ∈ program.inOrder) :
    program.contact? contact.name = some contact := by
  obtain ⟨name, _, found⟩ := List.mem_filterMap.1 member
  rw [formed.names name contact found]
  exact found

theorem inOrder_of_contact {name : String} {contact : Contact}
    (found : program.contact? name = some contact) : contact ∈ program.inOrder := by
  refine List.mem_filterMap.2 ⟨name, ?_, found⟩
  rw [formed.order, has, Table.contains]
  exact Option.isSome_of_eq_some found

theorem has_of_mem {contact : Contact} (member : contact ∈ program.inOrder) :
    program.has contact.name = true :=
  Option.isSome_of_eq_some (formed.mem_inOrder member)

theorem firstKey {contact : Contact} (member : contact ∈ program.inOrder) :
    ∃ key, contact.firstKey? = some key ∧ (program.round? contact.name key).isSome = true := by
  have found := formed.mem_inOrder member
  obtain ⟨key, first⟩ := (formed.contacts _ _ found).some_round
  have known := Contact.get?_firstKey first
  refine ⟨key, first, ?_⟩
  rw [round?, found]
  exact known

/- The key that reopens a thread is the key of one of its rounds. -/
theorem round_of_conditional {contact : Contact} (member : contact ∈ program.inOrder)
    {round : Round} (conditional : round ∈ contact.conditionals) :
    (program.round? contact.name round.key).isSome = true := by
  have found := formed.mem_inOrder member
  obtain ⟨listed, _⟩ := List.mem_filter.1 conditional
  obtain ⟨⟨key, other⟩, entry, same⟩ := List.mem_map.1 listed
  have read : contact.rounds.get? key = some other := Table.get?_eq_some_iff.2 entry
  have own := (formed.contacts _ _ found).keys key other read
  dsimp only at same
  subst same
  rw [round?, found, own, Option.bind_some, read]
  rfl

end Program.WellFormed
end ChatStory
