import ChatStory.Json.Fields
import ChatStory.Proofs.Json.Written
import ChatStory.Proofs.Table

/-!
Structures, lists and tables in documents that were written and read back. A reader of named fields
leaves the fields as they are, so readers of several fields are put together from readers of one.
-/
namespace ChatStory.Json

/-- What a reader makes of named fields. -/
def Reads (r : FieldReader α) (members : List (String × Json)) (result : Option α) : Prop :=
  r (.named members) = result.map (·, .named members)

variable {members : List (String × Json)} {name : String} {j : Json}

theorem reads_pure (a : α) : Reads (pure a) members (some a) := rfl

theorem reads_bind {r : FieldReader α} {f : α → FieldReader β} {first : Option α}
    {next : α → Option β} (head : Reads r members first) (tail : ∀ a, Reads (f a) members (next a)) :
    Reads (r >>= f) members (first.bind next) := by
  unfold Reads at head ⊢
  change FieldReader.bind r f (.named members) = _
  rw [FieldReader.bind, head]
  cases first with
  | none => rfl
  | some a => exact tail a

theorem reads_required {read : Json → Option α}
    (one : members.filter (·.1 == name) = [(name, j)]) :
    Reads (required name read) members (read j) := by
  simp [Reads, required, Fields.take?, one]

theorem reads_defaulted {read : Json → Option α} {default : α}
    (one : members.filter (·.1 == name) = [(name, j)]) :
    Reads (defaulted name default read) members (read j) := by
  simp [Reads, defaulted, Fields.take?, one]

theorem reads_missing {read : Json → Option α} {default : α}
    (none : members.filter (·.1 == name) = []) :
    Reads (defaulted name default read) members (some default) := by
  simp [Reads, defaulted, Fields.take?, none]

/- A field that was written only if there is something to write. -/
theorem reads_perhaps {read : Json → Option α} {default : α} (written : Option Json)
    (one : members.filter (·.1 == name) = (written.map (name, ·)).toList) :
    Reads (defaulted name default read) members (written.elim (some default) read) := by
  cases written with
  | none => exact reads_missing one
  | some j => exact reads_defaulted one

theorem reads_optional {read : Json → Option α}
    (one : members.filter (·.1 == name) = [(name, j)]) :
    Reads (optional name read) members (option? read j) :=
  reads_defaulted one

theorem read_of_reads {r : FieldReader α} {result : Option α} (reads : Reads r members result) :
    (Fields.named members).read? r = result := by
  unfold Fields.read?
  rw [reads]
  cases result <;> rfl

theorem structure_of_reads {r : FieldReader α} {result : Option α}
    (reads : Reads r members result) : structure? r (.record members) = result :=
  read_of_reads reads

/-- A tag that leads its fields, in a place where the whole is accepted. -/
theorem tagged_of_leading {place : Place} {tag name : String} {names : List String}
    {fields : List (String × Json)} (known : names.contains name = true)
    (no_other : ∀ field ∈ fields, field.1 ≠ tag)
    (accepted : ∀ outer, place = .direct outer →
      keepable outer (.record ((tag, .text name) :: fields)) = true) :
    tagged? place tag names (.record ((tag, .text name) :: fields)) = some (name, .named fields) := by
  have tags : fields.filter (·.1 == tag) = [] := by
    rw [List.filter_eq_nil_iff]
    intro field member same
    exact no_other field member (by simpa using same)
  have others : fields.filter (·.1 != tag) = fields := by
    rw [List.filter_eq_self]
    intro field member
    simpa using no_other field member
  have variant : variantName? place names (.text name) = some name := by
    rw [variantName?, if_pos known]
  cases place with
  | kept =>
    unfold tagged?
    dsimp only
    simp [tags, others, variant]
  | direct outer =>
    have kept : guard (keepable outer (.record ((tag, .text name) :: fields)) = true) = some () :=
      if_pos (accepted outer rfl)
    change Option.bind (guard (keepable outer _ = true)) _ = _
    rw [kept, Option.bind_some]
    simp [tags, others, variant]

theorem tagged_of_not_readable {outer : Nat} {tag : String} {names : List String} {j : Json}
    (broken : j.readable = false) : tagged? (.direct outer) tag names j = none := by
  have refused : guard (keepable outer j = true) = (none : Option Unit) :=
    if_neg (by simp [keepable, broken])
  change Option.bind (guard (keepable outer j = true)) _ = _
  rw [refused, Option.bind_none]

theorem rereadItems_eq_map (items : List Json) : rereadItems items = items.map reread := by
  induction items with
  | nil => rfl
  | cons j items ih => rw [rereadItems, ih, List.map_cons]

theorem rereadMembers_eq_map (members : List (String × Json)) :
    rereadMembers members = members.map fun e => (e.1, e.2.reread) := by
  induction members with
  | nil => rfl
  | cons first members ih =>
    obtain ⟨name, j⟩ := first
    rw [rereadMembers, ih, List.map_cons]

/- A list is read back when its items are, whatever they give. -/
theorem listOf_reread {read : Json → Option β} {write : α → Json} {reread? : α → Option β}
    (item : ∀ a, read (write a).reread = reread? a) (items : List α) :
    listOf? read (Json.list (items.map write)).reread = items.mapM reread? := by
  rw [reread, listOf?, rereadItems_eq_map]
  induction items with
  | nil => rfl
  | cons a items ih => simp only [List.map_cons, List.mapM_cons, item, ih]

theorem tableOf_reread {read : Json → Option β} {write : α → Json} {reread? : α → Option β}
    (entry : ∀ a, read (write a).reread = reread? a) (t : Table String α) :
    tableOf? read (ofTable write t).reread = t.mapM? reread? := by
  have entries : ∀ es : List (String × α),
      (rereadMembers (es.map fun e => (e.1, write e.2))).mapM
        (fun e => (read e.2).map (e.1, ·)) = es.mapM fun e => (reread? e.2).map (e.1, ·) := by
    intro es
    rw [rereadMembers_eq_map]
    induction es with
    | nil => rfl
    | cons e es ih => simp only [List.map_cons, List.mapM_cons, entry, ih]
  have whole := entries t.toList
  rw [ofTable, reread, tableOf?, Table.mapM?]
  simp only [bind, pure]
  cases written : t.toList.mapM fun e => (reread? e.2).map (e.1, ·) with
  | none =>
    rw [written] at whole
    rw [whole]
    rfl
  | some es =>
    rw [written] at whole
    rw [whole]
    rfl

theorem mapM_of_same {f : α → Option α} (same : ∀ a, f a = some a) (items : List α) :
    items.mapM f = some items := by
  induction items with
  | nil => rfl
  | cons a items ih =>
    rw [List.mapM_cons, same, ih]
    rfl

theorem text_reread (text : String) : asText? (Json.text text).reread = some text := rfl

theorem ofTexts_reread (texts : List String) : listOf? asText? (ofTexts texts).reread = some texts := by
  rw [ofTexts, listOf_reread text_reread]
  exact mapM_of_same (fun _ => rfl) texts

theorem ofNames_reread (names : NameSet) : nameSet? (ofNames names).reread = some names := by
  rw [nameSet?, ofNames, ofTexts_reread, Option.map_some, NameSet.ofNames_keys]

theorem natural_reread (n : Nat) : asNatural? (natural n).reread = some n := by
  simp only [natural, reread, asNatural?]
  exact Int.mem_toNat?.2 rfl

theorem option_text_reread (text : Option String) :
    option? asText? (ofOption Json.text text).reread = some text := by
  cases text <;> rfl

end ChatStory.Json
