import ChatStory.Json.Fields
import ChatStory.Proofs.Json.Legible
import ChatStory.Proofs.Table

/-!
The numbers that documents can hold. What is read from a numeral is finite, whatever its digits and its
exponent say, and so are all doubles that are read from a document.
-/
namespace ChatStory.Json

open Decimal Float.Model Float.Model.UnpackedFloat

/-- A power of ten from the table is not below one. -/
def tableAbove (e : Nat) : Bool :=
  match (powerOfTen e).toModel.unpack with
  | .finite _ m f _ => decide (2 ^ 52 ≤ m * 2 ^ (f + 52).toNat ∧ -52 ≤ f)
  | _ => false

theorem tableAbove_all : ∀ e < 23, tableAbove e = true := by decide +kernel

theorem atLeastOne_powerOfTen {e : Nat} (small : e ≤ 308) :
    AtLeastOne (powerOfTen e).toModel.unpack := by
  by_cases short : e < 23
  · have above := tableAbove_all e short
    unfold tableAbove at above
    split at above
    · rename_i m f _ shape
      obtain ⟨more, least⟩ := of_decide_eq_true above
      rw [shape]
      have more := Nat.cast_le (α := ℚ).2 more
      push_cast at more
      rw [← scaled_by_unit least, ← mul_assoc] at more
      change (1 : ℚ) ≤ m * 2 ^ f
      linarith
    · cases above
  · exact atLeastOne_ofScientific (m := 1) (by omega) Nat.one_ne_zero small (powerOfTen_lt small)

theorem isFinite_powerOfTen {e : Nat} (small : e ≤ 308) : (powerOfTen e).isFinite = true := by
  have large := atLeastOne_powerOfTen small
  change (powerOfTen e).toModel.unpack.isFinite = true
  cases shape : (powerOfTen e).toModel.unpack with
  | finite s m f positive => rfl
  | _ =>
    rw [shape] at large
    exact large.elim

theorem isFinite_div_powerOfTen {x : Float} (finite : x.isFinite = true) {e : Nat} (small : e ≤ 308) :
    (x / powerOfTen e).isFinite = true :=
  isFinite_div finite (atLeastOne_powerOfTen small)

theorem isFinite_scaleDown {x : Float} (finite : x.isFinite = true) (n : Nat) :
    (scaleDown x n).isFinite = true := by
  fun_induction scaleDown x n with
  | case1 x n small => exact isFinite_div_powerOfTen finite small
  | case2 x n _ _ => exact finite
  | case3 x n _ _ ih => exact ih (isFinite_div_powerOfTen finite (Nat.le_refl _))

theorem isFinite_of_scaled {w : Nat} {exp : Int} {x : Float} (fits : w < wordLimit)
    (scaled : scaled? w exp = some x) : x.isFinite = true := by
  have word : (Float.ofNat w).isFinite = true := (atMost_word fits).isFinite
  unfold scaled? at scaled
  dsimp only at scaled
  split at scaled
  · cases scaled
    exact isFinite_scaleDown word _
  · split at scaled
    · rename_i small
      split at scaled
      · cases scaled
      · rename_i bounded
        cases scaled
        exact isFinite_mul_of_isInf word (isFinite_powerOfTen (by omega))
          (Bool.not_eq_true _ ▸ bounded)
    · split at scaled <;> cases scaled
      exact word

mutual
/-- Every number in it is one that can be read: a finite double, or a whole number that fits a word but for
its sign. -/
def inRange : Json → Bool
  | list items => itemsInRange items
  | record members => membersInRange members
  | real x => x.isFinite
  | integer i => decide (i.natAbs < wordLimit)
  | _ => true
def itemsInRange : List Json → Bool
  | [] => true
  | j :: rest => j.inRange && itemsInRange rest
def membersInRange : List (String × Json) → Bool
  | [] => true
  | (_, j) :: rest => j.inRange && membersInRange rest
end

theorem inRange_list {items : List Json} :
    (list items).inRange = true ↔ ∀ j ∈ items, j.inRange = true := by
  rw [inRange]
  induction items with
  | nil => simp [itemsInRange]
  | cons j rest ih => rw [itemsInRange, Bool.and_eq_true, ih, List.forall_mem_cons]

theorem inRange_record {members : List (String × Json)} :
    (record members).inRange = true ↔ ∀ member ∈ members, member.2.inRange = true := by
  rw [inRange]
  induction members with
  | nil => simp [membersInRange]
  | cons member rest ih => rw [membersInRange, Bool.and_eq_true, ih, List.forall_mem_cons]

/- Whatever numeral is read, its number is in range. -/
theorem inRange_value (n : Numeral) : n.value.inRange = true := by
  have signed : ∀ {x : Float}, x.isFinite = true →
      (if n.negative then -x else x).isFinite = true := by
    intro x finite
    split
    · exact isFinite_neg finite
    · exact finite
  have start : 0 < wordLimit := by decide
  have fits := (gather_le n.whole start).1
  unfold Numeral.value
  generalize gather 0 n.whole = gathered at *
  obtain ⟨word, left⟩ := gathered
  dsimp only at *
  split
  · split
    · exact decide_eq_true (by rwa [Int.natAbs_natCast])
    · split
      · exact signed (atMost_word fits).isFinite
      · exact decide_eq_true (by rwa [Int.natAbs_neg, Int.natAbs_natCast])
  · have fits := (gather_le (n.fraction.getD []) fits).1
    generalize gather word (n.fraction.getD []) = gathered at *
    obtain ⟨word, unused⟩ := gathered
    dsimp only at *
    split
    · rename_i x scaled
      exact signed (isFinite_of_scaled fits scaled)
    · rfl

theorem isFinite_nearest {w : Nat} (fits : w < wordLimit) : (nearest w 0).isFinite = true := by
  have short : (Nat.toDigits 10 w).length ≤ 20 :=
    Nat.toDigits_length 10 w 20 (by decide) (fits.trans (by decide))
  unfold nearest
  dsimp only
  split
  · rfl
  · rw [if_neg (by omega)]
    exact (atMost_word fits).isFinite

/- A number in range is a finite double. -/
theorem isFinite_of_asReal {j : Json} (within : j.inRange = true) {x : Float}
    (read : j.asReal? = some x) : x.isFinite = true := by
  cases j with
  | real y =>
    cases read
    exact within
  | integer i =>
    have fits : i.natAbs < wordLimit := of_decide_eq_true within
    cases read
    have finite := isFinite_nearest fits
    split
    · exact isFinite_neg finite
    · exact finite
  | _ => cases read

theorem inRange_number {cs rest : List Char} {j : Json} (read : number? cs = some (j, rest)) :
    j.inRange = true := by
  unfold number? at read
  simp only [bind, Option.bind_eq_some_iff, pure] at read
  obtain ⟨_, _, _, _, _, _, same⟩ := read
  cases same
  exact inRange_value _

theorem inRange_scalar {cs rest : List Char} {j : Json} (read : scalar? cs = some (j, rest)) :
    j.inRange = true := by
  unfold scalar? at read
  split at read
  · obtain ⟨l, _, same⟩ := Option.map_eq_some_iff.1 read
    cases same
    cases l.1 <;> rfl
  · rcases Option.or_eq_some_iff.1 read with word | ⟨_, number⟩
    · simp only [word?, Option.or_eq_some_iff, Option.map_eq_some_iff, Prod.mk.injEq] at word
      rcases word with ⟨_, _, rfl, _⟩ | ⟨_, ⟨_, _, rfl, _⟩ | ⟨_, _, _, rfl, _⟩⟩ <;> rfl
    · exact inRange_number number

theorem inRange_consMember {name : Option (List Char)} {j : Json}
    {members all : Option (List (String × Json))} (value : j.inRange = true)
    (others : ∀ ms, members = some ms → (record ms).inRange = true)
    (read : consMember name j members = all) : ∀ ms, all = some ms → (record ms).inRange = true := by
  rintro ms rfl
  obtain ⟨_, _, read⟩ := Option.bind_eq_some_iff.1 read
  obtain ⟨rest, found, same⟩ := Option.bind_eq_some_iff.1 read
  cases same
  rw [inRange_record, List.forall_mem_cons]
  exact ⟨value, inRange_record.1 (others rest found)⟩

/-- What the readers give is in range, for texts shorter than `n`. -/
structure ReadsInRange (n : Nat) : Prop where
  value : ∀ {cs j r}, cs.length < n → value? cs = some (j, r) → j.inRange = true
  items : ∀ {cs items r}, cs.length < n → items? cs = some (items, r) → (list items).inRange = true
  members : ∀ {cs members r}, cs.length < n → members? cs = some (members, r) →
    ∀ ms, members = some ms → (record ms).inRange = true

theorem inRange_value_of_shorter {n : Nat} (shorter : ReadsInRange n) {cs : List Char} {j : Json}
    {r : Rest cs} (small : cs.length < n + 1) (read : value? cs = some (j, r)) : j.inRange = true := by
  unfold value? at read
  split at read
  · rename_i rest start
    have := length_of_skip start
    split at read
    · cases read
      rfl
    · obtain ⟨⟨items, _⟩, found, same⟩ := Option.bind_eq_some_iff.1 read
      cases same
      exact shorter.items (by omega) found
  · rename_i rest start
    have := length_of_skip start
    split at read
    · cases read
      rfl
    · obtain ⟨⟨members, _⟩, found, same⟩ := Option.bind_eq_some_iff.1 read
      cases same
      cases members with
      | none => rfl
      | some ms => exact shorter.members (by omega) found ms rfl
  · split at read
    · rename_i scalar
      cases read
      exact inRange_scalar scalar
    · cases read

theorem readsInRange (n : Nat) : ReadsInRange n := by
  induction n with
  | zero => exact ⟨nofun, nofun, nofun⟩
  | succ n ih =>
    refine ⟨inRange_value_of_shorter ih, ?_, ?_⟩
    · intro cs items r small read
      unfold items? at read
      obtain ⟨⟨j, rest, shorter⟩, first, read⟩ := Option.bind_eq_some_iff.1 read
      have value := inRange_value_of_shorter ih small first
      dsimp only at read
      split at read
      · cases read
        exact inRange_list.2 (List.forall_mem_singleton.2 value)
      · rename_i rest' next
        have := length_of_skip next
        obtain ⟨⟨others, _⟩, found, same⟩ := Option.bind_eq_some_iff.1 read
        cases same
        have := ih.items (by omega) found
        exact inRange_list.2 (List.forall_mem_cons.2 ⟨value, inRange_list.1 this⟩)
      · cases read
    · intro cs members r small read
      unfold members? at read
      obtain ⟨⟨name, rest, shorter⟩, _, read⟩ := Option.bind_eq_some_iff.1 read
      obtain ⟨⟨j, rest', shorter'⟩, first, read⟩ := Option.bind_eq_some_iff.1 read
      dsimp only at first read
      have value := ih.value (by omega) first
      split at read
      · cases read
        exact inRange_consMember value (by rintro _ ⟨⟩; rfl) rfl
      · rename_i after next
        have := length_of_skip next
        obtain ⟨⟨others, _⟩, found, same⟩ := Option.bind_eq_some_iff.1 read
        cases same
        exact inRange_consMember value (ih.members (by omega) found) rfl
      · cases read

/-- Fields whose numbers are in range. -/
def Fields.InRange : Fields → Prop
  | named members => ∀ member ∈ members, member.2.inRange = true
  | ordered items => ∀ j ∈ items, j.inRange = true

/-- What is read from fields whose numbers are in range has a property, and what is left of them is still in
range. -/
def Yields (r : FieldReader α) (P : α → Prop) : Prop :=
  ∀ fields a rest, Fields.InRange fields → r fields = some (a, rest) → P a ∧ rest.InRange

/-- What is read from a value whose numbers are in range has a property. -/
def Takes (read : Json → Option α) (P : α → Prop) : Prop :=
  ∀ j a, j.inRange = true → read j = some a → P a

theorem inRange_take {name : String} {fields rest : Fields} {found : Option Json}
    (within : fields.InRange) (taken : fields.take? name = some (found, rest)) :
    (∀ j, found = some j → j.inRange = true) ∧ rest.InRange := by
  cases fields with
  | ordered items =>
    cases items with
    | nil =>
      cases taken
      exact ⟨nofun, within⟩
    | cons j items =>
      cases taken
      obtain ⟨first, others⟩ := List.forall_mem_cons.1 within
      refine ⟨?_, others⟩
      rintro _ ⟨⟩
      exact first
  | named members =>
    unfold Fields.take? at taken
    dsimp only at taken
    split at taken
    · cases taken
      exact ⟨nofun, within⟩
    · rename_i name' j only
      cases taken
      refine ⟨?_, within⟩
      rintro _ ⟨⟩
      have listed : (name', j) ∈ members.filter (·.1 == name) := by
        rw [only]
        exact List.mem_singleton_self _
      exact within _ (List.mem_of_mem_filter listed)
    · cases taken

variable {P : α → Prop} {Q : β → Prop}

theorem yields_pure {a : α} (property : P a) : Yields (pure a) P := by
  intro fields b rest within same
  cases same
  exact ⟨property, within⟩

theorem yields_bind {r : FieldReader α} {f : α → FieldReader β} (head : Yields r P)
    (tail : ∀ a, P a → Yields (f a) Q) : Yields (r >>= f) Q := by
  intro fields b rest within read
  change FieldReader.bind r f fields = _ at read
  unfold FieldReader.bind at read
  split at read
  · rename_i a left found
    obtain ⟨property, within⟩ := head fields a left within found
    exact tail a property left b rest within read
  · cases read

theorem yields_none : Yields (fun _ => none) P := by
  intro fields a rest _ read
  cases read

theorem yields_required (name : String) {read : Json → Option α} (takes : Takes read P) :
    Yields (required name read) P := by
  intro fields a rest within found
  unfold required at found
  split at found
  · rename_i j left taken
    obtain ⟨value, within⟩ := inRange_take within taken
    obtain ⟨b, reads, same⟩ := Option.map_eq_some_iff.1 found
    cases same
    exact ⟨takes j a (value j rfl) reads, within⟩
  · cases found

theorem yields_defaulted (name : String) {default : α} {read : Json → Option α} (missing : P default)
    (takes : Takes read P) : Yields (defaulted name default read) P := by
  intro fields a rest within found
  unfold defaulted at found
  split at found
  · rename_i j left taken
    obtain ⟨value, within⟩ := inRange_take within taken
    obtain ⟨b, reads, same⟩ := Option.map_eq_some_iff.1 found
    cases same
    exact ⟨takes j a (value j rfl) reads, within⟩
  · rename_i left taken
    cases found
    exact ⟨missing, (inRange_take within taken).2⟩
  · cases found

/-- Nothing is said of what is read. -/
abbrev anything (_ : α) : Prop := True

theorem takes_anything (read : Json → Option α) : Takes read anything := by
  intro j a _ _
  trivial

theorem yields_required_anything (name : String) (read : Json → Option α) :
    Yields (required name read) anything :=
  yields_required name (takes_anything read)

theorem yields_defaulted_anything (name : String) (default : α) (read : Json → Option α) :
    Yields (defaulted name default read) anything :=
  yields_defaulted name trivial (takes_anything read)

theorem yields_optional_anything (name : String) (read : Json → Option α) :
    Yields (optional name read) anything := by
  intro fields a rest within found
  unfold optional at found
  split at found
  · exact yields_defaulted_anything name none _ fields a rest within found
  · exact yields_required_anything name _ fields a rest within found

theorem of_read {r : FieldReader α} (yields : Yields r P) {fields : Fields} (within : fields.InRange)
    {a : α} (read : fields.read? r = some a) : P a := by
  unfold Fields.read? at read
  split at read
  · rename_i b rest found
    split at read <;> cases read
    exact (yields fields a rest within found).1
  · cases read

theorem takes_structure {r : FieldReader α} (yields : Yields r P) : Takes (structure? r) P := by
  intro j a within read
  obtain ⟨fields, opened, read⟩ := Option.bind_eq_some_iff.1 read
  apply of_read yields _ read
  cases j with
  | record members =>
    cases opened
    exact inRange_record.1 within
  | list items =>
    cases opened
    exact inRange_list.1 within
  | _ => cases opened

/- The fields of a variant are the other members of a record, or the rest of a list. -/
theorem fields_of_tagged {place : Place} {tag name : String} {names : List String} {j : Json}
    {fields : Fields} (tagged : tagged? place tag names j = some (name, fields)) :
    (∃ members, j = record members ∧ fields = .named (members.filter (·.1 != tag))) ∨
      ∃ first rest, j = list (first :: rest) ∧ fields = .ordered rest := by
  unfold tagged? at tagged
  dsimp only at tagged
  cases place
  case' direct outer => replace tagged := (Option.bind_eq_some_iff.1 tagged).choose_spec.2
  case' kept => dsimp only at tagged
  all_goals
    split at tagged
    · split at tagged
      · obtain ⟨_, _, same⟩ := Option.bind_eq_some_iff.1 tagged
        cases same
        exact .inl ⟨_, rfl, rfl⟩
      · cases tagged
    · obtain ⟨_, _, same⟩ := Option.bind_eq_some_iff.1 tagged
      cases same
      exact .inr ⟨_, _, rfl, rfl⟩
    · cases tagged

theorem inRange_tagged {place : Place} {tag name : String} {names : List String} {j : Json}
    {fields : Fields} (within : j.inRange = true)
    (tagged : tagged? place tag names j = some (name, fields)) : fields.InRange := by
  rcases fields_of_tagged tagged with ⟨members, rfl, rfl⟩ | ⟨first, rest, rfl, rfl⟩
  · intro member listed
    exact inRange_record.1 within member (List.mem_filter.1 listed).1
  · exact (List.forall_mem_cons.1 (inRange_list.1 within)).2

theorem takes_tagged {place : Place} {tag : String} {names : List String}
    {reader : String → FieldReader α} (yields : ∀ name, Yields (reader name) P) :
    Takes (fun j => do
      let (name, fields) ← tagged? place tag names j
      fields.read? (reader name)) P := by
  intro j a within read
  obtain ⟨⟨name, fields⟩, tagged, read⟩ := Option.bind_eq_some_iff.1 read
  exact of_read (yields name) (inRange_tagged within tagged) read

theorem takes_listOf {read : Json → Option α} (takes : Takes read P) :
    Takes (listOf? read) fun items => ∀ a ∈ items, P a := by
  intro j items within found
  unfold listOf? at found
  split at found
  · intro a member
    obtain ⟨item, listed, reads⟩ := of_mapM_mem found member
    exact takes item a (inRange_list.1 within item listed) reads
  · cases found

theorem takes_tableOf {read : Json → Option α} (takes : Takes read P) :
    Takes (tableOf? read) fun t => ∀ a ∈ t.values, P a := by
  intro j t within found
  unfold tableOf? at found
  split at found
  · obtain ⟨entries, listing, same⟩ := Option.bind_eq_some_iff.1 found
    cases same
    intro a member
    obtain ⟨e, listed, rfl⟩ := Table.mem_values_ofList member
    obtain ⟨entry, inside, reads⟩ := of_mapM_mem listing listed
    obtain ⟨b, value, same⟩ := Option.map_eq_some_iff.1 reads
    cases same
    exact takes entry.2 b (inRange_record.1 within entry inside) value
  · cases found

/- Every number in a document is in range. -/
theorem inRange_parse {s : String} {j : Json} (read : parse? s = some j) : j.inRange = true := by
  unfold parse? at read
  split at read
  · rename_i found
    split at read
    · cases read
      exact (readsInRange _).value (Nat.lt_succ_self _) found
    · cases read
  · cases read

end ChatStory.Json
