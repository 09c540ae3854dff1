import ChatStory.Table

/-!
Tables made from lists of entries. A table is the table of its own entries, entries added to a table
win over its own, and what is already as it should be is left as it is.
-/
namespace ChatStory

open Std (TransOrd LawfulEqOrd)

section Reading

variable {f : α → Option β} {items : List α} {results : List β}

/- Where every item can be read, the results are what the items are read as, one by one. -/
theorem map_some_of_mapM (done : items.mapM f = some results) : results.map some = items.map f := by
  induction items generalizing results with
  | nil =>
    cases done
    rfl
  | cons first rest ih =>
    rw [List.mapM_cons] at done
    obtain ⟨b, found, rest_done⟩ := Option.bind_eq_some_iff.1 done
    obtain ⟨bs, others, same⟩ := Option.bind_eq_some_iff.1 rest_done
    cases same
    rw [List.map_cons, List.map_cons, found, ih others]

theorem mem_of_mapM (done : items.mapM f = some results) {a : α} (member : a ∈ items) :
    ∃ b ∈ results, f a = some b := by
  have read := List.mem_map_of_mem member (f := f)
  rw [← map_some_of_mapM done] at read
  obtain ⟨b, inside, same⟩ := List.mem_map.1 read
  exact ⟨b, inside, same.symm⟩

theorem of_mapM_mem (done : items.mapM f = some results) {b : β} (member : b ∈ results) :
    ∃ a ∈ items, f a = some b := by
  have read : some b ∈ results.map some := List.mem_map_of_mem member
  rw [map_some_of_mapM done] at read
  exact List.mem_map.1 read

theorem map_of_mapM {g : α → γ} {h : β → γ} (same : ∀ a b, f a = some b → h b = g a)
    (done : items.mapM f = some results) : results.map h = items.map g := by
  apply (List.map_inj_right fun _ _ => Option.some.inj).1
  calc (results.map h).map some
      = (results.map some).map (Option.map h) := by rw [List.map_map, List.map_map]; rfl
    _ = (items.map f).map (Option.map h) := by rw [map_some_of_mapM done]
    _ = (items.map g).map some := by
        rw [List.map_map, List.map_map, List.map_inj_left]
        intro a member
        obtain ⟨b, _, found⟩ := mem_of_mapM done member
        exact (congrArg (Option.map h) found).trans (congrArg some (same a b found))

end Reading

namespace Table

section Entries

variable {κ α β : Type}

theorem mapM_entries_of_all {f : α → Option β} {g : α → β} (es : List (κ × α))
    (all : ∀ e ∈ es, f e.2 = some (g e.2)) :
    es.mapM (fun e => (f e.2).map (e.1, ·)) = some (es.map fun e => (e.1, g e.2)) := by
  induction es with
  | nil => rfl
  | cons first rest ih =>
    rw [List.mapM_cons, all first (by simp), ih fun e member => all e (List.mem_cons_of_mem _ member)]
    rfl

theorem keys_mapM {f : α → Option β} {es : List (κ × α)} {fs : List (κ × β)}
    (done : es.mapM (fun e => (f e.2).map (e.1, ·)) = some fs) : fs.map (·.1) = es.map (·.1) := by
  induction es generalizing fs with
  | nil =>
    cases done
    rfl
  | cons first rest ih =>
    rw [List.mapM_cons] at done
    simp only [Option.bind_eq_bind, Option.bind_eq_some_iff, Option.map_eq_some_iff] at done
    obtain ⟨_, ⟨b, _, rfl⟩, gs, others, same⟩ := done
    cases same
    simp [ih others]

variable [Ord κ]

theorem contains_eq_true {t : Table κ α} {k : κ} :
    t.contains k = true ↔ ∃ a, t.get? k = some a := by
  simp [contains, Option.isSome_iff_exists]

theorem map_insert [TransOrd κ] (f : α → β) (t : Table κ α) (k : κ) (a : α) :
    (t.insert k a).map f = (t.map f).insert k (f a) := by
  have entries : ∀ es : List (κ × α), (insertEntry k a es).map (fun e => (e.1, f e.2)) =
      insertEntry k (f a) (es.map fun e => (e.1, f e.2)) := by
    intro es
    induction es with
    | nil => rfl
    | cons head rest ih =>
      simp only [List.map_cons, insertEntry]
      rw [← ih]
      split <;> rfl
  unfold map insert
  rw [Table.mk.injEq]
  exact entries t.entries

theorem get?_map (f : α → β) (t : Table κ α) (k : κ) : (t.map f).get? k = (t.get? k).map f := by
  obtain ⟨entries, _⟩ := t
  unfold map get?
  induction entries with
  | nil => rfl
  | cons head rest ih =>
    simp only [List.map_cons, lookup]
    split
    · rfl
    · rename_i ascending _
      exact ih (List.pairwise_cons.1 ascending).2

theorem map_filter (f : α → β) (p : κ → Bool) (t : Table κ α) :
    (t.filter fun k _ => p k).map f = (t.map f).filter fun k _ => p k := by
  unfold filter map
  rw [Table.mk.injEq, List.filter_map]
  rfl

theorem values_map (f : α → β) (t : Table κ α) : (t.map f).values = t.values.map f := by
  unfold values map
  rw [List.map_map, List.map_map]
  rfl

theorem getD_le [TransOrd κ] [Std.LawfulEqOrd κ] {t : Table κ Nat} {bound : Nat}
    (within : ∀ n ∈ t.values, n ≤ bound) (k : κ) : t.getD k 0 ≤ bound := by
  unfold getD
  cases found : t.get? k with
  | none => exact Nat.zero_le bound
  | some n => exact within n (List.mem_map_of_mem (f := (·.2)) (get?_eq_some_iff.1 found))

theorem countP_insertEntry_le {p : α → Bool} {a : α} (out : p a = false) (k : κ)
    (es : List (κ × α)) :
    ((insertEntry k a es).map (·.2)).countP p ≤ (es.map (·.2)).countP p := by
  induction es with
  | nil => simp [insertEntry, out]
  | cons e rest ih =>
    obtain ⟨j, b⟩ := e
    unfold insertEntry
    split
    · simp [out]
    · simp only [List.map_cons, List.countP_cons, out]
      simp
    · simp only [List.map_cons, List.countP_cons]
      omega

/- An entry that is not counted makes no count larger. -/
theorem countP_values_insert_le [TransOrd κ] {p : α → Bool} {a : α} (out : p a = false)
    (t : Table κ α) (k : κ) : (t.insert k a).values.countP p ≤ t.values.countP p :=
  countP_insertEntry_le out k t.entries

theorem mem_values_insert [TransOrd κ] {t : Table κ α} {k : κ} {a b : α} (member : b ∈ (t.insert k a).values) :
    b = a ∨ b ∈ t.values := by
  obtain ⟨e, listed, rfl⟩ := List.mem_map.1 member
  rcases mem_insertEntry listed with rfl | old
  · exact .inl rfl
  · exact .inr (List.mem_map_of_mem old)

theorem mem_values_insertMany [TransOrd κ] {es : List (κ × α)} {t : Table κ α} {a : α}
    (member : a ∈ (t.insertMany es).values) : (∃ e ∈ es, e.2 = a) ∨ a ∈ t.values := by
  induction es generalizing t with
  | nil => exact .inr member
  | cons e rest ih =>
    rcases ih member with ⟨other, listed, same⟩ | inserted
    · exact .inl ⟨other, List.mem_cons_of_mem e listed, same⟩
    · rcases mem_values_insert inserted with rfl | old
      · exact .inl ⟨e, List.mem_cons_self, rfl⟩
      · exact .inr old

theorem mem_values_ofList [TransOrd κ] {es : List (κ × α)} {a : α} (member : a ∈ (ofList es).values) :
    ∃ e ∈ es, e.2 = a := by
  rcases mem_values_insertMany member with listed | none
  · exact listed
  · cases none

theorem mem_values_filter {t : Table κ α} {p : κ → α → Bool} {a : α}
    (member : a ∈ (t.filter p).values) : a ∈ t.values := by
  obtain ⟨e, listed, rfl⟩ := List.mem_map.1 member
  exact List.mem_map_of_mem ((List.mem_filter.1 listed).1)

variable [LawfulEqOrd κ]

theorem lookup_eq_none {k : κ} {es : List (κ × α)} (absent : ∀ e ∈ es, e.1 ≠ k) :
    lookup k es = none := by
  induction es with
  | nil => rfl
  | cons first rest ih =>
    have other : compare k first.1 ≠ .eq := by
      intro same
      exact absent first (by simp) (Std.LawfulEqOrd.eq_of_compare same).symm
    rw [lookup, if_neg other]
    exact ih fun e member => absent e (List.mem_cons_of_mem first member)

theorem lookup_self (k : κ) (a : α) (es : List (κ × α)) : lookup k ((k, a) :: es) = some a := by
  simp [lookup]

theorem lookup_other {k k' : κ} (different : k ≠ k') (a : α) (es : List (κ × α)) :
    lookup k ((k', a) :: es) = lookup k es := by
  have other : compare k k' ≠ .eq := by
    intro same
    exact different (Std.LawfulEqOrd.eq_of_compare same)
  rw [lookup, if_neg other]

theorem lookup_mapM [DecidableEq κ] {f : α → Option β} {es : List (κ × α)} {fs : List (κ × β)}
    (done : es.mapM (fun e => (f e.2).map (e.1, ·)) = some fs) (k : κ) :
    (lookup k es).bind f = lookup k fs ∧ (lookup k es).isSome = (lookup k fs).isSome := by
  induction es generalizing fs with
  | nil =>
    cases done
    exact ⟨rfl, rfl⟩
  | cons first rest ih =>
    rw [List.mapM_cons] at done
    simp only [Option.bind_eq_bind, Option.bind_eq_some_iff, Option.map_eq_some_iff] at done
    obtain ⟨_, ⟨b, read, rfl⟩, gs, others, same⟩ := done
    cases same
    obtain ⟨k', a⟩ := first
    by_cases same : k = k'
    · subst same
      rw [lookup_self, lookup_self]
      exact ⟨read, rfl⟩
    · rw [lookup_other same, lookup_other same]
      exact ih others

/-- No two entries have one key. -/
def Distinct (es : List (κ × α)) : Prop := es.Pairwise fun a b => a.1 ≠ b.1

theorem lookup_eq_some_iff_of_distinct {es : List (κ × α)} (distinct : Distinct es) {k : κ} {a : α} :
    lookup k es = some a ↔ (k, a) ∈ es := by
  induction es with
  | nil => exact ⟨nofun, nofun⟩
  | cons first rest ih =>
    obtain ⟨k', b⟩ := first
    obtain ⟨apart, distinct⟩ := List.pairwise_cons.1 distinct
    rw [List.mem_cons]
    by_cases same : k = k'
    · subst same
      rw [lookup_self, Option.some_inj, Prod.mk.injEq, eq_comm, and_iff_right rfl]
      exact (or_iff_left fun later => apart (k, a) later rfl).symm
    · rw [lookup_other same, ih distinct, Prod.mk.injEq]
      exact (or_iff_right fun here => same here.1).symm

theorem distinct_toList (t : Table κ α) : Distinct t.toList := by
  apply t.ascending.imp
  intro a b less same
  rw [same, Std.ReflOrd.compare_self] at less
  cases less

end Entries

variable {κ α β : Type} [Ord κ] [TransOrd κ] [LawfulEqOrd κ]

theorem filter_of_all {t : Table κ α} {p : κ → α → Bool}
    (all : ∀ k a, t.get? k = some a → p k a = true) : t.filter p = t := by
  apply ext_get?
  intro k
  rw [get?_filter]
  cases found : t.get? k with
  | none => rfl
  | some a => simp [all k a found]

theorem countP_insertEntry_lt {p : α → Bool} {a b : α} (out : p a = false) {k : κ}
    {es : List (κ × α)} (ascending : es.Pairwise fun a b => compare a.1 b.1 = .lt)
    (found : lookup k es = some b) (counted : p b = true) :
    ((insertEntry k a es).map (·.2)).countP p < (es.map (·.2)).countP p := by
  induction es with
  | nil => cases found
  | cons e rest ih =>
    obtain ⟨j, c⟩ := e
    obtain ⟨least, later⟩ := List.pairwise_cons.1 ascending
    unfold insertEntry
    unfold lookup at found
    split
    · rename_i before
      rw [before] at found
      have member := (lookup_eq_some_iff later).1 found
      have after := least (k, b) member
      rw [Std.OrientedCmp.gt_of_lt before] at after
      cases after
    · rename_i same
      rw [same] at found
      cases found
      simp [out, counted]
    · rename_i behind
      rw [behind] at found
      have fewer := ih later found
      simp only [List.map_cons, List.countP_cons]
      omega

/- It makes the count less where it replaces one that is counted. -/
theorem countP_values_insert_lt {p : α → Bool} {a b : α} (out : p a = false) {t : Table κ α} {k : κ}
    (found : t.get? k = some b) (counted : p b = true) :
    (t.insert k a).values.countP p < t.values.countP p :=
  countP_insertEntry_lt out t.ascending found counted

variable [DecidableEq κ]

theorem get?_insertMany (t : Table κ α) {es : List (κ × α)} (distinct : Distinct es) (k : κ) :
    (t.insertMany es).get? k = (lookup k es).or (t.get? k) := by
  induction es generalizing t with
  | nil => rfl
  | cons first rest ih =>
    obtain ⟨k', a⟩ := first
    obtain ⟨apart, distinct⟩ := List.pairwise_cons.1 distinct
    rw [insertMany, List.foldl_cons]
    refine (ih (t.insert k' a) distinct).trans ?_
    rw [get?_insert]
    by_cases same : k = k'
    · subst same
      rw [lookup_self, lookup_eq_none fun e member => (apart e member).symm, if_pos rfl]
      rfl
    · rw [lookup_other same, if_neg same]

theorem get?_ofList {es : List (κ × α)} (distinct : Distinct es) (k : κ) :
    (ofList es).get? k = lookup k es := by
  rw [ofList, get?_insertMany _ distinct, get?_empty, Option.or_none]

theorem get?_insertMany_toList (t s : Table κ α) (k : κ) :
    (t.insertMany s.toList).get? k = (s.get? k).or (t.get? k) :=
  get?_insertMany t (distinct_toList s) k

theorem ofList_toList (t : Table κ α) : ofList t.toList = t := by
  apply ext_get?
  intro k
  exact get?_ofList (distinct_toList t) k

theorem insertMany_of_covered {t s : Table κ α}
    (covered : ∀ k, t.contains k = true → s.contains k = true) : t.insertMany s.toList = s := by
  apply ext_get?
  intro k
  rw [get?_insertMany_toList]
  cases found : s.get? k with
  | some a => rfl
  | none =>
    have absent : t.contains k = false := by
      rw [Bool.eq_false_iff]
      intro known
      have := covered k known
      simp [contains, found] at this
    simpa [contains] using absent

theorem contains_insert (t : Table κ α) (k k' : κ) (a : α) :
    (t.insert k a).contains k' = true ↔ k' = k ∨ t.contains k' = true := by
  rw [contains, get?_insert]
  by_cases same : k' = k
  · simp [same]
  · simp [same, contains]

theorem contains_insertMany (t : Table κ α) (es : List (κ × α)) (k : κ) :
    (t.insertMany es).contains k = true ↔ (∃ e ∈ es, e.1 = k) ∨ t.contains k = true := by
  induction es generalizing t with
  | nil => simp [insertMany]
  | cons e rest ih =>
    refine (ih (t.insert e.1 e.2)).trans ?_
    simp only [contains_insert, List.mem_cons, or_and_right, exists_or, exists_eq_left]
    rw [or_assoc, or_left_comm, eq_comm]

/-- Does to every value what may fail, and keeps the keys. -/
def mapM? (f : α → Option β) (t : Table κ α) : Option (Table κ β) :=
  (t.toList.mapM fun e => (f e.2).map (e.1, ·)).map ofList

/- What succeeds on every value and gives it back gives the table back. -/
theorem mapM?_of_same {f : α → Option α} {t : Table κ α} (same : ∀ a, f a = some a) :
    t.mapM? f = some t := by
  have entries := mapM_entries_of_all t.toList (f := f) (g := id) fun e _ => same e.2
  have plain : t.toList.map (fun e => (e.1, id e.2)) = t.toList := by simp
  rw [mapM?, entries, plain, Option.map_some, ofList_toList]

theorem get?_mapM? {f : α → Option β} {t : Table κ α} {u : Table κ β} (done : t.mapM? f = some u)
    (k : κ) : (t.get? k).bind f = u.get? k ∧ t.contains k = u.contains k := by
  obtain ⟨fs, entries, rfl⟩ := Option.map_eq_some_iff.1 done
  have distinct : Distinct fs := by
    have keys := keys_mapM entries
    have apart : (t.toList.map (·.1)).Pairwise (· ≠ ·) := List.pairwise_map.2 (distinct_toList t)
    rw [← keys] at apart
    exact List.pairwise_map.1 apart
  rw [contains, contains, get?_ofList distinct]
  exact lookup_mapM entries k

end Table

namespace NameSet

theorem has_add (names : NameSet) (name other : String) :
    (names.add name).has other = true ↔ other = name ∨ names.has other = true :=
  Table.contains_insert names name other ()

theorem has_remove (names : NameSet) (name other : String) :
    (names.remove name).has other = true ↔ other ≠ name ∧ names.has other = true := by
  rw [NameSet.has, NameSet.remove, Table.contains, Table.get?_erase]
  by_cases same : other = name
  · simp [same]
  · simp [same, NameSet.has, Table.contains]

theorem has_foldl (listed : List String) (names : NameSet) (name : String) :
    (listed.foldl NameSet.add names).has name = true ↔ name ∈ listed ∨ names.has name = true := by
  induction listed generalizing names with
  | nil => simp
  | cons first rest ih =>
    rw [List.foldl_cons, ih, has_add]
    simp only [List.mem_cons]
    constructor
    · rintro (later | here | already)
      · exact .inl (.inr later)
      · exact .inl (.inl here)
      · exact .inr already
    · rintro ((here | later) | already)
      · exact .inr (.inl here)
      · exact .inl later
      · exact .inr (.inr already)

theorem has_ofNames (listed : List String) (name : String) :
    (NameSet.ofNames listed).has name = true ↔ name ∈ listed := by
  rw [NameSet.ofNames, has_foldl]
  simp [NameSet.has, Table.contains]

theorem ext_has {s t : NameSet} (same : ∀ name, s.has name = true ↔ t.has name = true) : s = t := by
  apply Table.ext_get?
  intro name
  have known := same name
  unfold NameSet.has Table.contains at known
  cases left : s.get? name with
  | none =>
    cases right : t.get? name with
    | none => rfl
    | some u => simp [left, right] at known
  | some u =>
    cases right : t.get? name with
    | none => simp [left, right] at known
    | some v => rfl

theorem add_of_has {names : NameSet} {name : String} (had : names.has name = true) :
    names.add name = names := by
  refine ext_has fun other => (has_add names name other).trans (or_iff_right_of_imp ?_)
  rintro rfl
  exact had

theorem ofNames_keys (names : NameSet) : NameSet.ofNames names.keys = names := by
  apply ext_has
  intro name
  rw [has_ofNames, NameSet.has, Table.contains_iff_mem_keys]

end NameSet
end ChatStory
