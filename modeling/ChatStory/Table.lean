/-!
Tables keep one value for each of finitely many keys, in key order. Two tables with the
same entries are equal, so equal contents mean equal tables. A table is viewed through
`get?`: each operation has a law that says what it does to every key.
-/
namespace ChatStory

open Std (TransOrd LawfulEqOrd OrientedCmp TransCmp LawfulEqCmp)

structure Table (κ : Type) [Ord κ] (α : Type) where
  entries : List (κ × α)
  ascending : entries.Pairwise fun a b => compare a.1 b.1 = .lt
deriving DecidableEq

namespace Table

variable {κ : Type} [Ord κ] {α β : Type}

def empty : Table κ α := ⟨[], .nil⟩

instance : EmptyCollection (Table κ α) := ⟨empty⟩
instance : Inhabited (Table κ α) := ⟨empty⟩

def toList (t : Table κ α) : List (κ × α) := t.entries
def keys (t : Table κ α) : List κ := t.entries.map (·.1)
def values (t : Table κ α) : List α := t.entries.map (·.2)
def isEmpty (t : Table κ α) : Bool := t.entries.isEmpty
def size (t : Table κ α) : Nat := t.entries.length

def lookup (k : κ) : List (κ × α) → Option α
  | [] => none
  | (k', a) :: rest => if compare k k' = .eq then some a else lookup k rest

def get? (t : Table κ α) (k : κ) : Option α := lookup k t.entries

def getD (t : Table κ α) (k : κ) (default : α) : α := (t.get? k).getD default

def contains (t : Table κ α) (k : κ) : Bool := (t.get? k).isSome

def insertEntry (k : κ) (a : α) : List (κ × α) → List (κ × α)
  | [] => [(k, a)]
  | (k', a') :: rest =>
    match compare k k' with
    | .lt => (k, a) :: (k', a') :: rest
    | .eq => (k, a) :: rest
    | .gt => (k', a') :: insertEntry k a rest

theorem mem_insertEntry {k : κ} {a : α} {e : κ × α} {es : List (κ × α)}
    (h : e ∈ insertEntry k a es) : e = (k, a) ∨ e ∈ es := by
  induction es with
  | nil => simpa [insertEntry] using h
  | cons head rest ih =>
    obtain ⟨k', a'⟩ := head
    simp only [insertEntry] at h
    split at h <;> simp only [List.mem_cons] at h ⊢ <;> grind

theorem insertEntry_ascending [TransOrd κ] (k : κ) (a : α) {es : List (κ × α)}
    (h : es.Pairwise fun a b => compare a.1 b.1 = .lt) :
    (insertEntry k a es).Pairwise fun a b => compare a.1 b.1 = .lt := by
  induction es with
  | nil => simp [insertEntry]
  | cons head rest ih =>
    obtain ⟨k', a'⟩ := head
    obtain ⟨hh, ht⟩ := List.pairwise_cons.1 h
    simp only [insertEntry]
    split
    · rename_i hc
      refine List.pairwise_cons.2 ⟨?_, h⟩
      intro e he
      rcases List.mem_cons.1 he with rfl | he
      · exact hc
      · exact TransCmp.lt_trans hc (hh e he)
    · rename_i hc
      exact List.pairwise_cons.2 ⟨fun e he => TransCmp.lt_of_eq_of_lt hc (hh e he), ht⟩
    · rename_i hc
      refine List.pairwise_cons.2 ⟨?_, ih ht⟩
      intro e he
      rcases mem_insertEntry he with rfl | he
      · exact OrientedCmp.gt_iff_lt.1 hc
      · exact hh e he

def insert [TransOrd κ] (t : Table κ α) (k : κ) (a : α) : Table κ α :=
  ⟨insertEntry k a t.entries, insertEntry_ascending k a t.ascending⟩

/-- Keeps the entries that pass a test. -/
def filter (p : κ → α → Bool) (t : Table κ α) : Table κ α :=
  ⟨t.entries.filter fun e => p e.1 e.2, t.ascending.filter _⟩

def erase (t : Table κ α) (k : κ) : Table κ α := t.filter fun k' _ => compare k k' != .eq

/-- Later entries replace earlier ones under the same key. -/
def insertMany [TransOrd κ] (t : Table κ α) (es : List (κ × α)) : Table κ α :=
  es.foldl (fun t e => t.insert e.1 e.2) t

def ofList [TransOrd κ] (es : List (κ × α)) : Table κ α := empty.insertMany es

def map (f : α → β) (t : Table κ α) : Table κ β :=
  ⟨t.entries.map fun e => (e.1, f e.2), List.pairwise_map.2 t.ascending⟩

/-- The entry of the least key. -/
def first? (t : Table κ α) : Option (κ × α) := t.entries.head?

theorem lookup_insertEntry [DecidableEq κ] [TransOrd κ] [LawfulEqOrd κ] (k k' : κ) (a : α)
    (es : List (κ × α)) :
    lookup k' (insertEntry k a es) = if k' = k then some a else lookup k' es := by
  induction es with
  | nil => simp [insertEntry, lookup]
  | cons head rest ih =>
    obtain ⟨j, b⟩ := head
    simp only [insertEntry]
    split
    · simp [lookup]
    · rename_i hc
      obtain rfl := LawfulEqCmp.eq_of_compare hc
      by_cases h : k' = k <;> simp [lookup, h]
    · rename_i hc
      by_cases h : k' = j
      · subst h
        have : k' ≠ k := by rintro rfl; simp at hc
        simp [lookup, this]
      · simp [lookup, h, ih]

@[simp] theorem get?_empty (k : κ) : (empty : Table κ α).get? k = none := rfl

theorem get?_insert [DecidableEq κ] [TransOrd κ] [LawfulEqOrd κ] (t : Table κ α) (k k' : κ)
    (a : α) :
    (t.insert k a).get? k' = if k' = k then some a else t.get? k' :=
  lookup_insertEntry k k' a t.entries

theorem lookup_eq_some_iff [TransOrd κ] [LawfulEqOrd κ] {k : κ} {a : α} {es : List (κ × α)}
    (h : es.Pairwise fun a b => compare a.1 b.1 = .lt) :
    lookup k es = some a ↔ (k, a) ∈ es := by
  induction es with
  | nil => simp [lookup]
  | cons head rest ih =>
    obtain ⟨j, b⟩ := head
    obtain ⟨hh, ht⟩ := List.pairwise_cons.1 h
    by_cases hk : k = j
    · subst hk
      have hn : (k, a) ∉ rest := fun he => by simpa using hh _ he
      simp [lookup, hn, eq_comm]
    · simp [lookup, hk, ih ht]

theorem get?_eq_some_iff [TransOrd κ] [LawfulEqOrd κ] {t : Table κ α} {k : κ} {a : α} :
    t.get? k = some a ↔ (k, a) ∈ t.toList :=
  lookup_eq_some_iff t.ascending

theorem contains_iff_mem_keys [TransOrd κ] [LawfulEqOrd κ] {t : Table κ α} {k : κ} :
    t.contains k = true ↔ k ∈ t.keys := by
  simp only [contains, Option.isSome_iff_exists, get?_eq_some_iff, keys, toList, List.mem_map]
  exact ⟨fun ⟨a, h⟩ => ⟨(k, a), h, rfl⟩, fun ⟨e, h, he⟩ => ⟨e.2, he ▸ h⟩⟩

theorem get?_filter [TransOrd κ] [LawfulEqOrd κ] (t : Table κ α) (p : κ → α → Bool) (k : κ) :
    (t.filter p).get? k = (t.get? k).filter (p k) := by
  ext a
  rw [Option.filter_eq_some_iff, get?_eq_some_iff, get?_eq_some_iff]
  simp [filter, toList]

theorem get?_erase [DecidableEq κ] [TransOrd κ] [LawfulEqOrd κ] (t : Table κ α) (k k' : κ) :
    (t.erase k).get? k' = if k' = k then none else t.get? k' := by
  rw [erase, get?_filter]
  by_cases h : k' = k
  · subst h; cases t.get? k' <;> simp
  · have : compare k k' ≠ .eq := fun hc => h (LawfulEqCmp.eq_of_compare hc).symm
    cases t.get? k' <;> simp [h, this]

/-- Tables that agree on every key are equal. -/
theorem ext_get? [TransOrd κ] [LawfulEqOrd κ] {s t : Table κ α}
    (h : ∀ k, s.get? k = t.get? k) : s = t := by
  have hmem : ∀ e, e ∈ s.entries ↔ e ∈ t.entries := fun (k, a) => by
    rw [← lookup_eq_some_iff s.ascending, ← lookup_eq_some_iff t.ascending]
    rw [show lookup k s.entries = lookup k t.entries from h k]
  obtain ⟨es, hs⟩ := s
  obtain ⟨fs, hf⟩ := t
  congr
  simp only at hmem
  clear h
  induction es generalizing fs with
  | nil =>
    cases fs with
    | nil => rfl
    | cons f fs => exact absurd ((hmem f).2 (by simp)) (by simp)
  | cons e es ih =>
    cases fs with
    | nil => exact absurd ((hmem e).1 (by simp)) (by simp)
    | cons f fs =>
      obtain ⟨he, hes⟩ := List.pairwise_cons.1 hs
      obtain ⟨hf', hfs⟩ := List.pairwise_cons.1 hf
      have hef : e = f := by
        rcases List.mem_cons.1 ((hmem e).1 (by simp)) with h1 | h1
        · exact h1
        · rcases List.mem_cons.1 ((hmem f).2 (by simp)) with h2 | h2
          · exact h2.symm
          · have := TransCmp.lt_trans (he f h2) (hf' e h1)
            simp at this
      subst hef
      congr 1
      refine ih hes fs hfs fun g => ⟨fun hg => ?_, fun hg => ?_⟩
      · rcases List.mem_cons.1 ((hmem g).1 (List.mem_cons_of_mem _ hg)) with rfl | h1
        · simpa using he _ hg
        · exact h1
      · rcases List.mem_cons.1 ((hmem g).2 (List.mem_cons_of_mem _ hg)) with rfl | h1
        · simpa using hf' _ hg
        · exact h1

end Table

/-- A set of names. -/
abbrev NameSet := Table String Unit

def NameSet.has (s : NameSet) (name : String) : Bool := Table.contains s name

def NameSet.add (s : NameSet) (name : String) : NameSet := Table.insert s name ()

def NameSet.remove (s : NameSet) (name : String) : NameSet := Table.erase s name

def NameSet.ofNames (names : List String) : NameSet := names.foldl NameSet.add Table.empty

end ChatStory
