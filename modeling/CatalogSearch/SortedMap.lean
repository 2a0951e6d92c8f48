/-!
# Maps and sets of names

A map from names is a list of entries in strictly increasing order of name, names being compared
by code point. The order is part of the type, so two maps with the same entries are equal and
listing a map needs no sorting.
-/

namespace CatalogSearch

variable {α : Type}

/-! ## Entries in increasing order -/

/-- Writes `value` under `name` into increasing entries, in the place of an entry of that name. -/
def insertEntry (name : String) (value : α) : List (String × α) → List (String × α)
  | [] => [(name, value)]
  | (n, v) :: rest =>
    if name < n then (name, value) :: (n, v) :: rest
    else if name = n then (name, value) :: rest
    else (n, v) :: insertEntry name value rest

/-- Every entry after an insertion is the new one or an old one. -/
theorem mem_insertEntry {name : String} {value : α} {entry : String × α}
    {entries : List (String × α)} (h : entry ∈ insertEntry name value entries) :
    entry = (name, value) ∨ entry ∈ entries := by
  induction entries with
  | nil => simpa [insertEntry] using h
  | cons head rest ih =>
    obtain ⟨n, v⟩ := head
    rw [insertEntry] at h
    split at h
    · simpa using h
    · split at h
      · rcases List.mem_cons.1 h with h | h
        · exact .inl h
        · exact .inr (List.mem_cons_of_mem _ h)
      · rcases List.mem_cons.1 h with h | h
        · exact .inr (h ▸ List.mem_cons_self)
        · exact (ih h).imp_right (List.mem_cons_of_mem _)

/-- An entry of another name stays where one is written. -/
theorem mem_insertEntry_of_ne {name : String} {value : α} {entry : String × α}
    {entries : List (String × α)} (h : entry ∈ entries) (other : entry.1 ≠ name) :
    entry ∈ insertEntry name value entries := by
  induction entries with
  | nil => cases h
  | cons head rest ih =>
    obtain ⟨n, v⟩ := head
    rw [insertEntry]
    split
    · exact List.mem_cons_of_mem _ h
    · split
      · next same =>
        rcases List.mem_cons.1 h with rfl | h
        · exact absurd same.symm other
        · exact List.mem_cons_of_mem _ h
      · rcases List.mem_cons.1 h with rfl | h
        · exact List.mem_cons_self
        · exact List.mem_cons_of_mem _ (ih h)

/-- Writing an entry loses none. -/
theorem length_le_insertEntry (name : String) (value : α) (entries : List (String × α)) :
    entries.length ≤ (insertEntry name value entries).length := by
  induction entries with
  | nil => exact Nat.zero_le _
  | cons head rest ih =>
    obtain ⟨n, v⟩ := head
    rw [insertEntry]
    split
    · exact Nat.le_succ _
    · split
      · exact Nat.le_refl _
      · exact Nat.succ_le_succ ih

/-- An insertion keeps the entries in increasing order. -/
theorem pairwise_insertEntry (name : String) (value : α) {entries : List (String × α)}
    (sorted : entries.Pairwise (·.1 < ·.1)) :
    (insertEntry name value entries).Pairwise (·.1 < ·.1) := by
  induction entries with
  | nil => simp [insertEntry]
  | cons head rest ih =>
    obtain ⟨n, v⟩ := head
    obtain ⟨above, tail⟩ := List.pairwise_cons.1 sorted
    rw [insertEntry]
    split
    · next below =>
      refine List.pairwise_cons.2 ⟨fun entry h => ?_, sorted⟩
      rcases List.mem_cons.1 h with h | h
      · exact h ▸ below
      · exact String.lt_trans below (above entry h)
    · next notBelow =>
      split
      · next same => exact List.pairwise_cons.2 ⟨fun entry h => same ▸ above entry h, tail⟩
      · next different =>
        refine List.pairwise_cons.2 ⟨fun entry h => ?_, ih tail⟩
        rcases mem_insertEntry h with h | h
        · have le : n ≤ name := String.not_lt.1 notBelow
          rw [h]
          exact String.not_le.1 fun ge => different (String.le_antisymm ge le)
        · exact above entry h

/-- Looking a name up in front of other entries. -/
theorem lookup_cons (n other : String) (v : α) (rest : List (String × α)) :
    ((n, v) :: rest).lookup other = if other = n then some v else rest.lookup other := by
  rw [List.lookup_cons]
  by_cases same : other = n
  · rw [if_pos same, beq_iff_eq.2 same]
  · rw [if_neg same, beq_eq_false_iff_ne.2 same]

/-- What is found after an insertion is the new value under its name and the old ones elsewhere. -/
theorem lookup_insertEntry (name other : String) (value : α) (entries : List (String × α)) :
    (insertEntry name value entries).lookup other
      = if other = name then some value else entries.lookup other := by
  induction entries with
  | nil => exact lookup_cons name other value []
  | cons head rest ih =>
    obtain ⟨n, v⟩ := head
    rw [insertEntry]
    split
    · rw [lookup_cons]
    · split
      · next same =>
        rw [lookup_cons, lookup_cons, same]
        split <;> rfl
      · next different =>
        rw [lookup_cons, lookup_cons, ih]
        by_cases same : other = n
        · simp [same, Ne.symm different]
        · simp [same]

/-! ## Maps -/

/-- A map from names to values, its entries in increasing order of name. -/
structure SortedMap (α : Type) where
  entries : List (String × α)
  sorted : entries.Pairwise (·.1 < ·.1)

namespace SortedMap

/-- The map without entries. -/
def empty : SortedMap α := ⟨[], .nil⟩

instance : Inhabited (SortedMap α) := ⟨empty⟩

/-- Writes `value` under `name`, replacing what was there. -/
def insert (m : SortedMap α) (name : String) (value : α) : SortedMap α :=
  ⟨insertEntry name value m.entries, pairwise_insertEntry name value m.sorted⟩

/-- The value under `name`. -/
def get? (m : SortedMap α) (name : String) : Option α :=
  m.entries.lookup name

/-- What is found under a name is the value of the entry of that name. -/
theorem get?_eq_some_iff {m : SortedMap α} {name : String} {value : α} :
    m.get? name = some value ↔ (name, value) ∈ m.entries := by
  rw [get?, List.lookup_eq_some_iff]
  constructor
  · rintro ⟨before, after, split, _⟩
    rw [split]
    simp
  · intro mem
    obtain ⟨before, after, split⟩ := List.append_of_mem mem
    refine ⟨before, after, split, fun entry earlier => ?_⟩
    have sorted := m.sorted
    rw [split] at sorted
    -- Entries in front of this one have lesser names.
    have lt := (List.pairwise_append.1 sorted).2.2 entry earlier _ List.mem_cons_self
    exact bne_iff_ne.2 (String.ne_of_lt lt).symm

/-- What is found after a value was written. -/
@[simp] theorem get?_insert (m : SortedMap α) (name other : String) (value : α) :
    (m.insert name value).get? other = if other = name then some value else m.get? other :=
  lookup_insertEntry name other value m.entries

/-- Whether there is an entry of that name. -/
def contains (m : SortedMap α) (name : String) : Bool :=
  (m.get? name).isSome

/-- Inserts entries from left to right, so the last one of a name stays. -/
def insertAll (m : SortedMap α) (entries : List (String × α)) : SortedMap α :=
  entries.foldl (fun m entry => m.insert entry.1 entry.2) m

/-- The map of a list of entries, the last one of each name. -/
def ofList (entries : List (String × α)) : SortedMap α :=
  empty.insertAll entries

/-- Every entry of a map made from a list is one of the list. -/
theorem mem_ofList {entries : List (String × α)} {entry : String × α}
    (h : entry ∈ (ofList entries).entries) : entry ∈ entries := by
  have step : ∀ m : SortedMap α, entry ∈ (m.insertAll entries).entries →
      entry ∈ entries ∨ entry ∈ m.entries := by
    clear h
    induction entries with
    | nil => exact fun _ h => Or.inr h
    | cons head rest ih =>
      intro m h
      rcases ih (m.insert head.1 head.2) h with h | h
      · exact Or.inl (List.mem_cons_of_mem _ h)
      · rcases mem_insertEntry h with rfl | h
        · exact Or.inl List.mem_cons_self
        · exact Or.inr h
  exact (step empty h).resolve_right List.not_mem_nil

/-- The values in order of their names. -/
def values (m : SortedMap α) : List α :=
  m.entries.map (·.2)

/-- How many entries there are. -/
def size (m : SortedMap α) : Nat :=
  m.entries.length

/-! ### Values that know their names -/

/-- Every value stands under the name that it has by itself. -/
def Keyed (key : α → String) (m : SortedMap α) : Prop :=
  ∀ entry ∈ m.entries, entry.1 = key entry.2

/-- The map without entries is keyed in every way. -/
theorem keyed_empty (key : α → String) : (empty : SortedMap α).Keyed key :=
  fun _ h => absurd h List.not_mem_nil

/-- Writing a value under its own name keeps a map keyed. -/
theorem Keyed.insert {key : α → String} {m : SortedMap α} (h : m.Keyed key) (value : α) :
    (m.insert (key value) value).Keyed key := by
  intro entry mem
  rcases mem_insertEntry mem with rfl | mem
  · rfl
  · exact h entry mem

/-- Writing values under their own names keeps a map keyed. -/
theorem Keyed.insertAll {key : α → String} {m : SortedMap α} (h : m.Keyed key) (values : List α) :
    (m.insertAll (values.map fun value => (key value, value))).Keyed key := by
  induction values generalizing m with
  | nil => exact h
  | cons value values ih => exact ih (h.insert value)

/-- A map made of values under their own names is keyed. -/
theorem keyed_ofList (key : α → String) (values : List α) :
    (ofList (values.map fun value => (key value, value))).Keyed key :=
  (keyed_empty key).insertAll values

/-- A value of a keyed map is found under its own name, and nothing else is. -/
theorem Keyed.get?_eq_some_iff {key : α → String} {m : SortedMap α} (h : m.Keyed key)
    {name : String} {value : α} :
    m.get? name = some value ↔ value ∈ m.values ∧ key value = name := by
  rw [SortedMap.get?_eq_some_iff, values, List.mem_map]
  constructor
  · intro mem
    exact ⟨⟨_, mem, rfl⟩, (h _ mem).symm⟩
  · rintro ⟨⟨entry, mem, rfl⟩, rfl⟩
    rw [← h entry mem]
    exact mem

/-- Values of a keyed map that have the same name by themselves are the same. -/
theorem Keyed.eq_of_key_eq {key : α → String} {m : SortedMap α} (h : m.Keyed key) {a b : α}
    (ha : a ∈ m.values) (hb : b ∈ m.values) (same : key a = key b) : a = b := by
  have first := h.get?_eq_some_iff.2 ⟨ha, same⟩
  have second := h.get?_eq_some_iff.2 ⟨hb, rfl⟩
  exact Option.some.inj (first.symm.trans second)

/-- The values of a keyed map are in strictly increasing order of their own names. -/
theorem Keyed.pairwise_values {key : α → String} {m : SortedMap α} (h : m.Keyed key) :
    m.values.Pairwise (key · < key ·) := by
  rw [values, List.pairwise_map]
  refine List.Pairwise.imp_of_mem (fun {a b} ha hb lt => ?_) m.sorted
  rw [← h a ha, ← h b hb]
  exact lt

end SortedMap

/-! ## Sets -/

/-- Puts a name into an increasing list of names that lacks it. -/
def insertName (name : String) : List String → List String
  | [] => [name]
  | n :: rest =>
    if name < n then name :: n :: rest
    else if name = n then n :: rest
    else n :: insertName name rest

/-- The members after an insertion are the new name and the old members. -/
theorem mem_insertName {name other : String} {names : List String} :
    other ∈ insertName name names ↔ other = name ∨ other ∈ names := by
  induction names with
  | nil => simp [insertName]
  | cons n rest ih =>
    rw [insertName]
    split
    · simp
    · split
      · next same => simp [same]
      · simp [ih, or_left_comm]

/-- An insertion keeps the names in increasing order. -/
theorem pairwise_insertName (name : String) {names : List String}
    (sorted : names.Pairwise (· < ·)) : (insertName name names).Pairwise (· < ·) := by
  induction names with
  | nil => simp [insertName]
  | cons n rest ih =>
    obtain ⟨above, tail⟩ := List.pairwise_cons.1 sorted
    rw [insertName]
    split
    · next below =>
      refine List.pairwise_cons.2 ⟨fun other h => ?_, sorted⟩
      rcases List.mem_cons.1 h with h | h
      · exact h ▸ below
      · exact String.lt_trans below (above other h)
    · next notBelow =>
      split
      · exact sorted
      · next different =>
        refine List.pairwise_cons.2 ⟨fun other h => ?_, ih tail⟩
        rcases mem_insertName.1 h with h | h
        · have le : n ≤ name := String.not_lt.1 notBelow
          rw [h]
          exact String.not_le.1 fun ge => different (String.le_antisymm ge le)
        · exact above other h

/-- A finite set of texts, listed in increasing order. -/
structure StringSet where
  toList : List String
  sorted : toList.Pairwise (· < ·)
deriving DecidableEq

namespace StringSet

/-- The set without members. -/
def empty : StringSet := ⟨[], .nil⟩

instance : Inhabited StringSet := ⟨empty⟩

instance : Membership String StringSet := ⟨fun s name => name ∈ s.toList⟩

instance (name : String) (s : StringSet) : Decidable (name ∈ s) :=
  inferInstanceAs (Decidable (name ∈ s.toList))

/-- Adds a member. -/
def insert (s : StringSet) (name : String) : StringSet :=
  ⟨insertName name s.toList, pairwise_insertName name s.sorted⟩

/-- Adds every name of a list. -/
def insertAll (s : StringSet) (names : List String) : StringSet :=
  names.foldl insert s

/-- The set of the names in a list. -/
def ofList (names : List String) : StringSet :=
  empty.insertAll names

/-- The members of either set. -/
def union (s t : StringSet) : StringSet :=
  s.insertAll t.toList

/-- The members that pass a test. -/
def filter (s : StringSet) (keep : String → Bool) : StringSet :=
  ⟨s.toList.filter keep, s.sorted.filter keep⟩

/-- Whether there are no members. -/
def isEmpty (s : StringSet) : Bool :=
  s.toList.isEmpty

/-- Membership after one insertion. -/
@[simp] theorem mem_insert {s : StringSet} {name other : String} :
    other ∈ s.insert name ↔ other = name ∨ other ∈ s :=
  mem_insertName

/-- Membership after many insertions. -/
@[simp] theorem mem_insertAll {s : StringSet} {names : List String} {other : String} :
    other ∈ s.insertAll names ↔ other ∈ names ∨ other ∈ s := by
  induction names generalizing s with
  | nil => simp [insertAll]
  | cons name names ih =>
    have step : s.insertAll (name :: names) = (s.insert name).insertAll names := rfl
    rw [step, ih, mem_insert, List.mem_cons, or_left_comm, or_assoc]

/-- A set made from a list has exactly the members of the list. -/
@[simp] theorem mem_ofList {names : List String} {other : String} :
    other ∈ ofList names ↔ other ∈ names := by
  have none : ¬ other ∈ empty := List.not_mem_nil
  simp [ofList, none]

/-- A union has the members of both sides. -/
@[simp] theorem mem_union {s t : StringSet} {other : String} :
    other ∈ s.union t ↔ other ∈ t ∨ other ∈ s :=
  mem_insertAll

/-- Filtering keeps the members that pass. -/
@[simp] theorem mem_filter {s : StringSet} {keep : String → Bool} {other : String} :
    other ∈ s.filter keep ↔ other ∈ s ∧ keep other :=
  List.mem_filter

end StringSet

end CatalogSearch
