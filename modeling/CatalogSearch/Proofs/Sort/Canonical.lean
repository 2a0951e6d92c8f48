import CatalogSearch.Proofs.Sort.Resolved
import Mathlib.Data.List.Infix

/-!
# Canonical texts of orders

The canonical text of an order puts a bar between its keys, and nothing in it is escaped. A name may
hold what looks like the end of a key, so a text can belong to several orders. It is cut into most
keys where no name does, and there it belongs to one order alone.

* `KeyRow.eq_or_length_lt` : a row of keys whose names hold no end of a key is the only row of its
  text of that length, and all others are shorter;
* `SortOrder.Resolved.eq_or_length_lt` : the same for the orders that searches run in.
-/

namespace CatalogSearch

/-! ## Bars in a text -/

section Bars

variable {x y t u name tail : List Char}

/-- A bar in a text whose end has none lies in front of that end. -/
theorem exists_of_append_eq_bar (h : name ++ tail = x ++ '|' :: t) (noBar : '|' ∉ tail) :
    ∃ c, name = x ++ '|' :: c ∧ t = c ++ tail := by
  rcases List.append_eq_append_iff.1 h with ⟨rest, hx, htail⟩ | ⟨rest, hname, ht⟩
  · -- The bar would lie in the tail.
    exact absurd (htail ▸ List.mem_append_right rest List.mem_cons_self) noBar
  · cases rest with
    | nil =>
      rw [← show '|' :: t = tail from ht] at noBar
      exact absurd List.mem_cons_self noBar
    | cons c rest =>
      obtain ⟨rfl, behind⟩ := List.cons.inj ht
      exact ⟨rest, hname, behind⟩

/-- Two bars in a text are the same one or one is in front of the other. -/
theorem bar_trichotomy (h : x ++ '|' :: t = y ++ '|' :: u) :
    (x = y ∧ t = u) ∨ (∃ c, x = y ++ '|' :: c ∧ u = c ++ '|' :: t)
      ∨ ∃ c, y = x ++ '|' :: c ∧ t = c ++ '|' :: u := by
  rcases List.append_eq_append_iff.1 h with ⟨rest, hy, ht⟩ | ⟨rest, hx, hu⟩
  · cases rest with
    | nil => exact Or.inl ⟨by simpa using hy.symm, (List.cons.inj ht).2⟩
    | cons c rest =>
      obtain ⟨rfl, behind⟩ := List.cons.inj ht
      exact Or.inr (Or.inr ⟨rest, hy, behind⟩)
  · cases rest with
    | nil => exact Or.inl ⟨by simpa using hx, (List.cons.inj hu).2.symm⟩
    | cons c rest =>
      obtain ⟨rfl, behind⟩ := List.cons.inj hu
      exact Or.inr (Or.inl ⟨rest, hx, behind⟩)

end Bars

/-! ## Rows of keys -/

/-- The characters that a key ends with. -/
def SortDirection.tail (direction : SortDirection) : List Char :=
  ':' :: direction.name.toList

/-- The end of a key holds no bar. -/
theorem SortDirection.bar_notMem_tail (direction : SortDirection) : '|' ∉ direction.tail := by
  cases direction <;> decide

/-- A name holds nothing that looks like the end of a key and the bar behind it. -/
def SeparableName (name : List Char) : Prop :=
  ∀ direction : SortDirection, ¬ direction.tail ++ ['|'] <:+: name

/-- Whether a name is separable is decided by looking for two texts in it. -/
theorem separable_iff {name : List Char} :
    SeparableName name ↔ ¬ SortDirection.ascending.tail ++ ['|'] <:+: name
      ∧ ¬ SortDirection.descending.tail ++ ['|'] <:+: name := by
  constructor
  · exact fun h => ⟨h .ascending, h .descending⟩
  · rintro ⟨ascending, descending⟩ direction
    cases direction with
    | ascending => exact ascending
    | descending => exact descending

instance (name : List Char) : Decidable (SeparableName name) :=
  decidable_of_iff' _ separable_iff

/-- Keys by the characters of their names. -/
abbrev KeyRow := List (List Char × SortDirection)

namespace KeyRow

/-- The characters of a row of keys. -/
def chars : KeyRow → List Char
  | [] => []
  | [(name, direction)] => name ++ direction.tail
  | (name, direction) :: key :: keys => (name ++ direction.tail) ++ '|' :: chars (key :: keys)

/-- A key can be read off its characters. -/
theorem key_injective {name other : List Char} {d e : SortDirection}
    (h : name ++ d.tail = other ++ e.tail) : (name, d) = (other, e) := by
  cases d <;> cases e
  case ascending.ascending => rw [List.append_cancel_right h]
  case descending.descending => rw [List.append_cancel_right h]
  -- The fourth character from the end differs.
  all_goals
    have ends := congrArg (fun cs => cs.reverse[3]?) h
    simp [SortDirection.tail, SortDirection.name] at ends

/-- A separable name holds no key that is followed by a bar. -/
theorem not_key_of_separable {name other c : List Char} {d : SortDirection} (h : SeparableName name) :
    name ≠ (other ++ d.tail) ++ '|' :: c := by
  rintro rfl
  exact h d ⟨other, c, by simp⟩

/--
A row of separable names is the only one of its length with its characters, and all other rows with
these characters are shorter.
-/
theorem eq_or_length_lt {row other : KeyRow} (separable : ∀ key ∈ row, SeparableName key.1)
    (same : row.chars = other.chars) : row = other ∨ other.length < row.length := by
  induction row generalizing other with
  | nil =>
    match other with
    | [] => exact Or.inl rfl
    | [(name, d)] => simp [chars, SortDirection.tail] at same
    | (name, d) :: key :: keys => simp [chars] at same
  | cons first rest ih =>
    obtain ⟨name, d⟩ := first
    have separableName : SeparableName name := separable (name, d) List.mem_cons_self
    match rest, other with
    | _, [] => exact Or.inr (Nat.zero_lt_succ _)
    | [], [(name', e)] => exact Or.inl (by rw [key_injective same])
    | [], (name', e) :: key :: keys =>
      -- The bar of the other row would lie in the only name of this one.
      obtain ⟨c, hname, _⟩ := exists_of_append_eq_bar same d.bar_notMem_tail
      exact absurd hname (not_key_of_separable separableName)
    | _ :: rest, [(name', e)] => exact Or.inr (Nat.succ_lt_succ (Nat.zero_lt_succ _))
    | second :: rest, (name', e) :: key :: keys =>
      have separableRest : ∀ key ∈ second :: rest, SeparableName key.1 :=
        fun key hkey => separable key (List.mem_cons_of_mem _ hkey)
      rcases bar_trichotomy same with ⟨hfirst, hrest⟩ | ⟨c, hfirst, _⟩ | ⟨c, hother, hrest⟩
      · -- The first keys are the same.
        rw [key_injective hfirst]
        rcases ih separableRest hrest with equal | shorter
        · exact Or.inl (by rw [equal])
        · exact Or.inr (Nat.succ_lt_succ shorter)
      · -- The first key of the other row would lie in the first name of this one.
        obtain ⟨c, hname, _⟩ := exists_of_append_eq_bar hfirst d.bar_notMem_tail
        exact absurd hname (not_key_of_separable separableName)
      · -- The first name of the other row takes in the first key of this one.
        obtain ⟨name'', _, hc⟩ := exists_of_append_eq_bar hother e.bar_notMem_tail
        rw [hc] at hrest
        rcases @ih ((name'', e) :: key :: keys) separableRest hrest with equal | shorter
        · have length := congrArg List.length equal
          simp only [List.length_cons] at length ⊢
          omega
        · simp only [List.length_cons] at shorter ⊢
          omega

end KeyRow

/-! ## Orders -/

namespace SortOrder

/-- The keys of an order by the characters of their names. -/
def row (order : SortOrder) : KeyRow :=
  order.keys.map fun key => (key.field.name.toList, key.direction)

/-- The canonical text of an order has the characters of its keys. -/
theorem toList_canonical (order : SortOrder) : order.canonical.toList = order.row.chars := by
  obtain ⟨keys⟩ := order
  rw [canonical, row, String.toList_intercalate, List.map_map]
  induction keys with
  | nil => rfl
  | cons key keys ih =>
    have first : (key.field.name ++ ":" ++ key.direction.name).toList
        = key.field.name.toList ++ key.direction.tail := by
      rw [String.toList_append, String.toList_append, List.append_assoc]
      rfl
    cases keys with
    | nil => simpa [KeyRow.chars] using first
    | cons second keys =>
      rw [List.map_cons, List.map_cons, List.intercalate_cons_cons, ← List.map_cons, ih]
      simp only [Function.comp_apply, first, List.map_cons, KeyRow.chars, List.append_assoc]
      rfl

/-- Keys of registered fields with the same names and directions are the same. -/
theorem keys_eq_of_row_eq {registry : FieldRegistry} (named : registry.Named)
    {keys others : List SortKey} (mem : ∀ key ∈ keys, key.field ∈ registry.toList)
    (mem' : ∀ key ∈ others, key.field ∈ registry.toList) (same : row ⟨keys⟩ = row ⟨others⟩) :
    keys = others := by
  induction keys generalizing others with
  | nil => exact (List.map_eq_nil_iff.1 same.symm).symm
  | cons key keys ih =>
    cases others with
    | nil => cases same
    | cons other others =>
      obtain ⟨first, rest⟩ := List.cons.inj same
      obtain ⟨name, direction⟩ := Prod.mk.inj first
      have field := named.eq_of_name_eq (mem key List.mem_cons_self)
        (mem' other List.mem_cons_self) (String.toList_inj.1 name)
      have equal : key = other := (SortKey.mk.injEq _ _ _ _).mpr ⟨field, direction⟩
      rw [equal, ih (fun k hk => mem k (List.mem_cons_of_mem _ hk))
        (fun k hk => mem' k (List.mem_cons_of_mem _ hk)) rest]

/--
Of the orders with one canonical text one whose names are separable has most keys, and no other has
as many.
-/
theorem Resolved.eq_or_length_lt {registry : FieldRegistry} (named : registry.Named)
    {order other : SortOrder} (h : Resolved registry order) (h' : Resolved registry other)
    (separable : ∀ key ∈ order.keys, SeparableName key.field.name.toList)
    (same : order.canonical = other.canonical) :
    order = other ∨ other.keys.length < order.keys.length := by
  have separableRow : ∀ key ∈ order.row, SeparableName key.1 := by
    intro key hkey
    obtain ⟨sortKey, mem, rfl⟩ := List.mem_map.1 hkey
    exact separable sortKey mem
  have chars : order.row.chars = other.row.chars := by
    rw [← toList_canonical, ← toList_canonical, same]
  rcases KeyRow.eq_or_length_lt separableRow chars with equal | shorter
  · have keys := keys_eq_of_row_eq named (h.registered named) (h'.registered named) equal
    exact Or.inl (congrArg SortOrder.mk keys)
  · exact Or.inr (by simpa only [row, List.length_map] using shorter)

/-- Orders with separable names are told apart by their canonical texts. -/
theorem Resolved.canonical_injective {registry : FieldRegistry} (named : registry.Named)
    {order other : SortOrder} (h : Resolved registry order) (h' : Resolved registry other)
    (separable : ∀ key ∈ order.keys, SeparableName key.field.name.toList)
    (separable' : ∀ key ∈ other.keys, SeparableName key.field.name.toList)
    (same : order.canonical = other.canonical) : order = other := by
  rcases eq_or_length_lt named h h' separable same with equal | less
  · exact equal
  · rcases eq_or_length_lt named h' h separable' same.symm with equal | greater
    · exact equal.symm
    · exact absurd less (Nat.lt_asymm greater)

/-- Two orders of three keys each have one text if a name of either holds the end of a key. -/
example :
    let key := fun name => SortKey.mk (.property name .string) .ascending
    canonical ⟨[key "a:asc|b", key "c", idKey]⟩ = canonical ⟨[key "a", key "b:asc|c", idKey]⟩ := by
  decide +kernel

end SortOrder

end CatalogSearch
