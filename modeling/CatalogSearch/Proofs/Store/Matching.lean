import CatalogSearch.Proofs.Sort.Sorted
import CatalogSearch.Store.Memory

/-!
# Matches of a store in memory

All that a store in memory tells of its items comes from one list: the items that satisfy the
predicates of a search, in the order of the search.

* `MemoryStore.ascending_matching` : the matches ascend strictly;
* `MemoryStore.scan_eq` : a scan gives the first matches that its position admits;
* `MemoryStore.count_eq` : the count is the number of matches;
* `MemoryStore.mem_values_extend` : an item stays until one of its identifier is written.
-/

namespace CatalogSearch.MemoryStore

open SortOrder (Distinct)

variable {store : MemoryStore} {predicates : List Predicate} {order : SortOrder}

/-! ## Matches -/

/-- The items that satisfy all of a list of predicates, in an order. -/
def matching (store : MemoryStore) (predicates : List Predicate) (order : SortOrder) : List Item :=
  order.sort (store.items.values.filter (matchesAll predicates))

/-- The items of a store have different identifiers. -/
theorem distinct_values (store : MemoryStore) : Distinct store.items.values :=
  store.items_keyed.pairwise_values.imp String.ne_of_lt

/-- Items of a store are the same if they have the same identifier. -/
theorem eq_of_id_eq {a b : Item} (ha : a ∈ store.items.values) (hb : b ∈ store.items.values)
    (same : a.id = b.id) : a = b :=
  (distinct_values store).eq_of_id_eq ha hb same

/-- The items that satisfy some predicates have different identifiers. -/
theorem distinct_filter (store : MemoryStore) (keep : Item → Bool) :
    Distinct (store.items.values.filter keep) :=
  (distinct_values store).filter keep

/-- The matches ascend strictly. -/
theorem ascending_matching (hid : ∃ key ∈ order.keys, key.field.path = "id") :
    order.Ascending (store.matching predicates order) :=
  SortOrder.ascending_sort hid (distinct_filter store _)

/-- The matches in the reversed order are the reversed matches. -/
theorem matching_reversed (hid : ∃ key ∈ order.keys, key.field.path = "id") :
    store.matching predicates order.reversed = (store.matching predicates order).reverse :=
  SortOrder.sort_reversed hid (distinct_filter store _)

/-- The matches are the items that satisfy the predicates. -/
theorem mem_matching {item : Item} :
    item ∈ store.matching predicates order
      ↔ item ∈ store.items.values ∧ matchesAll predicates item = true := by
  rw [matching, (SortOrder.sort_perm order _).mem_iff, List.mem_filter]

/-- The count is the number of matches. -/
theorem count_eq (store : MemoryStore) (predicates : List Predicate) (order : SortOrder) :
    store.count predicates = (store.matching predicates order).length := by
  rw [matching, (SortOrder.sort_perm order _).length_eq, count]

/-- There are no more matches than items. -/
theorem length_matching_le (store : MemoryStore) (predicates : List Predicate)
    (order : SortOrder) : (store.matching predicates order).length ≤ store.size := by
  have all : store.items.values.length = store.size := List.length_map _
  rw [← count_eq, count, ← all]
  exact List.length_filter_le _ _

/-- A scan gives the first matches that its position admits. -/
theorem scan_eq (store : MemoryStore) (request : ScanRequest)
    (hid : ∃ key ∈ request.order.keys, key.field.path = "id") :
    store.scan request
      = ((store.matching request.predicates request.order).filter fun item =>
          request.seek.all (·.admits item)).take request.limit := by
  have both : store.items.values.filter request.admits
      = (store.items.values.filter (matchesAll request.predicates)).filter fun item =>
          request.seek.all (·.admits item) := by
    rw [List.filter_filter]
    exact List.filter_congr fun item _ => Bool.and_comm _ _
  rw [matching, SortOrder.filter_sort hid (distinct_filter store _), ← both]
  rfl

/-! ## Writing -/

/-- A store does not shrink where an item is written. -/
theorem size_le_insert (store : MemoryStore) (item : Item) :
    store.size ≤ (store.insert item).size :=
  length_le_insertEntry item.id item store.items.entries

/-- A store does not shrink where items are written. -/
theorem size_le_extend (store : MemoryStore) (items : List Item) :
    store.size ≤ (store.extend items).size := by
  induction items generalizing store with
  | nil => exact Nat.le_refl _
  | cons item items ih => exact Nat.le_trans (size_le_insert store item) (ih (store.insert item))

/-- An item stays where one of another identifier is written. -/
theorem mem_values_insert {item written : Item} (h : item ∈ store.items.values)
    (other : written.id ≠ item.id) : item ∈ (store.insert written).items.values := by
  obtain ⟨entry, mem, rfl⟩ := List.mem_map.1 h
  have name : entry.1 ≠ written.id := by
    rw [store.items_keyed entry mem]
    exact other.symm
  exact List.mem_map_of_mem (mem_insertEntry_of_ne mem name)

/-- An item stays until one of its identifier is written. -/
theorem mem_values_extend {item : Item} {items : List Item} (h : item ∈ store.items.values)
    (other : ∀ written ∈ items, written.id ≠ item.id) :
    item ∈ (store.extend items).items.values := by
  induction items generalizing store with
  | nil => exact h
  | cons written items ih =>
    exact ih (mem_values_insert h (other written List.mem_cons_self))
      fun w hw => other w (List.mem_cons_of_mem _ hw)

end CatalogSearch.MemoryStore
