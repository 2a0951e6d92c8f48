import CatalogSearch.Proofs.Sort.Lexicographic
import CatalogSearch.Proofs.Store.Matching

/-!
# Scans of a store in memory

What a store owes to a scan is the first rows, in the order of the request, of all items that
satisfy the predicates and come after the position to go on from. A store in memory keeps to that in
every order that a search may ask for. The other way round it gives the reversed rows, and what it
counts is the number of rows of a scan from which nothing is cut off.

* `ScanRequest.Asks` : all the rows that a request asks for, in order;
* `SortOrder.Scannable` : the orders that a search may ask for;
* `MemoryStore.scan_keeps_contract` : scans, reversed scans and counts.
-/

namespace CatalogSearch

/-! ## What is asked -/

/-- All rows that a request asks for of some items, in its order, before the limit cuts them. -/
structure ScanRequest.Asks (request : ScanRequest) (items rows : List Item) : Prop where
  ascending : request.order.Ascending rows
  mem_iff : ∀ item, item ∈ rows ↔ item ∈ items
    ∧ (∀ predicate ∈ request.predicates, predicate.matchesItem item = true)
    ∧ ∀ seek, request.seek = some seek → seek.admits item = true

/-- An order in which a search may ask for rows: forward a resolved one, backward its reversal. -/
inductive SortOrder.Scannable (registry : FieldRegistry) : SortOrder → Prop
  | forward {order : SortOrder} : Resolved registry order → Scannable registry order
  | backward {order : SortOrder} : Resolved registry order → Scannable registry order.reversed

namespace SortOrder

variable {registry : FieldRegistry} {order : SortOrder} {rows : List Item}

/-- A search asks for rows in an order that has the identifier among its keys. -/
theorem Scannable.exists_id (scannable : Scannable registry order) :
    ∃ key ∈ order.keys, key.field.path = "id" := by
  cases scannable with
  | forward resolved => exact resolved.exists_id
  | backward resolved => exact exists_id_reversed resolved.exists_id

/-- Rows that ascend strictly are all different. -/
theorem Ascending.nodup (h : order.Ascending rows) : rows.Nodup := by
  refine List.Pairwise.imp (fun {a b} lt same => ?_) h
  rw [same] at lt
  exact not_lt_self order b lt

end SortOrder

/-- Whether a request admits an item, said of its predicates and of its position. -/
theorem ScanRequest.admits_iff {request : ScanRequest} {item : Item} :
    request.admits item = true
      ↔ (∀ predicate ∈ request.predicates, predicate.matchesItem item = true)
        ∧ ∀ seek, request.seek = some seek → seek.admits item = true := by
  rw [admits, Bool.and_eq_true, matchesAll, List.all_eq_true, Option.all_eq_true]

/-- The rows that a request asks for are determined. -/
theorem ScanRequest.Asks.eq {request : ScanRequest} {items rows rows' : List Item}
    (asks : request.Asks items rows) (asks' : request.Asks items rows') : rows = rows' := by
  have perm : rows.Perm rows' :=
    (List.perm_ext_iff_of_nodup asks.ascending.nodup asks'.ascending.nodup).2 fun item =>
      (asks.mem_iff item).trans (asks'.mem_iff item).symm
  exact asks.ascending.eq_of_perm asks'.ascending perm

/-! ## What is given -/

namespace MemoryStore

variable {registry : FieldRegistry} {order : SortOrder}

/-- A scan gives the first of the rows that are asked for. -/
theorem exists_asks_of_scan (store : MemoryStore) (request : ScanRequest)
    (hid : ∃ key ∈ request.order.keys, key.field.path = "id") :
    ∃ rows, request.Asks store.items.values rows
      ∧ store.scan request = rows.take request.limit := by
  refine ⟨_, ⟨?_, fun item => ?_⟩, rfl⟩
  · exact SortOrder.ascending_sort hid (distinct_filter store request.admits)
  · rw [List.mem_mergeSort, List.mem_filter, ScanRequest.admits_iff]

/-- A scan from no position that has room for all items gives all matches. -/
theorem scan_eq_matching {store : MemoryStore} {limit : ℕ} (room : store.size ≤ limit)
    (predicates : List Predicate) (hid : ∃ key ∈ order.keys, key.field.path = "id") :
    store.scan ⟨predicates, order, none, limit⟩ = store.matching predicates order := by
  have all : (store.matching predicates order).filter
      (fun item => (none : Option Seek).all (·.admits item)) = store.matching predicates order :=
    List.filter_eq_self.2 fun _ _ => rfl
  rw [scan_eq store ⟨predicates, order, none, limit⟩ hid, all]
  exact List.take_of_length_le (Nat.le_trans (length_matching_le store predicates order) room)

/--
In every order that a search may ask for, a scan gives the first of the rows that are asked for, of
which there is one list, each once and in strictly ascending order. From no position and with room
for all items, the reversed order gives the reversed rows, and the count is the number of rows.
-/
theorem scan_keeps_contract (store : MemoryStore) (scannable : order.Scannable registry) :
    (∀ predicates seek limit, ∃ rows,
        ScanRequest.Asks ⟨predicates, order, seek, limit⟩ store.items.values rows
        ∧ (∀ others, ScanRequest.Asks ⟨predicates, order, seek, limit⟩ store.items.values others →
            others = rows)
        ∧ store.scan ⟨predicates, order, seek, limit⟩ = rows.take limit
        ∧ (store.scan ⟨predicates, order, seek, limit⟩).Nodup
        ∧ order.Ascending (store.scan ⟨predicates, order, seek, limit⟩))
      ∧ ∀ predicates limit, store.size ≤ limit →
        store.scan ⟨predicates, order.reversed, none, limit⟩
            = (store.scan ⟨predicates, order, none, limit⟩).reverse
          ∧ store.count predicates = (store.scan ⟨predicates, order, none, limit⟩).length := by
  have hid := scannable.exists_id
  constructor
  · intro predicates seek limit
    obtain ⟨rows, asks, scanned⟩ := exists_asks_of_scan store ⟨predicates, order, seek, limit⟩ hid
    have ascending : order.Ascending (rows.take limit) :=
      asks.ascending.sublist (List.take_sublist limit rows)
    rw [scanned]
    exact ⟨rows, asks, fun _ asked => asked.eq asks, rfl, ascending.nodup, ascending⟩
  · intro predicates limit room
    rw [scan_eq_matching room predicates hid,
      scan_eq_matching room predicates (SortOrder.exists_id_reversed hid)]
    exact ⟨matching_reversed hid, count_eq store predicates order⟩

end MemoryStore

/-! ## Scans of four items -/

namespace Sample

/-- The four items that an order by two fields tells apart, in another row. -/
def fourItems : List Item :=
  [afterLeap, atZero, misfit, belowZero]

/-- All of them in that order. -/
theorem scan_coarsestFirst :
    (MemoryStore.ofItems fourItems).scan ⟨[], coarsestFirst, none, 4⟩
      = [misfit, atZero, belowZero, afterLeap] := by
  have hid : ∃ key ∈ coarsestFirst.keys, key.field.path = "id" :=
    ⟨SortOrder.idKey, by decide, rfl⟩
  have room : (MemoryStore.ofItems fourItems).size ≤ 4 := by decide +kernel
  have ascending : coarsestFirst.Ascending [misfit, atZero, belowZero, afterLeap] := by
    rw [SortOrder.Ascending]
    decide +kernel
  rw [MemoryStore.scan_eq_matching room [] hid]
  refine ascending.sort_eq hid (MemoryStore.distinct_filter _ _) ?_
  -- By identifier the items are stored in the reversed row.
  exact List.reverse_perm [afterLeap, belowZero, atZero, misfit]

/-- Forward an item without a resolution comes first, and backward it comes last. -/
theorem scan_of_fourItems :
    SortOrder.Scannable .builtin coarsestFirst
      ∧ (∃ rows, ScanRequest.Asks ⟨[], coarsestFirst, none, 3⟩
          (MemoryStore.ofItems fourItems).items.values rows
        ∧ (MemoryStore.ofItems fourItems).scan ⟨[], coarsestFirst, none, 3⟩ = rows.take 3)
      ∧ (MemoryStore.ofItems fourItems).scan ⟨[], coarsestFirst.reversed, none, 4⟩
        = [afterLeap, belowZero, atZero, misfit]
      ∧ (MemoryStore.ofItems fourItems).count [] = 4 := by
  have resolved : resolveSort .builtin [⟨"gsd", .descending⟩, ⟨"datetime", .ascending⟩]
      = .ok coarsestFirst := rfl
  have scannable : SortOrder.Scannable .builtin coarsestFirst := .forward (.requested resolved)
  obtain ⟨first, whole⟩ := (MemoryStore.ofItems fourItems).scan_keeps_contract scannable
  obtain ⟨rows, asks, _, scanned, _, _⟩ := first [] none 3
  obtain ⟨reversed, counted⟩ := whole [] 4 (by decide +kernel)
  refine ⟨scannable, ⟨rows, asks, scanned⟩, ?_, ?_⟩
  · rw [reversed, scan_coarsestFirst]
    rfl
  · rw [counted, scan_coarsestFirst]
    rfl

end Sample

end CatalogSearch
