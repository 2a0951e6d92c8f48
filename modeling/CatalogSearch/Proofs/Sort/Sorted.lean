import CatalogSearch.Proofs.Sort.Total
import Mathlib.Data.List.Pairwise

/-!
# Sorted rows

Items with different identifiers are put into one row only by an order that has the identifier among
its keys, whatever row they come in. So sorting may change places with filtering and with turning
the order round.

* `SortOrder.ascending_sort` : sorted items ascend strictly;
* `SortOrder.filter_sort` : filtering changes places with sorting;
* `SortOrder.sort_reversed` : the reversed order sorts into the reversed row;
* `SortOrder.filter_after_getElem?`, `SortOrder.filter_before_getElem?` : the rows on either side of
  one of them.
-/

namespace CatalogSearch.SortOrder

open Std (OrientedCmp ReflCmp TransCmp)

variable {order : SortOrder} {items rows : List Item}

/-- Items in an order. -/
def sort (order : SortOrder) (items : List Item) : List Item :=
  items.mergeSort fun a b => (order.compare a b).isLE

/-- Each row comes strictly before all later ones. -/
def Ascending (order : SortOrder) (rows : List Item) : Prop :=
  rows.Pairwise fun a b => order.compare a b = .lt

/-- No two items have the same identifier. -/
def Distinct (items : List Item) : Prop :=
  items.Pairwise fun a b => a.id ≠ b.id

/-- Of items with different identifiers two with the same one are the same. -/
theorem Distinct.eq_of_id_eq (h : Distinct items) {a b : Item} (ha : a ∈ items) (hb : b ∈ items)
    (same : a.id = b.id) : a = b := by
  have symm : Std.Symm fun a b : Item => a.id ≠ b.id := ⟨fun _ _ => Ne.symm⟩
  by_contra ne
  exact List.Pairwise.forall h ha hb ne same

/-! ## Sorting -/

/-- Sorting neither loses nor repeats items. -/
theorem sort_perm (order : SortOrder) (items : List Item) : (order.sort items).Perm items :=
  List.mergeSort_perm items _

/-- Sorted items never descend. -/
theorem pairwise_sort (order : SortOrder) (items : List Item) :
    (order.sort items).Pairwise fun a b => (order.compare a b).isLE := by
  apply List.pairwise_mergeSort
  · intro a b c
    exact TransCmp.isLE_trans
  · intro a b
    rw [Bool.or_eq_true]
    by_cases le : (order.compare a b).isLE
    · exact Or.inl le
    · have lt := OrientedCmp.lt_of_not_isLE le
      exact Or.inr (by rw [lt]; rfl)

/-- Having different identifiers does not depend on the row. -/
theorem Distinct.of_perm (h : Distinct items) (perm : items.Perm rows) : Distinct rows :=
  (perm.pairwise_iff Ne.symm).1 h

/-- Sorted items ascend strictly. -/
theorem ascending_sort (hid : ∃ key ∈ order.keys, key.field.path = "id") (h : Distinct items) :
    order.Ascending (order.sort items) := by
  have distinct := h.of_perm (sort_perm order items).symm
  -- A tie would give two of the items the same identifier.
  refine ((pairwise_sort order items).and distinct).imp fun both => ?_
  obtain ⟨le, different⟩ := both
  refine (Ordering.isLE_iff_eq_lt_or_eq_eq.1 le).resolve_right fun tied => ?_
  exact different (id_eq_of_compare_eq hid tied)

/-- Rows that ascend strictly are the same if they hold the same items. -/
theorem Ascending.eq_of_perm (h : order.Ascending items) (h' : order.Ascending rows)
    (perm : items.Perm rows) : items = rows := by
  refine List.Perm.eq_of_pairwise (fun a b _ _ ab ba => ?_) h h' perm
  rw [OrientedCmp.gt_iff_lt.2 ba] at ab
  cases ab

/-- Rows that ascend strictly are what their items are sorted into. -/
theorem Ascending.sort_eq (h : order.Ascending rows)
    (hid : ∃ key ∈ order.keys, key.field.path = "id") (distinct : Distinct items)
    (perm : rows.Perm items) : order.sort items = rows :=
  (ascending_sort hid distinct).eq_of_perm h ((sort_perm order items).trans perm.symm)

/-- Filtering changes places with sorting. -/
theorem filter_sort (hid : ∃ key ∈ order.keys, key.field.path = "id") (h : Distinct items)
    (keep : Item → Bool) : (order.sort items).filter keep = order.sort (items.filter keep) := by
  have ascending : order.Ascending ((order.sort items).filter keep) :=
    (ascending_sort hid h).filter keep
  exact (ascending.sort_eq hid (h.filter keep) ((sort_perm order items).filter keep)).symm

/-- The identifier stays among the keys of the reversed order. -/
theorem exists_id_reversed (hid : ∃ key ∈ order.keys, key.field.path = "id") :
    ∃ key ∈ order.reversed.keys, key.field.path = "id" := by
  obtain ⟨key, mem, path⟩ := hid
  exact ⟨_, List.mem_map_of_mem mem, path⟩

/-- A row that ascends strictly does so the other way round in the reversed order. -/
theorem Ascending.reverse (h : order.Ascending rows) : order.reversed.Ascending rows.reverse := by
  rw [Ascending, List.pairwise_reverse]
  refine List.Pairwise.imp (fun lt => ?_) h
  rw [compare_reversed]
  exact lt

/-- The reversed order sorts into the reversed row. -/
theorem sort_reversed (hid : ∃ key ∈ order.keys, key.field.path = "id") (h : Distinct items) :
    order.reversed.sort items = (order.sort items).reverse :=
  (ascending_sort hid h).reverse.sort_eq (exists_id_reversed hid) h
    ((List.reverse_perm _).trans (sort_perm order items))

/-! ## Rows on either side of one -/

/-- What comes after an item is what the item comes before. -/
theorem isGT_compare {a b : Item} :
    (order.compare a b).isGT = true ↔ order.compare b a = .lt :=
  Ordering.isGT_iff_eq_gt.trans OrientedCmp.gt_iff_lt

/-- An item does not come before itself. -/
theorem not_lt_self (order : SortOrder) (item : Item) : order.compare item item ≠ .lt := by
  have self : order.compare item item = .eq := ReflCmp.compare_self
  rw [self]
  exact Ordering.noConfusion

/-- Rows that come before what their last one comes before. -/
theorem Ascending.lt_of_getLast? (h : order.Ascending rows) {item : Item}
    (behind : ∀ last, rows.getLast? = some last → order.compare last item = .lt) :
    ∀ row ∈ rows, order.compare row item = .lt := by
  intro row mem
  obtain ⟨last, hlast⟩ :=
    Option.isSome_iff_exists.1 (List.getLast?_isSome.2 (List.ne_nil_of_mem mem))
  have lt := behind last hlast
  obtain ⟨front, rfl⟩ := List.getLast?_eq_some_iff.1 hlast
  rcases List.mem_append.1 mem with mem | mem
  · obtain ⟨_, _, across⟩ := List.pairwise_append.1 h
    exact TransCmp.lt_trans (across row mem last List.mem_cons_self) lt
  · rw [List.mem_singleton.1 mem]
    exact lt

/-- An item stands once in rows that have no other one of its identifier. -/
theorem Ascending.filter_id_eq (h : order.Ascending rows) {item : Item} (mem : item ∈ rows)
    (only : ∀ row ∈ rows, row.id = item.id → row = item) :
    rows.filter (fun row => row.id = item.id) = [item] := by
  obtain ⟨before, after, rfl⟩ := List.append_of_mem mem
  obtain ⟨_, tail, across⟩ := List.pairwise_append.1 h
  obtain ⟨behind, _⟩ := List.pairwise_cons.1 tail
  have noneBefore : before.filter (fun row => row.id = item.id) = [] := by
    refine List.filter_eq_nil_iff.2 fun row hrow same => ?_
    have eq := only row (List.mem_append_left _ hrow) (of_decide_eq_true same)
    exact not_lt_self order item (eq ▸ across row hrow item List.mem_cons_self)
  have noneAfter : after.filter (fun row => row.id = item.id) = [] := by
    refine List.filter_eq_nil_iff.2 fun row hrow same => ?_
    have eq := only row (List.mem_append_right _ (List.mem_cons_of_mem _ hrow))
      (of_decide_eq_true same)
    exact not_lt_self order item (eq ▸ behind row hrow)
  have self : (item :: after).filter (fun row => row.id = item.id)
      = item :: after.filter (fun row => row.id = item.id) :=
    List.filter_cons_of_pos (decide_eq_true rfl)
  rw [List.filter_append, noneBefore, List.nil_append, self, noneAfter]

/-- The rows behind one of them are those that come after it. -/
theorem filter_after {before after : List Item} {item : Item}
    (h : order.Ascending (before ++ item :: after)) :
    (before ++ item :: after).filter (fun row => (order.compare row item).isGT) = after := by
  obtain ⟨_, tail, across⟩ := List.pairwise_append.1 h
  obtain ⟨behind, _⟩ := List.pairwise_cons.1 tail
  have none : before.filter (fun row => (order.compare row item).isGT) = [] := by
    refine List.filter_eq_nil_iff.2 fun row mem => ?_
    rw [across row mem item List.mem_cons_self]
    exact Bool.false_ne_true
  have all : after.filter (fun row => (order.compare row item).isGT) = after :=
    List.filter_eq_self.2 fun row mem => isGT_compare.2 (behind row mem)
  have self : (item :: after).filter (fun row => (order.compare row item).isGT)
      = after.filter (fun row => (order.compare row item).isGT) :=
    List.filter_cons_of_neg fun gt => not_lt_self order item (isGT_compare.1 gt)
  rw [List.filter_append, none, List.nil_append, self, all]

/-- The rows that come after the one at a place are those behind it. -/
theorem filter_after_getElem? (h : order.Ascending rows) {j : Nat} {item : Item}
    (place : rows[j]? = some item) :
    rows.filter (fun row => (order.compare row item).isGT) = rows.drop (j + 1) := by
  obtain ⟨bound, value⟩ := List.getElem?_eq_some_iff.1 place
  have split : rows = rows.take j ++ item :: rows.drop (j + 1) := by
    rw [← value, ← List.drop_eq_getElem_cons bound, List.take_append_drop]
  rw [split] at h
  have after := filter_after h
  rw [← split] at after
  exact after

/-- The rows that come before the one at a place are those in front of it. -/
theorem filter_before_getElem? (h : order.Ascending rows) {j : Nat} {item : Item}
    (place : rows[j]? = some item) :
    rows.reverse.filter (fun row => (order.reversed.compare row item).isGT)
      = (rows.take j).reverse := by
  obtain ⟨bound, _⟩ := List.getElem?_eq_some_iff.1 place
  -- In the reversed row the row is found at the mirrored place, and what is in front is behind.
  have mirrored : rows.reverse[rows.length - 1 - j]? = some item := by
    rw [List.getElem?_reverse (by omega), ← place]
    congr 1
    omega
  rw [filter_after_getElem? h.reverse mirrored, List.drop_reverse]
  congr 2
  omega

end CatalogSearch.SortOrder
