import CatalogSearch.Proofs.Paging.Page

/-!
# Blocks of matches

The matches of a search fall into blocks of the size of a page. While nothing is written, the page
from either end of a block is the neighbouring block.

* `MemoryStore.page_first` : the first page is the first block;
* `MemoryStore.page_next` : the page after the last item of a block is the block behind it;
* `MemoryStore.page_previous` : the page before the first item of a block is the block in
  front of it.
-/

namespace CatalogSearch

/-! ## Blocks of a list -/

/-- The rows of a block of a size, the last one of which may have fewer. -/
def block (rows : List Item) (size k : ℕ) : List Item :=
  (rows.drop (k * size)).take size

/-- The number of rows in a block. -/
theorem length_block (rows : List Item) (size k : ℕ) :
    (block rows size k).length = min size (rows.length - k * size) := by
  rw [block, List.length_take, List.length_drop]

/-- The first row of a block. -/
theorem head?_block (rows : List Item) {size : ℕ} (hsize : 0 < size) (k : ℕ) :
    (block rows size k).head? = rows[k * size]? := by
  rw [block, List.head?_take, if_neg (Nat.ne_of_gt hsize), List.head?_drop]

/-- The last row of a block that is full. -/
theorem getLast?_block {rows : List Item} {size k : ℕ} (hsize : 0 < size)
    (full : (k + 1) * size ≤ rows.length) :
    (block rows size k).getLast? = rows[(k + 1) * size - 1]? := by
  have next : (k + 1) * size = k * size + size := Nat.succ_mul k size
  rw [List.getLast?_eq_getElem?, length_block, block,
    List.getElem?_take_of_lt (by omega), List.getElem?_drop]
  congr 1
  omega

/-- Blocks one after another are the rows. -/
theorem flatMap_block (rows : List Item) (size n : ℕ) :
    (List.range n).flatMap (block rows size) = rows.take (n * size) := by
  induction n with
  | zero => rw [Nat.zero_mul, List.take_zero, List.range_zero, List.flatMap_nil]
  | succ n ih =>
    rw [List.range_succ, List.flatMap_append, ih, List.flatMap_singleton, Nat.succ_mul,
      List.take_add, block]

/-! ## Pages of blocks -/

/--
The page of a block: there is a next one as long as rows are left behind it, and a previous one from
the second block on.
-/
def Page.ofBlock (rows : List Item) (limit : ℕ) (order : SortOrder) (k : ℕ) : Page where
  items := block rows limit k
  next := (if (k + 1) * limit < rows.length then (block rows limit k).getLast? else none).map
    (Cursor.encode · order .forward)
  previous := (if 0 < k then (block rows limit k).head? else none).map
    (Cursor.encode · order .backward)

/-- A plan that goes on from a position. -/
def SearchPlan.goingOn (plan : SearchPlan) (cursor : Cursor) : SearchPlan :=
  { plan with cursor := some cursor }

namespace MemoryStore

variable {store : MemoryStore} {plan : SearchPlan} {registry : FieldRegistry} {item : Item}
  {k : ℕ}

/-- The first page is the first block. -/
theorem page_first (resolved : SortOrder.Resolved registry plan.order)
    (bounded : store.size ≤ maxWord) (first : plan.cursor = none) :
    store.page plan = .ofBlock (store.hits plan) plan.limit plan.order 0 := by
  have start : block (store.hits plan) plan.limit 0 = (store.hits plan).take plan.limit := by
    rw [block, Nat.zero_mul, List.drop_zero]
  rw [page_eq resolved (Or.inr bounded), rows_first first, first, Page.ofRows_first]
  simp only [Page.ofBlock, start, Nat.zero_add, Nat.one_mul, Nat.lt_irrefl, if_false,
    Option.map_none]

/-- The page after the last item of a block is the block behind it. -/
theorem page_next (resolved : SortOrder.Resolved registry plan.order)
    (bounded : store.size ≤ maxWord) (size : 0 < plan.limit)
    (more : (k + 1) * plan.limit < (store.hits plan).length)
    (last : (block (store.hits plan) plan.limit k).getLast? = some item) :
    store.page (plan.goingOn (.ofItem item plan.order .forward))
      = .ofBlock (store.hits plan) plan.limit plan.order (k + 1) := by
  have positive : 0 < (k + 1) * plan.limit := Nat.mul_pos (Nat.succ_pos k) size
  rw [getLast?_block size (Nat.le_of_lt more)] at last
  have rest := SortOrder.filter_after_getElem? (ascending_matching resolved.exists_id) last
  rw [Nat.sub_add_cancel positive] at rest
  have behind : (k + 1 + 1) * plan.limit < (store.hits plan).length
      ↔ plan.limit < ((store.hits plan).drop ((k + 1) * plan.limit)).length := by
    rw [List.length_drop, Nat.succ_mul (k + 1)]
    omega
  have rows : store.rows (plan.goingOn (.ofItem item plan.order .forward))
      = (store.hits plan).drop ((k + 1) * plan.limit) := (rows_forward rfl).trans rest
  have cut : store.page (plan.goingOn (.ofItem item plan.order .forward)) = .ofRows _ _ _ _ :=
    page_eq resolved (Or.inr bounded)
  rw [cut, rows]
  simp only [SearchPlan.goingOn, Cursor.ofItem, Page.ofRows_forward, Page.ofBlock, block, behind,
    Nat.succ_pos, if_true]

/-- The page before the first item of a block is the block in front of it. -/
theorem page_previous (resolved : SortOrder.Resolved registry plan.order)
    (bounded : store.size ≤ maxWord) (size : 0 < plan.limit)
    (first : (block (store.hits plan) plan.limit (k + 1)).head? = some item) :
    store.page (plan.goingOn (.ofItem item plan.order .backward))
      = .ofBlock (store.hits plan) plan.limit plan.order k := by
  rw [head?_block _ size] at first
  obtain ⟨bound, _⟩ := List.getElem?_eq_some_iff.1 first
  have rest := SortOrder.filter_before_getElem? (ascending_matching resolved.exists_id) first
  have product : (k + 1) * plan.limit = k * plan.limit + plan.limit := Nat.succ_mul k plan.limit
  have length : ((store.hits plan).take ((k + 1) * plan.limit)).length = (k + 1) * plan.limit :=
    List.length_take_of_le (Nat.le_of_lt bound)
  have kept : (((store.hits plan).take ((k + 1) * plan.limit)).reverse.take plan.limit).reverse
      = block (store.hits plan) plan.limit k := by
    rw [List.take_reverse, List.reverse_reverse, length, List.drop_take, block,
      show (k + 1) * plan.limit - plan.limit = k * plan.limit by omega,
      show (k + 1) * plan.limit - k * plan.limit = plan.limit by omega]
  have more : plan.limit < ((store.hits plan).take ((k + 1) * plan.limit)).reverse.length
      ↔ 0 < k := by
    have inFront : 0 < k * plan.limit ↔ 0 < k := Nat.mul_pos_iff_of_pos_right size
    rw [List.length_reverse, length, product, ← inFront]
    omega
  have rows : store.rows (plan.goingOn (.ofItem item plan.order .backward))
      = ((store.hits plan).take ((k + 1) * plan.limit)).reverse := by
    have hid : ∃ key ∈ (plan.goingOn (.ofItem item plan.order .backward)).order.keys,
        key.field.path = "id" := resolved.exists_id
    exact (rows_backward hid rfl).trans rest
  have cut : store.page (plan.goingOn (.ofItem item plan.order .backward)) = .ofRows _ _ _ _ :=
    page_eq resolved (Or.inr bounded)
  rw [cut, rows]
  simp only [SearchPlan.goingOn, Cursor.ofItem, Page.ofRows_backward, Page.ofBlock, kept, more,
    if_pos bound]

end MemoryStore

end CatalogSearch
