import CatalogSearch.Proofs.Paging.Cursor
import CatalogSearch.Proofs.Plan
import CatalogSearch.Proofs.Store.Matching
import CatalogSearch.Service

/-!
# Pages of a store in memory

A page is cut from the matches that its position admits. The limit of the scan, one row more than
the page holds, changes nothing about the page.

* `MemoryStore.page_eq` : a page is cut from all rows of its plan;
* `MemoryStore.matches_of_mem_page` : the items of a page are matches;
* `MemoryStore.rows_forward`, `MemoryStore.rows_backward` : the rows from the position of an item;
* `SearchService.run_of_plan`, `SearchService.search_of_plan` : the answer to a request that was
  planned.
-/

namespace CatalogSearch

/-! ## Pages and the limit of a scan -/

/-- One row more than a page holds tells as much as all the rows, within a word. -/
theorem Page.ofRows_take {rows : List Item} {limit : ℕ} (order : SortOrder)
    (cursor : Option Cursor) (h : limit < maxWord ∨ rows.length ≤ maxWord) :
    Page.ofRows (rows.take (Nat.min (limit + 1) maxWord)) limit order cursor
      = Page.ofRows rows limit order cursor := by
  have scanned : rows.take (Nat.min (limit + 1) maxWord) = rows.take (limit + 1) := by
    -- Either the row too many still fits a word, or a word has room for all rows.
    rcases h with h | h
    · rw [show Nat.min (limit + 1) maxWord = limit + 1 from Nat.min_eq_left h]
    · show rows.take (min (limit + 1) maxWord) = _
      rw [← List.take_take, List.take_of_length_le h]
  have more : limit < (rows.take (limit + 1)).length ↔ limit < rows.length := by
    rw [List.length_take]
    omega
  have kept : (rows.take (limit + 1)).take limit = rows.take limit := by
    rw [List.take_take, Nat.min_eq_left (Nat.le_succ limit)]
  simp only [scanned, Page.ofRows, kept, more]

/-- A page without a position has no previous one. -/
theorem Page.ofRows_first (rows : List Item) (limit : ℕ) (order : SortOrder) :
    Page.ofRows rows limit order none
      = { items := rows.take limit
          next := (if limit < rows.length then (rows.take limit).getLast? else none).map
            (Cursor.encode · order .forward)
          previous := none } := by
  by_cases more : limit < rows.length <;> simp [Page.ofRows, more]

/-- A page forward from a position has a previous one unless it is empty. -/
theorem Page.ofRows_forward (rows : List Item) (limit : ℕ) (order : SortOrder)
    (values : List (Option FieldValue)) :
    Page.ofRows rows limit order (some ⟨.forward, values⟩)
      = { items := rows.take limit
          next := (if limit < rows.length then (rows.take limit).getLast? else none).map
            (Cursor.encode · order .forward)
          previous := (rows.take limit).head?.map (Cursor.encode · order .backward) } := by
  by_cases more : limit < rows.length <;> simp [Page.ofRows, more]

/-- A page backward from a position has a next one unless it is empty. -/
theorem Page.ofRows_backward (rows : List Item) (limit : ℕ) (order : SortOrder)
    (values : List (Option FieldValue)) :
    Page.ofRows rows limit order (some ⟨.backward, values⟩)
      = { items := (rows.take limit).reverse
          next := (rows.take limit).reverse.getLast?.map (Cursor.encode · order .forward)
          previous := (if limit < rows.length then (rows.take limit).reverse.head? else none).map
            (Cursor.encode · order .backward) } := by
  by_cases more : limit < rows.length <;> simp [Page.ofRows, more]

/-- The items of a page are rows that it was cut from. -/
theorem Page.mem_of_mem_ofRows {rows : List Item} {limit : ℕ} {order : SortOrder}
    {cursor : Option Cursor} {item : Item} (h : item ∈ (Page.ofRows rows limit order cursor).items) :
    item ∈ rows := by
  rw [ofRows] at h
  cases direction : cursor.map (·.direction) with
  | none =>
    rw [direction] at h
    exact List.mem_of_mem_take h
  | some direction' =>
    rw [direction] at h
    cases direction' with
    | forward => exact List.mem_of_mem_take h
    | backward => exact List.mem_of_mem_take (List.mem_reverse.1 h)

namespace MemoryStore

variable {store : MemoryStore} {plan : SearchPlan} {registry : FieldRegistry}

/-- All matches of a plan, in its order. -/
def hits (store : MemoryStore) (plan : SearchPlan) : List Item :=
  store.matching plan.predicates plan.order

/-- The matches are the items that match in an ascending row. -/
theorem hits_eq {rows : List Item} (hid : ∃ key ∈ plan.order.keys, key.field.path = "id")
    (ascending : plan.order.Ascending rows)
    (perm : rows.Perm (store.items.values.filter (matchesAll plan.predicates))) :
    store.hits plan = rows :=
  ascending.sort_eq hid (distinct_filter store _) perm

/-- The matches that the position of a plan admits, in the order of its scan. -/
def rows (store : MemoryStore) (plan : SearchPlan) : List Item :=
  (store.matching plan.predicates plan.scanRequest.order).filter fun item =>
    plan.scanRequest.seek.all (·.admits item)

/-- The page of a plan. -/
def page (store : MemoryStore) (plan : SearchPlan) : Page :=
  .ofRows (store.scan plan.scanRequest) plan.limit plan.order plan.cursor

/-- The order of a scan has the identifier among its keys. -/
theorem exists_id_scanRequest (resolved : SortOrder.Resolved registry plan.order) :
    ∃ key ∈ plan.scanRequest.order.keys, key.field.path = "id" := by
  have hid := resolved.exists_id
  cases position : plan.cursor with
  | none =>
    simp only [SearchPlan.scanRequest, position]
    exact hid
  | some cursor =>
    simp only [SearchPlan.scanRequest, position]
    cases direction : cursor.direction with
    | forward =>
      simp only [Option.elim_some, Cursor.scanOrder, direction]
      exact hid
    | backward =>
      simp only [Option.elim_some, Cursor.scanOrder, direction]
      exact SortOrder.exists_id_reversed hid

/-- A scan gives the first rows of its plan. -/
theorem scan_eq_take_rows (resolved : SortOrder.Resolved registry plan.order) :
    store.scan plan.scanRequest = (store.rows plan).take (Nat.min (plan.limit + 1) maxWord) :=
  scan_eq store plan.scanRequest (exists_id_scanRequest resolved)

/-- A page is cut from all rows of its plan. -/
theorem page_eq (resolved : SortOrder.Resolved registry plan.order)
    (bounded : plan.limit < maxWord ∨ store.size ≤ maxWord) :
    store.page plan = .ofRows (store.rows plan) plan.limit plan.order plan.cursor := by
  have size : (store.rows plan).length ≤ store.size :=
    Nat.le_trans (List.length_filter_le _ _) (length_matching_le store _ _)
  rw [page, scan_eq_take_rows resolved, Page.ofRows_take]
  rcases bounded with limit | fits
  · exact Or.inl limit
  · exact Or.inr (Nat.le_trans size fits)

/-- The items of a page satisfy the predicates of its plan. -/
theorem matches_of_mem_page (resolved : SortOrder.Resolved registry plan.order) {item : Item}
    (h : item ∈ (store.page plan).items) : matchesAll plan.predicates item = true := by
  have row : item ∈ store.scan plan.scanRequest := Page.mem_of_mem_ofRows h
  rw [scan_eq_take_rows resolved] at row
  exact (mem_matching.1 (List.mem_filter.1 (List.mem_of_mem_take row)).1).2

/-! ## Rows of a plan -/

/-- What the position of an item admits is what comes after the item in the order of the scan. -/
theorem admits_ofItem (boundary item : Item) (order : SortOrder) (direction : PageDirection) :
    ((Cursor.ofItem boundary order direction).seek order).admits item
      = (((Cursor.ofItem boundary order direction).scanOrder order).compare item
          boundary).isGT := by
  cases direction with
  | forward => rfl
  | backward =>
    have row : order.reversed.keyValues boundary = order.keyValues boundary :=
      SortOrder.keyValues_reversed order boundary
    show (compareRows order.reversed.keys (order.reversed.keyValues item)
      (order.keyValues boundary)).isGT = (order.reversed.compare item boundary).isGT
    rw [← row]
    rfl

/-- Without a token all matches are rows. -/
theorem rows_first (first : plan.cursor = none) :
    store.rows plan = store.hits plan := by
  simp only [rows, SearchPlan.scanRequest, first]
  exact List.filter_eq_self.2 fun _ _ => rfl

/-- The rows forward from an item are the matches that come after it. -/
theorem rows_forward {boundary : Item}
    (position : plan.cursor = some (.ofItem boundary plan.order .forward)) :
    store.rows plan = (store.hits plan).filter fun item =>
      (plan.order.compare item boundary).isGT := by
  simp only [rows, SearchPlan.scanRequest, position]
  exact List.filter_congr fun item _ => admits_ofItem boundary item plan.order .forward

/-- The rows backward from an item are the matches that come before it, in the reversed order. -/
theorem rows_backward {boundary : Item} (hid : ∃ key ∈ plan.order.keys, key.field.path = "id")
    (position : plan.cursor = some (.ofItem boundary plan.order .backward)) :
    store.rows plan = (store.hits plan).reverse.filter fun item =>
      (plan.order.reversed.compare item boundary).isGT := by
  rw [hits, ← matching_reversed hid]
  simp only [rows, SearchPlan.scanRequest, position]
  exact List.filter_congr fun item _ => admits_ofItem boundary item plan.order .backward

end MemoryStore

/-! ## Answers -/

/-- An item as it is returned. -/
def SearchPlan.feature (plan : SearchPlan) (item : Item) : Json :=
  plan.projection.elim item.toJson (·.apply item.toJson)

namespace SearchService

variable {service : SearchService} {store : MemoryStore} {request : SearchRequest}
  {plan : SearchPlan}

/-- The answer that shows a page. -/
def respond (service : SearchService) (store : MemoryStore) (plan : SearchPlan) (page : Page) :
    SearchResponse :=
  let context := if service.settings.capabilities.context then
      some ⟨page.items.length, plan.limit, some (store.count plan.predicates)⟩
    else none
  .ofPage plan page context fun rel token => .post rel service.settings.baseUrl token

/-- A plan is answered by its page, whatever links are made. -/
theorem run_ok (service : SearchService) (store : MemoryStore) (plan : SearchPlan)
    (link : LinkRel → String → Link) :
    ∃ context, service.run store.toStore (.ok plan) link
      = .ok (.ofPage plan (store.page plan) context link) :=
  ⟨_, rfl⟩

/-- A request that was planned is answered by the page of its plan, whatever links are made. -/
theorem run_of_plan (h : service.plan request = .ok plan) (link : LinkRel → String → Link) :
    ∃ context, service.run store.toStore (service.plan request) link
      = .ok (.ofPage plan (store.page plan) context link) := by
  rw [h]
  exact run_ok service store plan link

/-- The answer to a posted request that was planned. -/
theorem search_of_plan (h : service.plan request = .ok plan) :
    service.search store.toStore request = .ok (service.respond store plan (store.page plan)) := by
  have counted : service.countMatches store.toStore plan (store.page plan).items.length
      = if service.settings.capabilities.context then
          some ⟨(store.page plan).items.length, plan.limit, some (store.count plan.predicates)⟩
        else none := by
    rw [countMatches]
    split <;> rfl
  rw [search, h, respond, ← counted]
  rfl

end SearchService

end CatalogSearch
