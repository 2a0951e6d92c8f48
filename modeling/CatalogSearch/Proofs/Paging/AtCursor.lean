import CatalogSearch.Proofs.Paging.Links
import CatalogSearch.Proofs.Paging.Page
import CatalogSearch.Proofs.Sort.Lexicographic

/-!
# Pages from any position

A token may say a position at which no item stands: values that no item has, or values that are
missing. The page forward from it is cut from the matches after the position, and the page backward
from those before it, whatever the position is.

* `RowPrecedes`, `compareRows_eq_lt_iff` : when one row of values comes before another one;
* `MemoryStore.rows_after`, `MemoryStore.rows_before` : the rows from a position;
* `SearchService.Answered.at_cursor` : the answer to a request with a token.
-/

namespace CatalogSearch

open Std (OrientedCmp)

/-! ## Rows of values -/

/-- A row of values comes before another one at the first key that tells them apart. -/
inductive RowPrecedes :
    List SortKey → List (Option FieldValue) → List (Option FieldValue) → Prop
  | first {key : SortKey} {keys : List SortKey} {a b : Option FieldValue}
      {as bs : List (Option FieldValue)} (precedes : key.direction.Precedes a b) :
      RowPrecedes (key :: keys) (a :: as) (b :: bs)
  | tied {key : SortKey} {keys : List SortKey} {a : Option FieldValue}
      {as bs : List (Option FieldValue)} (rest : RowPrecedes keys as bs) :
      RowPrecedes (key :: keys) (a :: as) (a :: bs)

/-- The comparison of rows by a first key and the others. -/
theorem compareRows_cons (key : SortKey) (keys : List SortKey) (a b : Option FieldValue)
    (as bs : List (Option FieldValue)) :
    compareRows (key :: keys) (a :: as) (b :: bs)
      = (compareKey key.direction a b).then (compareRows keys as bs) :=
  rfl

/-- What comes first among rows of values. -/
theorem compareRows_eq_lt_iff {keys : List SortKey} {as bs : List (Option FieldValue)} :
    compareRows keys as bs = .lt ↔ RowPrecedes keys as bs := by
  constructor
  · -- Where a row has no value left the comparison is a tie, so it is not less.
    intro lt
    induction keys generalizing as bs with
    | nil => cases lt
    | cons key keys ih =>
      cases as with
      | nil => cases lt
      | cons a as =>
        cases bs with
        | nil => cases lt
        | cons b bs =>
          rw [compareRows_cons, Ordering.then_eq_lt, compareKey_eq_lt_iff,
            compareKey_eq_eq_iff] at lt
          rcases lt with precedes | ⟨rfl, lt⟩
          · exact .first precedes
          · exact .tied (ih lt)
  · intro precedes
    induction precedes with
    | first precedes =>
      rw [compareRows_cons, compareKey_eq_lt_iff.2 precedes]
      rfl
    | tied rest ih =>
      rw [compareRows_cons, compareKey_eq_eq_iff.2 rfl]
      exact ih

instance (keys : List SortKey) (as bs : List (Option FieldValue)) :
    Decidable (RowPrecedes keys as bs) :=
  decidable_of_iff _ compareRows_eq_lt_iff

/-- Exchanging two rows turns their comparison round. -/
theorem compareRows_swap (keys : List SortKey) (as bs : List (Option FieldValue)) :
    (compareRows keys bs as).swap = compareRows keys as bs := by
  induction keys generalizing as bs with
  | nil => cases as <;> cases bs <;> rfl
  | cons key keys ih =>
    cases as with
    | nil => cases bs <;> rfl
    | cons a as =>
      cases bs with
      | nil => rfl
      | cons b bs =>
        have first : compareKey key.direction a b = (compareKey key.direction b a).swap :=
          OrientedCmp.eq_swap
        rw [compareRows_cons, compareRows_cons, Ordering.swap_then, ih, first]

/-- A row is greater than one that comes before it. -/
theorem isGT_compareRows {keys : List SortKey} {as bs : List (Option FieldValue)} :
    (compareRows keys as bs).isGT = decide (RowPrecedes keys bs as) := by
  rw [← compareRows_swap, Ordering.isGT_swap, Bool.eq_iff_iff, Ordering.isLT_iff_eq_lt,
    compareRows_eq_lt_iff, decide_eq_true_iff]

/-- The reversed keys compare rows the other way round. -/
theorem compareRows_reversed (order : SortOrder) (as bs : List (Option FieldValue)) :
    compareRows order.reversed.keys as bs = compareRows order.keys bs as := by
  obtain ⟨keys⟩ := order
  show compareRows (keys.map fun key => ⟨key.field, key.direction.reversed⟩) as bs = _
  induction keys generalizing as bs with
  | nil => cases as <;> cases bs <;> rfl
  | cons key keys ih =>
    cases as with
    | nil => cases bs <;> rfl
    | cons a as =>
      cases bs with
      | nil => rfl
      | cons b bs => rw [List.map_cons, compareRows_cons, compareRows_cons, compareKey_reversed, ih]

/-! ## Matches around a position -/

namespace MemoryStore

variable {store : MemoryStore} {plan : SearchPlan} {registry : FieldRegistry}
  {values : List (Option FieldValue)}

/-- The matches of a plan that come after a row of values, in the order of the plan. -/
def after (store : MemoryStore) (plan : SearchPlan) (values : List (Option FieldValue)) :
    List Item :=
  (store.hits plan).filter fun item =>
    RowPrecedes plan.order.keys values (plan.order.keyValues item)

/-- The matches of a plan that come before a row of values, in the order of the plan. -/
def before (store : MemoryStore) (plan : SearchPlan) (values : List (Option FieldValue)) :
    List Item :=
  (store.hits plan).filter fun item =>
    RowPrecedes plan.order.keys (plan.order.keyValues item) values

/-- The rows forward from a position are the matches after it. -/
theorem rows_after (position : plan.cursor = some ⟨.forward, values⟩) :
    store.rows plan = store.after plan values := by
  simp only [rows, SearchPlan.scanRequest, position]
  refine List.filter_congr fun item _ => ?_
  show (compareRows plan.order.keys (plan.order.keyValues item) values).isGT = _
  exact isGT_compareRows

/-- The rows backward from a position are the matches before it, the last one first. -/
theorem rows_before (hid : ∃ key ∈ plan.order.keys, key.field.path = "id")
    (position : plan.cursor = some ⟨.backward, values⟩) :
    store.rows plan = (store.before plan values).reverse := by
  rw [before, hits, ← List.filter_reverse, ← matching_reversed hid]
  simp only [rows, SearchPlan.scanRequest, position]
  refine List.filter_congr fun item _ => ?_
  show (compareRows plan.order.reversed.keys (plan.order.reversed.keyValues item) values).isGT = _
  rw [compareRows_reversed, SortOrder.keyValues_reversed]
  exact isGT_compareRows

end MemoryStore

/-! ## Pages from a position -/

/-- A token is there exactly if it should be, and it is the one of the position of an item. -/
structure TokenAt (token : Option String) (there : Prop) (edge : Option Item) (order : SortOrder)
    (direction : PageDirection) : Prop where
  isSome_iff : token.isSome ↔ there
  eq_encode : ∀ text, token = some text →
    ∃ item, edge = some item ∧ text = Cursor.encode item order direction

/-- The token of the item at an edge is there exactly if the edge is. -/
theorem tokenAt_edge {there : Prop} {edge : Option Item} (order : SortOrder)
    (direction : PageDirection) (found : edge.isSome = true ↔ there) :
    TokenAt (edge.map (Cursor.encode · order direction)) there edge order direction where
  isSome_iff := by rw [Option.isSome_map, found]
  eq_encode text same := by
    obtain ⟨item, edge, rfl⟩ := Option.map_eq_some_iff.1 same
    exact ⟨item, edge, rfl⟩

/-- The token of the item at an edge, given under a condition that there is one. -/
theorem tokenAt_ite {there : Prop} [Decidable there] {edge : Option Item} (order : SortOrder)
    (direction : PageDirection) (found : there → edge.isSome = true) :
    TokenAt ((if there then edge else none).map (Cursor.encode · order direction)) there edge order
      direction := by
  by_cases holds : there
  · rw [if_pos holds]
    exact tokenAt_edge order direction ⟨fun _ => holds, found⟩
  · rw [if_neg holds]
    constructor
    · simp [holds]
    · intro text same
      cases same

/--
An answer shows some items of a plan, and has a next and a previous token exactly where it should.
The next token is that of the last item, and the previous one that of the first.
-/
structure SearchResponse.Shows (response : SearchResponse) (plan : SearchPlan)
    (items : List Item) (hasNext hasPrevious : Prop) : Prop where
  features : response.features = items.map plan.feature
  next : TokenAt response.nextToken hasNext items.getLast? plan.order .forward
  previous : TokenAt response.previousToken hasPrevious items.head? plan.order .backward

/--
An answer shows the page of a plan from a position: forward the first matches after it, and backward
the last ones before it, in the order of the plan.
-/
def SearchResponse.ShowsFrom (response : SearchResponse) (store : MemoryStore) (plan : SearchPlan) :
    Cursor → Prop
  | ⟨.forward, values⟩ =>
    let rest := store.after plan values
    let items := rest.take plan.limit
    response.Shows plan items (plan.limit < rest.length) (items ≠ [])
  | ⟨.backward, values⟩ =>
    let rest := store.before plan values
    let items := rest.drop (rest.length - plan.limit)
    response.Shows plan items (items ≠ []) (plan.limit < rest.length)

/-- The page of a plan from a position shows what it should. -/
theorem MemoryStore.showsFrom_page {store : MemoryStore} {plan : SearchPlan}
    {registry : FieldRegistry} {cursor : Cursor}
    (resolved : SortOrder.Resolved registry plan.order) (size : 0 < plan.limit)
    (bounded : plan.limit < maxWord ∨ store.size ≤ maxWord) (position : plan.cursor = some cursor)
    (context : Option MatchContext) (link : LinkRel → String → Link) :
    (SearchResponse.ofPage plan (store.page plan) context link).ShowsFrom store plan cursor := by
  obtain ⟨direction, values⟩ := cursor
  have cut := page_eq resolved bounded
  cases direction with
  | forward =>
    rw [rows_after position, position, Page.ofRows_forward] at cut
    rw [cut]
    constructor
    · rfl
    · refine tokenAt_ite _ _ fun more => List.getLast?_isSome.2 ?_
      rw [← List.length_pos_iff, List.length_take]
      omega
    · exact tokenAt_edge _ _ List.isSome_head?
  | backward =>
    have kept : ((store.before plan values).reverse.take plan.limit).reverse
        = (store.before plan values).drop ((store.before plan values).length - plan.limit) := by
      rw [List.take_reverse, List.reverse_reverse]
    -- The scan goes backward, and the page puts what it kept round again.
    rw [rows_before resolved.exists_id position, position, Page.ofRows_backward, kept,
      List.length_reverse] at cut
    rw [cut]
    constructor
    · rfl
    · exact tokenAt_edge _ _ List.getLast?_isSome
    · refine tokenAt_ite _ _ fun more => List.isSome_head?.2 ?_
      rw [← List.length_pos_iff, List.length_drop]
      omega

/-! ## Answers to requests with a token -/

namespace SearchService

variable {service : SearchService} {store : MemoryStore} {plan : SearchPlan} {token : String}
  {answer : Except SearchError SearchResponse}

/-- A request, which may have a token, is accepted with a plan, and answered. -/
inductive Answered (service : SearchService) (store : MemoryStore) (token : Option String)
    (plan : SearchPlan) : Except SearchError SearchResponse → Prop
  /-- A request in a body. -/
  | posted (request : SearchRequest) (given : request.token = token)
      (accepted : service.plan request = .ok plan) :
      Answered service store token plan (service.search store.toStore request)
  /-- A request in a query string. -/
  | queried (params : SearchParams) (given : params.token = token)
      (accepted : (params.toRequest >>= service.plan) = .ok plan) :
      Answered service store token plan (service.getSearch store.toStore params)
  /-- A request for the items of a collection. -/
  | listed (collection : String) (limit : Option ℕ)
      (accepted : planItems service.settings collection limit token = .ok plan) :
      Answered service store token plan
        (service.itemCollection store.toStore collection limit token)

/-- An answer is the page of its plan, with some context and links. -/
theorem Answered.eq_ofPage {token : Option String}
    (answered : Answered service store token plan answer) :
    ∃ context link, answer = .ok (.ofPage plan (store.page plan) context link) := by
  cases answered with
  | posted request given accepted =>
    unfold search
    rw [accepted]
    obtain ⟨context, same⟩ := run_ok service store plan _
    exact ⟨context, _, same⟩
  | queried params given accepted =>
    unfold getSearch
    rw [accepted]
    obtain ⟨context, same⟩ := run_ok service store plan _
    exact ⟨context, _, same⟩
  | listed collection limit accepted =>
    unfold itemCollection
    rw [accepted]
    obtain ⟨context, same⟩ := run_ok service store plan _
    exact ⟨context, _, same⟩

/-- The position of an accepted token is the one it says in the order of the plan. -/
theorem exists_decode_of_checkToken {order : SortOrder} {position : Option Cursor}
    (h : checkToken order (some token) = .ok position) :
    ∃ cursor, Cursor.decode token order = .ok cursor ∧ position = some cursor := by
  obtain ⟨cursor, decoded, rfl⟩ := exists_of_map_eq_ok h
  exact ⟨cursor, decoded, rfl⟩

/-- The plan of a request with a token goes on from where the token says. -/
theorem Answered.planned (answered : Answered service store (some token) plan answer) :
    0 < plan.limit ∧ (∃ registry, SortOrder.Resolved registry plan.order)
      ∧ ∃ cursor, Cursor.decode token plan.order = .ok cursor ∧ plan.cursor = some cursor := by
  have of_request {request : SearchRequest} (given : request.token = some token)
      (accepted : service.plan request = .ok plan) :
      0 < plan.limit ∧ (∃ registry, SortOrder.Resolved registry plan.order)
        ∧ ∃ cursor, Cursor.decode token plan.order = .ok cursor ∧ plan.cursor = some cursor := by
    obtain ⟨limit, checked, _⟩ := exists_of_planSearch accepted
    rw [given] at checked
    exact ⟨(pos_of_checkLimit limit).1, ⟨_, resolved_of_planSearch accepted⟩,
      exists_decode_of_checkToken checked⟩
  cases answered with
  | posted request given accepted => exact of_request given accepted
  | queried params given accepted =>
    obtain ⟨request, said, accepted⟩ := exists_of_bind_eq_ok accepted
    refine of_request ?_ accepted
    have same := SearchParams.toRequest_token said params.token
    rw [show ({ params with token := params.token } : SearchParams) = params from rfl, said] at same
    rw [Except.ok.inj same]
    exact given
  | listed collection limit accepted =>
    unfold planItems at accepted
    obtain ⟨size, limit, accepted⟩ := exists_of_bind_eq_ok accepted
    obtain ⟨position, checked, accepted⟩ := exists_of_bind_eq_ok accepted
    cases accepted
    exact ⟨(pos_of_checkLimit limit).1, ⟨service.registry, .newestFirst⟩,
      exists_decode_of_checkToken checked⟩

/--
Every accepted request with a token is answered by the page from the position that the token says,
whether or not an item stands there. Forward it holds the first matches after the position, backward
the last ones before it, in the order of the plan; one more match than it holds means a token to go
on with, and a page with items has a token to go back. Only behind a page of the largest size that a
word can say no further match is looked for; no store in memory is so large.
-/
theorem Answered.at_cursor (answered : Answered service store (some token) plan answer)
    (bounded : plan.limit < maxWord ∨ store.size ≤ maxWord) :
    (plan.order.Ascending (store.hits plan) ∧ ∀ item, item ∈ store.hits plan
        ↔ item ∈ store.items.values ∧ matchesAll plan.predicates item = true)
      ∧ ∃ cursor response, Cursor.decode token plan.order = .ok cursor ∧ answer = .ok response
        ∧ response.ShowsFrom store plan cursor := by
  obtain ⟨size, ⟨registry, resolved⟩, cursor, decoded, position⟩ := answered.planned
  obtain ⟨context, link, rfl⟩ := answered.eq_ofPage
  constructor
  · exact ⟨MemoryStore.ascending_matching resolved.exists_id, fun item => MemoryStore.mem_matching⟩
  · exact ⟨cursor, _, decoded, rfl,
      MemoryStore.showsFrom_page resolved size bounded position context link⟩

end SearchService

/-! ## A position between two items -/

namespace Sample

/-- Two items without an instant and two with one. -/
def partlyDated : List Item :=
  [{ Item.blank with id := "a" }, { Item.blank with id := "c" },
    sensed "x" .null "2024-02-29T12:00:00Z", sensed "y" .null "2023-06-30T23:59:60.5Z"]

/-- The token of a position without an instant, at an identifier that no item has. -/
def between (direction : PageDirection) : String :=
  Token.encode ⟨direction, SortOrder.newestFirst.fingerprint, [.null, .str "b"]⟩

/-- A request for two items from that position. -/
def fromBetween (direction : PageDirection) : SearchRequest :=
  { SearchRequest.all with limit := some 2, token := some (between direction) }

/-- All items match, those without an instant first. -/
theorem hits_partlyDated {plan : SearchPlan} (predicates : plan.predicates = [])
    (order : plan.order = .newestFirst) :
    (MemoryStore.ofItems partlyDated).hits plan = partlyDated := by
  have resolved : SortOrder.Resolved .builtin plan.order := order ▸ .newestFirst
  have ascending : plan.order.Ascending partlyDated := by
    rw [SortOrder.Ascending, order]
    decide +kernel
  refine MemoryStore.hits_eq resolved.exists_id ascending ?_
  rw [predicates]
  exact .refl _

/-- The plan for that request. -/
theorem exists_plan_fromBetween (direction : PageDirection) :
    ∃ plan, countingService.plan (fromBetween direction) = .ok plan
      ∧ plan.limit = 2 ∧ plan.order = .newestFirst ∧ plan.predicates = []
      ∧ Cursor.decode (between direction) plan.order
        = .ok ⟨direction, [none, some (.string "b")]⟩ := by
  have found : (countingService.plan (fromBetween direction)).toOption.any (fun plan =>
      plan.limit = 2 && plan.order = .newestFirst && plan.predicates.isEmpty
        && plan.cursor = some ⟨direction, [none, some (.string "b")]⟩) = true := by
    cases direction <;> decide +kernel
  obtain ⟨plan, accepted, shape⟩ := exists_of_toOption_any found
  simp only [Bool.and_eq_true, decide_eq_true_eq, List.isEmpty_iff] at shape
  obtain ⟨⟨⟨limit, order⟩, predicates⟩, position⟩ := shape
  obtain ⟨_, checked, _⟩ := exists_of_planSearch accepted
  obtain ⟨cursor, decoded, same⟩ := SearchService.exists_decode_of_checkToken checked
  rw [position, Option.some.injEq] at same
  exact ⟨plan, accepted, limit, order, predicates, same ▸ decoded⟩

/-- A position between the items without an instant divides the matches. -/
theorem at_cursor_between_items :
    (∃ plan response, SearchService.Answered countingService (.ofItems partlyDated)
        (some (between .forward)) plan (.ok response)
        ∧ response.Shows plan ((partlyDated.drop 1).take 2) True True)
      ∧ ∃ plan response, SearchService.Answered countingService (.ofItems partlyDated)
        (some (between .backward)) plan (.ok response)
        ∧ response.Shows plan (partlyDated.take 1) True False := by
  have shown (direction : PageDirection) : ∃ plan response,
      SearchService.Answered countingService (.ofItems partlyDated) (some (between direction)) plan
        (.ok response)
      ∧ plan.limit = 2 ∧ plan.order = .newestFirst
      ∧ (MemoryStore.ofItems partlyDated).hits plan = partlyDated
      ∧ response.ShowsFrom (.ofItems partlyDated) plan
          ⟨direction, [none, some (.string "b")]⟩ := by
    obtain ⟨plan, accepted, limit, order, predicates, decoded⟩ := exists_plan_fromBetween direction
    have answered : SearchService.Answered countingService (.ofItems partlyDated)
        (some (between direction)) plan _ := .posted (fromBetween direction) rfl accepted
    obtain ⟨_, cursor, response, position, same, page⟩ :=
      answered.at_cursor (Or.inl (by rw [limit]; decide))
    rw [decoded, Except.ok.injEq] at position
    subst position
    exact ⟨plan, response, same ▸ answered, limit, order, hits_partlyDated predicates order, page⟩
  constructor
  · obtain ⟨plan, response, answered, limit, order, hits, page⟩ := shown .forward
    refine ⟨plan, response, answered, ?_⟩
    have after : (MemoryStore.ofItems partlyDated).after plan [none, some (.string "b")]
        = partlyDated.drop 1 := by
      rw [MemoryStore.after, hits, order]
      rfl
    simp only [SearchResponse.ShowsFrom, after, limit] at page
    simpa [partlyDated] using page
  · obtain ⟨plan, response, answered, limit, order, hits, page⟩ := shown .backward
    refine ⟨plan, response, answered, ?_⟩
    have before : (MemoryStore.ofItems partlyDated).before plan [none, some (.string "b")]
        = partlyDated.take 1 := by
      rw [MemoryStore.before, hits, order]
      rfl
    simp only [SearchResponse.ShowsFrom, before, limit] at page
    simpa [partlyDated] using page

end Sample

end CatalogSearch
