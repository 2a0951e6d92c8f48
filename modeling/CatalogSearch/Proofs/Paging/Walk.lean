import CatalogSearch.Proofs.Paging.Block

/-!
# Walking through pages

While nothing is written, following tokens forward and backward in any order leads from block to
block of the matches, one block a token.

* `SearchService.Steady.eq_showBlock` : every page that is reached shows a block;
* `SearchService.Steady.showsBlock` : a page of a block has tokens where there are more matches;
* `SearchService.Steady.walk` : the blocks are walked through from the first to the last and back.
-/

namespace CatalogSearch

namespace SearchService

variable {service : SearchService} {store : MemoryStore} {request : SearchRequest}
  {plan : SearchPlan} {k : ℕ} {item : Item} {token : String} {response : SearchResponse}

/-! ## Following tokens -/

/--
The answers that are reached from the first page by following tokens, each under the number of next
tokens less that of previous tokens.
-/
inductive Reached (service : SearchService) (store : MemoryStore) (request : SearchRequest) :
    ℕ → SearchResponse → Prop
  | first {response : SearchResponse} :
      service.search store.toStore request = .ok response → Reached service store request 0 response
  | next {k : ℕ} {response response' : SearchResponse} {token : String} :
      Reached service store request k response → response.nextToken = some token →
      service.search store.toStore { request with token := some token } = .ok response' →
      Reached service store request (k + 1) response'
  | previous {k : ℕ} {response response' : SearchResponse} {token : String} :
      Reached service store request k response → response.previousToken = some token →
      service.search store.toStore { request with token := some token } = .ok response' →
      Reached service store request (k - 1) response'

/-- A request with a token is planned from the position that the token tells. -/
theorem plan_of_token {cursor : Cursor} (accepted : service.plan request = .ok plan)
    (decoded : Cursor.decode token plan.order = .ok cursor) :
    service.plan { request with token := some token } = .ok (plan.goingOn cursor) := by
  have planned := planSearch_of_token_limit accepted (some token) request.limit
  obtain ⟨limit, _, _⟩ := exists_of_planSearch accepted
  rw [limit, checkToken, decoded] at planned
  exact planned

/-- The answer that shows a block. -/
def showBlock (service : SearchService) (store : MemoryStore) (plan : SearchPlan) (k : ℕ) :
    SearchResponse :=
  service.respond store plan (.ofBlock (store.hits plan) plan.limit plan.order k)

/-- What makes tokens lead from block to block. -/
structure Steady (service : SearchService) (store : MemoryStore) (request : SearchRequest)
    (plan : SearchPlan) : Prop where
  placed : service.registry.WellPlaced
  bounded : store.size ≤ maxWord
  accepted : service.plan request = .ok plan
  first : request.token = none
  tellable : ∀ item ∈ store.hits plan, Cursor.Tellable plan.order item

namespace Steady

/-- The order of the plan is resolved. -/
theorem resolved (h : Steady service store request plan) :
    SortOrder.Resolved service.registry plan.order :=
  resolved_of_planSearch h.accepted

/-- The size of a page is not zero. -/
theorem limit_pos (h : Steady service store request plan) : 0 < plan.limit := by
  obtain ⟨limit, _, _⟩ := exists_of_planSearch h.accepted
  exact (pos_of_checkLimit limit).1

/-- The first page shows the first block. -/
theorem search_first (h : Steady service store request plan) :
    service.search store.toStore request = .ok (service.showBlock store plan 0) := by
  obtain ⟨_, position, _⟩ := exists_of_planSearch h.accepted
  rw [h.first] at position
  have cursor : plan.cursor = none := (Except.ok.inj position).symm
  rw [search_of_plan h.accepted, MemoryStore.page_first h.resolved h.bounded cursor]
  rfl

/-- A token of the position of a match is answered by the page from there. -/
theorem search_token (h : Steady service store request plan) {page : Page}
    {direction : PageDirection} (match_ : item ∈ store.hits plan)
    (shown : store.page (plan.goingOn (.ofItem item plan.order direction)) = page) :
    service.search store.toStore
        { request with token := some (Cursor.encode item plan.order direction) }
      = .ok (service.respond store plan page) := by
  have decoded := Cursor.decode_encode (h.resolved.wellPlaced h.placed) (h.tellable item match_)
    direction
  rw [search_of_plan (plan_of_token h.accepted decoded), shown]
  rfl

/-- The next token of a block is answered by the block behind it. -/
theorem search_next (h : Steady service store request plan)
    (next : (service.showBlock store plan k).nextToken = some token) :
    (k + 1) * plan.limit < (store.hits plan).length
      ∧ service.search store.toStore { request with token := some token }
        = .ok (service.showBlock store plan (k + 1)) := by
  obtain ⟨item, last, rfl⟩ := Option.map_eq_some_iff.1 next
  split at last
  · next more =>
    have member : item ∈ store.hits plan :=
      List.mem_of_mem_drop (List.mem_of_mem_take (List.mem_of_getLast? last))
    exact ⟨more, h.search_token member
      (MemoryStore.page_next h.resolved h.bounded h.limit_pos more last)⟩
  · cases last

/-- The previous token of a block is answered by the block in front of it. -/
theorem search_previous (h : Steady service store request plan)
    (previous : (service.showBlock store plan k).previousToken = some token) :
    0 < k ∧ service.search store.toStore { request with token := some token }
        = .ok (service.showBlock store plan (k - 1)) := by
  obtain ⟨item, first, rfl⟩ := Option.map_eq_some_iff.1 previous
  split at first
  · next positive =>
    obtain ⟨k, rfl⟩ : ∃ j, k = j + 1 := ⟨k - 1, by omega⟩
    have member : item ∈ store.hits plan :=
      List.mem_of_mem_drop (List.mem_of_mem_take (List.mem_of_head? first))
    exact ⟨positive, h.search_token member
      (MemoryStore.page_previous h.resolved h.bounded h.limit_pos first)⟩
  · cases first

/-- Every answer that is reached shows a block that there is. -/
theorem eq_showBlock (h : Steady service store request plan)
    (reached : Reached service store request k response) :
    response = service.showBlock store plan k
      ∧ (k = 0 ∨ k * plan.limit < (store.hits plan).length) := by
  induction reached with
  | first answered =>
    rw [h.search_first] at answered
    exact ⟨(Except.ok.inj answered).symm, Or.inl rfl⟩
  | next _ token answered ih =>
    obtain ⟨rfl, _⟩ := ih
    obtain ⟨more, search⟩ := h.search_next token
    rw [search] at answered
    exact ⟨(Except.ok.inj answered).symm, Or.inr more⟩
  | @previous j _ _ _ _ token answered ih =>
    obtain ⟨rfl, inRange⟩ := ih
    -- Only a block behind the first one has a previous token, so nothing is cut off from `k - 1`.
    obtain ⟨positive, search⟩ := h.search_previous token
    rw [search] at answered
    refine ⟨(Except.ok.inj answered).symm, Or.inr ?_⟩
    have below := Nat.mul_le_mul_right plan.limit (Nat.sub_le j 1)
    omega

/-- A block has a next token as long as matches are left behind it. -/
theorem isSome_nextToken (h : Steady service store request plan) (k : ℕ) :
    (service.showBlock store plan k).nextToken.isSome = true
      ↔ (k + 1) * plan.limit < (store.hits plan).length := by
  have positive : 0 < (k + 1) * plan.limit := Nat.mul_pos (Nat.succ_pos k) h.limit_pos
  show (Option.map _ _).isSome = true ↔ _
  rw [Option.isSome_map]
  split
  · next more =>
    have last : (store.hits plan)[(k + 1) * plan.limit - 1]?.isSome = true := by
      rw [isSome_getElem?]
      show _ < _
      omega
    rw [getLast?_block h.limit_pos (Nat.le_of_lt more)]
    exact iff_of_true last more
  · next none => exact iff_of_false Bool.false_ne_true none

/-- A block that there is has a previous token unless it is the first one. -/
theorem isSome_previousToken (h : Steady service store request plan)
    (inRange : k = 0 ∨ k * plan.limit < (store.hits plan).length) :
    (service.showBlock store plan k).previousToken.isSome = true ↔ 0 < k := by
  show (Option.map _ _).isSome = true ↔ _
  rw [Option.isSome_map]
  split
  · next positive =>
    have first : (store.hits plan)[k * plan.limit]?.isSome = true := by
      rw [isSome_getElem?]
      show _ < _
      omega
    rw [head?_block _ h.limit_pos]
    exact iff_of_true first positive
  · next none => exact iff_of_false Bool.false_ne_true none

end Steady

/-! ## Pages as blocks -/

/-- An answer shows a block of the matches, with tokens on the sides where there are more. -/
structure ShowsBlock (service : SearchService) (store : MemoryStore) (plan : SearchPlan) (k : ℕ)
    (response : SearchResponse) : Prop where
  exists_block : k = 0 ∨ k * plan.limit < (store.hits plan).length
  features : response.features = (block (store.hits plan) plan.limit k).map plan.feature
  next : response.nextToken.isSome = true ↔ (k + 1) * plan.limit < (store.hits plan).length
  previous : response.previousToken.isSome = true ↔ 0 < k
  matched : service.settings.capabilities.context = true →
    response.context.bind (·.matched) = some (store.hits plan).length

/-- The answer made for a block that there is shows it. -/
theorem Steady.showsBlock (h : Steady service store request plan)
    (inRange : k = 0 ∨ k * plan.limit < (store.hits plan).length) :
    ShowsBlock service store plan k (service.showBlock store plan k) where
  exists_block := inRange
  features := rfl
  next := h.isSome_nextToken k
  previous := h.isSome_previousToken inRange
  matched switchedOn := by
    have count := MemoryStore.count_eq store plan.predicates plan.order
    rw [showBlock, respond, SearchResponse.ofPage, if_pos switchedOn, count]
    rfl

/-- Pages that are walked through: forward from the first to the last one, and back again. -/
structure Walk (service : SearchService) (store : MemoryStore) (request : SearchRequest)
    (pages : ℕ → SearchResponse) (last : ℕ) : Prop where
  first : service.search store.toStore request = .ok (pages 0)
  next : ∀ k < last, ∃ token, (pages k).nextToken = some token
    ∧ service.search store.toStore { request with token := some token } = .ok (pages (k + 1))
  stops : (pages last).nextToken = none
  previous : ∀ k < last, ∃ token, (pages (k + 1)).previousToken = some token
    ∧ service.search store.toStore { request with token := some token } = .ok (pages k)
  starts : (pages 0).previousToken = none

/-- The blocks are walked through. -/
theorem Steady.walk (h : Steady service store request plan) {last : ℕ}
    (inRange : ∀ k ≤ last, k = 0 ∨ k * plan.limit < (store.hits plan).length)
    (covers : (store.hits plan).length ≤ (last + 1) * plan.limit) :
    Walk service store request (service.showBlock store plan) last where
  first := h.search_first
  next k below := by
    have more := (inRange (k + 1) below).resolve_left (Nat.succ_ne_zero k)
    obtain ⟨token, next⟩ := Option.isSome_iff_exists.1 ((h.isSome_nextToken k).2 more)
    exact ⟨token, next, (h.search_next next).2⟩
  stops := by
    rw [← Option.not_isSome_iff_eq_none, h.isSome_nextToken last]
    exact Nat.not_lt.2 covers
  previous k below := by
    have some := (h.isSome_previousToken (inRange (k + 1) below)).2 (Nat.succ_pos k)
    obtain ⟨token, previous⟩ := Option.isSome_iff_exists.1 some
    exact ⟨token, previous, (h.search_previous previous).2⟩
  starts := by
    rw [← Option.not_isSome_iff_eq_none, h.isSome_previousToken (Or.inl rfl)]
    exact Nat.lt_irrefl 0

/-- The number of the last block. -/
theorem exists_last (matches_ : ℕ) {limit : ℕ} (hlimit : 0 < limit) :
    ∃ last, (∀ k ≤ last, k = 0 ∨ k * limit < matches_) ∧ matches_ ≤ (last + 1) * limit := by
  -- Without matches this is the first block, which is empty.
  refine ⟨(matches_ - 1) / limit, fun k below => ?_, ?_⟩
  · have product := (Nat.le_div_iff_mul_le hlimit).1 below
    by_cases zero : k = 0
    · exact Or.inl zero
    · have positive : 0 < k * limit := Nat.mul_pos (Nat.pos_of_ne_zero zero) hlimit
      exact Or.inr (by omega)
  · have below : matches_ - 1 < ((matches_ - 1) / limit + 1) * limit :=
      Nat.lt_mul_of_div_lt (Nat.lt_succ_self _) hlimit
    omega

/--
While nothing is written, every page that is reached from the first one by next and previous tokens
is a block of the matches in their order, the next token leads to the block behind it and the
previous one to the block in front of it. So the walk forward visits every match once and stops, and
the walk back shows the same pages.
-/
theorem paging_in_blocks {config : Config} (registered : config.registry = .ok service.registry)
    (bounded : store.size < 2 ^ 64) (accepted : service.plan request = .ok plan)
    (first : request.token = none)
    (tellable : ∀ item ∈ store.hits plan, Cursor.Tellable plan.order item) :
    (∀ k response, Reached service store request k response →
      ShowsBlock service store plan k response
        ∧ (∀ token, response.nextToken = some token → ∃ next,
          service.search store.toStore { request with token := some token } = .ok next
            ∧ Reached service store request (k + 1) next)
        ∧ (∀ token, response.previousToken = some token → ∃ previous,
          service.search store.toStore { request with token := some token } = .ok previous
            ∧ Reached service store request (k - 1) previous))
      ∧ ∃ pages last, Walk service store request pages last
        ∧ (List.range (last + 1)).flatMap (fun k => (pages k).features)
          = (store.hits plan).map plan.feature := by
  have steady : Steady service store request plan :=
    ⟨Config.registry_wellPlaced registered, Nat.le_sub_one_of_lt bounded, accepted, first, tellable⟩
  constructor
  · intro k response reached
    obtain ⟨rfl, inRange⟩ := steady.eq_showBlock reached
    refine ⟨steady.showsBlock inRange, fun token next => ?_, fun token previous => ?_⟩
    · have answered := (steady.search_next next).2
      exact ⟨_, answered, .next reached next answered⟩
    · have answered := (steady.search_previous previous).2
      exact ⟨_, answered, .previous reached previous answered⟩
  · -- The features are those of the blocks, which make up all matches.
    obtain ⟨last, inRange, covers⟩ := exists_last (store.hits plan).length steady.limit_pos
    refine ⟨_, last, steady.walk inRange covers, ?_⟩
    have features : (fun k => (service.showBlock store plan k).features)
        = fun k => (block (store.hits plan) plan.limit k).map plan.feature := rfl
    rw [features, ← List.map_flatMap, flatMap_block, List.take_of_length_le covers]

end SearchService

/-! ## A catalog of three items -/

namespace Sample

/-- An item with an instant. -/
def item (id datetime : String) : Item :=
  { Item.blank with id, properties := [("datetime", .str datetime)] }

/-- Three items, two of which share an instant. -/
def items : List Item :=
  [item "a" "2024-02-29T12:00:00Z", item "b" "2024-02-29T13:00:00+01:00",
    item "c" "2023-06-30T23:59:60.5Z"]

/-- A service with pages of two items that are returned whole. -/
def service : SearchService where
  registry := .builtin
  settings :=
    { title := "", description := "", baseUrl := "http://localhost"
      defaultLimit := 2, maxLimit := 2
      defaultIncludes := .empty, capabilities := ⟨true, false, true, true⟩ }

/-- The plan for a request that asks for nothing in particular. -/
def plan : SearchPlan where
  predicates := []
  order := .newestFirst
  cursor := none
  limit := 2
  projection := none

/-- The positions of the three items can be told. -/
theorem tellable_items : ∀ item ∈ items, Cursor.Tellable plan.order item := by
  decide +kernel

/-- The three items are visited on two pages. -/
theorem paging_in_blocks_of_three_items :
    service.plan .all = .ok plan
      ∧ (∀ item ∈ (MemoryStore.ofItems items).hits plan, Cursor.Tellable plan.order item)
      ∧ ∃ pages last, service.Walk (.ofItems items) .all pages last
        ∧ (List.range (last + 1)).flatMap (fun k => (pages k).features)
          = ((MemoryStore.ofItems items).hits plan).map plan.feature := by
  have registered : Config.unset.registry = .ok service.registry := rfl
  have bounded : (MemoryStore.ofItems items).size < 2 ^ 64 := by decide +kernel
  have accepted : service.plan .all = .ok plan := rfl
  have tellable : ∀ item ∈ (MemoryStore.ofItems items).hits plan,
      Cursor.Tellable plan.order item :=
    fun item mem => tellable_items item (MemoryStore.mem_matching.1 mem).1
  exact ⟨accepted, tellable,
    (SearchService.paging_in_blocks registered bounded accepted rfl tellable).2⟩

end Sample

end CatalogSearch
