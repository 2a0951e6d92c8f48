import CatalogSearch.Proofs.Paging.Walk

/-!
# Walking forward while items are written

Between two pages of a walk forward items may be written, and each page may have a size of its own.
A page goes on behind the last row of those before it, so the rows ascend over the whole walk. An
item that stays as it is stays in front of the walk until it is returned.

* `MemoryStore.mem_page_resume` : a page holds matches that come after the row it goes on from;
* `MemoryStore.mem_or_lt_page_resume` : a match that comes after that row is on the page or
  after it;
* `ForwardWalk.Run.sound` : the rows ascend over a whole walk;
* `ForwardWalk.Run.covers` : what stays was returned, or the walk is still in front of it.
-/

namespace CatalogSearch

/-! ## Going on behind a row -/

/-- A plan that goes on behind the last of the rows so far, if there are any. -/
def SearchPlan.resume (plan : SearchPlan) (last : Option Item) (limit : ℕ) : SearchPlan :=
  { plan with cursor := last.map (Cursor.ofItem · plan.order .forward), limit }

/-- A page that is cut forward, with or without a row to go on from. -/
theorem Page.ofRows_resume (rows : List Item) (limit : ℕ) (order : SortOrder) (last : Option Item) :
    (Page.ofRows rows limit order (last.map (Cursor.ofItem · order .forward))).items
        = rows.take limit
      ∧ (Page.ofRows rows limit order (last.map (Cursor.ofItem · order .forward))).next
        = (if limit < rows.length then (rows.take limit).getLast? else none).map
            (Cursor.encode · order .forward) := by
  cases last with
  | none =>
    rw [Option.map_none, Page.ofRows_first]
    exact ⟨rfl, rfl⟩
  | some row =>
    rw [Option.map_some, Cursor.ofItem, Page.ofRows_forward]
    exact ⟨rfl, rfl⟩

namespace MemoryStore

variable {store : MemoryStore} {plan : SearchPlan} {registry : FieldRegistry} {limit : ℕ}
  {last : Option Item} {item row : Item}

/-- The rows behind a row are the matches that come after it. -/
theorem rows_resume (store : MemoryStore) (plan : SearchPlan) (last : Option Item) (limit : ℕ) :
    store.rows (plan.resume last limit)
      = (store.hits plan).filter fun item =>
          last.all fun row => (plan.order.compare item row).isGT := by
  cases last with
  | none =>
    have all : (store.hits plan).filter (fun _ => true) = store.hits plan :=
      List.filter_eq_self.2 fun _ _ => rfl
    exact (rows_first rfl).trans all.symm
  | some row => exact rows_forward rfl

/-- What is a row behind a row. -/
theorem mem_rows_resume :
    item ∈ store.rows (plan.resume last limit)
      ↔ item ∈ store.hits plan ∧ ∀ row, last = some row → plan.order.compare row item = .lt := by
  rw [rows_resume, List.mem_filter]
  cases last with
  | none => simp only [Option.all_none, reduceCtorEq, false_implies, implies_true]
  | some row => simp only [Option.all_some, SortOrder.isGT_compare, Option.some.injEq, forall_eq']

/-- The rows behind a row ascend. -/
theorem ascending_rows_resume (resolved : SortOrder.Resolved registry plan.order) :
    plan.order.Ascending (store.rows (plan.resume last limit)) := by
  rw [rows_resume]
  exact (ascending_matching resolved.exists_id).filter _

/-- A page forward is cut from the rows of its scan. -/
theorem page_resume (store : MemoryStore) (plan : SearchPlan) (last : Option Item) (limit : ℕ) :
    (store.page (plan.resume last limit)).items
        = (store.scan (plan.resume last limit).scanRequest).take limit
      ∧ (store.page (plan.resume last limit)).next
        = (if limit < (store.scan (plan.resume last limit).scanRequest).length then
            (store.page (plan.resume last limit)).items.getLast?
          else none).map (Cursor.encode · plan.order .forward) := by
  obtain ⟨items, next⟩ := Page.ofRows_resume (store.scan (plan.resume last limit).scanRequest) limit
    plan.order last
  rw [← items] at next
  exact ⟨items, next⟩

/-- A page forward is cut from all rows of its plan. -/
theorem page_resume_eq (last : Option Item)
    (resolved : SortOrder.Resolved registry plan.order)
    (bounded : limit < maxWord ∨ store.size ≤ maxWord) :
    (store.page (plan.resume last limit)).items
        = (store.rows (plan.resume last limit)).take limit
      ∧ (store.page (plan.resume last limit)).next
        = (if limit < (store.rows (plan.resume last limit)).length then
            ((store.rows (plan.resume last limit)).take limit).getLast?
          else none).map (Cursor.encode · plan.order .forward) := by
  have resumed : SortOrder.Resolved registry (plan.resume last limit).order := resolved
  have cut : store.page (plan.resume last limit) = .ofRows _ _ _ _ := page_eq resumed bounded
  rw [cut]
  exact Page.ofRows_resume (store.rows (plan.resume last limit)) limit plan.order last

/-- The items of a page are rows in their order. -/
theorem items_sublist_rows (resolved : SortOrder.Resolved registry plan.order) :
    (store.page (plan.resume last limit)).items.Sublist (store.rows (plan.resume last limit)) := by
  have resumed : SortOrder.Resolved registry (plan.resume last limit).order := resolved
  rw [(page_resume store plan last limit).1, scan_eq_take_rows resumed]
  exact (List.take_sublist _ _).trans (List.take_sublist _ _)

/-- A page holds matches that come after the row it goes on from. -/
theorem mem_page_resume (resolved : SortOrder.Resolved registry plan.order)
    (mem : item ∈ (store.page (plan.resume last limit)).items) :
    item ∈ store.hits plan ∧ ∀ row, last = some row → plan.order.compare row item = .lt :=
  mem_rows_resume.1 ((items_sublist_rows resolved).subset mem)

/-- The next token of a page is that of its last item, unless the page is the last one. -/
theorem next_resume (store : MemoryStore) (plan : SearchPlan) (last : Option Item) (limit : ℕ) :
    (store.page (plan.resume last limit)).next = none
      ∨ ∃ row, (store.page (plan.resume last limit)).items.getLast? = some row
        ∧ (store.page (plan.resume last limit)).next
          = some (Cursor.encode row plan.order .forward) := by
  obtain ⟨_, next⟩ := page_resume store plan last limit
  by_cases more : limit < (store.scan (plan.resume last limit).scanRequest).length
  · rw [if_pos more] at next
    cases row : (store.page (plan.resume last limit)).items.getLast? with
    | none => exact Or.inl (next.trans (congrArg (Option.map _) row))
    | some _ => exact Or.inr ⟨_, rfl, next.trans (congrArg (Option.map _) row)⟩
  · rw [if_neg more] at next
    exact Or.inl next

/-- A match that comes after the row a page goes on from is on the page or after all of it. -/
theorem mem_or_lt_page_resume (resolved : SortOrder.Resolved registry plan.order)
    (size : 0 < limit) (bounded : limit < maxWord ∨ store.size ≤ maxWord)
    (hit : item ∈ store.hits plan)
    (behind : ∀ row, last = some row → plan.order.compare row item = .lt) :
    item ∈ (store.page (plan.resume last limit)).items
      ∨ ((store.page (plan.resume last limit)).next ≠ none
        ∧ ∀ row ∈ (store.page (plan.resume last limit)).items,
          plan.order.compare row item = .lt) := by
  obtain ⟨items, next⟩ := page_resume_eq last resolved bounded
  have ascending : plan.order.Ascending (store.rows (plan.resume last limit)) :=
    ascending_rows_resume resolved
  have mem : item ∈ store.rows (plan.resume last limit) := mem_rows_resume.2 ⟨hit, behind⟩
  rw [items, next]
  generalize store.rows (plan.resume last limit) = rows at ascending mem
  rw [← List.take_append_drop limit rows, List.mem_append] at mem
  rcases mem with kept | left
  · exact Or.inl kept
  · have more : limit < rows.length := Nat.lt_of_not_le fun le => by
      rw [List.drop_eq_nil_of_le le] at left
      cases left
    have some : rows.take limit ≠ [] :=
      List.length_pos_iff.1 (by rw [List.length_take]; omega)
    refine Or.inr ⟨?_, fun row hrow => ascending.rel_of_mem_take_of_mem_drop hrow left⟩
    rw [if_pos more, Ne, Option.map_eq_none_iff, List.getLast?_eq_none_iff]
    exact some

end MemoryStore

namespace SearchService

variable {service : SearchService} {request : SearchRequest} {plan : SearchPlan}
  {last : Option Item} {limit : Option ℕ}

/-- A request with the token of a row is planned from behind that row only. -/
theorem exists_resume_of_plan {resumed : SearchPlan} (placed : service.registry.WellPlaced)
    (accepted : service.plan request = .ok plan)
    (planned : service.plan
      { request with token := last.map (Cursor.encode · plan.order .forward), limit }
        = .ok resumed) :
    ∃ size, checkLimit service.settings limit = .ok size ∧ resumed = plan.resume last size := by
  have related := planSearch_of_token_limit accepted
    (last.map (Cursor.encode · plan.order .forward)) limit
  obtain ⟨size, hsize, h⟩ := exists_of_bind_eq_ok (related.symm.trans planned)
  obtain ⟨cursor, hcursor, rfl⟩ := exists_of_map_eq_ok h
  refine ⟨size, hsize, ?_⟩
  cases last with
  | none =>
    cases hcursor
    rfl
  | some row =>
    -- Whether the token can be read is open, but it tells no other position.
    rw [Option.map_some, checkToken] at hcursor
    obtain ⟨position, hposition, rfl⟩ := exists_of_map_eq_ok hcursor
    have wellPlaced := (resolved_of_planSearch accepted).wellPlaced placed
    rw [Cursor.eq_ofItem_of_decode wellPlaced hposition]
    rfl

/-- A request with the token of a row is planned if the position of the row can be told. -/
theorem plan_resume {size : ℕ} (placed : service.registry.WellPlaced)
    (accepted : service.plan request = .ok plan)
    (tellable : ∀ row, last = some row → Cursor.Tellable plan.order row)
    (hsize : checkLimit service.settings limit = .ok size) :
    service.plan { request with token := last.map (Cursor.encode · plan.order .forward), limit }
      = .ok (plan.resume last size) := by
  have related := planSearch_of_token_limit accepted
    (last.map (Cursor.encode · plan.order .forward)) limit
  refine related.trans ?_
  rw [hsize]
  cases last with
  | none => rfl
  | some row =>
    have wellPlaced := (resolved_of_planSearch accepted).wellPlaced placed
    have decoded := Cursor.decode_encode wellPlaced (tellable row rfl) .forward
    rw [Option.map_some, checkToken, decoded]
    rfl

end SearchService

/-! ## Walks -/

/-- How far a walk forward has come. -/
structure ForwardWalk where
  store : MemoryStore
  /-- The token of the next request; the first one has none. -/
  token : Option String
  /-- Whether the last page had no next token. -/
  finished : Bool
  /-- The items on the pages so far. -/
  rows : List Item
  /-- The same items as they were returned. -/
  features : List Json
  /-- What was written on the way. -/
  written : List Item

namespace ForwardWalk

variable {service : SearchService} {request : SearchRequest} {plan : SearchPlan}
  {store : MemoryStore} {walk walk' : ForwardWalk} {item : Item}

/-- A walk that has not asked for a page yet. -/
def start (store : MemoryStore) : ForwardWalk :=
  ⟨store, none, false, [], [], []⟩

/--
What may happen next: something is written, or the next page is asked for with a size of its own,
the request otherwise unchanged.
-/
inductive Step (service : SearchService) (request : SearchRequest) (walk : ForwardWalk) :
    ForwardWalk → Prop
  | insert (item : Item) :
      Step service request walk
        { walk with store := walk.store.insert item, written := walk.written ++ [item] }
  | extend (items : List Item) :
      Step service request walk
        { walk with store := walk.store.extend items, written := walk.written ++ items }
  | page {limit : Option ℕ} {paged : SearchPlan} {response : SearchResponse} :
      walk.finished = false →
      service.plan { request with token := walk.token, limit } = .ok paged →
      service.search walk.store.toStore { request with token := walk.token, limit }
        = .ok response →
      Step service request walk
        { walk with
          token := response.nextToken
          finished := response.nextToken.isNone
          rows := walk.rows ++ (walk.store.page paged).items
          features := walk.features ++ response.features }

/-- The walks over a store as it was at first. -/
inductive Run (service : SearchService) (request : SearchRequest) (store : MemoryStore) :
    ForwardWalk → Prop
  | start : Run service request store (start store)
  | step {walk walk' : ForwardWalk} :
      Run service request store walk → Step service request walk walk' →
      Run service request store walk'

/-! ### The rows ascend -/

/-- The rows ascend and are what was returned, and the next page goes on behind the last of them. -/
structure Sound (plan : SearchPlan) (walk : ForwardWalk) : Prop where
  ascending : plan.order.Ascending walk.rows
  returned : walk.features = walk.rows.map plan.feature
  position : walk.finished = false →
    walk.token = walk.rows.getLast?.map (Cursor.encode · plan.order .forward)

/-- A walk is sound at first. -/
theorem sound_start (plan : SearchPlan) (store : MemoryStore) : Sound plan (start store) where
  ascending := .nil
  returned := rfl
  position _ := rfl

/-- The page of a sound walk goes on behind its last row. -/
theorem Sound.exists_resume {limit : Option ℕ} {paged : SearchPlan} {response : SearchResponse}
    (sound : Sound plan walk) (placed : service.registry.WellPlaced)
    (accepted : service.plan request = .ok plan) (unfinished : walk.finished = false)
    (planned : service.plan { request with token := walk.token, limit } = .ok paged)
    (answered : service.search walk.store.toStore { request with token := walk.token, limit }
      = .ok response) :
    ∃ size, (0 < size ∧ size ≤ service.settings.maxLimit)
      ∧ paged = plan.resume walk.rows.getLast? size
      ∧ response.nextToken = (walk.store.page paged).next
      ∧ response.features = (walk.store.page paged).items.map plan.feature := by
  rw [SearchService.search_of_plan planned] at answered
  rw [sound.position unfinished] at planned
  obtain ⟨size, hsize, rfl⟩ := SearchService.exists_resume_of_plan placed accepted planned
  cases answered
  exact ⟨size, pos_of_checkLimit hsize, rfl, rfl, rfl⟩

/-- A walk stays sound. -/
theorem Sound.step (sound : Sound plan walk) (placed : service.registry.WellPlaced)
    (accepted : service.plan request = .ok plan) (step : Step service request walk walk') :
    Sound plan walk' := by
  have resolved := resolved_of_planSearch accepted
  cases step with
  | insert item => exact ⟨sound.ascending, sound.returned, sound.position⟩
  | extend items => exact ⟨sound.ascending, sound.returned, sound.position⟩
  | page unfinished planned answered =>
    obtain ⟨size, _, rfl, next, features⟩ :=
      sound.exists_resume placed accepted unfinished planned answered
    refine ⟨?_, ?_, fun more => ?_⟩
    -- What was written meanwhile does not matter: a page holds only what comes after the last row.
    · refine List.pairwise_append.2 ⟨sound.ascending, ?_, fun row hrow item hitem => ?_⟩
      · exact (MemoryStore.ascending_rows_resume resolved).sublist
          (MemoryStore.items_sublist_rows resolved)
      · exact sound.ascending.lt_of_getLast? (MemoryStore.mem_page_resume resolved hitem).2 row hrow
    · rw [features, sound.returned, List.map_append]
    · have token := MemoryStore.next_resume walk.store plan walk.rows.getLast? size
      rcases token with none | ⟨row, last, some⟩
      · rw [next, none] at more
        cases more
      · rw [next, some, List.getLast?_append, last]
        rfl

/-- Every walk is sound. -/
theorem Run.sound (run : Run service request store walk) (placed : service.registry.WellPlaced)
    (accepted : service.plan request = .ok plan) : Sound plan walk := by
  induction run with
  | start => exact sound_start plan store
  | step _ step ih => exact ih.step placed accepted step

/-- A sound walk after its next page. -/
def turn (walk : ForwardWalk) (plan : SearchPlan) (size : ℕ) : ForwardWalk :=
  let page := walk.store.page (plan.resume walk.rows.getLast? size)
  { walk with
    token := page.next
    finished := page.next.isNone
    rows := walk.rows ++ page.items
    features := walk.features ++ page.items.map plan.feature }

/-- The next page is given if the position of the last row can be told and the size is in range. -/
theorem Sound.turn {limit : Option ℕ} {size : ℕ} (sound : Sound plan walk)
    (placed : service.registry.WellPlaced) (accepted : service.plan request = .ok plan)
    (unfinished : walk.finished = false)
    (tellable : ∀ row ∈ walk.rows, Cursor.Tellable plan.order row)
    (hsize : checkLimit service.settings limit = .ok size) :
    Step service request walk (walk.turn plan size)
      ∧ ∃ response, service.search walk.store.toStore { request with token := walk.token, limit }
        = .ok response := by
  have planned := SearchService.plan_resume placed accepted
    (fun row last => tellable row (List.mem_of_getLast? last)) hsize
  rw [← sound.position unfinished] at planned
  have answered : service.search walk.store.toStore { request with token := walk.token, limit }
      = .ok _ := SearchService.search_of_plan planned
  exact ⟨.page unfinished planned answered, _, answered⟩

/-! ### What stays is returned once -/

/-- An item that stays as it is is among the rows, or the walk has not come to it yet. -/
structure Covers (plan : SearchPlan) (item : Item) (walk : ForwardWalk) : Prop where
  stored : item ∈ walk.store.items.values
  only : ∀ row ∈ walk.rows, row.id = item.id → row = item
  reached : item ∈ walk.rows
    ∨ (walk.finished = false ∧ ∀ row ∈ walk.rows, plan.order.compare row item = .lt)

/-- Nothing is returned at first. -/
theorem covers_start (plan : SearchPlan) (stored : item ∈ store.items.values) :
    Covers plan item (start store) where
  stored := stored
  only _ mem := absurd mem List.not_mem_nil
  reached := Or.inr ⟨rfl, fun _ mem => absurd mem List.not_mem_nil⟩

/-- What is written stays written. -/
theorem Step.written_subset (step : Step service request walk walk') :
    walk.written ⊆ walk'.written := by
  cases step with
  | insert item => exact List.subset_append_left _ _
  | extend items => exact List.subset_append_left _ _
  | page _ _ _ => exact List.Subset.refl _

/-- The store does not shrink. -/
theorem Step.size_le (step : Step service request walk walk') :
    walk.store.size ≤ walk'.store.size := by
  cases step with
  | insert item => exact MemoryStore.size_le_insert walk.store item
  | extend items => exact MemoryStore.size_le_extend walk.store items
  | page _ _ _ => exact Nat.le_refl _

/-- An item that is not written stays covered. -/
theorem Covers.step (covers : Covers plan item walk) (sound : Sound plan walk)
    (placed : service.registry.WellPlaced) (accepted : service.plan request = .ok plan)
    (matched : matchesAll plan.predicates item = true) (bounded : walk.store.size ≤ maxWord)
    (step : Step service request walk walk')
    (unwritten : ∀ written ∈ walk'.written, written.id ≠ item.id) :
    Covers plan item walk' := by
  have resolved := resolved_of_planSearch accepted
  cases step with
  | insert new =>
    have other := unwritten new (List.mem_append_right _ List.mem_cons_self)
    exact ⟨MemoryStore.mem_values_insert covers.stored other, covers.only, covers.reached⟩
  | extend news =>
    have others := fun new mem => unwritten new (List.mem_append_right _ mem)
    exact ⟨MemoryStore.mem_values_extend covers.stored others, covers.only, covers.reached⟩
  | page unfinished planned answered =>
    obtain ⟨size, ⟨positive, _⟩, rfl, next, _⟩ :=
      sound.exists_resume placed accepted unfinished planned answered
    -- The item is still in the store, so the page finds it unless it was returned before.
    have hit : item ∈ walk.store.hits plan := MemoryStore.mem_matching.2 ⟨covers.stored, matched⟩
    refine ⟨covers.stored, fun row mem same => ?_, ?_⟩
    · rcases List.mem_append.1 mem with old | new
      · exact covers.only row old same
      · have hrow := (MemoryStore.mem_page_resume resolved new).1
        exact MemoryStore.eq_of_id_eq (MemoryStore.mem_matching.1 hrow).1 covers.stored same
    · rcases covers.reached with old | ⟨_, before⟩
      · exact Or.inl (List.mem_append_left _ old)
      · have ahead := MemoryStore.mem_or_lt_page_resume resolved positive (Or.inr bounded) hit
          fun row last => before row (List.mem_of_getLast? last)
        rcases ahead with new | ⟨more, after⟩
        · exact Or.inl (List.mem_append_right _ new)
        · refine Or.inr ⟨?_, fun row mem => ?_⟩
          · rw [next, Option.isNone_eq_false_iff]
            exact Option.isSome_iff_ne_none.2 more
          · exact (List.mem_append.1 mem).elim (before row) (after row)

/-- An item that matches and is not written is covered by every walk over its store. -/
theorem Run.covers (run : Run service request store walk) (placed : service.registry.WellPlaced)
    (accepted : service.plan request = .ok plan) (hit : item ∈ store.hits plan)
    (bounded : walk.store.size ≤ maxWord)
    (unwritten : ∀ written ∈ walk.written, written.id ≠ item.id) : Covers plan item walk := by
  obtain ⟨stored, matched⟩ := MemoryStore.mem_matching.1 hit
  -- The store only grows and nothing written is forgotten, so both hold all the way.
  induction run with
  | start => exact covers_start plan stored
  | step run step ih =>
    have earlier := Nat.le_trans step.size_le bounded
    have covers := ih earlier fun written mem => unwritten written (step.written_subset mem)
    exact covers.step (run.sound placed accepted) placed accepted matched earlier step unwritten

/--
Whatever is written between the pages of a walk forward, and whatever the sizes of the pages: the
rows ascend strictly and are what was returned, the next page is given as long as the positions of
the rows can be told, and at the end each match that was there from the first and not written on the
way was returned once.
-/
theorem ascending_and_visits_once {config : Config}
    (registered : config.registry = .ok service.registry)
    (accepted : service.plan request = .ok plan) (run : Run service request store walk) :
    plan.order.Ascending walk.rows
      ∧ walk.features = walk.rows.map plan.feature
      ∧ (walk.finished = false → (∀ row ∈ walk.rows, Cursor.Tellable plan.order row) →
        ∀ limit size, checkLimit service.settings limit = .ok size →
          ∃ response, service.search walk.store.toStore { request with token := walk.token, limit }
            = .ok response)
      ∧ (walk.finished = true → walk.store.size < 2 ^ 64 → ∀ item ∈ store.hits plan,
        (∀ written ∈ walk.written, written.id ≠ item.id) →
          walk.rows.filter (fun row => row.id = item.id) = [item]) := by
  have placed := Config.registry_wellPlaced registered
  have sound := run.sound placed accepted
  refine ⟨sound.ascending, sound.returned, fun unfinished tellable limit size hsize => ?_,
    fun finished bounded item hit unwritten => ?_⟩
  · exact (sound.turn placed accepted unfinished tellable hsize).2
  · have covers := run.covers placed accepted hit (Nat.le_sub_one_of_lt bounded) unwritten
    refine sound.ascending.filter_id_eq (covers.reached.resolve_right fun ahead => ?_) covers.only
    rw [finished] at ahead
    cases ahead.1

end ForwardWalk

namespace Sample

/-- An item older than the three, in the place of the first one. -/
def moved : Item := item "a" "2020-01-01T00:00:00Z"

/-- The last item of the first page. -/
def boundary : Item := item "b" "2024-02-29T13:00:00+01:00"

/-- The walk when the first page was returned. -/
def begun : ForwardWalk :=
  (ForwardWalk.start (.ofItems items)).turn plan 2

/-- The walk when the first item was moved behind the others. -/
def disturbed : ForwardWalk :=
  { begun with store := begun.store.insert moved, written := begun.written ++ [moved] }

/-- The plan is for an order that was resolved. -/
theorem resolved : SortOrder.Resolved service.registry plan.order :=
  resolved_of_planSearch (show service.plan .all = .ok plan from rfl)

/-- The first page returns two items. -/
theorem begun_eq : begun.rows = items.take 2
    ∧ begun.token = some (Cursor.encode boundary plan.order .forward) := by
  have ascending : plan.order.Ascending items := by
    rw [SortOrder.Ascending]
    decide +kernel
  have hits : (MemoryStore.ofItems items).hits plan = items :=
    MemoryStore.hits_eq resolved.exists_id ascending (.refl _)
  have rows : (MemoryStore.ofItems items).rows (plan.resume none 2) = items :=
    (MemoryStore.rows_first rfl).trans hits
  have size : 2 < maxWord ∨ (MemoryStore.ofItems items).size ≤ maxWord := Or.inl (by decide)
  have page := MemoryStore.page_resume_eq none resolved size
  rw [rows] at page
  exact page

/-- The second page returns the third item and the one that was moved. -/
theorem turn_disturbed_eq : (disturbed.turn plan 2).rows = items ++ [moved]
    ∧ (disturbed.turn plan 2).token = none := by
  have ascending : plan.order.Ascending (items.drop 1 ++ [moved]) := by
    rw [SortOrder.Ascending]
    decide +kernel
  have hits : disturbed.store.hits plan = items.drop 1 ++ [moved] :=
    MemoryStore.hits_eq resolved.exists_id ascending List.perm_append_comm
  have place : (items.drop 1 ++ [moved])[0]? = some boundary := rfl
  have rows : disturbed.store.rows (plan.resume (some boundary) 2) = items.drop 2 ++ [moved] := by
    rw [MemoryStore.rows_resume, hits]
    exact SortOrder.filter_after_getElem? ascending place
  have last : disturbed.rows.getLast? = some boundary := by
    have rows : disturbed.rows = items.take 2 := begun_eq.1
    rw [rows]
    rfl
  have size : 2 < maxWord ∨ disturbed.store.size ≤ maxWord := Or.inl (by decide)
  have page := MemoryStore.page_resume_eq (some boundary) resolved size
  rw [rows] at page
  constructor
  · show disturbed.rows ++ (disturbed.store.page (plan.resume disturbed.rows.getLast? 2)).items = _
    rw [last, page.1]
    show begun.rows ++ _ = _
    rw [begun_eq.1]
    rfl
  · show (disturbed.store.page (plan.resume disturbed.rows.getLast? 2)).next = _
    rw [last, page.2]
    rfl

/-- Both items that stay in their places are returned once. -/
theorem walk_past_a_moved_item :
    service.plan .all = .ok plan
      ∧ ForwardWalk.Run service .all (.ofItems items) (disturbed.turn plan 2)
      ∧ (disturbed.turn plan 2).finished = true
      ∧ ∀ item ∈ (MemoryStore.ofItems items).hits plan, item.id ≠ "a" →
        (disturbed.turn plan 2).rows.filter (fun row => row.id = item.id) = [item] := by
  have registered : Config.unset.registry = .ok service.registry := rfl
  have accepted : service.plan .all = .ok plan := rfl
  have placed := Config.registry_wellPlaced registered
  have size : checkLimit service.settings none = .ok 2 := rfl
  have opened : ForwardWalk.Run service .all (.ofItems items) begun :=
    .step .start ((ForwardWalk.sound_start plan _).turn placed accepted rfl
      (fun _ mem => absurd mem List.not_mem_nil) size).1
  have moving : ForwardWalk.Run service .all (.ofItems items) disturbed :=
    .step opened (.insert moved)
  have tellable : ∀ row ∈ disturbed.rows, Cursor.Tellable plan.order row := by
    have rows : disturbed.rows = items.take 2 := begun_eq.1
    rw [rows]
    exact fun row mem => tellable_items row (List.mem_of_mem_take mem)
  have unfinished : disturbed.finished = false := by
    show begun.token.isNone = false
    rw [begun_eq.2]
    rfl
  have run : ForwardWalk.Run service .all (.ofItems items) (disturbed.turn plan 2) :=
    .step moving ((moving.sound placed accepted).turn placed accepted unfinished tellable size).1
  have finished : (disturbed.turn plan 2).finished = true := by
    show (disturbed.turn plan 2).token.isNone = true
    rw [turn_disturbed_eq.2]
    rfl
  have bounded : (disturbed.turn plan 2).store.size < 2 ^ 64 := by
    show ((MemoryStore.ofItems items).insert moved).size < 2 ^ 64
    decide +kernel
  have once := (ForwardWalk.ascending_and_visits_once registered accepted run).2.2.2
  refine ⟨accepted, run, finished, fun item hit other => once finished bounded item hit ?_⟩
  intro written mem
  rw [List.mem_singleton.1 mem]
  exact other.symm

end Sample

end CatalogSearch
