import CatalogSearch.Plan
import CatalogSearch.Proofs.Outcome
import CatalogSearch.Proofs.Sort.Resolved
import Mathlib.Data.Nat.Notation

/-!
# Plans of related requests

Of an accepted request only the size of a page and the token are looked at apart from the rest. So a
request that was accepted is accepted with another token and another size as far as these are, and
its plan differs in nothing else.

* `exists_filters_of_planSearch`, `exists_of_compileFilters` : what a plan is made of;
* `planSearch_of_token_limit` : the plan for a request with another token and another size;
* `resolved_of_planSearch` : plans run in resolved orders;
* `pos_of_checkLimit` : pages are not empty by their size.
-/

namespace CatalogSearch

variable {registry : FieldRegistry} {settings : Settings} {request : SearchRequest}
  {plan : SearchPlan}

/-- A size of a page that is accepted is in range. -/
theorem pos_of_checkLimit {requested : Option ℕ} {limit : ℕ}
    (h : checkLimit settings requested = .ok limit) : 0 < limit ∧ limit ≤ settings.maxLimit := by
  rw [checkLimit] at h
  split at h
  · cases h
  · next inRange =>
    cases h
    omega

/-- What a plan is made of, given what the filters of its request come down to. -/
structure SearchPlan.MadeOf (settings : Settings) (request : SearchRequest) (filters : Filters)
    (plan : SearchPlan) : Prop where
  limit : checkLimit settings request.limit = .ok plan.limit
  predicates : plan.predicates
    = ((nonEmpty StringSet.isEmpty request.collections).map Predicate.collections).toList
      ++ filters.predicates
  order : plan.order = filters.order
  cursor : checkToken filters.order request.token = .ok plan.cursor
  projection : plan.projection = if settings.capabilities.fields then
      some (.resolve settings.defaultIncludes
        ((nonEmpty FieldsRequest.isEmpty request.fields).getD .none) filters.paths)
    else none

/-- The plan for a request is made of its parts. -/
theorem exists_filters_of_planSearch (h : planSearch registry settings request = .ok plan) :
    ∃ filters, requestFilters registry request = .ok filters
      ∧ plan.MadeOf settings request filters := by
  rw [planSearch] at h
  obtain ⟨limit, hlimit, h⟩ := exists_of_bind_eq_ok h
  obtain ⟨_, _, h⟩ := exists_of_bind_eq_ok h
  obtain ⟨_, _, h⟩ := exists_of_bind_eq_ok h
  obtain ⟨_, _, h⟩ := exists_of_bind_eq_ok h
  obtain ⟨filters, hfilters, h⟩ := exists_of_bind_eq_ok h
  obtain ⟨cursor, hcursor, h⟩ := exists_of_bind_eq_ok h
  cases h
  exact ⟨filters, hfilters, hlimit, rfl, rfl, hcursor, rfl⟩

/-- The parts of an accepted request. -/
theorem exists_of_planSearch (h : planSearch registry settings request = .ok plan) :
    checkLimit settings request.limit = .ok plan.limit
      ∧ checkToken plan.order request.token = .ok plan.cursor
      ∧ ∃ filters, requestFilters registry request = .ok filters ∧ filters.order = plan.order := by
  obtain ⟨filters, hfilters, made⟩ := exists_filters_of_planSearch h
  exact ⟨made.limit, made.order ▸ made.cursor, filters, hfilters, made.order.symm⟩

/-- The filters of a request that does not name records are made of its parts. -/
theorem exists_of_compileFilters {filters : Filters}
    (h : compileFilters registry request = .ok filters) :
    ∃ spatial datetime query order,
      spatialPredicate? request.bbox request.intersects = .ok spatial
        ∧ datetimeComparisons request.datetime = .ok datetime
        ∧ compileQuery registry (request.query.getD .empty) = .ok query
        ∧ resolveSort registry (request.sortby.getD []) = .ok order
        ∧ filters = ⟨spatial.toList ++ (datetime ++ query).map .compare,
          .ofList (query.map (·.field.path)), order⟩ := by
  rw [compileFilters] at h
  obtain ⟨spatial, hspatial, h⟩ := exists_of_bind_eq_ok h
  obtain ⟨datetime, hdatetime, h⟩ := exists_of_bind_eq_ok h
  obtain ⟨query, hquery, h⟩ := exists_of_bind_eq_ok h
  obtain ⟨order, horder, h⟩ := exists_of_bind_eq_ok h
  exact ⟨spatial, datetime, query, order, hspatial, hdatetime, hquery, horder,
    (Except.ok.inj h).symm⟩

/-- Filters run in resolved orders. -/
theorem resolved_of_requestFilters {filters : Filters}
    (h : requestFilters registry request = .ok filters) :
    SortOrder.Resolved registry filters.order := by
  rw [requestFilters] at h
  split at h
  · cases h
    exact .byId
  · obtain ⟨_, _, _, _, _, _, _, resolved, rfl⟩ := exists_of_compileFilters h
    exact .requested resolved

/-- Plans run in resolved orders. -/
theorem resolved_of_planSearch (h : planSearch registry settings request = .ok plan) :
    SortOrder.Resolved registry plan.order := by
  obtain ⟨_, _, filters, hfilters, order⟩ := exists_of_planSearch h
  rw [← order]
  exact resolved_of_requestFilters hfilters

/-- The plan for a request with another token and another size differs in these alone. -/
theorem planSearch_of_token_limit (h : planSearch registry settings request = .ok plan)
    (token : Option String) (limit : Option ℕ) :
    planSearch registry settings { request with token, limit }
      = (checkLimit settings limit >>= fun limit =>
          (checkToken plan.order token).map fun cursor => { plan with cursor, limit }) := by
  rw [planSearch] at h
  obtain ⟨_, _, h⟩ := exists_of_bind_eq_ok h
  obtain ⟨_, sort, h⟩ := exists_of_bind_eq_ok h
  obtain ⟨_, query, h⟩ := exists_of_bind_eq_ok h
  obtain ⟨_, fields, h⟩ := exists_of_bind_eq_ok h
  obtain ⟨filters, hfilters, h⟩ := exists_of_bind_eq_ok h
  obtain ⟨_, _, h⟩ := exists_of_bind_eq_ok h
  cases h
  have same : requestFilters registry { request with token, limit } = .ok filters := hfilters
  rw [planSearch]
  simp only [sort, query, fields, same]
  cases checkLimit settings limit with
  | error e => rfl
  | ok limit =>
    cases position : checkToken filters.order token with
    | error e => simp only [bind, Except.bind, position, Except.map]
    | ok cursor => simp only [bind, Except.bind, position, Except.map, pure, Except.pure]

end CatalogSearch
