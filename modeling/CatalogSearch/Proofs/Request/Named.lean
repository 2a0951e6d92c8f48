import CatalogSearch.Proofs.Query.Meaning
import CatalogSearch.Service
import CatalogSearch.Store.Memory

/-!
# Requests that name items

Where a request names the items that it wants, neither its filters nor its order are looked at: the
items are listed by identifier, and only the collections restrict them as well. So two such requests
that differ in filters and order alone are answered alike by every store, even if these make no
sense, as long as the capabilities that they use are switched on.

* `planSearch_of_named` : the plan for a request that names items;
* `SearchService.search_of_named` : filters and order change nothing in the answer.
-/

namespace CatalogSearch

variable {registry : FieldRegistry} {settings : Settings} {request first second : SearchRequest}

/-! ## Plans -/

/-- A capability that is switched on may be used. -/
theorem checkCapability_of_allows {capability : Capability}
    (isOn : settings.capabilities.allows capability = true) (used : Bool) :
    checkCapability settings capability used = .ok () := by
  rw [checkCapability, isOn, Bool.not_true, Bool.and_false]
  rfl

/-- The filters of a request that names items are the identifiers alone. -/
theorem requestFilters_of_named {ids : List String}
    (given : nonEmpty List.isEmpty request.ids = some ids) :
    requestFilters registry request = .ok ⟨[.ids ids], .empty, .byId⟩ := by
  rw [requestFilters, given]

/-- The plan for a request that names items has nothing of its filters and its order. -/
theorem planSearch_of_named {ids : List String}
    (given : nonEmpty List.isEmpty request.ids = some ids)
    (sortIsOn : settings.capabilities.sort = true)
    (queryIsOn : settings.capabilities.query = true) :
    planSearch registry settings request = (do
      let limit ← checkLimit settings request.limit
      let fields := nonEmpty FieldsRequest.isEmpty request.fields
      checkCapability settings .fields fields.isSome
      let cursor ← checkToken .byId request.token
      let collections := (nonEmpty StringSet.isEmpty request.collections).map Predicate.collections
      let projection := if settings.capabilities.fields then
          some (.resolve settings.defaultIncludes (fields.getD .none) .empty)
        else none
      return { predicates := collections.toList ++ [.ids ids], order := .byId
               cursor, limit, projection }) := by
  have sort : ∀ used, checkCapability settings .sort used = .ok () :=
    checkCapability_of_allows sortIsOn
  have query : ∀ used, checkCapability settings .query used = .ok () :=
    checkCapability_of_allows queryIsOn
  simp only [planSearch, sort, query, requestFilters_of_named given]
  rfl

/-! ## Answers -/

/-- Two requests are alike in all but their filters and their order. -/
structure SearchRequest.AlikeButFilters (first second : SearchRequest) : Prop where
  collections : first.collections = second.collections
  ids : first.ids = second.ids
  limit : first.limit = second.limit
  token : first.token = second.token
  fields : first.fields = second.fields

/-- Requests that name the same items have the same plan, or are refused for the same reason. -/
theorem planSearch_eq_of_named (named : first.NamesItems) (alike : first.AlikeButFilters second)
    (sortIsOn : settings.capabilities.sort = true)
    (queryIsOn : settings.capabilities.query = true) :
    planSearch registry settings first = planSearch registry settings second := by
  obtain ⟨ids, given⟩ := SearchRequest.namesItems_iff.1 named
  have given' : nonEmpty List.isEmpty second.ids = some ids := alike.ids ▸ given
  rw [planSearch_of_named given sortIsOn queryIsOn, planSearch_of_named given' sortIsOn queryIsOn,
    alike.limit, alike.token, alike.fields, alike.collections]

/--
Over any store, requests that name the same items are answered alike, whatever their filters and
their order, if sorting and filtering by fields are switched on.
-/
theorem SearchService.search_of_named {m : Type → Type} [Monad m] {service : SearchService}
    (sortIsOn : service.settings.capabilities.sort = true)
    (queryIsOn : service.settings.capabilities.query = true) (store : Store m)
    (named : first.NamesItems) (alike : first.AlikeButFilters second) :
    service.search store first = service.search store second := by
  have samePlan : service.plan first = service.plan second :=
    planSearch_eq_of_named named alike sortIsOn queryIsOn
  rw [search, search, samePlan]

/-! ## A request whose filters make no sense -/

namespace Sample

/-- A request for two items of a collection. -/
def twoNamed : SearchRequest :=
  { SearchRequest.all with
    collections := some (.ofList ["landsat"]), ids := some ["b", "a"], limit := some 1 }

/--
The same request with a box of three bounds, an instant that is no timestamp, a query for a field
and an operator that do not exist, and an order with one field twice.
-/
def twoNamedAmidNonsense : SearchRequest :=
  { twoNamed with
    bbox := some [.finite one, .finite two, .finite one]
    datetime := some "yesterday"
    query := some (.ofList [("colour", .ofList [("near", .null)])])
    sortby := some [⟨"gsd", .ascending⟩, ⟨"properties.gsd", .descending⟩] }

/-- The nonsense is refused by itself, but beside the names of items it changes nothing. -/
theorem search_of_twoNamed :
    twoNamed.NamesItems ∧ twoNamed.AlikeButFilters twoNamedAmidNonsense
      ∧ (∃ e, planSearch .builtin openSettings { twoNamedAmidNonsense with ids := none } = .error e)
      ∧ (∃ plan, planSearch .builtin openSettings twoNamedAmidNonsense = .ok plan)
      ∧ ∀ store : MemoryStore,
        SearchService.search ⟨.builtin, openSettings⟩ store.toStore twoNamed
          = SearchService.search ⟨.builtin, openSettings⟩ store.toStore twoNamedAmidNonsense := by
  have named : twoNamed.NamesItems := ⟨_, rfl, List.cons_ne_nil _ _⟩
  have alike : twoNamed.AlikeButFilters twoNamedAmidNonsense := ⟨rfl, rfl, rfl, rfl, rfl⟩
  exact ⟨named, alike, ⟨_, rfl⟩, ⟨_, rfl⟩,
    fun store => SearchService.search_of_named rfl rfl store.toStore named alike⟩

end Sample

end CatalogSearch
