import CatalogSearch.Proofs.Plan
import CatalogSearch.Proofs.Query.Meaning
import CatalogSearch.Service

/-!
# Faults of requests

A request is refused exactly if something is wrong with it, and every such refusal blames the
request. Where a request names the items that it wants, its filters and its order are not looked at.

* `SearchRequest.Faulty`, `SearchParams.Faulty`, `FaultyListing` : what is wrong with a request;
* `SearchRequest.exists_error_iff`, `SearchParams.exists_error_iff`, `exists_error_planItems_iff` :
  what is wrong with a request is found in its plan;
* `faulty_of_planSearch`, `faulty_of_toRequest_plan`, `faulty_of_planItems` : the request is blamed.
-/

namespace CatalogSearch

variable {registry : FieldRegistry} {settings : Settings} {request : SearchRequest}
  {params : SearchParams} {e : SearchError}

/-! ## What is wrong -/

/-- The size of a page is out of range. -/
def Settings.RefusesLimit (settings : Settings) (requested : Option ℕ) : Prop :=
  requested.getD settings.defaultLimit = 0
    ∨ settings.maxLimit < requested.getD settings.defaultLimit

/-- A request uses a capability. Counting is nothing that a request can use. -/
def SearchRequest.Uses (request : SearchRequest) : Capability → Prop
  | .context => False
  | .fields => ∃ fields, request.fields = some fields ∧ fields.isEmpty = false
  | .sort => ∃ entries, request.sortby = some entries ∧ entries ≠ []
  | .query => ∃ query, request.query = some query ∧ query.entries ≠ []

/-- Something is wrong with a request. -/
inductive SearchRequest.Faulty (registry : FieldRegistry) (settings : Settings)
    (request : SearchRequest) : Prop
  | limit (refused : settings.RefusesLimit request.limit)
  | capability (capability : Capability) (uses : request.Uses capability)
      (isOff : settings.capabilities.allows capability = false)
  | place (unnamed : ¬ request.NamesItems) (fault : SpatialFault)
      (refused : spatialShape? request.bbox request.intersects = .error fault)
  | time (unnamed : ¬ request.NamesItems) (raw : String) (fault : SearchError)
      (given : request.datetime = some raw) (refused : DatetimeFilter.ofText? raw = .error fault)
  | query (unnamed : ¬ request.NamesItems) (fault : SearchError)
      (refused : compileQuery registry (request.query.getD .empty) = .error fault)
  | sort (unnamed : ¬ request.NamesItems) (fault : SearchError)
      (refused : resolveSort registry (request.sortby.getD []) = .error fault)
  | token (filters : Filters) (raw : String) (fault : SearchError)
      (passed : requestFilters registry request = .ok filters)
      (given : request.token = some raw) (refused : Cursor.decode raw filters.order = .error fault)

/-- Parameters say no request, or one with which something is wrong. -/
def SearchParams.Faulty (registry : FieldRegistry) (settings : Settings) (params : SearchParams) :
    Prop :=
  (∃ e, params.toRequest = .error e)
    ∨ ∃ request, params.toRequest = .ok request ∧ request.Faulty registry settings

/-- The size of a page or the token is wrong where the items of a collection are listed. -/
def FaultyListing (settings : Settings) (limit : Option ℕ) (token : Option String) : Prop :=
  settings.RefusesLimit limit
    ∨ ∃ raw fault, token = some raw ∧ Cursor.decode raw .newestFirst = .error fault

/-! ## Checks that fail -/

/-- The size of a page is refused if it is out of range, and then the request is blamed. -/
theorem refusesLimit_of_error {requested : Option ℕ}
    (h : checkLimit settings requested = .error e) :
    settings.RefusesLimit requested ∧ e.isClientError = true := by
  rw [checkLimit] at h
  split at h
  · next refused =>
    cases h
    exact ⟨refused, rfl⟩
  · cases h

/-- A size of a page that is accepted is in range. -/
theorem not_refusesLimit {requested : Option ℕ} {limit : ℕ}
    (h : checkLimit settings requested = .ok limit) : ¬ settings.RefusesLimit requested := by
  rw [checkLimit] at h
  split at h
  · cases h
  · assumption

/-- A capability is refused if it is used and switched off, and then the request is blamed. -/
theorem used_of_error {capability : Capability} {used : Bool}
    (h : checkCapability settings capability used = .error e) :
    (used = true ∧ settings.capabilities.allows capability = false) ∧ e.isClientError = true := by
  rw [checkCapability] at h
  split at h
  · next refused =>
    cases h
    exact ⟨by simpa using refused, rfl⟩
  · cases h

/-- A capability that is accepted is not used, or it is switched on. -/
theorem allows_of_ok {capability : Capability} {used : Bool}
    (h : checkCapability settings capability used = .ok ()) (uses : used = true) :
    settings.capabilities.allows capability = true := by
  rw [checkCapability] at h
  split at h
  · cases h
  · next passed => simpa [uses] using passed

/-- A token that is refused is there, and then the request is blamed. -/
theorem exists_token_of_error {order : SortOrder} {token : Option String}
    (h : checkToken order token = .error e) :
    (∃ raw, token = some raw ∧ Cursor.decode raw order = .error e) ∧ e.isClientError = true := by
  cases token with
  | none => cases h
  | some raw =>
    have refused := eq_error_of_map_eq_error h
    obtain ⟨_, _, rfl⟩ := exists_of_mapError_eq_error refused
    exact ⟨⟨raw, rfl, refused⟩, rfl⟩

/-- A token that is accepted can be decoded. -/
theorem exists_cursor_of_ok {order : SortOrder} {raw : String} {cursor : Option Cursor}
    (h : checkToken order (some raw) = .ok cursor) :
    ∃ position, Cursor.decode raw order = .ok position := by
  obtain ⟨position, decoded, _⟩ := exists_of_map_eq_ok h
  exact ⟨position, decoded⟩

/-! ## Filters and orders that are refused -/

/-- A bad entry of a property filter is the fault of the request. -/
theorem isClientError_of_compileQuery {query : QueryFilter}
    (h : compileQuery registry query = .error e) : e.isClientError = true := by
  obtain ⟨_, _, offends, _⟩ := compileQuery_eq_error_iff.1 h
  cases offends <;> rfl

/-- A bad key of an order is the fault of the request. -/
theorem isClientError_of_resolveKeys {keys : List SortKey} {entries : List SortBy}
    (h : resolveKeys registry keys entries = .error e) : e.isClientError = true := by
  induction entries generalizing keys with
  | nil => cases h
  | cons entry entries ih =>
    rw [resolveKeys] at h
    split at h
    · cases h
      rfl
    · split at h
      · cases h
        rfl
      · exact ih h

/-- An order that is refused is the fault of the request. -/
theorem isClientError_of_resolveSort {entries : List SortBy}
    (h : resolveSort registry entries = .error e) : e.isClientError = true := by
  rw [resolveSort] at h
  split at h
  · cases h
  · exact isClientError_of_resolveKeys (eq_error_of_map_eq_error h)

/-- Filters are refused for one of them, and then the request is blamed. -/
theorem faulty_of_requestFilters (h : requestFilters registry request = .error e) :
    request.Faulty registry settings ∧ e.isClientError = true := by
  have unnamed : ¬ request.NamesItems := by
    intro named
    obtain ⟨ids, given⟩ := SearchRequest.namesItems_iff.1 named
    rw [requestFilters, given] at h
    cases h
  rw [SearchRequest.requestFilters_of_unnamed unnamed, compileFilters] at h
  rcases error_or_of_bind_eq_error h with failed | ⟨_, _, h⟩
  · obtain ⟨fault, refused, rfl⟩ := exists_of_mapError_eq_error failed
    exact ⟨.place unnamed fault (eq_error_of_map_eq_error refused), rfl⟩
  rcases error_or_of_bind_eq_error h with failed | ⟨_, _, h⟩
  · cases given : request.datetime with
    | none =>
      rw [given] at failed
      cases failed
    | some raw =>
      rw [given] at failed
      have refused := eq_error_of_map_eq_error failed
      obtain ⟨_, _, rfl⟩ := exists_of_mapError_eq_error refused
      exact ⟨.time unnamed raw _ given refused, rfl⟩
  rcases error_or_of_bind_eq_error h with failed | ⟨_, _, h⟩
  · exact ⟨.query unnamed e failed, isClientError_of_compileQuery failed⟩
  rcases error_or_of_bind_eq_error h with failed | ⟨_, _, h⟩
  · exact ⟨.sort unnamed e failed, isClientError_of_resolveSort failed⟩
  · cases h

/-! ## Requests in bodies -/

/-- The sort capability is checked exactly if there are keys. -/
theorem SearchRequest.uses_sort_iff :
    request.Uses .sort ↔ (!(request.sortby.getD []).isEmpty) = true := by
  cases given : request.sortby <;> simp [Uses, given]

/-- The query capability is checked exactly if there are fields to compare. -/
theorem SearchRequest.uses_query_iff :
    request.Uses .query ↔ (!(request.query.getD .empty).entries.isEmpty) = true := by
  cases given : request.query <;> simp [Uses, given, SortedMap.empty]

/-- The fields capability is checked exactly if there are fields to choose. -/
theorem SearchRequest.uses_fields_iff :
    request.Uses .fields ↔ (nonEmpty FieldsRequest.isEmpty request.fields).isSome = true := by
  simp only [Uses, Option.isSome_iff_exists, nonEmpty_eq_some_iff]

/-- A request that is refused has a fault, and it is blamed. -/
theorem faulty_of_planSearch (h : planSearch registry settings request = .error e) :
    request.Faulty registry settings ∧ e.isClientError = true := by
  rw [planSearch] at h
  rcases error_or_of_bind_eq_error h with failed | ⟨_, _, h⟩
  · obtain ⟨refused, blamed⟩ := refusesLimit_of_error failed
    exact ⟨.limit refused, blamed⟩
  rcases error_or_of_bind_eq_error h with failed | ⟨_, _, h⟩
  · obtain ⟨⟨used, isOff⟩, blamed⟩ := used_of_error failed
    exact ⟨.capability .sort (SearchRequest.uses_sort_iff.2 used) isOff, blamed⟩
  rcases error_or_of_bind_eq_error h with failed | ⟨_, _, h⟩
  · obtain ⟨⟨used, isOff⟩, blamed⟩ := used_of_error failed
    exact ⟨.capability .query (SearchRequest.uses_query_iff.2 used) isOff, blamed⟩
  rcases error_or_of_bind_eq_error h with failed | ⟨_, _, h⟩
  · obtain ⟨⟨used, isOff⟩, blamed⟩ := used_of_error failed
    exact ⟨.capability .fields (SearchRequest.uses_fields_iff.2 used) isOff, blamed⟩
  rcases error_or_of_bind_eq_error h with failed | ⟨filters, passed, h⟩
  · exact faulty_of_requestFilters failed
  rcases error_or_of_bind_eq_error h with failed | ⟨_, _, h⟩
  · obtain ⟨⟨raw, given, refused⟩, blamed⟩ := exists_token_of_error failed
    exact ⟨.token filters raw e passed given refused, blamed⟩
  · cases h

/-- A request with a fault is not planned. -/
theorem not_faulty_of_planSearch {plan : SearchPlan}
    (h : planSearch registry settings request = .ok plan) : ¬ request.Faulty registry settings := by
  intro faulty
  have sizes := not_refusesLimit (exists_of_planSearch h).1
  rw [planSearch] at h
  obtain ⟨_, _, h⟩ := exists_of_bind_eq_ok h
  obtain ⟨_, sort, h⟩ := exists_of_bind_eq_ok h
  obtain ⟨_, query, h⟩ := exists_of_bind_eq_ok h
  obtain ⟨_, fields, h⟩ := exists_of_bind_eq_ok h
  obtain ⟨filters, hfilters, h⟩ := exists_of_bind_eq_ok h
  obtain ⟨cursor, hcursor, _⟩ := exists_of_bind_eq_ok h
  have parts (unnamed : ¬ request.NamesItems) :=
    exists_of_compileFilters ((SearchRequest.requestFilters_of_unnamed unnamed).symm.trans hfilters)
  cases faulty with
  | limit refused => exact sizes refused
  | capability capability uses isOff =>
    have isOn : settings.capabilities.allows capability = true := by
      cases capability with
      | context => exact uses.elim
      | fields => exact allows_of_ok fields (SearchRequest.uses_fields_iff.1 uses)
      | sort => exact allows_of_ok sort (SearchRequest.uses_sort_iff.1 uses)
      | query => exact allows_of_ok query (SearchRequest.uses_query_iff.1 uses)
    rw [isOff] at isOn
    cases isOn
  | place unnamed fault refused =>
    obtain ⟨_, _, _, _, spatial, _⟩ := parts unnamed
    rw [spatialPredicate?, refused] at spatial
    cases spatial
  | time unnamed raw fault given refused =>
    obtain ⟨_, _, _, _, _, datetime, _⟩ := parts unnamed
    rw [given, datetimeComparisons, refused] at datetime
    cases datetime
  | query unnamed fault refused =>
    obtain ⟨_, _, _, _, _, _, compiled, _⟩ := parts unnamed
    rw [refused] at compiled
    cases compiled
  | sort unnamed fault refused =>
    obtain ⟨_, _, _, _, _, _, _, resolved, _⟩ := parts unnamed
    rw [refused] at resolved
    cases resolved
  | token filters' raw fault passed given refused =>
    cases passed.symm.trans hfilters
    rw [given] at hcursor
    obtain ⟨_, decoded⟩ := exists_cursor_of_ok hcursor
    rw [refused] at decoded
    cases decoded

/-- A request is refused exactly if something is wrong with it. -/
theorem SearchRequest.exists_error_iff :
    (∃ e, planSearch registry settings request = .error e) ↔ request.Faulty registry settings := by
  cases h : planSearch registry settings request with
  | error e => exact iff_of_true ⟨e, rfl⟩ (faulty_of_planSearch h).1
  | ok plan => exact iff_of_false nofun (not_faulty_of_planSearch h)

/-! ## Requests in query strings -/

/-- A parameter that cannot be taken apart is the fault of the request. -/
theorem isClientError_of_parameter {α : Type} {fault : String → ParameterFault}
    {read : String → Option α} {raw : Option String} (h : parameter fault read raw = .error e) :
    e.isClientError = true := by
  rw [parameter.eq_def] at h
  split at h
  · cases h
  · split at h
    · cases h
    · cases h
      rfl

/-- An entry that names no field is the fault of the request. -/
theorem isClientError_of_signedField {parameter entry : String}
    (h : signedField parameter entry = .error e) : e.isClientError = true := by
  simp only [signedField] at h
  split at h
  · cases h
    rfl
  · cases h

/-- A sort order that cannot be read is the fault of the request. -/
theorem isClientError_of_sortbyOfText {raw : String} (h : sortbyOfText raw = .error e) :
    e.isClientError = true := by
  obtain ⟨entry, _, failed⟩ := exists_of_mapM_eq_error h
  rcases error_or_of_bind_eq_error failed with failed | ⟨_, _, h⟩
  · exact isClientError_of_signedField failed
  · cases h

/-- Fields that cannot be read are the fault of the request. -/
theorem isClientError_of_fieldsOfText {raw : String} (h : fieldsOfText raw = .error e) :
    e.isClientError = true := by
  obtain ⟨entry, _, _, failed⟩ := exists_of_foldlM_eq_error h
  rcases error_or_of_bind_eq_error failed with failed | ⟨_, _, h⟩
  · exact isClientError_of_signedField failed
  · cases h

/-- Parameters that say no request are the fault of the request. -/
theorem isClientError_of_toRequest (h : params.toRequest = .error e) : e.isClientError = true := by
  rw [SearchParams.toRequest] at h
  rcases error_or_of_bind_eq_error h with failed | ⟨_, _, h⟩
  · exact isClientError_of_parameter failed
  rcases error_or_of_bind_eq_error h with failed | ⟨_, _, h⟩
  · exact isClientError_of_parameter failed
  rcases error_or_of_bind_eq_error h with failed | ⟨_, _, h⟩
  · exact isClientError_of_parameter failed
  rcases error_or_of_bind_eq_error h with failed | ⟨_, _, h⟩
  · exact isClientError_of_parameter failed
  rcases error_or_of_bind_eq_error h with failed | ⟨_, _, h⟩
  · obtain ⟨raw, failed⟩ := exists_of_optionMapM_eq_error failed
    exact isClientError_of_sortbyOfText failed
  rcases error_or_of_bind_eq_error h with failed | ⟨_, _, h⟩
  · obtain ⟨raw, failed⟩ := exists_of_optionMapM_eq_error failed
    exact isClientError_of_fieldsOfText failed
  · cases h

/-- The plan for parameters fails only by a fault in them, and then they are blamed. -/
theorem faulty_of_toRequest_plan
    (h : (params.toRequest >>= planSearch registry settings) = .error e) :
    params.Faulty registry settings ∧ e.isClientError = true := by
  rcases error_or_of_bind_eq_error h with failed | ⟨request, said, failed⟩
  · exact ⟨Or.inl ⟨e, failed⟩, isClientError_of_toRequest failed⟩
  · obtain ⟨faulty, blamed⟩ := faulty_of_planSearch failed
    exact ⟨Or.inr ⟨request, said, faulty⟩, blamed⟩

/-- Parameters are refused exactly if something is wrong with them. -/
theorem SearchParams.exists_error_iff :
    (∃ e, (params.toRequest >>= planSearch registry settings) = .error e)
      ↔ params.Faulty registry settings := by
  refine ⟨fun ⟨e, failed⟩ => (faulty_of_toRequest_plan failed).1, ?_⟩
  rintro (⟨e, failed⟩ | ⟨request, said, faulty⟩)
  · exact ⟨e, by rw [failed]; rfl⟩
  · rw [said]
    exact SearchRequest.exists_error_iff.2 faulty

/-! ## Listings -/

/-- The plan for a listing fails only by a fault in it, and then the request is blamed. -/
theorem faulty_of_planItems {collection : String} {limit : Option ℕ} {token : Option String}
    (h : planItems settings collection limit token = .error e) :
    FaultyListing settings limit token ∧ e.isClientError = true := by
  rw [planItems] at h
  rcases error_or_of_bind_eq_error h with failed | ⟨_, _, h⟩
  · obtain ⟨refused, blamed⟩ := refusesLimit_of_error failed
    exact ⟨Or.inl refused, blamed⟩
  rcases error_or_of_bind_eq_error h with failed | ⟨_, _, h⟩
  · obtain ⟨⟨raw, given, refused⟩, blamed⟩ := exists_token_of_error failed
    exact ⟨Or.inr ⟨raw, e, given, refused⟩, blamed⟩
  · cases h

/-- A listing is refused exactly if something is wrong with it. -/
theorem exists_error_planItems_iff {collection : String} {limit : Option ℕ}
    {token : Option String} :
    (∃ e, planItems settings collection limit token = .error e)
      ↔ FaultyListing settings limit token := by
  refine ⟨fun ⟨e, failed⟩ => (faulty_of_planItems failed).1, fun faulty => ?_⟩
  cases h : planItems settings collection limit token with
  | error e => exact ⟨e, rfl⟩
  | ok plan =>
    rw [planItems] at h
    obtain ⟨_, hlimit, h⟩ := exists_of_bind_eq_ok h
    obtain ⟨_, hcursor, _⟩ := exists_of_bind_eq_ok h
    rcases faulty with refused | ⟨raw, fault, rfl, refused⟩
    · exact absurd refused (not_refusesLimit hlimit)
    · obtain ⟨_, decoded⟩ := exists_cursor_of_ok hcursor
      rw [refused] at decoded
      cases decoded

end CatalogSearch
