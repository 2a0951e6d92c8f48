import CatalogSearch.Proofs.Plan
import CatalogSearch.Proofs.Query.Compile
import CatalogSearch.Proofs.Query.Datetime

/-!
# What requests ask for

A request says which items it wants in terms of their records: collections, identifiers, places,
instants and values of fields. The predicates of its plan are another way to say the same.

* `SearchRequest.matchesAll_spatial_iff`, `matchesAll_datetime_iff`, `matchesAll_query_iff` : what
  each filter comes down to;
* `SearchRequest.matchesAll_iff_wants` : an item satisfies the predicates of a plan exactly if the
  request wants it.
-/

namespace CatalogSearch

/-! ## Boxes -/

/-- A polygon is the closed rectangle of a box: it has its four corners and no holes. -/
def Polygon.IsRectangle (area : Polygon) (b : Bounds) : Prop :=
  List.map (fun p => (p.x.units, p.y.units)) area.exterior
      = List.map (fun p => (p.x.units, p.y.units)) b.corners
    ∧ area.interiors = []

/-- The polygon of a box whose bounds are in order is its rectangle. -/
theorem Bounds.isRectangle_toPolygon {b : Bounds}
    (inOrder : ¬ (b.maxX.lt b.minX ∨ b.maxY.lt b.minY)) :
    b.toPolygon.IsRectangle b := by
  simp only [Binary64.lt, decide_eq_true_eq, not_or, Int.not_lt] at inOrder
  obtain ⟨hx, hy⟩ := inOrder
  -- Bounds change places only where they are equal.
  have sameX : ¬ b.minX.units < b.maxX.units → b.minX.units = b.maxX.units := by omega
  have sameY : ¬ b.minY.units < b.maxY.units → b.minY.units = b.maxY.units := by omega
  by_cases ltX : b.minX.units < b.maxX.units <;> by_cases ltY : b.minY.units < b.maxY.units <;>
    simp [Polygon.IsRectangle, toPolygon, corners, Binary64.lt, ltX, ltY, sameX, sameY]

/-! ## Requests -/

namespace SearchRequest

variable {registry : FieldRegistry} {settings : Settings} {request : SearchRequest}
  {plan : SearchPlan} {item : Item}

/-- A request names the items that it wants. -/
def NamesItems (request : SearchRequest) : Prop :=
  ∃ ids, request.ids = some ids ∧ ids ≠ []

/-- The shape of an item meets the geometry of a request, or else its box. -/
def InPlace (request : SearchRequest) (item : Item) : Prop :=
  match request.intersects, request.bbox with
  | some geometry, _ => item.shape.meets geometry.shape = true
  | none, some bounds => ∃ b : Bounds,
      bounds = [.finite b.minX, .finite b.minY, .finite b.maxX, .finite b.maxY]
        ∧ b.toPolygon.IsRectangle b ∧ item.shape.meets (.polygon b.toPolygon) = true
  | none, none => True

/-- An item is of an instant that passes the datetime filter of a request. -/
def InTime (request : SearchRequest) (item : Item) : Prop :=
  ∀ raw, request.datetime = some raw → ∃ filter, DatetimeFilter.ofText? raw = .ok filter
    ∧ ∃ t, item.Dated t ∧ filter.Admits t

/-- An item has, of each field in the query of a request, a value in each relation that is asked. -/
def InQuery (registry : FieldRegistry) (request : SearchRequest) (item : Item) : Prop :=
  ∀ query, request.query = some query →
    ∀ name operands, (name, operands) ∈ query.entries →
      ∀ operatorName operand, (operatorName, operand) ∈ operands.entries →
        ∃ field operator expected value,
          registry.resolve? name = some field
            ∧ Operator.ofName? operatorName = some operator
            ∧ FieldValue.ofJson? field.type operand = some expected
            ∧ item.Has field value ∧ operator.Relates value expected

/-- What a request wants of an item. Where it names items, only the collections count as well. -/
structure Wants (registry : FieldRegistry) (request : SearchRequest) (item : Item) : Prop where
  collection : ∀ names, request.collections = some names → names.toList ≠ [] →
    item.collection ∈ names
  named : ∀ ids, request.ids = some ids → ids ≠ [] → item.id ∈ ids
  place : ¬ request.NamesItems → request.InPlace item
  time : ¬ request.NamesItems → request.InTime item
  query : ¬ request.NamesItems → request.InQuery registry item

/-! ### Places and instants -/

/-- The spatial predicate of a request says that an item is in place. -/
theorem matchesAll_spatial_iff {spatial : Option Predicate}
    (h : spatialPredicate? request.bbox request.intersects = .ok spatial) :
    matchesAll spatial.toList item = true ↔ request.InPlace item := by
  rw [spatialPredicate?] at h
  cases found : spatialShape? request.bbox request.intersects with
  | error e =>
    rw [found] at h
    cases h
  | ok shape =>
    rw [found] at h
    cases h
    rw [spatialShape?.eq_def] at found
    rw [InPlace]
    split at found
    · next noBox noGeometry =>
      cases found
      simp [noBox, noGeometry, matchesAll]
    · next geometry _ hasGeometry =>
      cases found
      simp [hasGeometry, matchesAll, Predicate.matchesItem]
    · next geometry _ hasGeometry =>
      cases found
      simp [hasGeometry, matchesAll, Predicate.matchesItem]
    · next minX minY maxX maxY hasBox noGeometry =>
      obtain ⟨area, made, rfl⟩ := exists_of_map_eq_ok found
      rw [boxPolygon.eq_def] at made
      split at made
      · next minX minY maxX maxY =>
        split at made
        · cases made
        · next inOrder =>
          cases made
          have rectangle := Bounds.isRectangle_toPolygon (b := ⟨minX, minY, maxX, maxY⟩) inOrder
          simp only [hasBox, noGeometry]
          constructor
          · intro meets
            exact ⟨_, rfl, rectangle, by simpa [matchesAll, Predicate.matchesItem] using meets⟩
          · rintro ⟨b, same, _, meets⟩
            simp only [List.cons.injEq, ExtendedNumber.finite.injEq, and_true] at same
            obtain ⟨rfl, rfl, rfl, rfl⟩ := same
            simpa [matchesAll, Predicate.matchesItem] using meets
      · cases made
    · cases found

/-- The comparisons for the datetime of a request say that an item is in time. -/
theorem matchesAll_datetime_iff {datetime : List Comparison}
    (h : datetimeComparisons request.datetime = .ok datetime) :
    (∀ comparison ∈ datetime, comparison.matchesItem item = true) ↔ request.InTime item := by
  rw [InTime]
  cases given : request.datetime with
  | none =>
    rw [given] at h
    cases h
    simp
  | some raw =>
    rw [given, datetimeComparisons] at h
    obtain ⟨filter, read, rfl⟩ := exists_of_map_eq_ok h
    rw [DatetimeFilter.matches_comparisons_iff read]
    simp [read]

/-! ### Fields -/

/-- Each comparison for the query of a request is one of the entries that the request has. -/
theorem exists_query_of_mem {comparisons : List Comparison}
    (h : compileQuery registry (request.query.getD .empty) = .ok comparisons)
    {comparison : Comparison} (mem : comparison ∈ comparisons) :
    ∃ query name operands operatorName operand, request.query = some query
      ∧ (name, operands) ∈ query.entries ∧ (operatorName, operand) ∈ operands.entries
      ∧ registry.resolve? name = some comparison.field
      ∧ Operator.ofName? operatorName = some comparison.operator
      ∧ FieldValue.ofJson? comparison.field.type operand = some comparison.value := by
  obtain ⟨name, operands, operatorName, operand, hentry, others⟩ :=
    exists_entry_of_mem_compileQuery h mem
  cases given : request.query with
  | none =>
    rw [given] at hentry
    cases hentry
  | some query =>
    rw [given] at hentry
    exact ⟨query, name, operands, operatorName, operand, rfl, hentry, others⟩

/-- The comparisons for the query of a request say that an item has what the query asks for. -/
theorem matchesAll_query_iff (placed : registry.WellPlaced) {comparisons : List Comparison}
    (h : compileQuery registry (request.query.getD .empty) = .ok comparisons) :
    (∀ comparison ∈ comparisons, comparison.matchesItem item = true)
      ↔ request.InQuery registry item := by
  constructor
  · intro all query given name operands mem operatorName operand mem'
    rw [given] at h
    obtain ⟨field, operator, expected, found, known, fits, compiled⟩ :=
      exists_mem_of_compileQuery h mem mem'
    have placedField := placed field (FieldRegistry.mem_of_resolve? found)
    obtain ⟨value, has, related⟩ := (Comparison.matchesItem_iff placedField).1 (all _ compiled)
    exact ⟨field, operator, expected, value, found, known, fits, has, related⟩
  · intro asked comparison mem
    obtain ⟨query, name, operands, operatorName, operand, given, hentry, hoperand, found, known,
      fits⟩ := exists_query_of_mem h mem
    obtain ⟨field, operator, expected, value, found', known', fits', has, related⟩ :=
      asked query given name operands hentry operatorName operand hoperand
    cases found.symm.trans found'
    cases known.symm.trans known'
    cases fits.symm.trans fits'
    have placedField := placed comparison.field (FieldRegistry.mem_of_resolve? found)
    exact (Comparison.matchesItem_iff placedField).2 ⟨value, has, related⟩

/-! ### Plans -/

/-- A part that is there and not empty. -/
theorem nonEmpty_eq_some_iff {α : Type} {isEmpty : α → Bool} {part : Option α} {a : α} :
    nonEmpty isEmpty part = some a ↔ part = some a ∧ isEmpty a = false := by
  simp [nonEmpty, Option.filter_eq_some_iff]

/-- The predicate for collections says that the collection of an item is one of them. -/
theorem matchesAll_collections_iff :
    matchesAll ((nonEmpty StringSet.isEmpty request.collections).map Predicate.collections).toList
        item = true
      ↔ ∀ names, request.collections = some names → names.toList ≠ [] →
        item.collection ∈ names := by
  cases given : nonEmpty StringSet.isEmpty request.collections with
  | none =>
    refine ⟨fun _ names given' someName => ?_, fun _ => rfl⟩
    have there : nonEmpty StringSet.isEmpty request.collections = some names :=
      nonEmpty_eq_some_iff.2 ⟨given', List.isEmpty_eq_false_iff.2 someName⟩
    rw [given] at there
    cases there
  | some names =>
    obtain ⟨there, someName⟩ := nonEmpty_eq_some_iff.1 given
    simp only [Option.map_some, Option.toList_some, matchesAll, List.all_cons, List.all_nil,
      Predicate.matchesItem, Bool.and_true, decide_eq_true_eq, there, Option.some.injEq,
      forall_eq']
    exact ⟨fun mem _ => mem, fun mem => mem (List.isEmpty_eq_false_iff.1 someName)⟩

/-- A request names items if its list of identifiers is there and not empty. -/
theorem namesItems_iff :
    request.NamesItems ↔ ∃ ids, nonEmpty List.isEmpty request.ids = some ids := by
  simp only [NamesItems, nonEmpty_eq_some_iff, List.isEmpty_eq_false_iff]

/-- The filters of a request that does not name items are compiled from its parts. -/
theorem requestFilters_of_unnamed (unnamed : ¬ request.NamesItems) :
    requestFilters registry request = compileFilters registry request := by
  have noIds : nonEmpty List.isEmpty request.ids = none :=
    Option.eq_none_iff_forall_ne_some.2 fun ids given => unnamed (namesItems_iff.2 ⟨ids, given⟩)
  rw [requestFilters, noIds]

/-- The predicates for the filters of a request say that an item passes them. -/
theorem matchesAll_filters_iff (placed : registry.WellPlaced) {filters : Filters}
    (h : requestFilters registry request = .ok filters) :
    matchesAll filters.predicates item = true
      ↔ (∀ ids, request.ids = some ids → ids ≠ [] → item.id ∈ ids)
        ∧ (¬ request.NamesItems →
          request.InPlace item ∧ request.InTime item ∧ request.InQuery registry item) := by
  by_cases names : request.NamesItems
  · obtain ⟨ids, given⟩ := namesItems_iff.1 names
    obtain ⟨there, someId⟩ := nonEmpty_eq_some_iff.1 given
    rw [requestFilters, given] at h
    cases h
    have only : matchesAll [.ids ids] item = true ↔ item.id ∈ ids := by
      simp [matchesAll, Predicate.matchesItem]
    rw [only]
    constructor
    · intro mem
      refine ⟨fun ids' there' _ => ?_, fun unnamed => absurd names unnamed⟩
      cases there.symm.trans there'
      exact mem
    · rintro ⟨named, _⟩
      exact named ids there (List.isEmpty_eq_false_iff.1 someId)
  · rw [requestFilters_of_unnamed names] at h
    obtain ⟨spatial, datetime, query, order, hspatial, hdatetime, hquery, _, rfl⟩ :=
      exists_of_compileFilters h
    rw [matchesAll_append_iff, matchesAll_compare_iff, List.forall_mem_append,
      matchesAll_spatial_iff hspatial, matchesAll_datetime_iff hdatetime,
      matchesAll_query_iff placed hquery]
    constructor
    · intro all
      exact ⟨fun ids there someId => absurd ⟨ids, there, someId⟩ names, fun _ => all⟩
    · rintro ⟨_, all⟩
      exact all names

/-- The predicates of a plan say that its request wants an item. -/
theorem matchesAll_plan_iff (placed : registry.WellPlaced)
    (accepted : planSearch registry settings request = .ok plan) :
    matchesAll plan.predicates item = true ↔ request.Wants registry item := by
  obtain ⟨filters, hfilters, made⟩ := exists_filters_of_planSearch accepted
  rw [made.predicates, matchesAll_append_iff, matchesAll_collections_iff,
    matchesAll_filters_iff placed hfilters]
  constructor
  · rintro ⟨collection, named, others⟩
    exact ⟨collection, named, fun h => (others h).1, fun h => (others h).2.1,
      fun h => (others h).2.2⟩
  · rintro ⟨collection, named, place, time, query⟩
    exact ⟨collection, named, fun h => ⟨place h, time h, query h⟩⟩

/--
With the fields of a configuration an item satisfies all predicates of the plan for a request
exactly if the request wants it: by the collection, by the identifier if it names items, and
otherwise by place, instant and fields.
-/
theorem matchesAll_iff_wants {config : Config} (configured : config.registry = .ok registry)
    (accepted : planSearch registry settings request = .ok plan) (item : Item) :
    matchesAll plan.predicates item = true ↔ request.Wants registry item :=
  matchesAll_plan_iff (Config.registry_wellPlaced configured) accepted

end SearchRequest

/-! ## A request with several filters -/

namespace Sample

/-- Settings with everything switched on. -/
def openSettings : Settings :=
  { title := "", description := "", baseUrl := "http://localhost"
    defaultLimit := 2, maxLimit := 2, defaultIncludes := .empty, capabilities := .all }

/-- The number one. -/
def one : Binary64 := ⟨false, 0x3FF0000000000000, by decide⟩

/-- The number two. -/
def two : Binary64 := ⟨false, 0x4000000000000000, by decide⟩

/-- A request for a place, a time and a range of a field, which is named by its path. -/
def rangeRequest : SearchRequest :=
  { SearchRequest.all with
    bbox := some [.finite .zero, .finite .zero, .finite two, .finite two]
    datetime := some "2016-12-31T23:59:60Z/.."
    query := some (.ofList [("properties.width", .ofList [("ge", .int 3), ("lt", .int 5)])]) }

/-- An item on the edge of the box, in a leap second, at the lesser end of the range. -/
def edgeItem : Item :=
  { Item.blank with
    id := "e"
    geometry := .simple (.point ⟨.zero, one, []⟩) none []
    properties := [("datetime", .str "2017-01-01T00:59:60.5+01:00"), ("width", .int 3)] }

/-- The plan for the request is satisfied by the item, which the request wants. -/
theorem wants_edgeItem :
    (∃ plan, planSearch .builtin openSettings rangeRequest = .ok plan
        ∧ matchesAll plan.predicates edgeItem = true)
      ∧ rangeRequest.Wants .builtin edgeItem := by
  have found : (planSearch .builtin openSettings rangeRequest).toOption.any
      (matchesAll ·.predicates edgeItem) = true := by decide +kernel
  have configured : Config.unset.registry = .ok .builtin := rfl
  obtain ⟨plan, accepted, satisfied⟩ := exists_of_toOption_any found
  exact ⟨⟨plan, accepted, satisfied⟩,
    (SearchRequest.matchesAll_iff_wants configured accepted edgeItem).1 satisfied⟩

end Sample

end CatalogSearch
