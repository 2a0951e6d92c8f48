import CatalogSearch.Proofs.Paging.Cursor
import CatalogSearch.Proofs.Query.Meaning
import Mathlib.Data.List.Forall2

/-!
# Types of values

The values that meet in a comparison come from the properties of items, from the operands of a
filter, from its instants and from tokens. Whoever wrote them, each has the type of the field that
it is compared under.

* `Cursor.decode_fits_or_invalidToken` : a text says a position of the right types or is refused;
* `SearchPlan.typed_of_planSearch`, `SearchPlan.typed_of_planItems` : so do plans.
-/

namespace CatalogSearch

/-! ## Values under keys -/

/-- A value has the type of a field, unless it is missing. -/
def Field.Fits (field : Field) (value : Option FieldValue) : Prop :=
  ∀ v, value = some v → v.type = field.type

/-- The value that an item has of a well placed field fits the field. -/
theorem Field.WellPlaced.fits {field : Field} (placed : field.WellPlaced) (item : Item) :
    field.Fits (item.value? field) := by
  intro v has
  obtain ⟨json, coerced⟩ := placed.exists_ofJson? has
  exact FieldValue.type_of_ofJson? coerced

/-- A row has exactly one value for each key of an order, missing or of the type of its field. -/
def SortOrder.Fits (order : SortOrder) (row : List (Option FieldValue)) : Prop :=
  List.Forall₂ (fun key value => key.field.Fits value) order.keys row

/-- The values by which an item is ordered fit the order. -/
theorem SortOrder.fits_keyValues {order : SortOrder}
    (placed : ∀ key ∈ order.keys, key.field.WellPlaced) (item : Item) :
    order.Fits (order.keyValues item) := by
  rw [Fits, keyValues, List.forall₂_map_right_iff, List.forall₂_same]
  intro key mem
  exact (placed key mem).fits item

/-- What fits an order fits the reversed one. -/
theorem SortOrder.Fits.reversed {order : SortOrder} {row : List (Option FieldValue)}
    (h : order.Fits row) : order.reversed.Fits row := by
  rw [SortOrder.Fits, SortOrder.reversed, List.forall₂_map_left_iff]
  exact h

/-- The keys of the reversed order are of the same fields. -/
theorem SortOrder.forall_field_reversed {order : SortOrder} {P : Field → Prop}
    (h : ∀ key ∈ order.keys, P key.field) : ∀ key ∈ order.reversed.keys, P key.field := by
  intro key mem
  obtain ⟨old, hold, rfl⟩ := List.mem_map.1 mem
  exact h old hold

/-! ## Tokens -/

namespace Cursor

/-- The value that a token has for a key is missing or of the type of its field. -/
theorem fits_of_keyValue? {key : SortKey} {json : Json} {value : Option FieldValue}
    (h : keyValue? key json = .ok value) : key.field.Fits value := by
  rw [keyValue?.eq_def] at h
  split at h
  · cases h
    exact fun v absent => nomatch absent
  · split at h
    · next coerced =>
      cases h
      intro v same
      cases same
      exact FieldValue.type_of_ofJson? coerced
    · cases h

/-- The values that a token has for a list of keys fit them one by one. -/
theorem fits_of_keyValues? {keys : List SortKey} {jsons : List Json}
    {values : List (Option FieldValue)} (same : jsons.length = keys.length)
    (h : keyValues? keys jsons = .ok values) : SortOrder.Fits ⟨keys⟩ values := by
  induction keys generalizing jsons values with
  | nil =>
    cases h
    exact .nil
  | cons key keys ih =>
    cases jsons with
    | nil => cases same
    | cons json jsons =>
      rw [keyValues?] at h
      obtain ⟨value, first, h⟩ := exists_of_bind_eq_ok h
      obtain ⟨others, rest, h⟩ := exists_of_bind_eq_ok h
      cases h
      exact .cons (fits_of_keyValue? first) (ih (Nat.succ.inj same) rest)

/-- The position that a token says fits the order. -/
theorem fits_of_ofToken {token : Token} {order : SortOrder} {cursor : Cursor}
    (h : ofToken token order = .ok cursor) : order.Fits cursor.values := by
  rw [ofToken] at h
  split at h
  · cases h
  · split at h
    · cases h
    · next same =>
      obtain ⟨values, read, rfl⟩ := exists_of_map_eq_ok h
      exact fits_of_keyValues? (not_not.1 same) read

/-- The position that a text says fits the order. -/
theorem fits_of_decode {raw : String} {order : SortOrder} {cursor : Cursor}
    (h : decode raw order = .ok cursor) : order.Fits cursor.values := by
  rw [decode] at h
  cases read : Token.decode raw >>= (ofToken · order) with
  | error fault =>
    rw [read] at h
    cases h
  | ok position =>
    rw [read] at h
    cases h
    obtain ⟨token, _, position⟩ := exists_of_bind_eq_ok read
    exact fits_of_ofToken position

/-- Any text says a position that fits the order, or is refused as a token. -/
theorem decode_fits_or_invalidToken (raw : String) (order : SortOrder) :
    (∃ cursor, decode raw order = .ok cursor ∧ order.Fits cursor.values)
      ∨ ∃ fault, decode raw order = .error (.invalidToken fault) :=
  (decode_eq_ok_or_invalidToken raw order).imp_left fun ⟨cursor, read⟩ =>
    ⟨cursor, read, fits_of_decode read⟩

end Cursor

/-! ## Plans -/

/-- The operand of a comparison has the type of its field, which is well placed. -/
structure Comparison.Typed (comparison : Comparison) : Prop where
  placed : comparison.field.WellPlaced
  type_eq : comparison.value.type = comparison.field.type

/-- All values of a plan fit the fields that they are compared under. -/
structure SearchPlan.Typed (plan : SearchPlan) : Prop where
  predicates : ∀ comparison, .compare comparison ∈ plan.predicates → comparison.Typed
  placed : ∀ key ∈ plan.order.keys, key.field.WellPlaced
  cursor : ∀ cursor, plan.cursor = some cursor → plan.order.Fits cursor.values

/-- The instants of a datetime filter are compared under the temporal field. -/
theorem DatetimeFilter.typed_of_mem_comparisons {filter : DatetimeFilter} {comparison : Comparison}
    (h : comparison ∈ filter.comparisons) : comparison.Typed := by
  have typed : ∀ operator t, (DatetimeFilter.comparison operator t).Typed :=
    fun _ _ => ⟨Field.wellPlaced_property "datetime" .timestamp, rfl⟩
  cases filter with
  | instant t =>
    rw [List.mem_singleton.1 h]
    exact typed .eq t
  | interval start stop =>
    rcases List.mem_append.1 h with h | h
    · obtain ⟨t, _, rfl⟩ := Option.map_eq_some_iff.1 (Option.mem_toList.1 h)
      exact typed .ge t
    · obtain ⟨t, _, rfl⟩ := Option.map_eq_some_iff.1 (Option.mem_toList.1 h)
      exact typed .le t

section Requests

variable {registry : FieldRegistry} {settings : Settings} {request : SearchRequest}
  {plan : SearchPlan}

/-- The comparisons of an optional datetime filter are typed. -/
theorem typed_of_mem_datetimeComparisons {datetime : Option String}
    {comparisons : List Comparison} (h : datetimeComparisons datetime = .ok comparisons)
    {comparison : Comparison} (mem : comparison ∈ comparisons) : comparison.Typed := by
  cases datetime with
  | none =>
    cases h
    cases mem
  | some raw =>
    rw [datetimeComparisons] at h
    obtain ⟨filter, _, rfl⟩ := exists_of_map_eq_ok h
    exact DatetimeFilter.typed_of_mem_comparisons mem

/-- The comparisons of a property filter are typed. -/
theorem typed_of_mem_compileQuery (placed : registry.WellPlaced) {query : QueryFilter}
    {comparisons : List Comparison} (h : compileQuery registry query = .ok comparisons)
    {comparison : Comparison} (mem : comparison ∈ comparisons) : comparison.Typed := by
  obtain ⟨_, _, _, _, _, _, found, _, fits⟩ := exists_entry_of_mem_compileQuery h mem
  exact ⟨placed _ (FieldRegistry.mem_of_resolve? found), FieldValue.type_of_ofJson? fits⟩

/-- The predicate for a box and a geometry, if there is one, restricts the place. -/
theorem exists_of_spatialPredicate? {bbox : Option (List ExtendedNumber)}
    {intersects : Option Geometry} {spatial : Option Predicate}
    (h : spatialPredicate? bbox intersects = .ok spatial) :
    ∃ shape : Option Shape, spatial = shape.map .intersects := by
  rw [spatialPredicate?] at h
  cases found : spatialShape? bbox intersects with
  | error fault =>
    rw [found] at h
    cases h
  | ok shape =>
    rw [found] at h
    cases h
    exact ⟨shape, rfl⟩

/-- The comparisons for the filters of a request are typed. -/
theorem typed_of_mem_requestFilters (placed : registry.WellPlaced) {filters : Filters}
    (h : requestFilters registry request = .ok filters) {comparison : Comparison}
    (mem : .compare comparison ∈ filters.predicates) : comparison.Typed := by
  rw [requestFilters] at h
  split at h
  · cases h
    cases List.mem_singleton.1 mem
  · obtain ⟨spatial, datetime, query, _, hspatial, hdatetime, hquery, _, rfl⟩ :=
      exists_of_compileFilters h
    rcases List.mem_append.1 mem with mem | mem
    · obtain ⟨shape, rfl⟩ := exists_of_spatialPredicate? hspatial
      obtain ⟨_, _, different⟩ := Option.map_eq_some_iff.1 (Option.mem_toList.1 mem)
      cases different
    · obtain ⟨same, hsame, eq⟩ := List.mem_map.1 mem
      cases eq
      rcases List.mem_append.1 hsame with fromDatetime | fromQuery
      · exact typed_of_mem_datetimeComparisons hdatetime fromDatetime
      · exact typed_of_mem_compileQuery placed hquery fromQuery

/-- The position of an accepted token fits the order. -/
theorem fits_of_checkToken {order : SortOrder} {token : Option String} {position : Option Cursor}
    (h : checkToken order token = .ok position) {cursor : Cursor} (there : position = some cursor) :
    order.Fits cursor.values := by
  subst there
  cases token with
  | none => cases h
  | some raw =>
    rw [checkToken] at h
    obtain ⟨read, decoded, same⟩ := exists_of_map_eq_ok h
    cases same
    exact Cursor.fits_of_decode decoded

/-- The plan for a request is typed. -/
theorem SearchPlan.typed_of_planSearch (placed : registry.WellPlaced)
    (accepted : planSearch registry settings request = .ok plan) : plan.Typed := by
  obtain ⟨filters, hfilters, made⟩ := exists_filters_of_planSearch accepted
  refine ⟨fun comparison mem => ?_, ?_, fun cursor position => ?_⟩
  · rw [made.predicates] at mem
    rcases List.mem_append.1 mem with mem | mem
    · obtain ⟨_, _, different⟩ := Option.map_eq_some_iff.1 (Option.mem_toList.1 mem)
      cases different
    · exact typed_of_mem_requestFilters placed hfilters mem
  · exact (resolved_of_planSearch accepted).wellPlaced placed
  · rw [made.order]
    exact fits_of_checkToken made.cursor position

/-- The plan for listing the items of a collection is typed. -/
theorem SearchPlan.typed_of_planItems {collection : String} {limit : Option Nat}
    {token : Option String} (accepted : planItems settings collection limit token = .ok plan) :
    plan.Typed := by
  rw [planItems] at accepted
  obtain ⟨_, _, accepted⟩ := exists_of_bind_eq_ok accepted
  obtain ⟨position, checked, accepted⟩ := exists_of_bind_eq_ok accepted
  cases accepted
  refine ⟨fun comparison mem => ?_, ?_, fun cursor position => fits_of_checkToken checked position⟩
  · cases List.mem_singleton.1 mem
  · exact SortOrder.Resolved.newestFirst.wellPlaced FieldRegistry.builtin_wellPlaced

end Requests

end CatalogSearch
