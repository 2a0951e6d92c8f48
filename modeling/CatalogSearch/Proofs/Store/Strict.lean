import CatalogSearch.Proofs.Paging.Typed
import CatalogSearch.Service
import CatalogSearch.Store.Memory

/-!
# Comparing within one type

The comparison of values ranks their types where these differ, but no search comes to that. A strict
store does the same as a store in memory with a comparison that fails on values of different types.
It skips nothing: every predicate of a scan is tested on every item, every key is looked at, and any
two rows are compared, whichever ones a sort by comparison would ask for. Still it never fails, so a
service over it gives the very same answers.

* `Strict.order?_eq` : the strict comparison of values of one type;
* `Strict.scan?_eq`, `Strict.count?_eq` : strict scans and counts for typed plans;
* `SearchService.decode_fits_and_strict` : every request is answered by a strict store.
-/

namespace CatalogSearch

namespace Strict

/-! ## Values -/

/-- The order of two values of one type. Values of different types have none. -/
def order? : FieldValue → FieldValue → Option Ordering
  | .string a, .string b => some (compare a b)
  | .integer a, .integer b => some (compare a b)
  | .float a, .float b => some (a.totalOrder b)
  | .timestamp a, .timestamp b => some (compare a.rank b.rank)
  | _, _ => none

/-- The order of two values that may be missing, missing ones last. -/
def missingLast? : Option FieldValue → Option FieldValue → Option Ordering
  | some a, some b => order? a b
  | some _, none => some .lt
  | none, some _ => some .gt
  | none, none => some .eq

/-- The order of the values of one key. -/
def compareKey? (direction : SortDirection) (a b : Option FieldValue) : Option Ordering :=
  match direction with
  | .ascending => missingLast? a b
  | .descending => (missingLast? a b).map .swap

/-- The order of two rows of values, all keys of which are compared. -/
def compareRows? :
    List SortKey → List (Option FieldValue) → List (Option FieldValue) → Option Ordering
  | key :: keys, a :: as, b :: bs => do
    let first ← compareKey? key.direction a b
    let others ← compareRows? keys as bs
    return first.then others
  | _, _, _ => some .eq

variable {field : Field} {direction : SortDirection}

/-- Values of one type are compared as they are in general, and values of different ones not. -/
theorem order?_eq (a b : FieldValue) :
    order? a b = if a.type = b.type then some (a.order b) else none := by
  cases a <;> cases b <;> rfl

/-- Values that fit one field are compared as they are in general. -/
theorem missingLast?_eq {a b : Option FieldValue} (ha : field.Fits a) (hb : field.Fits b) :
    missingLast? a b = some (missingLast a b) := by
  cases a with
  | none => cases b <;> rfl
  | some a =>
    cases b with
    | none => rfl
    | some b =>
      have same : a.type = b.type := (ha a rfl).trans (hb b rfl).symm
      rw [missingLast?, order?_eq, if_pos same, missingLast]

/-- Values that fit one field are compared in either direction as they are in general. -/
theorem compareKey?_eq {a b : Option FieldValue} (ha : field.Fits a) (hb : field.Fits b) :
    compareKey? direction a b = some (compareKey direction a b) := by
  cases direction with
  | ascending => exact missingLast?_eq ha hb
  | descending =>
    rw [compareKey?, missingLast?_eq ha hb]
    rfl

/-- Rows that fit an order are compared as they are in general. -/
theorem compareRows?_eq {keys : List SortKey} {as bs : List (Option FieldValue)}
    (ha : SortOrder.Fits ⟨keys⟩ as) (hb : SortOrder.Fits ⟨keys⟩ bs) :
    compareRows? keys as bs = some (compareRows keys as bs) := by
  induction keys generalizing as bs with
  | nil => rfl
  | cons key keys ih =>
    cases ha with
    | cons a ha =>
      cases hb with
      | cons b hb =>
        rw [compareRows?, compareKey?_eq a b, ih ha hb]
        rfl

/-! ## Items -/

/-- The order of two items. -/
def compare? (order : SortOrder) (a b : Item) : Option Ordering :=
  compareRows? order.keys (order.keyValues a) (order.keyValues b)

/-- Whether an item comes after the boundary. -/
def admits? (seek : Seek) (item : Item) : Option Bool :=
  (compareRows? seek.order.keys (seek.order.keyValues item) seek.boundary).map (·.isGT)

/-- Whether an item satisfies a condition. -/
def satisfies? (item : Item) : Predicate → Option Bool
  | .compare comparison =>
    match item.value? comparison.field with
    | some value => (order? value comparison.value).map comparison.operator.holds
    | none => some false
  | .intersects shape => some (item.shape.meets shape)
  | .collections names => some (item.collection ∈ names)
  | .ids names => some (names.contains item.id)

/-- Whether an item satisfies all of a list of conditions, each of which is tested. -/
def satisfiesAll? (predicates : List Predicate) (item : Item) : Option Bool :=
  (predicates.mapM (satisfies? item)).map (·.all id)

/-- Whether an item is a row of a scan. All conditions and the position are tested. -/
def isRow? (request : ScanRequest) (item : Item) : Option Bool := do
  let satisfied ← satisfiesAll? request.predicates item
  let behind ← request.seek.elim (some true) (admits? · item)
  return satisfied && behind

variable {order : SortOrder} {predicates : List Predicate}

/-- Items are compared in an order of well placed fields as they are in general. -/
theorem compare?_eq (placed : ∀ key ∈ order.keys, key.field.WellPlaced) (a b : Item) :
    compare? order a b = some (order.compare a b) :=
  compareRows?_eq (SortOrder.fits_keyValues placed a) (SortOrder.fits_keyValues placed b)

/-- Items are compared with a boundary that fits the order as they are in general. -/
theorem admits?_eq {seek : Seek} (placed : ∀ key ∈ seek.order.keys, key.field.WellPlaced)
    (fits : seek.order.Fits seek.boundary) (item : Item) :
    admits? seek item = some (seek.admits item) := by
  rw [admits?, compareRows?_eq (SortOrder.fits_keyValues placed item) fits]
  rfl

/-- A condition is tested as it is in general if its comparison, if any, is typed. -/
theorem satisfies?_eq {predicate : Predicate}
    (typed : ∀ comparison, predicate = .compare comparison → comparison.Typed) (item : Item) :
    satisfies? item predicate = some (predicate.matchesItem item) := by
  cases predicate with
  | compare comparison =>
    rw [satisfies?, Predicate.matchesItem, Comparison.matchesItem]
    obtain ⟨placed, operand⟩ := typed comparison rfl
    cases has : item.value? comparison.field with
    | none => rfl
    | some value =>
      have same : value.type = comparison.value.type :=
        (placed.fits item value has).trans operand.symm
      show (order? value comparison.value).map comparison.operator.holds = _
      rw [order?_eq, if_pos same]
      rfl
  | intersects shape => rfl
  | collections names => rfl
  | ids names => rfl

/-- Conditions are tested as they are in general if their comparisons are typed. -/
theorem satisfiesAll?_eq (typed : ∀ comparison, .compare comparison ∈ predicates → comparison.Typed)
    (item : Item) : satisfiesAll? predicates item = some (matchesAll predicates item) := by
  have each : ∀ predicate ∈ predicates,
      satisfies? item predicate = some (predicate.matchesItem item) :=
    fun predicate mem => satisfies?_eq (fun comparison same => typed comparison (same ▸ mem)) item
  rw [satisfiesAll?, mapM_eq_some_map each, Option.map_some, List.all_map]
  rfl

/-! ## Stores -/

/-- The items that pass a test, which is made for each of them. -/
def keep? (test? : Item → Option Bool) : List Item → Option (List Item)
  | [] => some []
  | item :: items => do
    let kept ← test? item
    let others ← keep? test? items
    return if kept then item :: others else others

/-- Rows in order, provided that any two of them can be compared. -/
def sort? (order : SortOrder) (rows : List Item) : Option (List Item) :=
  if ∀ a ∈ rows, ∀ b ∈ rows, (compare? order a b).isSome then
    some (rows.mergeSort fun a b => (compare? order a b).any (·.isLE))
  else none

/-- The first rows that a request admits, in its order. -/
def scan? (memory : MemoryStore) (request : ScanRequest) : Option (List Item) := do
  let rows ← keep? (isRow? request) memory.items.values
  let sorted ← sort? request.order rows
  return sorted.take request.limit

/-- How many items satisfy all predicates. -/
def count? (memory : MemoryStore) (predicates : List Predicate) : Option Nat :=
  (keep? (satisfiesAll? predicates) memory.items.values).map (·.length)

/-- The operations of a store in memory, of which scans and counts fail on a mixed comparison. -/
def store (memory : MemoryStore) : Store Option where
  scan request := (scan? memory request).map .ok
  count predicates := (count? memory predicates).map .ok
  get id := some (.ok (memory.get? id))
  collections := some (.ok memory.collections)
  getCollection id := some (.ok (memory.getCollection? id))

/-- Items are kept as they are in general if each of them can be tested. -/
theorem keep?_eq {test? : Item → Option Bool} {test : Item → Bool} {items : List Item}
    (each : ∀ item ∈ items, test? item = some (test item)) :
    keep? test? items = some (items.filter test) := by
  induction items with
  | nil => rfl
  | cons item items ih =>
    have first := each item List.mem_cons_self
    have others := ih fun row hrow => each row (List.mem_cons_of_mem _ hrow)
    rw [keep?, first, others, List.filter_cons]
    rfl

/-- Rows are sorted by an order of well placed fields as they are in general. -/
theorem sort?_eq (placed : ∀ key ∈ order.keys, key.field.WellPlaced) (rows : List Item) :
    sort? order rows = some (rows.mergeSort fun a b => (order.compare a b).isLE) := by
  have defined : ∀ a ∈ rows, ∀ b ∈ rows, (compare? order a b).isSome := by
    intro a _ b _
    rw [compare?_eq placed]
    rfl
  rw [sort?, if_pos defined]
  simp only [compare?_eq placed, Option.any_some]

variable {plan : SearchPlan}

/-- The order that a typed plan is scanned in has well placed fields. -/
theorem placed_scanRequest (typed : plan.Typed) :
    ∀ key ∈ plan.scanRequest.order.keys, key.field.WellPlaced := by
  rw [SearchPlan.scanRequest]
  cases plan.cursor with
  | none => exact typed.placed
  | some cursor =>
    show ∀ key ∈ (cursor.scanOrder plan.order).keys, key.field.WellPlaced
    rw [Cursor.scanOrder]
    cases cursor.direction with
    | forward => exact typed.placed
    | backward => exact SortOrder.forall_field_reversed typed.placed

/-- The position that a typed plan goes on from fits the order that the plan is scanned in. -/
theorem fits_scanRequest (typed : plan.Typed) {seek : Seek}
    (there : plan.scanRequest.seek = some seek) :
    seek.order = plan.scanRequest.order ∧ seek.order.Fits seek.boundary := by
  rw [SearchPlan.scanRequest] at there ⊢
  obtain ⟨cursor, position, rfl⟩ := Option.map_eq_some_iff.1 there
  have fits := typed.cursor cursor position
  refine ⟨by rw [position]; rfl, ?_⟩
  show (cursor.scanOrder plan.order).Fits cursor.values
  rw [Cursor.scanOrder]
  cases cursor.direction with
  | forward => exact fits
  | backward => exact fits.reversed

/-- Whether an item is a row for a typed plan is tested as it is in general. -/
theorem isRow?_eq (typed : plan.Typed) (item : Item) :
    isRow? plan.scanRequest item = some (plan.scanRequest.admits item) := by
  have placed := placed_scanRequest typed
  have behind : plan.scanRequest.seek.elim (some true) (admits? · item)
      = some (plan.scanRequest.seek.all (·.admits item)) := by
    cases position : plan.scanRequest.seek with
    | none => rfl
    | some seek =>
      obtain ⟨same, fits⟩ := fits_scanRequest typed position
      exact admits?_eq (same ▸ placed) fits item
  have satisfied : satisfiesAll? plan.scanRequest.predicates item
      = some (matchesAll plan.scanRequest.predicates item) :=
    satisfiesAll?_eq typed.predicates item
  rw [isRow?, satisfied, behind]
  rfl

/-- The strict scan for a typed plan is the scan. -/
theorem scan?_eq (typed : plan.Typed) (memory : MemoryStore) :
    scan? memory plan.scanRequest = some (memory.scan plan.scanRequest) := by
  have rows : keep? (isRow? plan.scanRequest) memory.items.values
      = some (memory.items.values.filter plan.scanRequest.admits) :=
    keep?_eq fun item _ => isRow?_eq typed item
  rw [scan?, rows]
  show sort? plan.scanRequest.order _ >>= _ = _
  rw [sort?_eq (placed_scanRequest typed)]
  rfl

/-- The strict count for a typed plan is the count. -/
theorem count?_eq (typed : plan.Typed) (memory : MemoryStore) :
    count? memory plan.predicates = some (memory.count plan.predicates) := by
  rw [count?, keep?_eq fun item _ => satisfiesAll?_eq typed.predicates item]
  rfl

end Strict

namespace SearchService

/-- A typed plan, or the failure of a plan, is answered by a strict store. -/
theorem run_strict {service : SearchService} {plan : Except SearchError SearchPlan}
    (typed : ∀ p, plan = .ok p → p.Typed) (memory : MemoryStore)
    (link : LinkRel → String → Link) :
    service.run (Strict.store memory) plan link
      = some (service.run memory.toStore plan link).run := by
  cases plan with
  | error e => rfl
  | ok plan =>
    have scanned : (Strict.store memory).scan plan.scanRequest
        = some (memory.toStore.scan plan.scanRequest) := by
      show (Strict.scan? memory plan.scanRequest).map Except.ok = _
      rw [Strict.scan?_eq (typed plan rfl)]
      rfl
    have counted : (Strict.store memory).count plan.predicates
        = some (memory.toStore.count plan.predicates) := by
      show (Strict.count? memory plan.predicates).map Except.ok = _
      rw [Strict.count?_eq (typed plan rfl)]
      rfl
    have context (returned : Nat) : service.countMatches (Strict.store memory) plan returned
        = some (service.countMatches memory.toStore plan returned).run := by
      rw [countMatches, countMatches, counted]
      split <;> rfl
    rw [run, scanned]
    show ((service.countMatches (Strict.store memory) plan _).bind fun context => some _) = _
    rw [context]
    rfl

/--
Whatever a token says, it says a position of the right types or is refused as a token. Every request
is answered by a strict store just as by the store itself.
-/
theorem decode_fits_and_strict {config : Config} {service : SearchService}
    (configured : config.registry = .ok service.registry) :
    (∀ raw order,
        (∃ cursor, Cursor.decode raw order = .ok cursor ∧ order.Fits cursor.values)
          ∨ ∃ fault, Cursor.decode raw order = .error (.invalidToken fault))
      ∧ ∀ memory : MemoryStore,
        (∀ request, service.search (Strict.store memory) request
            = some (service.search memory.toStore request).run)
          ∧ (∀ params, service.getSearch (Strict.store memory) params
            = some (service.getSearch memory.toStore params).run)
          ∧ ∀ collection limit token,
            service.itemCollection (Strict.store memory) collection limit token
              = some (service.itemCollection memory.toStore collection limit token).run := by
  have placed := Config.registry_wellPlaced configured
  refine ⟨Cursor.decode_fits_or_invalidToken, fun memory => ⟨fun request => ?_, fun params => ?_,
    fun collection limit token => ?_⟩⟩
  · exact run_strict (fun _ accepted => SearchPlan.typed_of_planSearch placed accepted) memory _
  · refine run_strict (fun plan accepted => ?_) memory _
    obtain ⟨request, _, accepted⟩ := exists_of_bind_eq_ok accepted
    exact SearchPlan.typed_of_planSearch placed accepted
  · exact run_strict (fun _ accepted => SearchPlan.typed_of_planItems accepted) memory _

end SearchService

/-! ## Values of different types under one key -/

namespace Sample

/-- A configuration with a field of whole numbers. -/
def tierConfig : Config :=
  { Config.unset with queryables := [⟨"tier", none, .integer⟩] }

/-- A service for that configuration. -/
def tierService : SearchService where
  registry := tierConfig.registry.toOption.getD .builtin
  settings := openSettings

/-- An item with some JSON under that field. -/
def tiered (id : String) (tier : Json) : Item :=
  { Item.blank with id, properties := [("tier", tier)] }

/-- Items of which one has a text for a number. -/
def tieredItems : MemoryStore :=
  .ofItems [tiered "a" (.int 2), tiered "b" (.str "2"), tiered "c" (.int 3)]

/-- The order by that field. -/
def byTier : SortOrder :=
  ⟨[⟨.property "tier" .integer, .descending⟩, SortOrder.idKey]⟩

/-- A request for the highest numbers first. -/
def tierRequest : SearchRequest :=
  { SearchRequest.all with
    query := some (.ofList [("tier", .ofList [("ge", .int 2)])])
    sortby := some [⟨"tier", .descending⟩] }

/-- A token with a text for a number. -/
def forgedToken : String :=
  Token.encode ⟨.forward, byTier.fingerprint, [.str "2", .str "b"]⟩

/-- A text for a number does no harm in an item and is refused in a token. -/
theorem strict_of_tieredItems :
    Strict.order? (.string "2") (.integer 2) = none
      ∧ (∃ fault, Cursor.decode forgedToken byTier = .error (.invalidToken fault))
      ∧ ∃ response, tierService.search (Strict.store tieredItems) tierRequest = some (.ok response)
        ∧ response.context.bind (·.matched) = some 2 := by
  have configured : tierConfig.registry = .ok tierService.registry := rfl
  obtain ⟨tokens, strict⟩ := SearchService.decode_fits_and_strict configured
  obtain ⟨search, _, _⟩ := strict tieredItems
  refine ⟨rfl, (tokens forgedToken byTier).resolve_left ?_, ?_⟩
  · rintro ⟨cursor, read, _⟩
    have refused : (Cursor.decode forgedToken byTier).toOption.isNone = true := by decide +kernel
    rw [read] at refused
    cases refused
  · have found : (tierService.search tieredItems.toStore tierRequest).run.toOption.any
        (·.context.bind (·.matched) = some 2) = true := by decide +kernel
    obtain ⟨response, answered, matched⟩ := exists_of_toOption_any found
    exact ⟨response, (search tierRequest).trans (congrArg some answered),
      of_decide_eq_true matched⟩

end Sample

end CatalogSearch
