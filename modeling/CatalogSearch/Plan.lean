import CatalogSearch.Query.Datetime
import CatalogSearch.Request
import CatalogSearch.Settings
import CatalogSearch.Store

/-!
# Search plans

Everything about a search that is decided before the store is asked: the predicates, the order, the
position to go on from, the size of the page and the fields to return. Whatever is wrong with a
request is found here.
-/

namespace CatalogSearch

/-- A search that is ready to be run. -/
structure SearchPlan where
  predicates : List Predicate
  order : SortOrder
  cursor : Option Cursor
  /-- The size of a page. -/
  limit : Nat
  /-- Without a projection records are returned whole. -/
  projection : Option Projection

namespace SearchPlan

/-- The scan for a plan, which asks for one row more than a page holds, within a 64-bit word. -/
def scanRequest (plan : SearchPlan) : ScanRequest where
  predicates := plan.predicates
  order := plan.cursor.elim plan.order (·.scanOrder plan.order)
  seek := plan.cursor.map (·.seek plan.order)
  limit := Nat.min (plan.limit + 1) maxWord

end SearchPlan

/-! ## Checks -/

/-- The size of a page: what is asked for, or else the default, if it is in range. -/
def checkLimit (settings : Settings) (requested : Option Nat) : Except SearchError Nat :=
  let limit := requested.getD settings.defaultLimit
  if limit = 0 ∨ settings.maxLimit < limit then .error (.limitOutOfRange limit settings.maxLimit)
  else .ok limit

/-- Refuses to use a capability that is switched off. -/
def checkCapability (settings : Settings) (capability : Capability) (used : Bool) :
    Except SearchError Unit :=
  if used && !settings.capabilities.allows capability then .error (.capabilityDisabled capability)
  else .ok ()

/-- The position that a token says, if there is a token. -/
def checkToken (order : SortOrder) : Option String → Except SearchError (Option Cursor)
  | none => .ok none
  | some raw => (Cursor.decode raw order).map some

/-! ## Plans for requests -/

/-- The part of a request that is there and not empty. -/
def nonEmpty {α : Type} (isEmpty : α → Bool) (part : Option α) : Option α :=
  part.filter (!isEmpty ·)

/-- What the filters of a request come down to. -/
structure Filters where
  predicates : List Predicate
  /-- The paths of the fields in the property filter. -/
  paths : StringSet
  order : SortOrder

/-- The comparisons of a datetime filter, if there is one. -/
def datetimeComparisons : Option String → Except SearchError (List Comparison)
  | none => .ok []
  | some raw => (DatetimeFilter.ofText? raw).map (·.comparisons)

/-- The filters of a request that does not name records. -/
def compileFilters (registry : FieldRegistry) (request : SearchRequest) :
    Except SearchError Filters := do
  let spatial ← spatialPredicate? request.bbox request.intersects
  let datetime ← datetimeComparisons request.datetime
  let query ← compileQuery registry (request.query.getD .empty)
  let order ← resolveSort registry (request.sortby.getD [])
  return { predicates := spatial.toList ++ (datetime ++ query).map .compare
           paths := .ofList (query.map (·.field.path))
           order }

/-- The filters of a request. If it names records, nothing else but the collections counts. -/
def requestFilters (registry : FieldRegistry) (request : SearchRequest) :
    Except SearchError Filters :=
  match nonEmpty List.isEmpty request.ids with
  | some ids => .ok { predicates := [.ids ids], paths := .empty, order := .byId }
  | none => compileFilters registry request

/-- The plan for a request. -/
def planSearch (registry : FieldRegistry) (settings : Settings) (request : SearchRequest) :
    Except SearchError SearchPlan := do
  let limit ← checkLimit settings request.limit
  let fields := nonEmpty FieldsRequest.isEmpty request.fields
  checkCapability settings .sort !(request.sortby.getD []).isEmpty
  checkCapability settings .query !(request.query.getD .empty).entries.isEmpty
  checkCapability settings .fields fields.isSome
  let collections := (nonEmpty StringSet.isEmpty request.collections).map Predicate.collections
  let filters ← requestFilters registry request
  let cursor ← checkToken filters.order request.token
  let projection :=
    if settings.capabilities.fields then
      some (Projection.resolve settings.defaultIncludes (fields.getD .none) filters.paths)
    else none
  return { predicates := collections.toList ++ filters.predicates
           order := filters.order
           cursor, limit, projection }

/-- The plan for listing the items of a collection, newest first and whole. -/
def planItems (settings : Settings) (collection : String) (limit : Option Nat)
    (token : Option String) : Except SearchError SearchPlan := do
  let limit ← checkLimit settings limit
  let cursor ← checkToken .newestFirst token
  return { predicates := [.collections (.ofList [collection])]
           order := .newestFirst
           cursor, limit, projection := none }

end CatalogSearch
