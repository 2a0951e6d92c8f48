import CatalogSearch.Link
import CatalogSearch.Paging.Page
import CatalogSearch.Plan
import CatalogSearch.Request.QueryString

/-!
# Searching

A search is planned, the store is scanned for one page, the matches are counted if that is switched
on, and the page is written with links to its neighbours. A count that fails costs only the number
of matches.
-/

namespace CatalogSearch

/-! ## Responses -/

/-- Numbers about a page. -/
structure MatchContext where
  returned : Nat
  limit : Nat
  /-- The number of all matches, if they could be counted. -/
  matched : Option Nat

namespace MatchContext

/-- The numbers as an object. -/
def toJson (c : MatchContext) : Json :=
  .obj ([("returned", .int c.returned), ("limit", .int c.limit)]
    ++ match c.matched with
      | some n => [("matched", .int n)]
      | none => [("partial", .bool true)])

end MatchContext

/-- The answer to a search. -/
structure SearchResponse where
  context : Option MatchContext
  features : List Json
  links : List Link
  /-- The box around all features. -/
  bbox : Option Bounds
  nextToken : Option String
  previousToken : Option String

namespace SearchResponse

/-- An answer as an object, its members in the order in which they are written. -/
def toJson (r : SearchResponse) : Json :=
  .obj ([("type", .str "FeatureCollection")]
    ++ Json.optional "context" (r.context.map (·.toJson))
    ++ [("features", .arr r.features), ("links", .arr (r.links.map (·.toJson)))]
    ++ Json.optional "bbox" (r.bbox.map fun b => Geometry.numbers b.toList))

end SearchResponse

/-- The box around the boxes of items. -/
def unionBounds? (items : List Item) : Option Bounds :=
  match items.filterMap (·.bounds?) with
  | [] => none
  | b :: bs => some (bs.foldl Bounds.union b)

/-- A page as an answer; `link` makes the link to a neighbour from its token. -/
def SearchResponse.ofPage (plan : SearchPlan) (page : Page) (context : Option MatchContext)
    (link : LinkRel → String → Link) : SearchResponse where
  context
  features := page.items.map fun item =>
    plan.projection.elim item.toJson (·.apply item.toJson)
  links := (page.next.map (link .next)).toList ++ (page.previous.map (link .previous)).toList
  bbox := unionBounds? page.items
  nextToken := page.next
  previousToken := page.previous

/-! ## The service -/

/-- What searches run with, the store apart. -/
structure SearchService where
  registry : FieldRegistry
  settings : Settings

namespace SearchService

variable {m : Type → Type} [Monad m]

/-- The plan for a request. -/
def plan (service : SearchService) (request : SearchRequest) : Except SearchError SearchPlan :=
  planSearch service.registry service.settings request

/-- The number of matches, if counting is switched on. -/
def countMatches (service : SearchService) (store : Store m) (plan : SearchPlan) (returned : Nat) :
    m (Option MatchContext) := do
  if service.settings.capabilities.context then
    let matched ← store.count plan.predicates
    return some { returned, limit := plan.limit, matched := matched.toOption }
  else
    return none

/-- Runs a plan, or fails as the plan did. -/
def run (service : SearchService) (store : Store m) (plan : Except SearchError SearchPlan)
    (link : LinkRel → String → Link) : m (Except SearchError SearchResponse) := do
  match plan with
  | .error e => return .error e
  | .ok plan =>
    match ← store.scan plan.scanRequest with
    | .error e => return .error (.ofStore e)
    | .ok rows =>
      let page := Page.ofRows rows plan.limit plan.order plan.cursor
      let context ← service.countMatches store plan page.items.length
      return .ok (.ofPage plan page context link)

/-- Answers a request that was posted in a body. -/
def search (service : SearchService) (store : Store m) (request : SearchRequest) :
    m (Except SearchError SearchResponse) :=
  service.run store (service.plan request) fun rel token =>
    .post rel service.settings.baseUrl token

/-- Answers a request in a query string. -/
def getSearch (service : SearchService) (store : Store m) (params : SearchParams) :
    m (Except SearchError SearchResponse) :=
  service.run store (params.toRequest >>= service.plan) fun rel token =>
    .get rel service.settings.baseUrl "search" params.entries token

/-- The items of a collection, newest first and whole. -/
def itemCollection (service : SearchService) (store : Store m) (collection : String)
    (limit : Option Nat) (token : Option String) : m (Except SearchError SearchResponse) :=
  let plan := planItems service.settings collection limit token
  let path := "collections/" ++ Percent.encodeSegment collection ++ "/items"
  service.run store plan fun rel token =>
    let limit := limit.getD service.settings.defaultLimit
    .get rel service.settings.baseUrl path [("limit", toString limit)] token

/-- What a look-up in the store found, or the given error. -/
def found {α : Type} (missing : SearchError) :
    Except StoreError (Option α) → Except SearchError α
  | .error e => .error (.ofStore e)
  | .ok none => .error missing
  | .ok (some a) => .ok a

/-- The item of an identifier. -/
def getItem (store : Store m) (id : String) : m (Except SearchError Item) := do
  return found (.itemNotFound id) (← store.get id)

end SearchService

end CatalogSearch
