import CatalogSearch.Catalog
import CatalogSearch.Http.MediaType
import CatalogSearch.Http.Target

/-!
# The catalog over HTTP

Each route answers with one document of the catalog. Errors of a search become a status and an
object that says what happened; a route or method that there is none for has an empty answer.
-/

namespace CatalogSearch.Http

/-! ## Requests and responses -/

/-- A request. -/
structure Request where
  method : String
  target : Target
  contentType : Option String
  body : String

/-- How a request went. -/
inductive Status where
  | ok
  | badRequest
  | notFound
  | methodNotAllowed
  | internalServerError
  | serviceUnavailable
deriving DecidableEq

namespace Status

/-- The number of a status. -/
def code : Status → Nat
  | ok => 200
  | badRequest => 400
  | notFound => 404
  | methodNotAllowed => 405
  | internalServerError => 500
  | serviceUnavailable => 503

/-- The words for a status. -/
def reason : Status → String
  | ok => "OK"
  | badRequest => "Bad Request"
  | notFound => "Not Found"
  | methodNotAllowed => "Method Not Allowed"
  | internalServerError => "Internal Server Error"
  | serviceUnavailable => "Service Unavailable"

/-- The status for an error of a search. -/
def ofError (e : SearchError) : Status :=
  match e with
  | .itemNotFound _ | .collectionNotFound _ => notFound
  | .storeUnavailable _ => serviceUnavailable
  | .storeExecution _ => internalServerError
  | _ => badRequest

end Status

/-- An answer. The body is there only if it is JSON. -/
structure Response where
  status : Status
  contentType : Option String
  body : Option Json

namespace Response

/-- An answer without content. -/
def bare (status : Status) : Response :=
  ⟨status, none, none⟩

/-- An answer with a JSON document. -/
def json (status : Status) (value : Json) : Response :=
  ⟨status, some jsonType, some value⟩

/-- An answer in words to a request whose path or query string cannot be read. -/
def unreadable : Response :=
  ⟨.badRequest, some "text/plain; charset=utf-8", none⟩

/-- The answer to a search that failed. -/
def ofError (e : SearchError) : Response :=
  let status := Status.ofError e
  json status (.object [("code", .str status.reason), ("description", .str e.message)])

/-- The answer to a search. -/
def ofResult {α : Type} (toJson : α → Json) : Except SearchError α → Response
  | .ok a => json .ok (toJson a)
  | .error e => ofError e

end Response

/-! ## Routes -/

/-- The documents of the catalog; identifiers in a path are still encoded. -/
inductive Route where
  | landing
  | conformance
  | collections
  | collection (id : String)
  | search
  | items (collection : String)
  | item (collection id : String)
deriving DecidableEq

/-- The route of a path. An identifier is not empty. -/
def Route.ofPath? (path : String) : Option Route :=
  match Text.splitOn '/' path with
  | ["", ""] => some .landing
  | ["", "conformance"] => some .conformance
  | ["", "collections"] => some .collections
  | ["", "search"] => some .search
  | ["", "collections", id] => if id = "" then none else some (.collection id)
  | ["", "collections", c, "items"] => if c = "" then none else some (.items c)
  | ["", "collections", c, "items", id] => if c = "" ∨ id = "" then none else some (.item c id)
  | _ => none

/-- The methods of a route. -/
def Route.methods : Route → List String
  | search => ["GET", "HEAD", "POST"]
  | _ => ["GET", "HEAD"]

/-! ## Query strings -/

/-- The value of each name, each of which stands at most once. -/
def uniqueValues? (names : List String) (entries : List (String × String)) :
    Option (List (String × String)) :=
  let known := entries.filter fun entry => names.contains entry.1
  if names.all fun name => (known.filter (·.1 = name)).length ≤ 1 then some known else none

/-- The search parameters of a query string. -/
def searchParams? (query : String) : Option SearchParams := do
  let entries ← uniqueValues? SearchParams.names (Percent.decodeForm query)
  let get := fun name => entries.lookup name
  return { collections := get "collections", ids := get "ids", bbox := get "bbox",
           intersects := get "intersects", datetime := get "datetime", limit := get "limit",
           query := get "query", sortby := get "sortby", fields := get "fields",
           token := get "token" }

/-- The page size and the token in a query string for the items of a collection. -/
def itemsParams? (query : String) : Option (Option Nat × Option String) := do
  let entries ← uniqueValues? ["limit", "token"] (Percent.decodeForm query)
  let limit ← (entries.lookup "limit").mapM Text.naturalOfText?
  return (limit, entries.lookup "token")

/-! ## Answers -/

/-- The request in a body. -/
def bodyRequest (request : Request) : Except SearchError SearchRequest :=
  let refuse := fun fault => SearchError.invalidParameter (.body fault)
  if (request.contentType.any isJsonType) then
    (SearchRequest.decoder.text request.body).mapError fun fault => refuse (.text fault)
  else .error (refuse .contentType)

variable {m : Type → Type} [Monad m]

/-- Answers a search in a body. -/
def postSearch (service : SearchService) (store : Store m) (request : Request) : m Response := do
  match bodyRequest request with
  | .error e => return .ofError e
  | .ok search => return .ofResult (·.toJson) (← service.search store search)

/-- Answers a request for a record, which has to belong to the collection in the path. -/
def getItem (store : Store m) (collection id : String) : m Response := do
  match ← SearchService.getItem store id with
  | .error e => return .ofError e
  | .ok item =>
    if item.collection = collection then return .json .ok item.toJson
    else return .ofError (.itemNotFound id)

/-- Answers a request for a document. -/
def get (service : SearchService) (store : Store m) (query : String) : Route → m Response
  | .landing => do return .ofResult (·.toJson) (← service.landingPage store)
  | .conformance => return .json .ok (conformanceJson service.settings.capabilities)
  | .collections => do return .ofResult (·.toJson) (← service.allCollections store)
  | .collection id =>
    match Percent.decodeSegment? id with
    | none => return .unreadable
    | some id => do return .ofResult (·.toJson) (← service.getCollection store id)
  | .search =>
    match searchParams? query with
    | none => return .unreadable
    | some params => do return .ofResult (·.toJson) (← service.getSearch store params)
  | .items collection =>
    match Percent.decodeSegment? collection, itemsParams? query with
    | some collection, some (limit, token) => do
      return .ofResult (·.toJson) (← service.itemCollection store collection limit token)
    | _, _ => return .unreadable
  | .item collection id =>
    match Percent.decodeSegment? collection, Percent.decodeSegment? id with
    | some collection, some id => getItem store collection id
    | _, _ => return .unreadable

/-- Answers a request. -/
def respond (service : SearchService) (store : Store m) (request : Request) : m Response := do
  match Route.ofPath? request.target.path with
  | none => return .bare .notFound
  | some route =>
    if !route.methods.contains request.method then return .bare .methodNotAllowed
    else if request.method = "POST" then postSearch service store request
    else
      let response ← get service store request.target.query route
      return if request.method = "HEAD" then { response with body := none } else response

end CatalogSearch.Http
