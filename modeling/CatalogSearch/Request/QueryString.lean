import CatalogSearch.Request

/-!
# Search requests in query strings

A request as it is written in a query string: every part is a text, which is kept so that links can
repeat it. Lists are separated by commas; their entries are trimmed and empty ones do not count.
-/

namespace CatalogSearch

/-- The parameters of a search in a query string. -/
structure SearchParams where
  collections : Option String
  ids : Option String
  bbox : Option String
  intersects : Option String
  datetime : Option String
  limit : Option String
  query : Option String
  sortby : Option String
  fields : Option String
  token : Option String
deriving DecidableEq

namespace SearchParams

/-- No parameters. -/
def none : SearchParams :=
  ⟨.none, .none, .none, .none, .none, .none, .none, .none, .none, .none⟩

instance : Inhabited SearchParams := ⟨none⟩

/-- The parameters that are there, always in the same order. -/
def entries (p : SearchParams) : List (String × String) :=
  [("collections", p.collections), ("ids", p.ids), ("bbox", p.bbox), ("intersects", p.intersects),
    ("datetime", p.datetime), ("limit", p.limit), ("query", p.query), ("sortby", p.sortby),
    ("fields", p.fields), ("token", p.token)].filterMap fun (name, value) => value.map (name, ·)

/-- How the parameters are written as an object. -/
def jsonShape : Json.Shape SearchParams where
  start := none
  members :=
    [ .allow "collections" (.nullable .string) fun v p => { p with collections := v },
      .allow "ids" (.nullable .string) fun v p => { p with ids := v },
      .allow "bbox" (.nullable .string) fun v p => { p with bbox := v },
      .allow "intersects" (.nullable .string) fun v p => { p with intersects := v },
      .allow "datetime" (.nullable .string) fun v p => { p with datetime := v },
      .allow "limit" (.nullable .string) fun v p => { p with limit := v },
      .allow "query" (.nullable .string) fun v p => { p with query := v },
      .allow "sortby" (.nullable .string) fun v p => { p with sortby := v },
      .allow "fields" (.nullable .string) fun v p => { p with fields := v },
      .allow "token" (.nullable .string) fun v p => { p with token := v } ]
  foreign := .ignored

/-- The names of the parameters. -/
def names : List String :=
  jsonShape.members.map (·.name)

end SearchParams

/-! ## Fields in parameters -/

/-- A field with the sign in front of it taken off, and whether that is a minus sign. -/
def signedField (parameter entry : String) : Except SearchError (Bool × String) :=
  let (negative, name) := match Text.splitSign entry.toList with
    | (negative, cs) => (negative, String.ofList cs)
  if name = "" then .error (.invalidParameter (.noField parameter entry)) else .ok (negative, name)

/-- The sort order that a list says; a minus sign makes a key descend. -/
def sortbyOfText (s : String) : Except SearchError (List SortBy) :=
  (Text.listItems s).mapM fun entry => do
    let (negative, name) ← signedField "sortby" entry
    return ⟨name, if negative then .descending else .ascending⟩

/-- Puts a signed field where it belongs; a minus sign leaves it out. -/
def FieldsRequest.add (fields : FieldsRequest) (negative : Bool) (name : String) : FieldsRequest :=
  if negative then { fields with excluded := fields.excluded.insert name }
  else { fields with included := fields.included.insert name }

/-- The fields that a list says. -/
def fieldsOfText (s : String) : Except SearchError FieldsRequest :=
  (Text.listItems s).foldlM (fun fields entry => do
    let (negative, name) ← signedField "fields" entry
    return fields.add negative name) .none

/-! ## Requests -/

/-- Takes a parameter apart, if it is there. -/
def parameter {α : Type} (fault : String → ParameterFault) (read : String → Option α) :
    Option String → Except SearchError (Option α)
  | none => .ok none
  | some raw =>
    match read raw with
    | some value => .ok (some value)
    | none => .error (.invalidParameter (fault raw))

namespace SearchParams

/-- The request that the parameters say. -/
def toRequest (p : SearchParams) : Except SearchError SearchRequest := do
  let list := fun (raw : Option String) => (raw.map Text.listItems).filter (!·.isEmpty)
  let json := fun {α : Type} (d : Json.Decoder α) (raw : String) => (d.text raw).toOption
  let numbers := fun raw => (Text.listItems raw).mapM ExtendedNumber.ofText?
  let bbox ← parameter (fun _ => .bbox) numbers p.bbox
  let intersects ← parameter (fun _ => .intersects) (json (Geometry.decoder 0)) p.intersects
  let limit ← parameter .limit (fun raw => Text.naturalOfText? (Text.trim raw)) p.limit
  let query ← parameter (fun _ => .query) (json (QueryFilter.decoder 0)) p.query
  let sortby ← p.sortby.mapM sortbyOfText
  let fields ← p.fields.mapM fieldsOfText
  return { collections := (list p.collections).map .ofList, ids := list p.ids, bbox, intersects,
           datetime := p.datetime, query, sortby, limit, token := p.token, fields }

end SearchParams

end CatalogSearch
