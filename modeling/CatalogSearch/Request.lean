import CatalogSearch.Projection
import CatalogSearch.Query.Filter
import CatalogSearch.Query.Spatial
import CatalogSearch.Sort

/-!
# Search requests

A request as it is posted in a JSON body. Every part is optional.
-/

namespace CatalogSearch

/-- A search request. -/
structure SearchRequest where
  /-- The collections to search, all of them if absent. -/
  collections : Option StringSet
  /-- The records to return. If there are any, no other filter but the collections counts. -/
  ids : Option (List String)
  /-- Least and greatest coordinates: x, y, x, y. -/
  bbox : Option (List ExtendedNumber)
  intersects : Option Geometry
  datetime : Option String
  query : Option QueryFilter
  sortby : Option (List SortBy)
  limit : Option Nat
  token : Option String
  fields : Option FieldsRequest

namespace SearchRequest

/-- The request that asks for nothing in particular. -/
def all : SearchRequest :=
  ⟨none, none, none, none, none, none, none, none, none, none⟩

instance : Inhabited SearchRequest := ⟨all⟩

end SearchRequest

/-! ## Reading -/

/-- How an entry of a sort order is written. -/
def SortBy.jsonShape : Json.Shape SortBy where
  start := ⟨"", .ascending⟩
  members :=
    [ .need "field" .string fun v entry => { entry with field := v },
      .need "direction" (.word SortDirection.byName) fun v entry => { entry with direction := v } ]
  foreign := .ignored

/-- How the fields to return are written. -/
def FieldsRequest.jsonShape : Json.Shape FieldsRequest where
  start := .none
  members :=
    [ .allow "include" .stringSet fun v fields => { fields with included := v },
      .allow "exclude" .stringSet fun v fields => { fields with excluded := v } ]
  foreign := .ignored

/-- A property filter below `enclosing` levels of nesting. -/
def QueryFilter.decoder (enclosing : Nat) : Json.Decoder QueryFilter :=
  .map (.map (.value (enclosing + 2)))

/-- A bound of a requested box. -/
def boundDecoder : Json.Decoder ExtendedNumber :=
  fun r => (Json.Decoder.binary64 r).map .finite

namespace SearchRequest

/-- How a request is written. -/
def jsonShape : Json.Shape SearchRequest where
  start := all
  members :=
    [ .allow "collections" (.nullable .stringSet) fun v r => { r with collections := v },
      .allow "ids" (.nullable (.list .string)) fun v r => { r with ids := v },
      .allow "bbox" (.nullable (.list boundDecoder)) fun v r => { r with bbox := v },
      .allow "intersects" (.nullable (Geometry.decoder 1)) fun v r => { r with intersects := v },
      .allow "datetime" (.nullable .string) fun v r => { r with datetime := v },
      .allow "query" (.nullable (QueryFilter.decoder 1)) fun v r => { r with query := v },
      .allow "sortby" (.nullable (.list SortBy.jsonShape.decode)) fun v r => { r with sortby := v },
      .allow "limit" (.nullable .natural) fun v r => { r with limit := v },
      .allow "token" (.nullable .string) fun v r => { r with token := v },
      .allow "fields" (.nullable FieldsRequest.jsonShape.decode) fun v r => { r with fields := v } ]
  foreign := .ignored

/-- A request. -/
def decoder : Json.Decoder SearchRequest :=
  jsonShape.decode

end SearchRequest

/-! ## Writing -/

/-- An entry of a sort order as an object. -/
def SortBy.toJson (entry : SortBy) : Json :=
  .object [("field", .str entry.field), ("direction", .str entry.direction.name)]

/-- The fields to return as an object. -/
def FieldsRequest.toJson (fields : FieldsRequest) : Json :=
  .object
    [ ("include", .strings fields.included.toList),
      ("exclude", .strings fields.excluded.toList) ]

/-- A property filter as an object. -/
def QueryFilter.toJson (query : QueryFilter) : Json :=
  .obj (query.entries.map fun (name, operands) => (name, .obj operands.entries))

/-- A bound as JSON, which has no word for the ones that are not finite. -/
def boundJson : ExtendedNumber → Json
  | .finite x => .float x
  | _ => .null

namespace SearchRequest

/-- The members of a request in the order in which they are declared. -/
def members (r : SearchRequest) : List (String × Json) :=
  [ ("collections", .orNull (fun ids : StringSet => .strings ids.toList) r.collections),
    ("ids", .orNull .strings r.ids),
    ("bbox", .orNull (fun bounds => .arr (bounds.map boundJson)) r.bbox),
    ("intersects", .orNull Geometry.toJson r.intersects),
    ("datetime", .orNull .str r.datetime),
    ("query", .orNull QueryFilter.toJson r.query),
    ("sortby", .orNull (fun entries => .arr (entries.map SortBy.toJson)) r.sortby),
    ("limit", .orNull (fun n : Nat => .int n) r.limit),
    ("token", .orNull .str r.token),
    ("fields", .orNull FieldsRequest.toJson r.fields) ]

/-- A request as an object, with null for what is absent. -/
def toJson (r : SearchRequest) : Json :=
  .object r.members

end SearchRequest

end CatalogSearch
