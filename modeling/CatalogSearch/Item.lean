import CatalogSearch.Field
import CatalogSearch.Geometry.GeoJson
import CatalogSearch.Text

/-!
# Items

An item is a record of the catalog: a feature with an identifier, the collection it belongs to, a
geometry and an open set of properties.
-/

namespace CatalogSearch

/-- A record of the catalog. -/
structure Item where
  id : String
  kind : String
  version : String
  collection : String
  geometry : Geometry
  bbox : Option (List Binary64)
  /-- In increasing order of name. -/
  properties : List (String × Json)
  links : List Json
  /-- In increasing order of name. -/
  assets : List (String × Json)

namespace Item

/-- An item of which nothing is known. -/
def blank : Item :=
  { id := "", kind := "Feature", version := "1.0.0", collection := "", geometry := default,
    bbox := none, properties := [], links := [], assets := [] }

instance : Inhabited Item := ⟨blank⟩

/-! ## Fields -/

/--
The value of a field: the identifier, the collection, or the property whose name is the rest of the
path. A property that does not fit the type of the field counts as missing.
-/
def value? (item : Item) (field : Field) : Option FieldValue :=
  if field.path = "id" then some (.string item.id)
  else if field.path = "collection" then some (.string item.collection)
  else do
    let name ← Text.after? Field.propertyLead field.path
    FieldValue.ofJson? field.type (← item.properties.lookup name)

/-! ## Extent -/

/-- The shape of the geometry. -/
def shape (item : Item) : Shape :=
  item.geometry.shape

/--
The box around an item: its own bounding box if that has four numbers or six, whose third and last
are heights, and otherwise the box around its shape.
-/
def bounds? (item : Item) : Option Bounds :=
  match item.bbox with
  | some [minX, minY, maxX, maxY] => some ⟨minX, minY, maxX, maxY⟩
  | some [minX, minY, _, maxX, maxY, _] => some ⟨minX, minY, maxX, maxY⟩
  | _ => item.shape.bounds?

/-! ## JSON -/

/-- How an item is written, below `enclosing` levels of nesting. -/
def jsonShape (enclosing : Nat) : Json.Shape Item where
  start := blank
  members :=
    [ .need "id" .string fun v item => { item with id := v },
      .allow "type" .string fun v item => { item with kind := v },
      .allow "stac_version" .string fun v item => { item with version := v },
      .need "collection" .string fun v item => { item with collection := v },
      .need "geometry" (Geometry.decoder (enclosing + 1)) fun v item => { item with geometry := v },
      .allow "bbox" (.nullable (.list .binary64)) fun v item => { item with bbox := v },
      .allow "properties" (.members (enclosing + 1)) fun v item => { item with properties := v },
      .allow "links" (.list (.value (enclosing + 2))) fun v item => { item with links := v },
      .allow "assets" (.members (enclosing + 1)) fun v item => { item with assets := v } ]
  foreign := .ignored

/-- An item below `enclosing` levels of nesting. -/
def decoder (enclosing : Nat) : Json.Decoder Item :=
  (jsonShape enclosing).decode

/-- An item as an object. -/
def toJson (item : Item) : Json :=
  .object ([("id", .str item.id), ("type", .str item.kind), ("stac_version", .str item.version),
    ("collection", .str item.collection), ("geometry", item.geometry.toJson),
    ("properties", .obj item.properties), ("links", .arr item.links), ("assets", .obj item.assets)]
    ++ Json.optional "bbox" (item.bbox.map Geometry.numbers))

end Item

end CatalogSearch
