import CatalogSearch.Field
import CatalogSearch.SortedMap

/-!
# The fields of a catalog

A registry holds the fields that filters and sort orders may name: three core fields, the properties
that are always known, and those that a deployment adds. The core fields cannot be replaced.
-/

namespace CatalogSearch

/-- The fields by name. -/
structure FieldRegistry where
  fields : SortedMap Field

namespace FieldRegistry

/-! ## Core fields -/

/-- The identifier of a record. -/
def idField : Field := ⟨"id", "id", .string⟩

/-- The collection that a record belongs to. -/
def collectionField : Field := ⟨"collection", "collection", .string⟩

/-- The instant of a record. -/
def temporalField : Field := .property "datetime" .timestamp

/-- The fields that cannot be replaced. -/
def coreFields : List Field := [idField, temporalField, collectionField]

/-- Whether a name is that of a core field. -/
def isCore (name : String) : Bool :=
  coreFields.any (·.name = name)

/-! ## Building -/

/-- The properties that every catalog knows. -/
def commonProperties : List (String × FieldType) :=
  [("orientation", .string), ("gsd", .float), ("height", .integer), ("width", .integer),
    ("proj:epsg", .integer), ("cog:minzoom", .integer), ("cog:maxzoom", .integer),
    ("cog:dtype", .string), ("eo:cloud_cover", .float), ("eo:snow_cover", .float),
    ("aidash:client", .string), ("aidash:segment_id", .integer), ("aidash:feeder_id", .string)]

/-- The registry of the core fields and the common properties. -/
def builtin : FieldRegistry :=
  let properties := commonProperties.map fun (name, type) => Field.property name type
  ⟨.ofList ((properties ++ coreFields).map fun field => (field.name, field))⟩

/-- Adds a field or replaces one of its name, unless that is a core field. -/
def register? (r : FieldRegistry) (field : Field) : Option FieldRegistry :=
  if isCore field.name then none else some ⟨r.fields.insert field.name field⟩

/-! ## Looking up -/

/-- The registered fields in order of name. -/
def toList (r : FieldRegistry) : List Field :=
  r.fields.values

/-- The field of a name, or else the first one in order of name that is stored at that path. -/
def resolve? (r : FieldRegistry) (name : String) : Option Field :=
  r.fields.get? name <|> r.toList.find? (·.path = name)

end FieldRegistry

end CatalogSearch
