import CatalogSearch.Geometry.Shape
import CatalogSearch.Json.Decoder

/-!
# GeoJSON geometries

A geometry keeps everything that its JSON object says: positions with any number of coordinates
beyond two, a bounding box and members of other names. Its shape is what the first two coordinates
of the positions draw.
-/

namespace CatalogSearch

/-- A position: two coordinates and any further ones. -/
structure Position where
  x : Binary64
  y : Binary64
  rest : List Binary64
deriving DecidableEq

/-- The place of a position in the plane. -/
def Position.coord (p : Position) : Coord :=
  ⟨p.x, p.y⟩

/-- The coordinates of a geometry of one of the six simple kinds. -/
inductive Coordinates where
  | point (place : Position)
  | multiPoint (places : List Position)
  | lineString (corners : List Position)
  | multiLineString (lines : List (List Position))
  | polygon (rings : List (List Position))
  | multiPolygon (areas : List (List (List Position)))
deriving DecidableEq

/-- A geometry with its bounding box and its members of other names. -/
inductive Geometry where
  | simple (coordinates : Coordinates) (bbox : Option (List Binary64))
      (foreign : List (String × Json))
  | collection (geometries : List Geometry) (bbox : Option (List Binary64))
      (foreign : List (String × Json))

namespace Geometry

instance : Inhabited Geometry := ⟨collection [] none []⟩

/-! ## Reading -/

/-- The elements of an array, each taken by `inner`. -/
def each? {α : Type} (inner : Json → Option α) : Json → Option (List α)
  | .arr elements => elements.mapM inner
  | _ => none

/-- A position: an array of at least two numbers. -/
def position? (value : Json) : Option Position := do
  match ← each? Json.binary64? value with
  | x :: y :: rest => return ⟨x, y, rest⟩
  | _ => none

/-- The coordinates of a geometry of the named kind. -/
def coordinates? (kind : String) (value : Json) : Option Coordinates :=
  match kind with
  | "Point" => (position? value).map .point
  | "MultiPoint" => (each? position? value).map .multiPoint
  | "LineString" => (each? position? value).map .lineString
  | "MultiLineString" => (each? (each? position?) value).map .multiLineString
  | "Polygon" => (each? (each? position?) value).map .polygon
  | "MultiPolygon" => (each? (each? (each? position?)) value).map .multiPolygon
  | _ => none

/-- The bounding box among the members of a geometry; it is wrong unless null or numbers. -/
def bboxIn? (members : List (String × Json)) : Option (Option (List Binary64)) :=
  match members.lookup "bbox" with
  | none | some .null => some none
  | some value => (each? Json.binary64? value).map some

/-- The members whose names are not in a list. -/
def membersExcept (names : List String) (members : List (String × Json)) : List (String × Json) :=
  members.filter fun member => !names.contains member.1

mutual

/-- The geometry that a value is. -/
def ofJson? : Json → Option Geometry
  | .obj members => do
    let bbox ← bboxIn? members
    let kind ← (← members.lookup "type").str?
    if kind = "GeometryCollection" then
      let geometries ← geometriesIn? members
      return collection geometries bbox (membersExcept ["bbox", "type", "geometries"] members)
    else
      let coordinates ← coordinates? kind (← members.lookup "coordinates")
      return simple coordinates bbox (membersExcept ["bbox", "type", "coordinates"] members)
  | _ => none

/-- The parts of a collection, from the first member of that name. -/
def geometriesIn? : List (String × Json) → Option (List Geometry)
  | [] => none
  | (name, value) :: members =>
    if name = "geometries" then geometryArray? value else geometriesIn? members

/-- An array of geometries. -/
def geometryArray? : Json → Option (List Geometry)
  | .arr elements => geometryElements? elements
  | _ => none

/-- The geometries of a list of values. -/
def geometryElements? : List Json → Option (List Geometry)
  | [] => some []
  | value :: values => do return (← ofJson? value) :: (← geometryElements? values)

end

/-- A geometry below `enclosing` levels of nesting. Its object is read whole before it is judged. -/
def decoder (enclosing : Nat) : Json.Decoder Geometry := fun r => do
  let members ← Json.Decoder.members enclosing r
  match ofJson? (.obj members) with
  | some geometry => return geometry
  | none => throw .mistyped

/-! ## Writing -/

/-- Numbers as an array. -/
def numbers (xs : List Binary64) : Json :=
  .arr (xs.map .float)

/-- A position as an array of numbers. -/
def positionJson (p : Position) : Json :=
  numbers (p.x :: p.y :: p.rest)

/-- A list of values as an array. -/
def arrayOf {α : Type} (inner : α → Json) (values : List α) : Json :=
  .arr (values.map inner)

/-- The name of a kind of geometry and its coordinates. -/
def coordinatesJson : Coordinates → String × Json
  | .point p => ("Point", positionJson p)
  | .multiPoint ps => ("MultiPoint", arrayOf positionJson ps)
  | .lineString ps => ("LineString", arrayOf positionJson ps)
  | .multiLineString lines => ("MultiLineString", arrayOf (arrayOf positionJson) lines)
  | .polygon rings => ("Polygon", arrayOf (arrayOf positionJson) rings)
  | .multiPolygon areas => ("MultiPolygon", arrayOf (arrayOf (arrayOf positionJson)) areas)

mutual

/-- A geometry as an object. -/
def toJson : Geometry → Json
  | simple coordinates bbox foreign =>
    let (kind, value) := coordinatesJson coordinates
    .object ([("type", .str kind), ("coordinates", value)]
      ++ Json.optional "bbox" (bbox.map numbers) ++ foreign)
  | collection geometries bbox foreign =>
    .object ([("type", .str "GeometryCollection"), ("geometries", .arr (geometriesJson geometries))]
      ++ Json.optional "bbox" (bbox.map numbers) ++ foreign)

/-- Geometries as a list of objects. -/
def geometriesJson : List Geometry → List Json
  | [] => []
  | geometry :: geometries => geometry.toJson :: geometriesJson geometries

end

/-! ## Shapes of geometries -/

/-- The shape that simple coordinates draw. -/
def shapeOf : Coordinates → Shape
  | .point p => .point p.coord
  | .multiPoint ps => .multiPoint (ps.map (·.coord))
  | .lineString ps => .lineString (ps.map (·.coord))
  | .multiLineString lines => .multiLineString (lines.map (·.map (·.coord)))
  | .polygon rings => .polygon (.ofRings (rings.map (·.map (·.coord))))
  | .multiPolygon areas =>
    .multiPolygon (areas.map fun rings => .ofRings (rings.map (·.map (·.coord))))

mutual

/-- The shape of a geometry. -/
def shape : Geometry → Shape
  | simple coordinates _ _ => shapeOf coordinates
  | collection geometries _ _ => .collection (shapes geometries)

/-- The shapes of a list of geometries. -/
def shapes : List Geometry → List Shape
  | [] => []
  | geometry :: geometries => geometry.shape :: shapes geometries

end

end Geometry

/-! ## Geometries of shapes -/

namespace Shape

/-- The position of a place. -/
def position (p : Coord) : Position :=
  ⟨p.x, p.y, []⟩

/-- The rings of a polygon, the outer one first. -/
def ringsOf (area : Polygon) : List (List Position) :=
  (area.exterior :: area.interiors).map (·.map position)

mutual

/-- A geometry that draws a shape, without bounding box and further members. -/
def toGeometry : Shape → Geometry
  | .point place => .simple (.point (position place)) none []
  | .lineString corners => .simple (.lineString (corners.map position)) none []
  | .polygon area => .simple (.polygon (ringsOf area)) none []
  | .multiPoint places => .simple (.multiPoint (places.map position)) none []
  | .multiLineString lines => .simple (.multiLineString (lines.map (·.map position))) none []
  | .multiPolygon areas => .simple (.multiPolygon (areas.map ringsOf)) none []
  | .collection parts => .collection (toGeometries parts) none []

/-- Geometries that draw several shapes. -/
def toGeometries : List Shape → List Geometry
  | [] => []
  | part :: parts => part.toGeometry :: toGeometries parts

end

end Shape

end CatalogSearch
