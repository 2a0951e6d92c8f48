import CatalogSearch.Binary64

/-!
# Plane shapes

Shapes are sets of points of the plane, given by corner points with binary64 coordinates. The rings
of a polygon are closed: the last corner is the first one again. Two coordinates are equal if their
values are, so positive and negative zero are the same place.
-/

namespace CatalogSearch

/-- A point of the plane. -/
structure Coord where
  x : Binary64
  y : Binary64
deriving DecidableEq

/-- Whether two points are at the same place. -/
def Coord.same (p q : Coord) : Bool :=
  p.x.units = q.x.units && p.y.units = q.y.units

/-- A polygon: an outer ring and the rings of its holes. -/
structure Polygon where
  exterior : List Coord
  interiors : List (List Coord)
deriving DecidableEq

/-- A row of corners that ends where it starts, the first corner repeated if need be. -/
def closeRing (ring : List Coord) : List Coord :=
  match ring.head?, ring.getLast? with
  | some first, some last => if first.same last then ring else ring ++ [first]
  | _, _ => ring

/-- The polygon of a list of rings, the outer one first. -/
def Polygon.ofRings (rings : List (List Coord)) : Polygon :=
  ⟨closeRing (rings.headD []), (rings.drop 1).map closeRing⟩

/-- A shape: one of the six simple kinds, or several shapes together. -/
inductive Shape where
  | point (place : Coord)
  | lineString (corners : List Coord)
  | polygon (area : Polygon)
  | multiPoint (places : List Coord)
  | multiLineString (lines : List (List Coord))
  | multiPolygon (areas : List Polygon)
  | collection (parts : List Shape)

/-! ## Bounding boxes -/

/-- A box with sides along the axes. -/
structure Bounds where
  minX : Binary64
  minY : Binary64
  maxX : Binary64
  maxY : Binary64
deriving DecidableEq

namespace Bounds

/-- The four bounds in the order in which they are written. -/
def toList (b : Bounds) : List Binary64 :=
  [b.minX, b.minY, b.maxX, b.maxY]

/-- The box of one point. -/
def ofCoord (p : Coord) : Bounds :=
  ⟨p.x, p.y, p.x, p.y⟩

/-- The least box around two boxes. Of equal bounds the first one is kept. -/
def union (a b : Bounds) : Bounds :=
  ⟨a.minX.min b.minX, a.minY.min b.minY, a.maxX.max b.maxX, a.maxY.max b.maxY⟩

/-- The least box around points, if there are any. -/
def ofCoords? : List Coord → Option Bounds
  | [] => none
  | p :: ps => some (ps.foldl (fun b q => b.union (ofCoord q)) (ofCoord p))

/-- The least box around the boxes that there are. Of equal bounds the last one is kept. -/
def join? : Option Bounds → Option Bounds → Option Bounds
  | none, b => b
  | a, none => a
  | some a, some b => some (b.union a)

/-- Whether two closed boxes have no point in common. -/
def apart (a b : Bounds) : Bool :=
  a.maxX.lt b.minX || b.maxX.lt a.minX || a.maxY.lt b.minY || b.maxY.lt a.minY

end Bounds

/-- Whether two boxes are known and have no point in common. -/
def disjointBounds : Option Bounds → Option Bounds → Bool
  | some a, some b => a.apart b
  | _, _ => false

/-- The box around a polygon is that of its outer ring. -/
def Polygon.bounds? (area : Polygon) : Option Bounds :=
  Bounds.ofCoords? area.exterior

mutual

/-- The box around a shape; an empty shape has none. -/
def Shape.bounds? : Shape → Option Bounds
  | .point place => some (.ofCoord place)
  | .lineString corners => Bounds.ofCoords? corners
  | .polygon area => area.bounds?
  | .multiPoint places => Bounds.ofCoords? places
  | .multiLineString lines => Bounds.ofCoords? lines.flatten
  | .multiPolygon areas => Bounds.ofCoords? (areas.flatMap (·.exterior))
  | .collection parts => Shape.partBounds? none parts

/-- The box around a box and the parts of a collection. -/
def Shape.partBounds? (sofar : Option Bounds) : List Shape → Option Bounds
  | [] => sofar
  | part :: parts => Shape.partBounds? (Bounds.join? sofar part.bounds?) parts

end

end CatalogSearch
