import CatalogSearch.Binary64.Extended
import CatalogSearch.Error
import CatalogSearch.Query.Predicate

/-!
# Spatial filters

A request restricts the place of records by a geometry or by a box. The geometry wins if there are
both. The numbers of a box may come from text in which infinities and not-a-number can be written.
-/

namespace CatalogSearch

/-- The four corners of a box, the first one repeated at the end. -/
def Bounds.corners (b : Bounds) : List Coord :=
  [⟨b.maxX, b.minY⟩, ⟨b.maxX, b.maxY⟩, ⟨b.minX, b.maxY⟩, ⟨b.minX, b.minY⟩, ⟨b.maxX, b.minY⟩]

/-- A box as a polygon. Bounds that are equal change places, which shows only in signs of zero. -/
def Bounds.toPolygon (b : Bounds) : Polygon :=
  let (minX, maxX) := if b.minX.lt b.maxX then (b.minX, b.maxX) else (b.maxX, b.minX)
  let (minY, maxY) := if b.minY.lt b.maxY then (b.minY, b.maxY) else (b.maxY, b.minY)
  ⟨(Bounds.mk minX minY maxX maxY).corners, []⟩

/-- The polygon of a box of four finite bounds in order. -/
def boxPolygon (minX minY maxX maxY : ExtendedNumber) : Except SpatialFault Polygon :=
  match minX, minY, maxX, maxY with
  | .finite minX, .finite minY, .finite maxX, .finite maxY =>
    let bounds : Bounds := ⟨minX, minY, maxX, maxY⟩
    if maxX.lt minX ∨ maxY.lt minY then .error (.inverted bounds) else .ok bounds.toPolygon
  | _, _, _, _ => .error .notFinite

/-- The shape to which a box and a geometry restrict a search. -/
def spatialShape? (bbox : Option (List ExtendedNumber)) (intersects : Option Geometry) :
    Except SpatialFault (Option Shape) :=
  match bbox, intersects with
  | none, none => .ok none
  | none, some geometry => .ok (some geometry.shape)
  | some [_, _, _, _], some geometry => .ok (some geometry.shape)
  | some [minX, minY, maxX, maxY], none =>
    (boxPolygon minX minY maxX maxY).map fun area => some (.polygon area)
  | some bounds, _ => .error (.wrongLength bounds.length)

/-- The predicate for a box and a geometry. -/
def spatialPredicate? (bbox : Option (List ExtendedNumber)) (intersects : Option Geometry) :
    Except SearchError (Option Predicate) :=
  ((spatialShape? bbox intersects).map (·.map .intersects)).mapError .invalidSpatialFilter

end CatalogSearch
