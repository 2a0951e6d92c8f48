import CatalogSearch.Geometry.Orientation

/-!
# Whether shapes have a point in common

All shapes are closed sets, so touching counts. The questions come down to the side of a line on
which a point lies. A point is in a ring if the ring winds around it or passes through it.
-/

namespace CatalogSearch

/-! ## Points and segments -/

/-- Whether a value lies between two others, in whichever order these are. -/
def between (value a b : Int) : Bool :=
  (a ≤ value && value ≤ b) || (b ≤ value && value ≤ a)

/-- Whether a point lies in the box of which two opposite corners are given. -/
def inBox (p a b : Coord) : Bool :=
  between p.x.units a.x.units b.x.units && between p.y.units a.y.units b.y.units

/-- A straight line between two points. -/
structure Segment where
  start : Coord
  stop : Coord
deriving DecidableEq

namespace Segment

/-- The box around a segment. -/
def bounds (s : Segment) : Bounds :=
  (Bounds.ofCoord s.start).union (.ofCoord s.stop)

/-- Whether a point lies on a segment. -/
def meetsCoord (s : Segment) (p : Coord) : Bool :=
  side s.start s.stop p = .along && inBox p s.start s.stop

/--
Whether two segments have a point in common. Either each separates the ends of the other, or they
lie on one line and overlap there.
-/
def meets (s t : Segment) : Bool :=
  if s.start.same s.stop then t.meetsCoord s.start
  else
    let ofStart := side s.start s.stop t.start
    let ofStop := side s.start s.stop t.stop
    if ofStart ≠ ofStop then side t.start t.stop s.start ≠ side t.start t.stop s.stop
    else
      ofStart = .along && (inBox t.start s.start s.stop || inBox t.stop s.start s.stop
        || inBox s.stop t.start t.stop)

end Segment

/-- The segments between neighbouring corners. -/
def segments : List Coord → List Segment
  | p :: q :: rest => ⟨p, q⟩ :: segments (q :: rest)
  | _ => []

/-! ## Points in rings -/

/-- Where a point is, as seen from a ring. -/
inductive Place where
  | outside
  | boundary
  | inside
deriving DecidableEq

/--
How an edge of a ring counts for a point: nothing if the point is on it, otherwise whether it passes
the point upwards (`1`) or downwards (`-1`) on its right. An upward edge includes its lower end and
a downward edge its upper end; level edges do not count.
-/
def winding? (p : Coord) (edge : Segment) : Option Int :=
  let a := edge.start
  let b := edge.stop
  let passed := if side a b p = .along && between p.x.units a.x.units b.x.units then none else some 0
  if a.y.units ≤ p.y.units then
    if p.y.units ≤ b.y.units then
      if side a b p = .left && b.y.units ≠ p.y.units then some 1 else passed
    else some 0
  else if b.y.units ≤ p.y.units then
    if side a b p = .right then some (-1) else passed
  else some 0

/-- The place of a point whose winding number over the edges so far is `winding`. -/
def placeAmong (p : Coord) : List Segment → Int → Place
  | [], winding => if winding = 0 then .outside else .inside
  | edge :: edges, winding =>
    match winding? p edge with
    | none => .boundary
    | some step => placeAmong p edges (winding + step)

/-- The place of a point as seen from a ring. A ring of one corner is only that corner. -/
def placeInRing (p : Coord) : List Coord → Place
  | [] => .outside
  | [corner] => if p.same corner then .boundary else .outside
  | ring => placeAmong p (segments ring) 0

/-! ## Lines and polygons -/

/-- Whether a point lies on a row of segments. -/
def lineMeetsCoord (line : List Coord) (p : Coord) : Bool :=
  !disjointBounds (Bounds.ofCoords? line) (some (.ofCoord p))
    && (segments line).any (·.meetsCoord p)

/-- Whether a row of segments has a point in common with another one. -/
def lineMeetsSegment (line : List Coord) (s : Segment) : Bool :=
  !disjointBounds (Bounds.ofCoords? line) (some s.bounds)
    && (segments line).any (·.meets s)

namespace Polygon

/-- Whether a point is in a polygon. The rim of a hole belongs to it, the hole does not. -/
def meetsCoord (area : Polygon) (p : Coord) : Bool :=
  match placeInRing p area.exterior with
  | .outside => false
  | .boundary => true
  | .inside =>
    match (area.interiors.map (placeInRing p)).find? (· ≠ .outside) with
    | some .inside => false
    | _ => true

/-- Whether a segment touches a ring of a polygon or ends in it. -/
def meetsSegment (area : Polygon) (s : Segment) : Bool :=
  lineMeetsSegment area.exterior s || area.interiors.any (lineMeetsSegment · s)
    || area.meetsCoord s.start || area.meetsCoord s.stop

/-- Whether a row of segments touches a polygon. -/
def meetsLine (area : Polygon) (line : List Coord) : Bool :=
  !disjointBounds (Bounds.ofCoords? line) area.bounds?
    && (segments line).any area.meetsSegment

/-- Whether two polygons have a point in common: a ring of one of them touches the other. -/
def meets (area other : Polygon) : Bool :=
  !disjointBounds area.bounds? other.bounds?
    && (area.meetsLine other.exterior || other.interiors.any area.meetsLine
      || other.meetsLine area.exterior)

end Polygon

/-! ## Shapes -/

namespace Shape

mutual

/-- Whether a point lies in a shape. -/
def meetsCoord (p : Coord) : Shape → Bool
  | .point place => place.same p
  | .lineString corners => lineMeetsCoord corners p
  | .polygon area => area.meetsCoord p
  | .multiPoint places => places.any (·.same p)
  | .multiLineString lines =>
    !disjointBounds (Bounds.ofCoords? lines.flatten) (some (.ofCoord p))
      && lines.any (lineMeetsCoord · p)
  | .multiPolygon areas =>
    !disjointBounds (Bounds.ofCoords? (areas.flatMap (·.exterior))) (some (.ofCoord p))
      && areas.any (·.meetsCoord p)
  | .collection parts =>
    !disjointBounds (partBounds? none parts) (some (.ofCoord p)) && anyMeetsCoord p parts

/-- Whether a point lies in one of several shapes. -/
def anyMeetsCoord (p : Coord) : List Shape → Bool
  | [] => false
  | part :: parts => meetsCoord p part || anyMeetsCoord p parts

end

mutual

/-- Whether a segment has a point in common with a shape. -/
def meetsSegment (s : Segment) : Shape → Bool
  | .point place => s.meetsCoord place
  | .lineString corners => lineMeetsSegment corners s
  | .polygon area => area.meetsSegment s
  | .multiPoint places => places.any s.meetsCoord
  | .multiLineString lines =>
    !disjointBounds (Bounds.ofCoords? lines.flatten) (some s.bounds)
      && lines.any (lineMeetsSegment · s)
  | .multiPolygon areas =>
    !disjointBounds (Bounds.ofCoords? (areas.flatMap (·.exterior))) (some s.bounds)
      && areas.any (·.meetsSegment s)
  | .collection parts =>
    !disjointBounds (partBounds? none parts) (some s.bounds) && anyMeetsSegment s parts

/-- Whether a segment has a point in common with one of several shapes. -/
def anyMeetsSegment (s : Segment) : List Shape → Bool
  | [] => false
  | part :: parts => meetsSegment s part || anyMeetsSegment s parts

end

mutual

/-- Whether a polygon has a point in common with a shape. -/
def meetsPolygon (area : Polygon) : Shape → Bool
  | .point place => area.meetsCoord place
  | .lineString corners => area.meetsLine corners
  | .polygon other => other.meets area
  | .multiPoint places => places.any area.meetsCoord
  | .multiLineString lines =>
    !disjointBounds (Bounds.ofCoords? lines.flatten) area.bounds? && lines.any area.meetsLine
  | .multiPolygon areas =>
    !disjointBounds (Bounds.ofCoords? (areas.flatMap (·.exterior))) area.bounds?
      && areas.any (·.meets area)
  | .collection parts =>
    !disjointBounds (partBounds? none parts) area.bounds? && anyMeetsPolygon area parts

/-- Whether a polygon has a point in common with one of several shapes. -/
def anyMeetsPolygon (area : Polygon) : List Shape → Bool
  | [] => false
  | part :: parts => meetsPolygon area part || anyMeetsPolygon area parts

end

/-- Whether a row of segments has a point in common with a shape. -/
def meetsLine (line : List Coord) (shape : Shape) : Bool :=
  !disjointBounds (Bounds.ofCoords? line) shape.bounds?
    && (segments line).any (meetsSegment · shape)

mutual

/-- Whether the given shape has a point in common with another one. An empty shape has none. -/
def meetsOther (other : Shape) : Shape → Bool
  | .point place => other.meetsCoord place
  | .lineString corners => meetsLine corners other
  | .polygon area => meetsPolygon area other
  | .multiPoint places => places.any (meetsCoord · other)
  | .multiLineString lines =>
    !disjointBounds (Bounds.ofCoords? lines.flatten) other.bounds? && lines.any (meetsLine · other)
  | .multiPolygon areas =>
    !disjointBounds (Bounds.ofCoords? (areas.flatMap (·.exterior))) other.bounds?
      && areas.any (meetsPolygon · other)
  | .collection parts =>
    !disjointBounds (partBounds? none parts) other.bounds? && anyMeetsOther other parts

/-- Whether one of several shapes has a point in common with a shape. -/
def anyMeetsOther (other : Shape) : List Shape → Bool
  | [] => false
  | part :: parts => meetsOther other part || anyMeetsOther other parts

end

/-- Whether two shapes have a point in common. An empty shape has none. -/
def meets (shape other : Shape) : Bool :=
  meetsOther other shape

end Shape

end CatalogSearch
