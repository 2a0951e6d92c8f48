import CatalogSearch.Proofs.Geometry.Rectangle
import CatalogSearch.Proofs.Request.Box

/-!
# Points in boxes

A search for a box asks for the items whose shapes meet its rectangle. For an item that is a point,
or several, this says that a point has its coordinates within the bounds, these included, as far as
the sides of the edges are told exactly. Bounds that are not four, not finite or out of order are
refused.

* `exists_fault_of_not_inOrder` : which numbers are refused;
* `Geometry.IsPoints.meets_polygon` : when points meet a polygon;
* `spatialPredicate?_of_numbers` : what the filter for a box says about points.
-/

namespace CatalogSearch

/-! ## Boxes of a request -/

/-- Four numbers that make a polygon are the bounds of a box in order. -/
theorem exists_inOrder_of_boxPolygon {minX minY maxX maxY : ExtendedNumber} {area : Polygon}
    (made : boxPolygon minX minY maxX maxY = .ok area) :
    ∃ b : Bounds, [minX, minY, maxX, maxY] = b.numbers ∧ b.InOrder := by
  unfold boxPolygon at made
  split at made
  · next minX minY maxX maxY =>
    split_ifs at made with outOfOrder
    exact ⟨⟨minX, minY, maxX, maxY⟩, rfl, Bounds.inOrder_iff.2 outOfOrder⟩
  · cases made

/-- Numbers that are not the bounds of a box in order are refused. -/
theorem exists_fault_of_not_inOrder {numbers : List ExtendedNumber}
    (noBox : ∀ b : Bounds, numbers = b.numbers → ¬ b.InOrder) :
    ∃ fault, spatialPredicate? (some numbers) none = .error (.invalidSpatialFilter fault) := by
  have refused {fault : SpatialFault} (failed : spatialShape? (some numbers) none = .error fault) :
      ∃ fault, spatialPredicate? (some numbers) none = .error (.invalidSpatialFilter fault) :=
    ⟨fault, by rw [spatialPredicate?, failed]; rfl⟩
  rcases eq_or_ne numbers.length 4 with four | notFour
  · obtain ⟨minX, minY, maxX, maxY, rfl⟩ := List.length_eq_four.1 four
    cases made : boxPolygon minX minY maxX maxY with
    | error fault => exact refused (by rw [spatialShape?, made]; rfl)
    | ok area =>
      obtain ⟨b, same, inOrder⟩ := exists_inOrder_of_boxPolygon made
      exact absurd inOrder (noBox b same)
  · exact refused (spatialShape?_of_length notFour)

/-! ## Geometries that are points -/

/-- A geometry is one point, or it is several points, at the given places. -/
inductive Geometry.IsPoints : Geometry → List Coord → Prop
  | point (place : Position) (bbox : Option (List Binary64)) (foreign : List (String × Json)) :
      IsPoints (.simple (.point place) bbox foreign) [place.coord]
  | multiPoint (places : List Position) (bbox : Option (List Binary64))
      (foreign : List (String × Json)) :
      IsPoints (.simple (.multiPoint places) bbox foreign) (places.map (·.coord))

/-- Points meet a polygon if one of them lies in it. -/
theorem Geometry.IsPoints.meets_polygon {geometry : Geometry} {places : List Coord}
    (points : geometry.IsPoints places) (area : Polygon) :
    geometry.shape.meets (.polygon area) = places.any area.meetsCoord := by
  cases points with
  | point place =>
    rw [List.any_cons, List.any_nil, Bool.or_false]
    rfl
  | multiPoint => rfl

/--
Numbers that are the bounds of a box in order make a filter that an item of points passes exactly if
the box contains one of them. All other numbers are refused.
-/
theorem spatialPredicate?_of_numbers (numbers : List ExtendedNumber) :
    (∀ b : Bounds, numbers = b.numbers → b.InOrder →
      ∃ predicate, spatialPredicate? (some numbers) none = .ok (some predicate)
        ∧ ∀ (item : Item) (places : List Coord), item.geometry.IsPoints places →
          (∀ p ∈ places, SidesExact b.toPolygon.exterior p) →
          (predicate.matchesItem item = true ↔ ∃ p ∈ places, b.Contains p))
    ∧ ((∀ b : Bounds, numbers = b.numbers → ¬ b.InOrder) →
      ∃ fault, spatialPredicate? (some numbers) none = .error (.invalidSpatialFilter fault)) := by
  refine ⟨?_, exists_fault_of_not_inOrder⟩
  rintro b rfl inOrder
  refine ⟨_, b.spatialPredicate?_numbers (Bounds.inOrder_iff.1 inOrder), ?_⟩
  intro item places points exact
  rw [Predicate.matchesItem, Item.shape, points.meets_polygon, List.any_eq_true]
  exact exists_congr fun p => and_congr_right fun mem =>
    Bounds.meetsCoord_toPolygon_iff inOrder (exact p mem)

/-! ## Points around a box without width -/

namespace Sample

/-- A box that is a vertical segment. -/
def flatBox : Bounds := ⟨one, .zero, one, one⟩

/-- Numbers of which the first is greater than the third. -/
def backwards : List ExtendedNumber :=
  [.finite two, .finite .zero, .finite one, .finite one]

/-- An item of two points, of which one is the upper end of the segment. -/
def endItem : Item :=
  { Item.blank with geometry := .simple (.multiPoint [⟨.zero, two, []⟩, ⟨one, one, []⟩]) none [] }

/-- The item at an end passes the filter for the segment, one to the left of that end does not. -/
theorem flatBox_endItem :
    flatBox.InOrder
      ∧ (∃ predicate, spatialPredicate? (some flatBox.numbers) none = .ok (some predicate)
        ∧ predicate.matchesItem endItem = true ∧ predicate.matchesItem edgeItem = false)
      ∧ ∃ fault, spatialPredicate? (some backwards) none
        = .error (.invalidSpatialFilter fault) := by
  have inOrder : flatBox.InOrder := by decide +kernel
  have outOfOrder : ∀ b : Bounds, backwards = b.numbers → ¬ b.InOrder := by
    rintro ⟨minX, minY, maxX, maxY⟩ same
    cases same
    decide +kernel
  obtain ⟨predicate, made, passes⟩ :=
    (spatialPredicate?_of_numbers flatBox.numbers).1 flatBox rfl inOrder
  refine ⟨inOrder, ⟨predicate, made, ?_, ?_⟩, (spatialPredicate?_of_numbers backwards).2 outOfOrder⟩
  · refine (passes endItem _ (.multiPoint _ _ _) (by decide +kernel)).2 ⟨⟨one, one⟩, ?_, ?_⟩
    · decide
    · decide +kernel
  · refine eq_false_of_ne_true fun matched => ?_
    obtain ⟨p, mem, inside⟩ := (passes edgeItem _ (.point _ _ _) (by decide +kernel)).1 matched
    cases List.mem_singleton.1 mem
    exact absurd inside (by decide +kernel)

end Sample

end CatalogSearch
