import CatalogSearch.Proofs.Binary64.Value
import CatalogSearch.Query.Spatial
import Mathlib.Data.List.Basic

/-!
# Points and rectangles

Whether a point is in a rectangle is found by a walk around it, which adds up how the edges pass the
point. Where the sides of the edges are told exactly, the walk finds what the bounds say: the point
is outside if one of its coordinates is. The rim belongs to the rectangle, and a rectangle without
width or height is a segment or a point.

* `placeAmong_eq_outside_iff` : what a walk along edges adds up;
* `winding?_vertical`, `winding?_level` : how the edges of a rectangle count;
* `Bounds.placeInRing_corners_eq_outside_iff` : the place of a point as seen from a rectangle;
* `Bounds.meetsCoord_toPolygon_iff` : the points of the polygon of a box.
-/

namespace CatalogSearch

variable {p : Coord}

/-! ## Winding numbers -/

/--
A walk along edges finds a point outside if none of the edges is through it and the steps of all of
them, with what was there before, add up to zero.
-/
theorem placeAmong_eq_outside_iff (edges : List Segment) (winding : ℤ) :
    placeAmong p edges winding = .outside
      ↔ ∃ steps : List ℤ, edges.map (winding? p) = steps.map some ∧ winding + steps.sum = 0 := by
  induction edges generalizing winding with
  | nil =>
    simp only [placeAmong, List.map_nil, List.nil_eq, List.map_eq_nil_iff, exists_eq_left,
      List.sum_nil, add_zero, ite_eq_left_iff, reduceCtorEq, imp_false, not_not]
  | cons edge edges ih =>
    rw [placeAmong, List.map_cons]
    cases counted : winding? p edge with
    | none =>
      simp only [reduceCtorEq, false_iff]
      rintro ⟨_ | ⟨step, steps⟩, same, _⟩ <;> cases same
    | some step =>
      refine (ih (winding + step)).trans ⟨?_, ?_⟩
      · rintro ⟨steps, same, total⟩
        refine ⟨step :: steps, by rw [same, List.map_cons], ?_⟩
        rw [List.sum_cons, ← add_assoc, total]
      · rintro ⟨_ | ⟨first, steps⟩, same, total⟩
        · cases same
        · rw [List.map_cons, List.cons.injEq] at same
          obtain ⟨⟨⟩, same⟩ := same
          rw [List.sum_cons, ← add_assoc] at total
          exact ⟨steps, same, total⟩

/-! ## Sides -/

section

variable {a b : Coord}

/-- A point is to the left of a line if the determinant is positive. -/
theorem exactSide_eq_left_iff : exactSide a b p = .left ↔ 0 < turn a b p := by
  rw [exactSide]
  split_ifs with pos neg
  · exact iff_of_true rfl pos
  · exact iff_of_false nofun pos
  · exact iff_of_false nofun pos

/-- A point is to the right of a line if the determinant is negative. -/
theorem exactSide_eq_right_iff : exactSide a b p = .right ↔ turn a b p < 0 := by
  rw [exactSide]
  split_ifs with pos neg
  · exact iff_of_false nofun pos.not_gt
  · exact iff_of_true rfl neg
  · exact iff_of_false nofun neg

/-- A point is on a line if the determinant is zero. -/
theorem exactSide_eq_along_iff : exactSide a b p = .along ↔ turn a b p = 0 := by
  rw [exactSide]
  split_ifs with pos neg
  · exact iff_of_false nofun pos.ne'
  · exact iff_of_false nofun neg.ne
  · exact iff_of_true rfl (le_antisymm (not_lt.1 pos) (not_lt.1 neg))

end

/-- The side of an edge on which a point between its heights lies is told exactly. -/
def Segment.TellsSide (edge : Segment) (p : Coord) : Prop :=
  between p.y.units edge.start.y.units edge.stop.y.units = true →
    side edge.start edge.stop p = exactSide edge.start edge.stop p

/-- The edges of a ring at the height of a point tell exactly on which side it lies. -/
def SidesExact (ring : List Coord) (p : Coord) : Prop :=
  ∀ edge ∈ segments ring, edge.TellsSide p

instance (edge : Segment) (p : Coord) : Decidable (edge.TellsSide p) :=
  inferInstanceAs (Decidable (_ → _))

instance (ring : List Coord) (p : Coord) : Decidable (SidesExact ring p) :=
  inferInstanceAs (Decidable (∀ edge ∈ segments ring, edge.TellsSide p))

/-! ## Edges along the axes -/

/-- How an edge from one height up to another one counts for a point to its left. -/
def crossing (p : Coord) (x low high : Binary64) : ℤ :=
  if p.x.units < x.units ∧ low.units ≤ p.y.units ∧ p.y.units < high.units then 1 else 0

section

variable {x y a b : Binary64}

/-- The determinant of a vertical edge. -/
theorem turn_vertical :
    turn ⟨x, a⟩ ⟨x, b⟩ p = (b.units - a.units) * (x.units - p.x.units) := by
  simp only [turn]
  ring

/--
A vertical edge is through the points between its ends, but not through its upper end if it goes
down. Otherwise it counts if it is to the right of the point.
-/
theorem winding?_vertical (exact : Segment.TellsSide ⟨⟨x, a⟩, ⟨x, b⟩⟩ p) :
    winding? p ⟨⟨x, a⟩, ⟨x, b⟩⟩ =
      if p.x.units = x.units ∧ (a.units ≤ p.y.units ∧ p.y.units ≤ b.units
        ∨ b.units ≤ p.y.units ∧ p.y.units < a.units)
      then none else some (crossing p x a b - crossing p x b a) := by
  by_cases height : between p.y.units a.units b.units = true
  · have told : side ⟨x, a⟩ ⟨x, b⟩ p = exactSide ⟨x, a⟩ ⟨x, b⟩ p := exact height
    simp only [between, Bool.and_eq_true, Bool.or_eq_true, decide_eq_true_eq] at height
    simp only [winding?, told, exactSide_eq_left_iff, exactSide_eq_right_iff,
      exactSide_eq_along_iff, turn_vertical, mul_pos_iff, mul_neg_iff, mul_eq_zero, sub_pos,
      sub_neg, sub_eq_zero, between, crossing, Bool.and_eq_true, Bool.or_eq_true,
      decide_eq_true_eq]
    split_ifs <;> first | rfl | omega
  · -- Where the point is above or below the edge, its side is not looked at.
    simp only [between, Bool.and_eq_true, Bool.or_eq_true, decide_eq_true_eq] at height
    simp only [winding?, crossing]
    split_ifs <;> first | rfl | omega

/-- A level edge is through the points between its ends. It does not count otherwise. -/
theorem winding?_level (exact : Segment.TellsSide ⟨⟨a, y⟩, ⟨b, y⟩⟩ p) :
    winding? p ⟨⟨a, y⟩, ⟨b, y⟩⟩ =
      if p.y.units = y.units ∧ between p.x.units a.units b.units = true then none else some 0 := by
  by_cases level : p.y.units = y.units
  · have onLine : side ⟨a, y⟩ ⟨b, y⟩ p = .along := by
      rw [exact (by simp [between, level]), exactSide_eq_along_iff]
      simp only [turn, level, sub_self, mul_zero, zero_mul]
    simp [winding?, onLine, level]
  · rw [if_neg fun both => level both.1]
    simp only [winding?]
    split_ifs <;> first | rfl | omega

end

/-! ## Rectangles -/

namespace Bounds

variable {b : Bounds}

/-- The lower bounds of a box are not above the upper ones. -/
def InOrder (b : Bounds) : Prop :=
  b.minX.value ≤ b.maxX.value ∧ b.minY.value ≤ b.maxY.value

instance (b : Bounds) : Decidable b.InOrder :=
  inferInstanceAs (Decidable (_ ∧ _))

/-- A box is in order if no upper bound is less than the lower one. -/
theorem inOrder_iff : b.InOrder ↔ ¬ (b.maxX.lt b.minX ∨ b.maxY.lt b.minY) := by
  rw [Binary64.lt_iff_value_lt, Binary64.lt_iff_value_lt, not_or, not_lt, not_lt]
  rfl

/-- A point lies in a closed box. -/
def Contains (b : Bounds) (p : Coord) : Prop :=
  (b.minX.value ≤ p.x.value ∧ p.x.value ≤ b.maxX.value)
    ∧ b.minY.value ≤ p.y.value ∧ p.y.value ≤ b.maxY.value

instance (b : Bounds) (p : Coord) : Decidable (b.Contains p) :=
  inferInstanceAs (Decidable (_ ∧ _))

/-- A walk around a box finds a point outside exactly if the box does not contain it. -/
theorem placeInRing_corners_eq_outside_iff (inOrder : b.InOrder) (exact : SidesExact b.corners p) :
    placeInRing p b.corners = .outside ↔ ¬ b.Contains p := by
  obtain ⟨minX, minY, maxX, maxY⟩ := b
  simp only [SidesExact, corners, segments, List.forall_mem_cons] at exact
  obtain ⟨right, top, left, bottom, -⟩ := exact
  simp only [InOrder, Contains, Binary64.value_le_iff] at inOrder ⊢
  show placeAmong p [_, _, _, _] 0 = .outside ↔ _
  rw [placeAmong_eq_outside_iff]
  simp only [List.map_cons, List.map_nil, winding?_vertical right, winding?_level top,
    winding?_vertical left, winding?_level bottom, between, Bool.or_eq_true, Bool.and_eq_true,
    decide_eq_true_eq]
  constructor
  · -- Off the rim only the right edge counts, so the sum is one.
    rintro ⟨steps, same, total⟩ contained
    have four : steps.length = 4 := by simpa using congrArg List.length same.symm
    obtain ⟨r, t, l, d, rfl⟩ := List.length_eq_four.1 four
    simp only [List.map_cons, List.cons.injEq, Option.ite_none_left_eq_some, Option.some.injEq]
      at same
    obtain ⟨⟨notRight, rfl⟩, ⟨notTop, rfl⟩, ⟨notLeft, rfl⟩, ⟨notBottom, rfl⟩, -⟩ := same
    simp only [crossing, List.sum_cons, List.sum_nil] at total
    split_ifs at total <;> omega
  · -- From outside the left and the right edge count both, against each other, or neither does.
    intro notContained
    rw [if_neg (by omega), if_neg (by omega), if_neg (by omega), if_neg (by omega)]
    refine ⟨[_, _, _, _], rfl, ?_⟩
    simp only [crossing, List.sum_cons, List.sum_nil]
    split_ifs <;> omega

/-- Two numbers in order stay where they are, or change places with an equal one. -/
theorem exists_swapped_eq {x y : Binary64} (inOrder : x.value ≤ y.value) :
    ∃ low high, (if x.lt y then (x, y) else (y, x)) = (low, high)
      ∧ low.value = x.value ∧ high.value = y.value := by
  by_cases less : x.lt y = true
  · exact ⟨x, y, if_pos less, rfl, rfl⟩
  · have same : x.value = y.value :=
      le_antisymm inOrder (not_lt.1 fun lt => less (Binary64.lt_iff_value_lt.2 lt))
    exact ⟨y, x, if_neg less, same.symm, same⟩

/-- The polygon of a box in order has its corners, but for signs of zero, and no holes. -/
theorem exists_toPolygon_eq (inOrder : b.InOrder) :
    ∃ c : Bounds, b.toPolygon = ⟨c.corners, []⟩ ∧ c.InOrder ∧ ∀ p, c.Contains p ↔ b.Contains p := by
  obtain ⟨minX, maxX, swappedX, sameMinX, sameMaxX⟩ := exists_swapped_eq inOrder.1
  obtain ⟨minY, maxY, swappedY, sameMinY, sameMaxY⟩ := exists_swapped_eq inOrder.2
  refine ⟨⟨minX, minY, maxX, maxY⟩, by rw [toPolygon, swappedX, swappedY], ?_⟩
  simp only [InOrder, Contains, sameMinX, sameMaxX, sameMinY, sameMaxY]
  exact ⟨inOrder, fun _ => trivial⟩

end Bounds

/-- A point lies in a polygon without holes if it is not outside of its ring. -/
theorem Polygon.meetsCoord_iff_of_interiors {ring : List Coord} :
    (Polygon.mk ring []).meetsCoord p = true ↔ placeInRing p ring ≠ .outside := by
  rw [meetsCoord]
  cases placeInRing p ring <;> simp

/-- A point lies in the polygon of a box exactly if the box contains it. -/
theorem Bounds.meetsCoord_toPolygon_iff {b : Bounds} (inOrder : b.InOrder)
    (exact : SidesExact b.toPolygon.exterior p) :
    b.toPolygon.meetsCoord p = true ↔ b.Contains p := by
  obtain ⟨c, same, inOrder, contains⟩ := exists_toPolygon_eq inOrder
  rw [same] at exact ⊢
  rw [Polygon.meetsCoord_iff_of_interiors, ← contains,
    ← placeInRing_corners_eq_outside_iff inOrder exact |>.not_left]

end CatalogSearch
