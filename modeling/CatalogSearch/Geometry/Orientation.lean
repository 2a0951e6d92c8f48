import CatalogSearch.Geometry.Shape

/-!
# Sides of lines

The side of a line on which a point lies is the sign of a determinant of coordinates. Its exact sign
is that of an integer. The one that is used comes from binary64 arithmetic alone: a rounded value
counts if it is farther from zero than rounding can have moved it, and otherwise what rounding lost
is taken into account, step by step. As long as no product leaves the range of the format or falls
below its least number, the result is the exact sign; past that a point mostly counts as one on the
line.
-/

namespace CatalogSearch

-- Powers are those of the core language, whatever else defines powers.
attribute [local instance (2000)] instPowNat

/-- The side of the line from one point to another on which a third point lies. -/
inductive Side where
  | left
  | right
  | along
deriving DecidableEq

/-! ## The exact determinant -/

/--
Twice the signed area of a triangle in square units: positive if its corners turn to the left,
zero if they lie on a line.
-/
def turn (a b c : Coord) : Int :=
  (b.x.units - a.x.units) * (c.y.units - a.y.units)
    - (b.y.units - a.y.units) * (c.x.units - a.x.units)

/-- The side that the exact determinant tells. -/
def exactSide (a b c : Coord) : Side :=
  if 0 < turn a b c then .left else if turn a b c < 0 then .right else .along

/-! ## Rounded results with what they lost -/

/-- A number for machine arithmetic. -/
def Binary64.toFloat (x : Binary64) : Float :=
  .ofBits ((if x.negative then 2 ^ (63 : Nat) else 0) + x.magnitude).toUInt64

/-- A rounded result, and the number by which the exact one differs from it. -/
structure Rounded where
  value : Float
  lost : Float

namespace Rounded

/-- The sum of two numbers. -/
def sum (a b : Float) : Rounded :=
  let x := a + b
  let fromB := x - a
  let fromA := x - fromB
  ⟨x, (a - fromA) + (b - fromB)⟩

/-- The difference of two numbers. -/
def difference (a b : Float) : Rounded :=
  let x := a - b
  let fromB := a - x
  let fromA := x + fromB
  ⟨x, (a - fromA) + (fromB - b)⟩

/-- A number as the sum of two numbers of half as many digits, the greater one first. -/
def halves (a : Float) : Float × Float :=
  let scaled := 134217729 * a
  let high := scaled - (scaled - a)
  (high, a - high)

/-- The product of two numbers. -/
def product (a b : Float) : Rounded :=
  let x := a * b
  let (aHigh, aLow) := halves a
  let (bHigh, bLow) := halves b
  ⟨x, aLow * bLow - (((x - aHigh * bHigh) - aLow * bHigh) - aHigh * bLow)⟩

/-- The difference of two rounded results as a sum of four numbers, the least one first. -/
def minus (p q : Rounded) : List Float :=
  let first := difference p.lost q.lost
  let second := sum p.value first.value
  let third := difference second.lost q.value
  let fourth := sum second.value third.value
  [first.lost, third.lost, fourth.lost, fourth.value]

/-- The difference of two products as a sum of four numbers, the least one first. -/
def cross (a b c d : Float) : List Float :=
  (product a b).minus (product c d)

end Rounded

/-! ## Sums that lose nothing -/

namespace FloatSum

/-- Two rows of numbers as one, in the order of distance from zero. -/
def merge : List Float → List Float → List Float
  | [], ys => ys
  | xs, [] => xs
  | x :: xs, y :: ys =>
    if (x < y ↔ -x < y) then x :: merge xs (y :: ys) else y :: merge (x :: xs) ys

/-- What every step of adding up a row of numbers loses, and the result. -/
def distill (total : Float) : List Float → List Float
  | [] => [total]
  | x :: xs =>
    let step := Rounded.sum total x
    step.lost :: distill step.value xs

/-- The sum of two rows of numbers as one row without zeros, unless it is zero. -/
def add (xs ys : List Float) : List Float :=
  match merge xs ys with
  | [] => [0]
  | z :: zs => match (distill z zs).filter (fun x => !(x == 0)) with
    | [] => [0]
    | parts => parts

/-- The rounded sum of a row of numbers. -/
def estimate (xs : List Float) : Float :=
  xs.foldl (· + ·) 0

end FloatSum

/-! ## The determinant of binary64 arithmetic -/

/-- Half the distance from one to the next number. -/
def halfUlp : Float := .ofBits 0x3CA0000000000000

/-- Whether a number is at least as far from zero as another one. -/
def reaches (x bound : Float) : Bool :=
  bound ≤ x || bound ≤ -x

/-- The determinant whose differences are rounded, and a bound for what the rounding can do. -/
def roughTurn (a b c : Coord) : Float × Float :=
  let left := (a.x.toFloat - c.x.toFloat) * (b.y.toFloat - c.y.toFloat)
  let right := (a.y.toFloat - c.y.toFloat) * (b.x.toFloat - c.x.toFloat)
  (left - right, (left + right).abs)

/--
The determinant where the rounded one is too close to zero. What the products lost is added first,
then what the differences lost, first roughly and then in full.
-/
def carefulTurn (a b c : Coord) (size : Float) : Float :=
  let acx := Rounded.difference a.x.toFloat c.x.toFloat
  let bcx := Rounded.difference b.x.toFloat c.x.toFloat
  let acy := Rounded.difference a.y.toFloat c.y.toFloat
  let bcy := Rounded.difference b.y.toFloat c.y.toFloat
  let parts := Rounded.cross acx.value bcy.value acy.value bcx.value
  let estimate := FloatSum.estimate parts
  if reaches estimate ((2 + 12 * halfUlp) * halfUlp * size) then estimate
  else if acx.lost == 0 && acy.lost == 0 && bcx.lost == 0 && bcy.lost == 0 then estimate
  else
    let bound := (9 + 64 * halfUlp) * halfUlp * halfUlp * size
      + (3 + 8 * halfUlp) * halfUlp * estimate.abs
    let better := estimate + ((acx.value * bcy.lost + bcy.value * acx.lost)
      - (acy.value * bcx.lost + bcx.value * acy.lost))
    if reaches better bound then better
    else
      let parts := FloatSum.add parts (Rounded.cross acx.lost bcy.value acy.lost bcx.value)
      let parts := FloatSum.add parts (Rounded.cross acx.value bcy.lost acy.value bcx.lost)
      let parts := FloatSum.add parts (Rounded.cross acx.lost bcy.lost acy.lost bcx.lost)
      parts.getLastD 0

/-- The determinant of three points, twice the signed area of their triangle. -/
def floatTurn (a b c : Coord) : Float :=
  let (rough, size) := roughTurn a b c
  if reaches rough ((3 + 16 * halfUlp) * halfUlp * size) then rough else carefulTurn a b c size

/-- The side of a line on which a point lies. What is neither left nor right is on the line. -/
def side (a b c : Coord) : Side :=
  let turn := floatTurn a b c
  if turn < 0 then .right else if 0 < turn then .left else .along

end CatalogSearch
