import CatalogSearch.Word

/-!
# Finite binary64 numbers

A finite number of the binary64 format is a sign and a magnitude, the magnitude being the 63 bits
below the sign. Every such number is a whole multiple of the least positive one, `2 ^ -1074`, so
its value is an integer count of these units and comparisons of values are comparisons of integers.
-/

namespace CatalogSearch

-- Powers are those of the core language, whatever else defines powers.
attribute [local instance (2000)] instPowNat

/-- A finite binary64 number: its sign bit and the bits below it. -/
structure Binary64 where
  negative : Bool
  magnitude : Nat
  finite : magnitude < 0x7FF0000000000000
deriving DecidableEq

namespace Binary64

/-- Positive zero. -/
def zero : Binary64 := ⟨false, 0, by decide⟩

instance : Inhabited Binary64 := ⟨zero⟩

/-! ## Values -/

/-- How many units of `2 ^ -1074` a magnitude stands for. -/
def unitsOf (magnitude : Nat) : Nat :=
  if magnitude < 2 ^ (52 : Nat) then magnitude
  else (2 ^ (52 : Nat) + magnitude % 2 ^ (52 : Nat)) * 2 ^ (magnitude / 2 ^ (52 : Nat) - 1)

/-- The value in units of `2 ^ -1074`. -/
def units (x : Binary64) : Int :=
  if x.negative then -(unitsOf x.magnitude : Int) else unitsOf x.magnitude

/-- The integer that the number is equal to, if it is one. -/
def toInt? (x : Binary64) : Option Int :=
  if x.units % 2 ^ (1074 : Nat) = 0 then some (x.units / 2 ^ (1074 : Nat)) else none

/-! ## The total order

Negative numbers come before positive ones, and negative zero comes just before positive zero.
-/

/-- The place of a number in the total order. -/
def rank (x : Binary64) : Int :=
  if x.negative then -(x.magnitude : Int) - 1 else x.magnitude

/-- The order of two numbers by sign and magnitude. -/
def totalOrder (x y : Binary64) : Ordering :=
  compare x.rank y.rank

/-- Numbers of the same rank are the same. -/
theorem rank_injective {x y : Binary64} (h : x.rank = y.rank) : x = y := by
  obtain ⟨xs, xm, _⟩ := x
  obtain ⟨ys, ym, _⟩ := y
  cases xs <;> cases ys <;> simp [rank] at h ⊢ <;> omega

/-! ## Rounding -/

/-- The integer nearest to `n / d`, a half going to the even neighbour. -/
def roundHalfEven (n d : Nat) : Nat :=
  let q := n / d
  let twice := 2 * (n % d)
  if twice > d ∨ (twice = d ∧ q % 2 = 1) then q + 1 else q

/--
The magnitude nearest to `n / d` units. The significand has 53 bits where the value has as many,
and fewer only below `2 ^ 53` units; a significand rounded up to 54 bits carries into the exponent.
-/
def nearestMagnitude (n d : Nat) : Nat :=
  let shift := (n / d).log2 - 52
  shift * 2 ^ (52 : Nat) + roundHalfEven n (d * 2 ^ shift)

/-- The number of a sign and a magnitude, if the magnitude is one of a finite number. -/
def ofMagnitude? (negative : Bool) (magnitude : Nat) : Option Binary64 :=
  if h : magnitude < 0x7FF0000000000000 then some ⟨negative, magnitude, h⟩ else none

/-- The number nearest to an integer, if that is finite. -/
def ofInt? (n : Int) : Option Binary64 :=
  ofMagnitude? (n < 0) (nearestMagnitude (n.natAbs * 2 ^ (1074 : Nat)) 1)

/-! ## Value comparisons -/

/-- Whether the value of one number is below that of another; the two zeros are equal. -/
def lt (x y : Binary64) : Bool :=
  x.units < y.units

/-- The lesser value, the first one if the values are equal. -/
def min (x y : Binary64) : Binary64 :=
  if y.lt x then y else x

/-- The greater value, the first one if the values are equal. -/
def max (x y : Binary64) : Binary64 :=
  if x.lt y then y else x

end Binary64

end CatalogSearch
