import CatalogSearch.Binary64

/-!
# Binary64 numbers in decimal

Reading rounds a decimal to the nearest binary64 number. Writing picks, among the decimals that
read back as the number, one with the fewest digits and of these the nearest; where the last digit
is a tie it is even. Which decimals are written positionally is the business of a layout.
-/

namespace CatalogSearch.Binary64

-- Powers are those of the core language, whatever else defines powers.
attribute [local instance (2000)] instPowNat

/-! ## Reading -/

/-- The decimal digits of a natural number, most significant first. -/
def digitsOf (n : Nat) : List Char :=
  Nat.toDigits 10 n

/-- The magnitude nearest to `digits * 10 ^ exponent`. -/
def magnitudeOfDecimal (digits : Nat) (exponent : Int) : Nat :=
  if 0 ≤ exponent then nearestMagnitude (digits * 10 ^ exponent.toNat * 2 ^ (1074 : Nat)) 1
  else nearestMagnitude (digits * 2 ^ (1074 : Nat)) (10 ^ exponent.natAbs)

/--
The number nearest to `digits * 10 ^ exponent`, if it is finite. A decimal above `10 ^ 309` is past
every finite number and one below `10 ^ -325` rounds to zero, so the powers that are computed stay
small.
-/
def ofDecimal? (negative : Bool) (digits : Nat) (exponent : Int) : Option Binary64 :=
  let places := (digitsOf digits).length + exponent
  if digits = 0 ∨ places < -325 then some { zero with negative }
  else if places > 310 then none
  else ofMagnitude? negative (magnitudeOfDecimal digits exponent)

/-! ## The shortest digits -/

/-- The nonnegative decimal `digits * 10 ^ exponent`. -/
structure Decimal where
  digits : Nat
  exponent : Int
deriving DecidableEq

/-- Whether a decimal reads back as a magnitude. -/
def Decimal.reads (d : Decimal) (magnitude : Nat) : Bool :=
  magnitudeOfDecimal d.digits d.exponent = magnitude

/-- The first of a list of digit counts that fits, tried from the least. -/
def Decimal.firstFit (candidate : Nat → Option Decimal) : Nat → Nat → Option Decimal
  | _, 0 => none
  | count, more + 1 => candidate count <|> firstFit candidate (count + 1) more

/--
The decimal of `count` digits nearest to a magnitude among the two that enclose it, provided that it
reads back. `places` is the number of digits of the magnitude before the decimal point.
-/
def Decimal.withDigits? (magnitude : Nat) (places : Int) (count : Nat) : Option Decimal :=
  let exponent := places - count
  let n := unitsOf magnitude * 10 ^ (-exponent).toNat
  let d := 2 ^ (1074 : Nat) * 10 ^ exponent.toNat
  let below : Decimal := ⟨n / d, exponent⟩
  let above : Decimal := ⟨n / d + 1, exponent⟩
  let upper := 2 * (n % d) > d ∨ (2 * (n % d) = d ∧ below.digits % 2 = 1)
  match below.reads magnitude, above.reads magnitude with
  | true, true => some (if upper then above else below)
  | true, false => some below
  | false, true => some above
  | false, false => none

/-- Moves trailing zeros of the digits into the exponent. -/
def Decimal.strip (d : Decimal) : Nat → Decimal
  | 0 => d
  | fuel + 1 =>
    if d.digits ≠ 0 ∧ d.digits % 10 = 0 then strip ⟨d.digits / 10, d.exponent + 1⟩ fuel else d

/--
The shortest decimal that reads back as a magnitude. Seventeen digits always suffice; the exact
value stands behind them, so that the answer reads back without that fact.
-/
def shortest (magnitude : Nat) : Decimal :=
  let units := unitsOf magnitude
  let places : Int := (digitsOf (units * 10 ^ (350 : Nat) / 2 ^ (1074 : Nat))).length - 350
  if magnitude = 0 then ⟨0, 0⟩
  else match Decimal.firstFit (Decimal.withDigits? magnitude places) 1 17 with
    | some d => d.strip 20
    | none => ⟨units * 5 ^ (1074 : Nat), -1074⟩

/-! ## Layouts -/

/-- How a decimal is laid out as text. -/
structure Layout where
  /-- Whether a number whose first digit stands for this power of ten is written positionally. -/
  positional : Int → Bool
  /-- What follows the digits of a whole number in positional form. -/
  wholeEnding : String
  /-- What stands before a nonnegative exponent. -/
  exponentSign : String

/-- Numbers in JSON text: positional from `0.00001` to below `10 ^ 16`. -/
def Layout.json : Layout := ⟨fun e => -5 ≤ e && e ≤ 15, ".0", "+"⟩

/-- Numbers quoted in a message: positional from `0.0001` to below `10 ^ 16`. -/
def Layout.quoted : Layout := ⟨fun e => -4 ≤ e && e ≤ 15, ".0", ""⟩

/-- Numbers read as text: always positional, whole numbers as integers are written. -/
def Layout.plain : Layout := ⟨fun _ => true, "", ""⟩

/-- The digits with a decimal point after `places` of them, zeros filling either side. -/
def Layout.point (layout : Layout) (digits : List Char) (places : Int) : List Char :=
  if places ≤ 0 then '0' :: '.' :: (List.replicate places.natAbs '0' ++ digits)
  else if digits.length ≤ places.toNat then
    digits ++ List.replicate (places.toNat - digits.length) '0' ++ layout.wholeEnding.toList
  else digits.take places.toNat ++ '.' :: digits.drop places.toNat

/-- One digit, a point before the others if there are any, and the exponent. -/
def Layout.scientific (layout : Layout) (digits : List Char) (exponent : Int) : List Char :=
  let fraction := match digits.drop 1 with
    | [] => []
    | rest => '.' :: rest
  let sign := if exponent < 0 then ['-'] else layout.exponentSign.toList
  digits.take 1 ++ fraction ++ 'e' :: sign ++ digitsOf exponent.natAbs

/-- A number as text. -/
def Layout.render (layout : Layout) (x : Binary64) : List Char :=
  let d := shortest x.magnitude
  let digits := digitsOf d.digits
  let exponent := d.exponent + digits.length - 1
  let sign := if x.negative then ['-'] else []
  sign ++ if layout.positional exponent then layout.point digits (exponent + 1)
    else layout.scientific digits exponent

end CatalogSearch.Binary64
