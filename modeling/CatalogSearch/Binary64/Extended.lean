import CatalogSearch.Binary64.Decimal
import CatalogSearch.Text.Digits

/-!
# Numbers that need not be finite

Texts other than JSON have words for the infinities and for not-a-number, so a number read from them
is a finite one or one of these.
-/

namespace CatalogSearch

-- Powers are those of the core language, whatever else defines powers.
attribute [local instance (2000)] instPowNat

/-- A binary64 number, an infinity, or not-a-number. -/
inductive ExtendedNumber where
  | finite (value : Binary64)
  | infinite (negative : Bool)
  | notANumber
deriving DecidableEq

namespace ExtendedNumber

/-! ## Text -/

/-- The number nearest to `digits * 10 ^ exponent`, an infinity past every finite number. -/
def ofDecimal (negative : Bool) (digits : Nat) (exponent : Int) : ExtendedNumber :=
  match Binary64.ofDecimal? negative digits exponent with
  | some x => finite x
  | none => infinite negative

/--
The number that a text says: digits with an optional point and an optional exponent, or one of the
words for infinity and not-a-number in any case, each with an optional sign.
-/
def ofText? (s : String) : Option ExtendedNumber :=
  let (negative, cs) := Text.splitSign s.toList
  let word := cs.map Char.toLower
  if word = ['i', 'n', 'f'] ∨ word = ['i', 'n', 'f', 'i', 'n', 'i', 't', 'y'] then
    some (infinite negative)
  else if word = ['n', 'a', 'n'] then some notANumber
  else do
    let ((whole, fraction), rest) ← Text.scanDecimal cs
    let (exponent, rest) ← Text.scanExponent rest
    if rest.isEmpty then
      some (ofDecimal negative (Text.natOfDigits (whole ++ fraction))
        (exponent.getD 0 - fraction.length))
    else none

/-- The number as plain text, without exponents. -/
def text : ExtendedNumber → String
  | finite x => .ofList (Binary64.Layout.plain.render x)
  | infinite negative => if negative then "-inf" else "inf"
  | notANumber => "NaN"

/-! ## Integers -/

/-- Whether a number is not zero. -/
def isNonzero : ExtendedNumber → Bool
  | finite x => x.magnitude ≠ 0
  | _ => true

/--
The nearest number of a 64-bit word, a half going up: zero for negative numbers and not-a-number,
the greatest one for numbers above it.
-/
def toWord : ExtendedNumber → Nat
  | finite x => min ((x.units * 2 + 2 ^ (1074 : Nat)) / 2 ^ (1075 : Nat)).toNat maxWord
  | infinite negative => if negative then 0 else maxWord
  | notANumber => 0

end ExtendedNumber

end CatalogSearch
