import CatalogSearch.Word

/-!
# Digits in text

Rows of decimal digits, signs and exponents, which numbers in every format are made of, and the
texts of 64-bit integers.
-/

namespace CatalogSearch.Text

/-! ## Rows of digits -/

/-- The value of a row of decimal digits. -/
def natOfDigits (digits : List Char) : Nat :=
  digits.foldl (fun n c => n * 10 + (c.toNat - 48)) 0

/-- A row of digits and what follows it, if the row is not empty. -/
def scanDigits (cs : List Char) : Option (List Char × List Char) :=
  match cs.span Char.isDigit with
  | ([], _) => none
  | found => some found

/-- A number without its sign, and whether it has a minus sign. -/
def splitSign : List Char → Bool × List Char
  | '-' :: cs => (true, cs)
  | '+' :: cs => (false, cs)
  | cs => (false, cs)

/-- The digits before and behind an optional point, at least one in all, and what follows them. -/
def scanDecimal (cs : List Char) : Option ((List Char × List Char) × List Char) :=
  let (whole, rest) := cs.span Char.isDigit
  let (fraction, rest) := match rest with
    | '.' :: rest => rest.span Char.isDigit
    | rest => ([], rest)
  if whole.isEmpty && fraction.isEmpty then none else some ((whole, fraction), rest)

/-! ## Exponents -/

/-- The value of a row of digits with its sign, and what follows it. -/
def scanSigned (cs : List Char) : Option (Int × List Char) :=
  let (negative, cs) := splitSign cs
  (scanDigits cs).map fun (digits, rest) =>
    (if negative then -(natOfDigits digits : Int) else natOfDigits digits, rest)

/-- The exponent, if one follows. -/
def scanExponent : List Char → Option (Option Int × List Char)
  | c :: rest =>
    if c = 'e' ∨ c = 'E' then (scanSigned rest).map fun (e, rest) => (some e, rest)
    else some (none, c :: rest)
  | [] => some (none, [])

/-! ## Texts of integers -/

/-- The integer that a text says in decimal, with an optional sign. -/
def decimalOfText? (s : String) : Option Int :=
  match scanSigned s.toList with
  | some (n, []) => some n
  | _ => none

/-- The number below `2 ^ 64` that a text says in decimal, with an optional plus sign. -/
def naturalOfText? (s : String) : Option Nat :=
  match s.toList with
  | '-' :: _ => none
  | _ => ((decimalOfText? s).map Int.toNat).filter (· ≤ maxWord)

/-- The integer of a signed 64-bit word that a text says in decimal, with an optional sign. -/
def integerOfText? (s : String) : Option Int :=
  (decimalOfText? s).filter fitsSigned

end CatalogSearch.Text
