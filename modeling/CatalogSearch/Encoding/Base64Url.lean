/-!
# Base64 for URLs

Bytes in the alphabet that is safe in URLs, without padding. Three bytes become four letters; one
or two bytes left over become two or three letters, whose spare low bits are zero.
-/

namespace CatalogSearch.Base64Url

/-! ## The alphabet -/

/-- The letter of a number below 64. -/
def letter (n : Nat) : Char :=
  if n < 26 then Char.ofNat (65 + n)
  else if n < 52 then Char.ofNat (71 + n)
  else if n < 62 then Char.ofNat (n - 4)
  else if n = 62 then '-'
  else '_'

/-- The number of a letter. -/
def number? (c : Char) : Option Nat :=
  if 'A' ≤ c ∧ c ≤ 'Z' then some (c.toNat - 65)
  else if 'a' ≤ c ∧ c ≤ 'z' then some (c.toNat - 71)
  else if '0' ≤ c ∧ c ≤ '9' then some (c.toNat + 4)
  else if c = '-' then some 62
  else if c = '_' then some 63
  else none

/-! ## Encoding -/

/-- The letters of a row of bytes. -/
def encode : List UInt8 → List Char
  | a :: b :: c :: rest =>
    let n := (a.toNat * 256 + b.toNat) * 256 + c.toNat
    letter (n / 262144) :: letter (n / 4096 % 64) :: letter (n / 64 % 64) :: letter (n % 64)
      :: encode rest
  | [a, b] =>
    let n := (a.toNat * 256 + b.toNat) * 4
    [letter (n / 4096), letter (n / 64 % 64), letter (n % 64)]
  | [a] =>
    let n := a.toNat * 16
    [letter (n / 64), letter (n % 64)]
  | [] => []

/-! ## Decoding -/

/-- The bytes of a row of letters, if it encodes any. -/
def decode? : List Char → Option (List UInt8)
  | w :: x :: y :: z :: rest => do
    let n := (((← number? w) * 64 + (← number? x)) * 64 + (← number? y)) * 64 + (← number? z)
    return .ofNat (n / 65536) :: .ofNat (n / 256 % 256) :: .ofNat (n % 256) :: (← decode? rest)
  | [w, x, y] => do
    let n := ((← number? w) * 64 + (← number? x)) * 64 + (← number? y)
    if n % 4 = 0 then return [.ofNat (n / 1024), .ofNat (n / 4 % 256)] else none
  | [w, x] => do
    let n := (← number? w) * 64 + (← number? x)
    if n % 16 = 0 then return [.ofNat (n / 16)] else none
  | [_] => none
  | [] => some []

end CatalogSearch.Base64Url
