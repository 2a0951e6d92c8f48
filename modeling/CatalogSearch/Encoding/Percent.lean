import CatalogSearch.Encoding.Utf8
import CatalogSearch.Text

/-!
# Percent encoding

A byte that may not stand for itself is written as a percent sign and two hexadecimal digits. Path
segments leave the unreserved characters as they are; forms write a blank as a plus sign.
-/

namespace CatalogSearch.Percent

/-! ## Bytes -/

/-- One hexadecimal digit in upper case. -/
def hexDigit (n : Nat) : Char :=
  if n < 10 then Char.ofNat (48 + n) else Char.ofNat (55 + n)

/-- A byte as an escape. -/
def escape (b : UInt8) : List Char :=
  ['%', hexDigit (b.toNat / 16), hexDigit (b.toNat % 16)]

/-- Whether a byte is an ASCII letter or digit. -/
def isAlphanumeric (b : UInt8) : Bool :=
  (48 ≤ b && b ≤ 57) || (65 ≤ b && b ≤ 90) || (97 ≤ b && b ≤ 122)

/-- The value of a byte that is a hexadecimal digit. -/
def hexValue? (b : UInt8) : Option Nat :=
  if 48 ≤ b ∧ b ≤ 57 then some (b.toNat - 48)
  else if 65 ≤ b ∧ b ≤ 70 then some (b.toNat - 55)
  else if 97 ≤ b ∧ b ≤ 102 then some (b.toNat - 87)
  else none

/-- The bytes with every escape replaced by the byte it stands for; other percent signs stay. -/
def unescape : List UInt8 → List UInt8
  | 37 :: high :: low :: rest =>
    match hexValue? high, hexValue? low with
    | some h, some l => .ofNat (h * 16 + l) :: unescape rest
    | _, _ => 37 :: unescape (high :: low :: rest)
  | b :: rest => b :: unescape rest
  | [] => []

/-! ## Path segments -/

/-- Whether a byte is an unreserved character of a URL. -/
def isUnreserved (b : UInt8) : Bool :=
  isAlphanumeric b || b = 45 || b = 46 || b = 95 || b = 126

/-- A byte in a path segment. -/
def segmentByte (b : UInt8) : List Char :=
  if isUnreserved b then [Char.ofNat b.toNat] else escape b

/-- A text as one segment of a path. -/
def encodeSegment (s : String) : String :=
  .ofList ((Utf8.encode s).flatMap segmentByte)

/-- The text of a path segment, if its bytes are UTF-8. -/
def decodeSegment? (s : String) : Option String :=
  Utf8.decode? (unescape (Utf8.encode s))

/-! ## Forms -/

/-- A byte in the name or the value of a form entry. -/
def formByte (b : UInt8) : List Char :=
  if isAlphanumeric b || b = 42 || b = 45 || b = 46 || b = 95 then [Char.ofNat b.toNat]
  else if b = 32 then ['+']
  else escape b

/-- A text as the name or the value of a form entry. -/
def encodeFormText (s : String) : List Char :=
  (Utf8.encode s).flatMap formByte

/-- A list of entries as a query string. -/
def encodeForm (entries : List (String × String)) : String :=
  let entry := fun (name, value) => encodeFormText name ++ '=' :: encodeFormText value
  .ofList (['&'].intercalate (entries.map entry))

/-- The name or the value of a form entry. Bytes that are not UTF-8 become U+FFFD. -/
def decodeFormText (cs : List Char) : String :=
  Utf8.decodeLossy (unescape ((Utf8.encodeChars cs).map fun b => if b = 43 then 32 else b))

/-- The entries of a query string. An entry without an equals sign has an empty value. -/
def decodeForm (s : String) : List (String × String) :=
  let entry := fun (piece : List Char) =>
    let (name, value) := piece.span (· ≠ '=')
    (decodeFormText name, decodeFormText (value.drop 1))
  ((Text.splitChars '&' s.toList).filter (!·.isEmpty)).map entry

end CatalogSearch.Percent
