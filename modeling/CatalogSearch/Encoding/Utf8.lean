/-!
# UTF-8

Texts as rows of bytes and back. Decoding goes byte by byte; where the bytes stop being UTF-8 it
marks the longest beginning of a character that stands there, and goes on behind it.
-/

namespace CatalogSearch.Utf8

/-! ## Encoding -/

/-- The bytes of a row of characters. -/
def encodeChars (cs : List Char) : List UInt8 :=
  cs.flatMap String.utf8EncodeChar

/-- The bytes of a text. -/
def encode (s : String) : List UInt8 :=
  encodeChars s.toList

/-! ## Decoding -/

/-- A character of which some bytes are still to come. -/
structure Pending where
  /-- The bits so far. -/
  bits : Nat
  /-- How many bytes come after the next one. -/
  more : Nat
  /-- The least and the greatest next byte. -/
  low : Nat
  high : Nat

/-- What a byte between characters is: a character, the start of one, or nothing. -/
def startAt (b : Nat) : List (Option Char) × Option Pending :=
  if b < 0x80 then ([some (Char.ofNat b)], none)
  else if 0xC2 ≤ b ∧ b ≤ 0xDF then ([], some ⟨b - 0xC0, 0, 0x80, 0xBF⟩)
  else if b = 0xE0 then ([], some ⟨0, 1, 0xA0, 0xBF⟩)
  else if b = 0xED then ([], some ⟨0xD, 1, 0x80, 0x9F⟩)
  else if 0xE1 ≤ b ∧ b ≤ 0xEF then ([], some ⟨b - 0xE0, 1, 0x80, 0xBF⟩)
  else if b = 0xF0 then ([], some ⟨0, 2, 0x90, 0xBF⟩)
  else if 0xF1 ≤ b ∧ b ≤ 0xF3 then ([], some ⟨b - 0xF0, 2, 0x80, 0xBF⟩)
  else if b = 0xF4 then ([], some ⟨4, 2, 0x80, 0x8F⟩)
  else ([none], none)

/-- The characters of a row of bytes behind the bytes of a pending one. -/
def decodeFrom : Option Pending → List UInt8 → List (Option Char)
  | none, [] => []
  | some _, [] => [none]
  | none, b :: bytes =>
    let (found, next) := startAt b.toNat
    found ++ decodeFrom next bytes
  | some p, b :: bytes =>
    if p.low ≤ b.toNat ∧ b.toNat ≤ p.high then
      let bits := p.bits * 64 + b.toNat % 64
      match p.more with
      | 0 => some (Char.ofNat bits) :: decodeFrom none bytes
      | more + 1 => decodeFrom (some ⟨bits, more, 0x80, 0xBF⟩) bytes
    else
      let (found, next) := startAt b.toNat
      none :: found ++ decodeFrom next bytes

/-- The characters of a row of bytes, if it is UTF-8. -/
def decodeChars? (bytes : List UInt8) : Option (List Char) :=
  (decodeFrom none bytes).mapM id

/-- The text of a row of bytes, if it is UTF-8. -/
def decode? (bytes : List UInt8) : Option String :=
  (decodeChars? bytes).map .ofList

/-- The text of a row of bytes, with U+FFFD where it is not UTF-8. -/
def decodeLossy (bytes : List UInt8) : String :=
  .ofList ((decodeFrom none bytes).map (·.getD '\uFFFD'))

end CatalogSearch.Utf8
