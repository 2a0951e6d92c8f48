import CatalogSearch.Encoding.Base64Url
import CatalogSearch.Encoding.Utf8
import CatalogSearch.Error

/-!
# Continuation tokens

A token says where a page ended: the direction in which to go on, the order it belongs to, and the
values of the record at the edge. It travels as base64 of a JSON object.
-/

namespace CatalogSearch

/-- Whether a page comes after or before the record at the edge. -/
inductive PageDirection where
  | forward
  | backward
deriving DecidableEq

namespace PageDirection

/-- The letter for a direction. -/
def letter : PageDirection → String
  | forward => "f"
  | backward => "b"

/-- The directions by letter. -/
def byLetter : List (String × PageDirection) :=
  [forward, backward].map fun direction => (direction.letter, direction)

end PageDirection

/-- What a token says. -/
structure Token where
  direction : PageDirection
  /-- The fingerprint of the order that the token belongs to. -/
  fingerprint : String
  /-- The value of each key, null where it is missing. -/
  values : List Json

namespace Token

/-- A token as an object, its members in the order in which they travel. -/
def toJson (token : Token) : Json :=
  .obj [("d", .str token.direction.letter), ("k", .str token.fingerprint), ("v", .arr token.values)]

/-- The text that a token travels as. -/
def encode (token : Token) : String :=
  .ofList (Base64Url.encode (Utf8.encodeChars token.toJson.chars))

/-- How a token is written. -/
def jsonShape : Json.Shape Token where
  start := ⟨.forward, "", []⟩
  members :=
    [ .need "d" (.word PageDirection.byLetter) fun v token => { token with direction := v },
      .need "k" .string fun v token => { token with fingerprint := v },
      .need "v" (.list (.value 2)) fun v token => { token with values := v } ]
  foreign := .refused

/-- The token that a JSON text says. -/
def ofChars (cs : List Char) : Except Json.Fault Token :=
  Json.Decoder.document jsonShape.decode (.ofChars cs)

/-- The token that travels as a text. -/
def decode (raw : String) : Except TokenFault Token :=
  if raw = "" then .error .empty
  else if maxTokenBytes < raw.utf8ByteSize then .error .tooLong
  else match Base64Url.decode? raw.toList with
    | none => .error .notBase64
    | some bytes =>
      match Utf8.decodeChars? bytes with
      | none => .error .malformed
      | some cs => (ofChars cs).mapError fun _ => .malformed

end Token

end CatalogSearch
