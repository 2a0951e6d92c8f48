import CatalogSearch.Collection
import CatalogSearch.FileName
import CatalogSearch.Item

/-!
# Files of items and collections

Items are kept either as one feature collection or as one item a line, which the extension of the
file tells apart. Collections are kept as an array, alone or in an object.
-/

namespace CatalogSearch

/-- Why a file is refused. -/
inductive LoadError where
  /-- It is missing, or a line of it is not text. -/
  | unreadable
  | notAFeatureCollection
  | notCollections
  /-- A line, counted from one, is not an item. -/
  | notAnItem (line : Nat)
deriving DecidableEq

/-- The words for an error. -/
def LoadError.message : LoadError → String
  | unreadable => "the file cannot be read"
  | notAFeatureCollection => "the file is not a feature collection"
  | notCollections => "the file does not hold collection records"
  | notAnItem line => s!"line {line}"

/-! ## Feature collections -/

/-- How a feature collection is written. Its type may be any string. -/
def featureCollectionShape : Json.Shape (List Item) where
  start := []
  members :=
    [ .need "type" .string fun _ items => items,
      .need "features" (.list (Item.decoder 2)) fun v _ => v ]
  foreign := .ignored

/-- The items of a feature collection. -/
def itemsOfFeatureCollection (bytes : List UInt8) : Except LoadError (List Item) :=
  (featureCollectionShape.decode.document (.ofBytes bytes)).mapError fun _ => .notAFeatureCollection

/-! ## One item a line -/

/-- The lines of a file. A line break at its end starts no further line. -/
def linesOf : List UInt8 → List (List UInt8)
  | [] => []
  | b :: bytes =>
    if b = 10 then [] :: linesOf bytes
    else match linesOf bytes with
      | [] => [[b]]
      | line :: lines => (b :: line) :: lines

/-- The item of a line, if the line is not blank. -/
def itemOfLine (number : Nat) (line : List UInt8) : Except LoadError (Option Item) :=
  match Utf8.decode? line with
  | none => .error .unreadable
  | some text =>
    if Text.trim text = "" then .ok none
    else ((Item.decoder 0).text text).map some |>.mapError fun _ => .notAnItem number

/-- The items of lines, the first of which has the given number. -/
def itemsOfLines : Nat → List (List UInt8) → Except LoadError (List Item)
  | _, [] => .ok []
  | number, line :: lines => do
    let item ← itemOfLine number line
    return item.toList ++ (← itemsOfLines (number + 1) lines)

/-- Whether a file of this name has one item a line. -/
def isLineFile (path : String) : Bool :=
  match FileName.extension? path with
  | some extension => extension = "ndjson" ∨ extension = "jsonl"
  | none => false

/-- The items of a file, whose bytes are missing if it is. -/
def itemsOfFile (path : String) : Option (List UInt8) → Except LoadError (List Item)
  | none => .error .unreadable
  | some bytes =>
    if isLineFile path then itemsOfLines 1 (linesOf bytes) else itemsOfFeatureCollection bytes

/-! ## Collections -/

/-- How collections are written in an object. -/
def collectionsShape : Json.Shape (List Collection) where
  start := []
  members := [.need "collections" (.list (Collection.decoder 2)) fun v _ => v]
  foreign := .ignored

/-- Collections in an array or in an object, in which every value has to be sound. -/
def collectionsDecoder : Json.Decoder (List Collection) := fun r => do
  let _ ← Json.Decoder.value 0 r
  match r with
  | .list _ => Json.Decoder.list (Collection.decoder 1) r
  | r => collectionsShape.decodeObject r

/-- The collections of a file, whose bytes are missing if it is. -/
def collectionsOfFile : Option (List UInt8) → Except LoadError (List Collection)
  | none => .error .unreadable
  | some bytes => (collectionsDecoder.document (.ofBytes bytes)).mapError fun _ => .notCollections

end CatalogSearch
