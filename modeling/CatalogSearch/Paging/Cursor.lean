import CatalogSearch.Paging.Token
import CatalogSearch.Sort

/-!
# Positions in an order

A cursor is a position: a direction, and a value for each key of an order. What lies past it is
given in two ways, by comparing rows of values (`Seek.admits`) and as a choice of conjunctions of
conditions on single fields (`Seek.clauses`).
-/

namespace CatalogSearch

/-- A position in an order and the direction in which to go on from it. -/
structure Cursor where
  direction : PageDirection
  values : List (Option FieldValue)
deriving DecidableEq

/-- The records that come after a row of values in an order. -/
structure Seek where
  order : SortOrder
  boundary : List (Option FieldValue)
deriving DecidableEq

namespace Cursor

/-- The position of an item. -/
def ofItem (item : Item) (order : SortOrder) (direction : PageDirection) : Cursor :=
  ⟨direction, order.keyValues item⟩

/-- The order in which records are visited from a cursor. -/
def scanOrder (cursor : Cursor) (order : SortOrder) : SortOrder :=
  match cursor.direction with
  | .forward => order
  | .backward => order.reversed

/-- The records past a cursor. -/
def seek (cursor : Cursor) (order : SortOrder) : Seek :=
  ⟨cursor.scanOrder order, cursor.values⟩

end Cursor

/-! ## Seeking -/

/-- Whether an item comes after the boundary. -/
def Seek.admits (seek : Seek) (item : Item) : Bool :=
  (compareRows seek.order.keys (seek.order.keyValues item) seek.boundary).isGT

/-- A condition on one field. -/
inductive SeekTerm where
  /-- The value is the same; a missing value is only the same as a missing one. -/
  | same (field : Field) (value : Option FieldValue)
  /-- The value comes after another one. -/
  | after (field : Field) (direction : SortDirection) (value : Option FieldValue)
deriving DecidableEq

/-- Whether an item satisfies a condition. -/
def SeekTerm.matchesItem (item : Item) : SeekTerm → Bool
  | same field value => item.value? field = value
  | after field direction value => (compareKey direction (item.value? field) value).isGT

/-- The conjunctions for a list of keys and the values that belong to them. -/
def seekClauses : List SortKey → List (Option FieldValue) → List (List SeekTerm)
  | [], _ => []
  | key :: keys, [] => [.after key.field key.direction none] :: seekClauses keys []
  | key :: keys, value :: values =>
    [.after key.field key.direction value]
      :: (seekClauses keys values).map (.same key.field value :: ·)

/-- The condition of `Seek.admits`: a tie on some first keys and the next one after its value. -/
def Seek.clauses (seek : Seek) : List (List SeekTerm) :=
  seekClauses seek.order.keys seek.boundary

/-! ## Cursors and tokens -/

namespace Cursor

/-- The token of the position of an item. -/
def tokenOf (item : Item) (order : SortOrder) (direction : PageDirection) : Token :=
  ⟨direction, order.fingerprint,
    (order.keyValues item).map fun value => value.elim .null FieldValue.toJson⟩

/-- The text of the token of the position of an item. -/
def encode (item : Item) (order : SortOrder) (direction : PageDirection) : String :=
  (tokenOf item order direction).encode

/-- The value of one key of a token. -/
def keyValue? (key : SortKey) : Json → Except TokenFault (Option FieldValue)
  | .null => .ok none
  | json =>
    match FieldValue.ofJson? key.field.type json with
    | some value => .ok (some value)
    | none => .error (.wrongType key.field)

/-- The values of the keys of a token. -/
def keyValues? : List SortKey → List Json → Except TokenFault (List (Option FieldValue))
  | key :: keys, json :: jsons => do
    let value ← keyValue? key json
    return value :: (← keyValues? keys jsons)
  | _, _ => .ok []

/-- The position that a token says in an order. -/
def ofToken (token : Token) (order : SortOrder) : Except TokenFault Cursor :=
  if token.fingerprint ≠ order.fingerprint then .error .otherOrder
  else if token.values.length ≠ order.keys.length then
    .error (.wrongLength token.values.length order.keys.length)
  else (keyValues? order.keys token.values).map fun values => ⟨token.direction, values⟩

/-- The position that a text says in an order. -/
def decode (raw : String) (order : SortOrder) : Except SearchError Cursor :=
  (Token.decode raw >>= (ofToken · order)).mapError .invalidToken

end Cursor

end CatalogSearch
