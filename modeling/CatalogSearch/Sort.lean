import CatalogSearch.Encoding.Sha256
import CatalogSearch.Encoding.Utf8
import CatalogSearch.Error
import CatalogSearch.Field.Registry
import CatalogSearch.Item

/-!
# Sort orders

A sort order is a list of keys that ends with the identifier, so that no two records share a place.
Records without a value of a key come last when the key ascends and first when it descends.
-/

namespace CatalogSearch

/-! ## Directions -/

/-- Whether values go up or down. -/
inductive SortDirection where
  | ascending
  | descending
deriving DecidableEq

namespace SortDirection

/-- The name of a direction. -/
def name : SortDirection → String
  | ascending => "asc"
  | descending => "desc"

/-- The directions by name. -/
def byName : List (String × SortDirection) :=
  [ascending, descending].map fun direction => (direction.name, direction)

/-- The other direction. -/
def reversed : SortDirection → SortDirection
  | ascending => descending
  | descending => ascending

/-- Turning a direction round twice changes nothing. -/
@[simp] theorem reversed_reversed (d : SortDirection) : d.reversed.reversed = d := by
  cases d <;> rfl

end SortDirection

/-- The order of two values that may be missing, missing ones last. -/
def missingLast : Option FieldValue → Option FieldValue → Ordering
  | some a, some b => a.order b
  | some _, none => .lt
  | none, some _ => .gt
  | none, none => .eq

/-- The order of the values of one key. -/
def compareKey (direction : SortDirection) (a b : Option FieldValue) : Ordering :=
  match direction with
  | .ascending => missingLast a b
  | .descending => (missingLast a b).swap

/-! ## Orders -/

/-- One key of a sort order. -/
structure SortKey where
  field : Field
  direction : SortDirection
deriving DecidableEq

/-- The keys by which records are ordered, the first one first. -/
structure SortOrder where
  keys : List SortKey
deriving DecidableEq

/-- The order of two rows of values, key by key. -/
def compareRows : List SortKey → List (Option FieldValue) → List (Option FieldValue) → Ordering
  | key :: keys, a :: as, b :: bs => (compareKey key.direction a b).then (compareRows keys as bs)
  | _, _, _ => .eq

namespace SortOrder

/-- The key that every order ends with unless it names the identifier itself. -/
def idKey : SortKey := ⟨FieldRegistry.idField, .ascending⟩

/-- The newest records first. -/
def newestFirst : SortOrder :=
  ⟨[⟨FieldRegistry.temporalField, .descending⟩, idKey]⟩

/-- By identifier alone. -/
def byId : SortOrder :=
  ⟨[idKey]⟩

/-- The same keys, all in the other direction. -/
def reversed (order : SortOrder) : SortOrder :=
  ⟨order.keys.map fun key => { key with direction := key.direction.reversed }⟩

/-- The values of an item by which it is ordered. -/
def keyValues (order : SortOrder) (item : Item) : List (Option FieldValue) :=
  order.keys.map fun key => item.value? key.field

/-- The order of two items. -/
def compare (order : SortOrder) (a b : Item) : Ordering :=
  compareRows order.keys (order.keyValues a) (order.keyValues b)

/-! ## Names of orders -/

/-- An order as text: its keys with their directions. -/
def canonical (order : SortOrder) : String :=
  "|".intercalate (order.keys.map fun key => key.field.name ++ ":" ++ key.direction.name)

/-- A short digest of the canonical text. -/
def fingerprint (order : SortOrder) : String :=
  Sha256.hex ((Sha256.digest (Utf8.encode order.canonical)).take 8)

end SortOrder

/-! ## Requested orders -/

/-- A key as a request names it. -/
structure SortBy where
  field : String
  direction : SortDirection
deriving DecidableEq

/-- The keys for a list of entries, behind the keys so far. No field may appear twice. -/
def resolveKeys (registry : FieldRegistry) :
    List SortKey → List SortBy → Except SearchError (List SortKey)
  | keys, [] => .ok keys
  | keys, entry :: entries =>
    match registry.resolve? entry.field with
    | none => .error (.unknownField entry.field)
    | some field =>
      if keys.any (·.field = field) then .error (.duplicateSortField entry.field)
      else resolveKeys registry (keys ++ [⟨field, entry.direction⟩]) entries

/-- The keys up to the identifier, which is put at the end if it is not among them. -/
def endWithId : List SortKey → List SortKey
  | [] => [SortOrder.idKey]
  | key :: keys =>
    if key.field = FieldRegistry.idField then [key] else key :: endWithId keys

/-- The order for a list of entries. No entries at all stand for the newest records first. -/
def resolveSort (registry : FieldRegistry) (entries : List SortBy) :
    Except SearchError SortOrder :=
  if entries.isEmpty then .ok .newestFirst
  else (resolveKeys registry [] entries).map fun keys => ⟨endWithId keys⟩

end CatalogSearch
