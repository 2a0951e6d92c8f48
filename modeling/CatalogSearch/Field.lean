import CatalogSearch.Json
import CatalogSearch.Timestamp.Rfc3339

/-!
# Typed field values

A field of a record has one of four types. Coercion never guesses: a string is no number and a
number no string. Values of one type are compared by their own order; the types themselves are
ordered, which makes the comparison total.
-/

namespace CatalogSearch

/-- The type of a field. -/
inductive FieldType where
  | string
  | integer
  | float
  /-- An instant, written as a string in RFC 3339 form. -/
  | timestamp
deriving DecidableEq

/-- The name of a type. -/
def FieldType.name : FieldType → String
  | string => "string"
  | integer => "integer"
  | float => "float"
  | timestamp => "timestamp"

/-- The types by name. -/
def FieldType.byName : List (String × FieldType) :=
  [string, integer, float, timestamp].map fun type => (type.name, type)

/-- A value of one of the types. -/
inductive FieldValue where
  | string (value : String)
  | integer (value : Int)
  | float (value : Binary64)
  | timestamp (value : Timestamp)
deriving DecidableEq

namespace FieldValue

/-- The type of a value. -/
def type : FieldValue → FieldType
  | string _ => .string
  | integer _ => .integer
  | float _ => .float
  | timestamp _ => .timestamp

/-! ## JSON -/

/-- The integer, if it fits a signed word of 64 bits. -/
def integerInRange? (n : Int) : Option FieldValue :=
  if fitsSigned n then some (integer n) else none

/-- The integer that a binary64 number is equal to, if it fits a signed word. -/
def wholeInRange? (x : Binary64) : Option FieldValue :=
  x.toInt?.bind integerInRange?

/--
The value of a type that a JSON value stands for. An integer past the signed words is tried as the
binary64 number nearest to it.
-/
def ofJson? : FieldType → Json → Option FieldValue
  | .string, .str s => some (string s)
  | .integer, .int n =>
    if n ≤ maxSigned then integerInRange? n else (Binary64.ofInt? n).bind wholeInRange?
  | .integer, .float x => wholeInRange? x
  | .float, .int n => (Binary64.ofInt? n).map float
  | .float, .float x => some (float x)
  | .timestamp, .str s => (Timestamp.ofText s).toOption.map timestamp
  | _, _ => none

/-- A value as JSON. -/
def toJson : FieldValue → Json
  | string s => .str s
  | integer n => .int n
  | float x => .float x
  | timestamp t => .str t.render

/-- What is accepted as an integer is of the integer type. -/
theorem type_of_integerInRange? {n : Int} {value : FieldValue}
    (h : integerInRange? n = some value) : value.type = .integer := by
  unfold integerInRange? at h
  split at h <;> cases h
  rfl

/-- A whole number is accepted as an integer. -/
theorem type_of_wholeInRange? {x : Binary64} {value : FieldValue}
    (h : wholeInRange? x = some value) : value.type = .integer := by
  obtain ⟨n, _, h⟩ := Option.bind_eq_some_iff.1 h
  exact type_of_integerInRange? h

/-- A coerced value has the type it was coerced to. -/
theorem type_of_ofJson? {type : FieldType} {json : Json} {value : FieldValue}
    (h : ofJson? type json = some value) : value.type = type := by
  unfold ofJson? at h
  split at h
  · cases h; rfl
  · split at h
    · exact type_of_integerInRange? h
    · obtain ⟨x, _, h⟩ := Option.bind_eq_some_iff.1 h
      exact type_of_wholeInRange? h
  · exact type_of_wholeInRange? h
  · obtain ⟨x, _, rfl⟩ := Option.map_eq_some_iff.1 h; rfl
  · cases h; rfl
  · obtain ⟨t, _, rfl⟩ := Option.map_eq_some_iff.1 h; rfl
  · cases h

/-! ## Order -/

/-- The place of a type among the types. -/
def typeRank : FieldValue → Nat
  | string _ => 0
  | integer _ => 1
  | float _ => 2
  | timestamp _ => 3

/-- The order of two values. Numbers of the float type are in their total order. -/
def order : FieldValue → FieldValue → Ordering
  | string a, string b => compare a b
  | integer a, integer b => compare a b
  | float a, float b => a.totalOrder b
  | timestamp a, timestamp b => compare a.rank b.rank
  | a, b => compare a.typeRank b.typeRank

end FieldValue

/-! ## Fields -/

/-- A field that requests may name. -/
structure Field where
  /-- The name in filters and sort orders. -/
  name : String
  /-- The dotted place of the field inside a record. -/
  path : String
  type : FieldType
deriving DecidableEq

/-- What the paths of properties start with. -/
def Field.propertyLead : String := "properties."

/-- The field of the property of its own name. -/
def Field.property (name : String) (type : FieldType) : Field :=
  ⟨name, propertyLead ++ name, type⟩

end CatalogSearch
