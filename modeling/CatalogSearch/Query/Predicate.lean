import CatalogSearch.Field
import CatalogSearch.Geometry.Intersects
import CatalogSearch.Item
import CatalogSearch.SortedMap

/-!
# Predicates on items

The filters of a search are a list of predicates, all of which an item has to satisfy. An item
without a value of a field satisfies no comparison of it, not even that of being different.
-/

namespace CatalogSearch

/-! ## Operators -/

/-- A relation between a value of an item and an operand. -/
inductive Operator where
  | eq
  | ne
  | lt
  | le
  | gt
  | ge
deriving DecidableEq

namespace Operator

/-- The name of an operator. -/
def name : Operator → String
  | eq => "eq"
  | ne => "ne"
  | lt => "lt"
  | le => "le"
  | gt => "gt"
  | ge => "ge"

/-- All operators. -/
def all : List Operator := [eq, ne, lt, le, gt, ge]

/-- The operator of a name. -/
def ofName? (name : String) : Option Operator :=
  all.find? (·.name = name)

/-- Whether the relation holds between values that are in the given order. -/
def holds : Operator → Ordering → Bool
  | eq, order => order.isEq
  | ne, order => order.isNe
  | lt, order => order.isLT
  | le, order => order.isLE
  | gt, order => order.isGT
  | ge, order => order.isGE

end Operator

/-! ## Predicates -/

/-- A comparison of a field with a value of its type. -/
structure Comparison where
  field : Field
  operator : Operator
  value : FieldValue
deriving DecidableEq

/-- Whether an item has a value of the field that is in the relation to the operand. -/
def Comparison.matchesItem (c : Comparison) (item : Item) : Bool :=
  match item.value? c.field with
  | some value => c.operator.holds (value.order c.value)
  | none => false

/-- A condition on items. -/
inductive Predicate where
  | compare (comparison : Comparison)
  /-- The shape of the item has a point in common with this shape. -/
  | intersects (shape : Shape)
  /-- The item belongs to one of these collections. -/
  | collections (names : StringSet)
  /-- The identifier of the item is one of these. -/
  | ids (names : List String)

/-- Whether an item satisfies a condition. -/
def Predicate.matchesItem (item : Item) : Predicate → Bool
  | .compare comparison => comparison.matchesItem item
  | .intersects shape => item.shape.meets shape
  | .collections names => item.collection ∈ names
  | .ids names => names.contains item.id

/-- Whether an item satisfies all of a list of conditions. -/
def matchesAll (predicates : List Predicate) (item : Item) : Bool :=
  predicates.all (·.matchesItem item)

end CatalogSearch
