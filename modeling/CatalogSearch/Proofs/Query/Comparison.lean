import CatalogSearch.Proofs.Field.Place
import CatalogSearch.Query.Predicate

/-!
# What comparisons say

A comparison relates the value that stands at the place of its field to an operand. Where nothing
stands there that fits the type of the field, no comparison holds.

* `Operator.holds_order_iff` : what an operator says of the order of two values;
* `Comparison.matchesItem_iff` : a comparison looks at the JSON at the place of its field.
-/

namespace CatalogSearch

open Std (OrientedCmp LawfulEqCmp ReflCmp)

/-! ## Operators -/

/-- An operator is found under its name, and nothing else is. -/
theorem Operator.ofName?_eq_some_iff {name : String} {operator : Operator} :
    ofName? name = some operator ↔ operator.name = name := by
  constructor
  · intro found
    exact of_decide_eq_true (List.find?_some (p := fun other : Operator => other.name = name) found)
  · rintro rfl
    cases operator <;> rfl

/-- Nothing is found under what is not the name of an operator. -/
theorem Operator.ofName?_eq_none_iff {name : String} :
    ofName? name = none ↔ ∀ operator : Operator, operator.name ≠ name := by
  rw [Option.eq_none_iff_forall_ne_some]
  exact forall_congr' fun operator => not_congr ofName?_eq_some_iff

/-- Operators of the same name are the same. -/
theorem Operator.name_injective {a b : Operator} (same : a.name = b.name) : a = b :=
  Option.some.inj ((ofName?_eq_some_iff.2 same).symm.trans (ofName?_eq_some_iff.2 rfl))

/-- What an operator says of a value and an operand. -/
def Operator.Relates : Operator → FieldValue → FieldValue → Prop
  | eq, a, b => a = b
  | ne, a, b => a ≠ b
  | lt, a, b => a.order b = .lt
  | le, a, b => a = b ∨ a.order b = .lt
  | gt, a, b => b.order a = .lt
  | ge, a, b => a = b ∨ b.order a = .lt

/-- Values are tied exactly if they are the same. -/
theorem FieldValue.order_eq_iff {a b : FieldValue} : a.order b = .eq ↔ a = b :=
  ⟨LawfulEqCmp.eq_of_compare, fun same => same ▸ ReflCmp.compare_self⟩

/-- An operator holds of the order of two values exactly if it relates them. -/
theorem Operator.holds_order_iff (operator : Operator) (a b : FieldValue) :
    operator.holds (a.order b) = true ↔ operator.Relates a b := by
  have tied : a.order b = .eq ↔ a = b := FieldValue.order_eq_iff
  have above : a.order b = .gt ↔ b.order a = .lt := OrientedCmp.gt_iff_lt
  cases operator with
  | eq => rw [holds, Ordering.isEq_iff_eq_eq, tied, Relates]
  | ne => rw [holds, Ordering.isNe_iff_ne_eq, Relates, not_congr tied]
  | lt => rw [holds, Ordering.isLT_iff_eq_lt, Relates]
  | le => rw [holds, Ordering.isLE_iff_eq_lt_or_eq_eq, tied, or_comm, Relates]
  | gt => rw [holds, Ordering.isGT_iff_eq_gt, above, Relates]
  | ge => rw [holds, Ordering.isGE_iff_eq_gt_or_eq_eq, above, tied, or_comm, Relates]

/-! ## Comparisons -/

/-- An item matches a comparison if it has a value that is related to the operand. -/
theorem Comparison.matchesItem_iff {comparison : Comparison} {item : Item}
    (placed : comparison.field.WellPlaced) :
    comparison.matchesItem item = true
      ↔ ∃ value, item.Has comparison.field value
        ∧ comparison.operator.Relates value comparison.value := by
  simp only [← Item.value?_eq_some_iff placed, ← Operator.holds_order_iff]
  rw [matchesItem]
  cases item.value? comparison.field with
  | none => simp
  | some value => simp

/-- An item satisfies comparisons put together if it satisfies each of them. -/
theorem matchesAll_compare_iff {comparisons : List Comparison} {item : Item} :
    matchesAll (comparisons.map .compare) item = true
      ↔ ∀ comparison ∈ comparisons, comparison.matchesItem item = true := by
  simp [matchesAll, Predicate.matchesItem]

/-- An item satisfies two lists of predicates put together if it satisfies both. -/
theorem matchesAll_append_iff {first second : List Predicate} {item : Item} :
    matchesAll (first ++ second) item = true
      ↔ matchesAll first item = true ∧ matchesAll second item = true := by
  rw [matchesAll, List.all_append, Bool.and_eq_true, matchesAll, matchesAll]

end CatalogSearch
