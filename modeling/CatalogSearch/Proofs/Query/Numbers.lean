import CatalogSearch.Proofs.Binary64.Value
import CatalogSearch.Proofs.Query.Compile

/-!
# Comparisons of numbers

A comparison of a field of floats relates the number of an item to the operand as their values are
related, integers being rounded to binary64 numbers first. The two zeros are the exception: they
have one value, but the negative one counts as less than the positive one.

* `Operator.holds_totalOrder_iff` : what an operator says of two binary64 numbers;
* `Comparison.matchesItem_of_number` : when an item matches the comparison of a number;
* `compileQuery_of_number` : what an operand that is a number compiles to, and what that says;
* `eq_of_opposite_zeros` : the two zeros do not match each other.
-/

namespace CatalogSearch

/-! ## Operators -/

namespace Operator

/-- What an operator says of two numbers. -/
def Compares : Operator → ℚ → ℚ → Prop
  | eq, a, b => a = b
  | ne, a, b => a ≠ b
  | lt, a, b => a < b
  | le, a, b => a ≤ b
  | gt, a, b => b < a
  | ge, a, b => b ≤ a

/-- The operators that hold of the lesser of two numbers and the greater one. -/
def ofLess : List Operator := [ne, lt, le]

/-- The operators that hold of the greater of two numbers and the lesser one. -/
def ofGreater : List Operator := [ne, gt, ge]

/-- An operator holds of the order of two numbers exactly if it says so of the numbers. -/
theorem holds_compare_iff (operator : Operator) (a b : ℚ) :
    operator.holds (compare a b) = true ↔ operator.Compares a b := by
  cases operator with
  | eq => rw [holds, Ordering.isEq_iff_eq_eq, compare_eq_iff_eq, Compares]
  | ne => rw [holds, Ordering.isNe_iff_ne_eq, compare_eq_iff_eq, Compares]
  | lt => rw [holds, Ordering.isLT_iff_eq_lt, compare_lt_iff_lt, Compares]
  | le => rw [holds, Ordering.isLE_iff_ne_gt, compare_gt_iff_gt, not_lt, Compares]
  | gt => rw [holds, Ordering.isGT_iff_eq_gt, compare_gt_iff_gt, Compares]
  | ge => rw [holds, Ordering.isGE_iff_ne_lt, compare_lt_iff_lt, not_lt, Compares]

/-- Of two zeros of different signs an operator says what it says of a lesser and a greater one. -/
theorem holds_totalOrder_of_oppositeZeros (operator : Operator) {x y : Binary64}
    (zeros : x.OppositeZeros y) :
    operator.holds (x.totalOrder y) = true
      ↔ operator ∈ if x.negative then ofLess else ofGreater := by
  rw [Binary64.totalOrder_of_oppositeZeros zeros]
  split <;> cases operator <;> decide

/-- Of other numbers an operator says what it says of their values. -/
theorem holds_totalOrder_iff (operator : Operator) {x y : Binary64}
    (notZeros : ¬ x.OppositeZeros y) :
    operator.holds (x.totalOrder y) = true ↔ operator.Compares x.value y.value := by
  rw [Binary64.totalOrder_eq_compare notZeros, holds_compare_iff]

end Operator

/-! ## Values and operands -/

/-- A JSON value is a float if it is a number. -/
theorem FieldValue.ofJson?_float (json : Json) :
    ofJson? .float json = json.binary64?.map float := by
  cases json <;> rfl

/-- The value of a field of floats is the number that the property of the field has. -/
theorem Item.value?_of_number {item : Item} {field : Field} {key : String} {json : Json}
    {x : Binary64} (isFloat : field.type = .float) (path : field.path = Field.propertyLead ++ key)
    (property : item.properties.lookup key = some json) (number : json.binary64? = some x) :
    item.value? field = some (.float x) := by
  obtain ⟨notId, notCollection⟩ := Field.propertyLead_append_ne key
  rw [value?, path, if_neg notId, if_neg notCollection, Text.after?_eq_some_iff.2 rfl]
  show item.properties.lookup key >>= FieldValue.ofJson? field.type = _
  rw [property, isFloat]
  show FieldValue.ofJson? .float json = _
  rw [FieldValue.ofJson?_float, number]
  rfl

/-- An item with a number matches a comparison with a number as the two are ordered. -/
theorem Comparison.matchesItem_of_number {item : Item} {field : Field} {key : String} {json : Json}
    {x : Binary64} (isFloat : field.type = .float) (path : field.path = Field.propertyLead ++ key)
    (property : item.properties.lookup key = some json) (number : json.binary64? = some x)
    (operator : Operator) (y : Binary64) :
    Comparison.matchesItem ⟨field, operator, .float y⟩ item = operator.holds (x.totalOrder y) := by
  rw [matchesItem, Item.value?_of_number isFloat path property number]
  rfl

/-- An operand that is a number compiles to the comparison with that number. -/
theorem compileEntry_of_number {field : Field} {operand : Json} {y : Binary64}
    (isFloat : field.type = .float) (number : operand.binary64? = some y) (name : String)
    (operator : Operator) :
    compileEntry name field (operator.name, operand) = .ok ⟨field, operator, .float y⟩ := by
  rw [compileEntry_eq_ok_iff, isFloat, FieldValue.ofJson?_float, number]
  exact ⟨rfl, rfl, rfl⟩

/-- A query of one operand compiles to one comparison. -/
theorem compileQuery_single {registry : FieldRegistry} {name operator : String} {field : Field}
    {operand : Json} {comparison : Comparison} (found : registry.resolve? name = some field)
    (compiled : compileEntry name field (operator, operand) = .ok comparison) :
    compileQuery registry (.ofList [(name, .ofList [(operator, operand)])]) = .ok [comparison] := by
  have row : compileField registry (name, .ofList [(operator, operand)]) = .ok [comparison] := by
    rw [compileField, found]
    show [(operator, operand)].mapM (compileEntry name field) = _
    rw [List.mapM_cons, compiled]
    rfl
  show ([(name, _)].mapM (compileField registry)).map List.flatten = _
  rw [List.mapM_cons, row]
  rfl

/--
An operand that is a number compiles, for a field of floats, to a comparison that an item with a
number there matches exactly if the operator says so of the values of the two numbers, unless they
are zeros of different signs: then the negative zero counts as less than the positive one.
-/
theorem compileQuery_of_number {registry : FieldRegistry} {name key : String} {field : Field}
    (found : registry.resolve? name = some field) (isFloat : field.type = .float)
    (path : field.path = Field.propertyLead ++ key) {item : Item} {json operand : Json}
    {x y : Binary64} (property : item.properties.lookup key = some json)
    (number : json.binary64? = some x) (expected : operand.binary64? = some y)
    (operator : Operator) :
    ∃ comparison : Comparison,
      compileQuery registry (.ofList [(name, .ofList [(operator.name, operand)])])
          = .ok [comparison]
      ∧ (∀ query comparisons operands, compileQuery registry query = .ok comparisons →
          (name, operands) ∈ query.entries → (operator.name, operand) ∈ operands.entries →
            comparison ∈ comparisons)
      ∧ (¬ x.OppositeZeros y →
          ((Predicate.compare comparison).matchesItem item = true
            ↔ operator.Compares x.value y.value))
      ∧ (x.OppositeZeros y →
          ((Predicate.compare comparison).matchesItem item = true
            ↔ operator ∈ if x.negative then Operator.ofLess else Operator.ofGreater)) := by
  have compiled := compileEntry_of_number isFloat expected name operator
  refine ⟨⟨field, operator, .float y⟩, compileQuery_single found compiled, ?_, ?_, ?_⟩
  · intro query comparisons operands accepted mem hoperand
    obtain ⟨field', operator', value, found', known, fits, member⟩ :=
      exists_mem_of_compileQuery accepted mem hoperand
    cases found.symm.trans found'
    cases Operator.name_injective (Operator.ofName?_eq_some_iff.1 known)
    rw [isFloat, FieldValue.ofJson?_float, expected] at fits
    cases fits
    exact member
  · intro notZeros
    rw [Predicate.matchesItem, Comparison.matchesItem_of_number isFloat path property number]
    exact operator.holds_totalOrder_iff notZeros
  · intro zeros
    rw [Predicate.matchesItem, Comparison.matchesItem_of_number isFloat path property number]
    exact operator.holds_totalOrder_of_oppositeZeros zeros

/-! ## An integer that is rounded, and a negative zero -/

namespace Sample

/-- The number `2 ^ 53`. -/
def twoPow53 : Binary64 := ⟨false, 0x4340000000000000, by decide⟩

/-- An item whose resolution is an integer between two binary64 numbers. -/
def roundedItem : Item :=
  { Item.blank with id := "r", properties := [("gsd", .int 9007199254740993)] }

/-- The integer is rounded to `2 ^ 53` before it is compared, so it is at most that. -/
theorem atMost_of_roundedItem :
    (Json.int 9007199254740993).binary64? = some twoPow53
      ∧ ∃ comparison : Comparison,
        compileQuery .builtin (.ofList [("gsd", .ofList [("le", .float twoPow53)])])
            = .ok [comparison]
          ∧ (Predicate.compare comparison).matchesItem roundedItem = true := by
  have rounded : (Json.int 9007199254740993).binary64? = some twoPow53 := by decide +kernel
  have found : FieldRegistry.builtin.resolve? "gsd" = some (.property "gsd" .float) := rfl
  have property : roundedItem.properties.lookup "gsd" = some (.int 9007199254740993) := rfl
  have expected : (Json.float twoPow53).binary64? = some twoPow53 := rfl
  obtain ⟨comparison, compiled, _, matchesItem, _⟩ :=
    compileQuery_of_number found rfl rfl property rounded expected .le
  exact ⟨rounded, comparison, compiled, (matchesItem (by decide)).2 (le_refl _)⟩

/-- Negative zero. -/
def negativeZero : Binary64 := ⟨true, 0, Binary64.zero.finite⟩

/-- An item whose resolution is negative zero. -/
def zeroItem : Item :=
  { Item.blank with id := "z", properties := [("gsd", .float negativeZero)] }

/-- An item with negative zero does not match the comparison with zero, whose value is the same. -/
theorem eq_of_opposite_zeros :
    ∃ comparison : Comparison,
      compileQuery .builtin (.ofList [("gsd", .ofList [("eq", .float .zero)])]) = .ok [comparison]
        ∧ zeroItem.properties.lookup "gsd" = some (.float negativeZero)
        ∧ ¬ ((Predicate.compare comparison).matchesItem zeroItem = true
          ↔ Operator.eq.Compares negativeZero.value Binary64.zero.value) := by
  refine ⟨⟨.property "gsd" .float, .eq, .float .zero⟩, rfl, rfl, fun same => ?_⟩
  have equal : negativeZero.value = Binary64.zero.value := by
    rw [Binary64.value_eq_zero_of_magnitude rfl, Binary64.value_eq_zero_of_magnitude rfl]
  have unmatched : (Predicate.compare ⟨.property "gsd" .float, .eq, .float .zero⟩).matchesItem
      zeroItem = false := by decide
  rw [same.2 equal] at unmatched
  cases unmatched

end Sample

end CatalogSearch
