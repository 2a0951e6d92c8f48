import CatalogSearch.Sort

/-!
# Sort orders are total

The comparison of two values is oriented, transitive and tells different values apart, and so is the
comparison of values that may be missing, in either direction. A sort order compares items key by
key, so it is oriented and transitive as well, and turning all directions round is the same as
exchanging the items. An order that has the identifier among its keys leaves no two items of
different identifiers tied.

* `SortOrder.compare_reversed` : the reversed order compares the items the other way round;
* `SortOrder.id_eq_of_compare_eq` : tied items have the same identifier.
-/

namespace CatalogSearch

open Std

/-! ## Comparing images -/

/-- Comparing the images of a function is oriented. -/
theorem orientedCmp_on {α β : Type} {cmp : β → β → Ordering} [OrientedCmp cmp] (f : α → β) :
    OrientedCmp fun a b => cmp (f a) (f b) where
  eq_swap := OrientedCmp.eq_swap

/-- Comparing the images of a function is transitive. -/
theorem transCmp_on {α β : Type} {cmp : β → β → Ordering} [TransCmp cmp] (f : α → β) :
    TransCmp fun a b => cmp (f a) (f b) where
  toOrientedCmp := orientedCmp_on f
  isLE_trans := TransCmp.isLE_trans

/-! ## Values -/

namespace FieldValue

instance : OrientedCmp FieldValue.order where
  eq_swap {a b} := by
    cases a <;> cases b
    case string.string => exact OrientedOrd.eq_swap
    case integer.integer => exact OrientedOrd.eq_swap
    case float.float => exact OrientedOrd.eq_swap (α := Int)
    case timestamp.timestamp => exact OrientedOrd.eq_swap (α := Int)
    all_goals rfl

instance : TransCmp FieldValue.order where
  isLE_trans {a b c} := by
    cases a <;> cases b <;> cases c
    case string.string.string => exact TransOrd.isLE_trans
    case integer.integer.integer => exact TransOrd.isLE_trans
    case float.float.float => exact TransOrd.isLE_trans (α := Int)
    case timestamp.timestamp.timestamp => exact TransOrd.isLE_trans (α := Int)
    all_goals simp +decide [order, typeRank]

instance : LawfulEqCmp FieldValue.order where
  compare_self := ReflCmp.compare_self
  eq_of_compare {a b} h := by
    cases a <;> cases b
    case string.string => rw [LawfulEqOrd.eq_of_compare h]
    case integer.integer => rw [LawfulEqOrd.eq_of_compare h]
    case float.float => rw [Binary64.rank_injective (LawfulEqOrd.eq_of_compare h)]
    case timestamp.timestamp => rw [Timestamp.rank_injective (LawfulEqOrd.eq_of_compare h)]
    all_goals cases h

end FieldValue

/-! ## Values that may be missing -/

instance : OrientedCmp missingLast where
  eq_swap {a b} := by
    cases a <;> cases b
    case some.some a b =>
      show a.order b = (b.order a).swap
      exact OrientedCmp.eq_swap
    all_goals rfl

instance : TransCmp missingLast where
  isLE_trans {a b c} := by
    cases a <;> cases b <;> cases c
    case some.some.some a b c =>
      show (a.order b).isLE → (b.order c).isLE → (a.order c).isLE
      exact TransCmp.isLE_trans
    all_goals simp [missingLast]

instance : LawfulEqCmp missingLast where
  compare_self := ReflCmp.compare_self
  eq_of_compare {a b} h := by
    cases a <;> cases b
    case none.none => rfl
    case some.some a b =>
      have same : a.order b = .eq := h
      rw [LawfulEqCmp.eq_of_compare same]
    all_goals cases h

/-- Descending is ascending with the values exchanged. -/
theorem compareKey_descending (a b : Option FieldValue) :
    compareKey .descending a b = missingLast b a :=
  OrientedCmp.eq_swap.symm

/-- Turning the direction round is the same as exchanging the values. -/
theorem compareKey_reversed (d : SortDirection) (a b : Option FieldValue) :
    compareKey d.reversed a b = compareKey d b a := by
  cases d with
  | ascending => exact compareKey_descending a b
  | descending => exact (compareKey_descending b a).symm

instance (d : SortDirection) : TransCmp (compareKey d) := by
  cases d with
  | ascending => exact inferInstanceAs (TransCmp missingLast)
  | descending =>
    have h : compareKey .descending = fun a b => missingLast b a := by
      funext a b
      exact compareKey_descending a b
    rw [h]
    infer_instance

/-- Values that are tied under a key are the same. -/
theorem eq_of_compareKey_eq {d : SortDirection} {a b : Option FieldValue}
    (h : compareKey d a b = .eq) : a = b := by
  cases d with
  | ascending =>
    have same : missingLast a b = .eq := h
    exact LawfulEqCmp.eq_of_compare same
  | descending =>
    rw [compareKey_descending] at h
    exact (LawfulEqCmp.eq_of_compare h).symm

/-! ## Items -/

namespace SortOrder

/-- The first key decides unless it leaves the items tied. -/
theorem compare_cons (key : SortKey) (keys : List SortKey) (a b : Item) :
    compare ⟨key :: keys⟩ a b
      = (compareKey key.direction (a.value? key.field) (b.value? key.field)).then
          (compare ⟨keys⟩ a b) :=
  rfl

instance (order : SortOrder) : TransCmp order.compare := by
  obtain ⟨keys⟩ := order
  induction keys with
  | nil => exact { eq_swap := rfl, isLE_trans := fun _ _ => rfl }
  | cons key keys ih =>
    -- The first key compares the images of the items, and the keys behind it decide its ties.
    have first : TransCmp fun a b : Item =>
        compareKey key.direction (a.value? key.field) (b.value? key.field) :=
      transCmp_on fun item : Item => item.value? key.field
    exact inferInstanceAs (TransCmp (compareLex _ (compare ⟨keys⟩)))

/-- The reversed order has the same key values. -/
@[simp] theorem keyValues_reversed (order : SortOrder) (item : Item) :
    order.reversed.keyValues item = order.keyValues item := by
  simp [keyValues, reversed]

/-- Turning an order round twice changes nothing. -/
@[simp] theorem reversed_reversed (order : SortOrder) : order.reversed.reversed = order := by
  obtain ⟨keys⟩ := order
  simp [reversed, Function.comp_def]

/-- The reversed order compares the items the other way round. -/
theorem compare_reversed (order : SortOrder) (a b : Item) :
    order.reversed.compare a b = order.compare b a := by
  obtain ⟨keys⟩ := order
  induction keys with
  | nil => rfl
  | cons key keys ih =>
    have first := compareKey_reversed key.direction (a.value? key.field) (b.value? key.field)
    rw [compare_cons key keys b a, ← first, ← ih]
    rfl

/-- Tied items have the same identifier if the identifier is among the keys. -/
theorem id_eq_of_compare_eq {order : SortOrder} (h : ∃ key ∈ order.keys, key.field.path = "id")
    {a b : Item} (tied : order.compare a b = .eq) : a.id = b.id := by
  obtain ⟨keys⟩ := order
  obtain ⟨key, mem, path⟩ := h
  induction keys generalizing key with
  | nil => cases mem
  | cons head keys ih =>
    rw [compare_cons, Ordering.then_eq_eq] at tied
    -- A tie is a tie under every key, so under that of the identifier as well.
    rcases List.mem_cons.1 mem with rfl | mem
    · have same := eq_of_compareKey_eq tied.1
      simpa [Item.value?, path] using same
    · exact ih tied.2 key mem path

end SortOrder

end CatalogSearch
