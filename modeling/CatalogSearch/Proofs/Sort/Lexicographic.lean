import CatalogSearch.Proofs.Field.Place

/-!
# Items in a resolved order

An order puts one item before another at the first key that tells them apart. Going up, lesser
values come first and an item without a value comes last; going down it is the other way round. The
orders that searches run in leave no two items of different identifiers tied, so they are strict and
total, and the reversed order is the order read backward.

* `compareKey_eq_lt_iff` : what comes first under one key;
* `SortOrder.compare_eq_lt_iff` : what comes first in an order;
* `SortOrder.Resolved.strictTotal_and_reversed` : resolved orders are strict and total.
-/

namespace CatalogSearch

open Std (OrientedCmp ReflCmp TransCmp)

/-! ## One key -/

/-- A value, which may be missing, comes before another one in a direction. -/
inductive SortDirection.Precedes : SortDirection → Option FieldValue → Option FieldValue → Prop
  | lesser {a b : FieldValue} (lt : a.order b = .lt) : Precedes .ascending (some a) (some b)
  | missingLast (a : FieldValue) : Precedes .ascending (some a) none
  | greater {a b : FieldValue} (gt : b.order a = .lt) : Precedes .descending (some a) (some b)
  | missingFirst (b : FieldValue) : Precedes .descending none (some b)

/-- Values going up: lesser ones come first, and missing ones last. -/
theorem missingLast_eq_lt_iff {a b : Option FieldValue} :
    missingLast a b = .lt ↔ SortDirection.ascending.Precedes a b := by
  constructor
  · intro lt
    cases a with
    | none => cases b <;> cases lt
    | some a =>
      cases b with
      | none => exact .missingLast a
      | some b => exact .lesser lt
  · intro precedes
    cases precedes with
    | lesser lt => exact lt
    | missingLast => rfl

/-- What comes first under one key. -/
theorem compareKey_eq_lt_iff {direction : SortDirection} {a b : Option FieldValue} :
    compareKey direction a b = .lt ↔ direction.Precedes a b := by
  cases direction with
  | ascending => exact missingLast_eq_lt_iff
  | descending =>
    rw [compareKey_descending, missingLast_eq_lt_iff]
    constructor
    · intro precedes
      cases precedes with
      | lesser lt => exact .greater lt
      | missingLast => exact .missingFirst _
    · intro precedes
      cases precedes with
      | greater gt => exact .lesser gt
      | missingFirst => exact .missingLast _

/-- Values are tied under a key exactly if they are the same, or both missing. -/
theorem compareKey_eq_eq_iff {direction : SortDirection} {a b : Option FieldValue} :
    compareKey direction a b = .eq ↔ a = b := by
  refine ⟨eq_of_compareKey_eq, ?_⟩
  rintro rfl
  exact ReflCmp.compare_self

namespace SortOrder

/-! ## All keys -/

/-- An item comes before another one at the first key that tells them apart. -/
def Before (order : SortOrder) (a b : Item) : Prop :=
  ∃ earlier key later, order.keys = earlier ++ key :: later
    ∧ (∀ tied ∈ earlier, a.value? tied.field = b.value? tied.field)
    ∧ key.direction.Precedes (a.value? key.field) (b.value? key.field)

/-- An item comes before another one by the first key, or by the others if that one is tied. -/
theorem before_cons_iff {key : SortKey} {keys : List SortKey} {a b : Item} :
    Before ⟨key :: keys⟩ a b
      ↔ key.direction.Precedes (a.value? key.field) (b.value? key.field)
        ∨ (a.value? key.field = b.value? key.field ∧ Before ⟨keys⟩ a b) := by
  constructor
  · rintro ⟨earlier, decisive, later, split, ties, precedes⟩
    cases earlier with
    | nil =>
      cases split
      exact Or.inl precedes
    | cons head earlier =>
      cases split
      have tied := ties key List.mem_cons_self
      exact Or.inr ⟨tied, earlier, decisive, later, rfl,
        fun k hk => ties k (List.mem_cons_of_mem _ hk), precedes⟩
  · rintro (precedes | ⟨tied, earlier, decisive, later, split, ties, precedes⟩)
    · exact ⟨[], key, keys, rfl, fun _ hk => absurd hk List.not_mem_nil, precedes⟩
    · refine ⟨key :: earlier, decisive, later, congrArg (key :: ·) split, ?_, precedes⟩
      intro k hk
      rcases List.mem_cons.1 hk with rfl | hk
      · exact tied
      · exact ties k hk

/-- What comes first in an order. -/
theorem compare_eq_lt_iff {order : SortOrder} {a b : Item} :
    order.compare a b = .lt ↔ order.Before a b := by
  obtain ⟨keys⟩ := order
  induction keys with
  | nil =>
    constructor
    · intro lt
      cases lt
    · rintro ⟨earlier, key, later, split, _⟩
      cases earlier <;> cases split
  | cons key keys ih =>
    rw [compare_cons, Ordering.then_eq_lt, compareKey_eq_lt_iff, compareKey_eq_eq_iff, ih,
      before_cons_iff]

/-! ## Strict total orders -/

/-- An order puts any two items of different identifiers into one row, always in the same way. -/
structure StrictTotal (order : SortOrder) : Prop where
  total : ∀ a b, (order.compare a b).isLE ∨ (order.compare b a).isLE
  swap : ∀ a b, order.compare b a = (order.compare a b).swap
  trans : ∀ a b c, (order.compare a b).isLE → (order.compare b c).isLE → (order.compare a c).isLE
  id_eq : ∀ a b, order.compare a b = .eq → a.id = b.id

/-- An order with the identifier among its keys is strict and total. -/
theorem strictTotal_of_exists_id {order : SortOrder}
    (hid : ∃ key ∈ order.keys, key.field.path = "id") : order.StrictTotal where
  total a b := by
    by_cases le : (order.compare a b).isLE
    · exact Or.inl le
    · right
      rw [OrientedCmp.lt_of_not_isLE le]
      rfl
  swap a b := OrientedCmp.eq_swap
  trans a b c := TransCmp.isLE_trans
  id_eq a b := id_eq_of_compare_eq hid

/--
An item lacks a value of a well placed field if nothing stands at its place in the record, or
something that does not fit the type.
-/
theorem value?_eq_none_iff {field : Field} (placed : field.WellPlaced) {item : Item} :
    item.value? field = none ↔ ∀ json, item.toJson.at? field.place = some json →
      FieldValue.ofJson? field.type json = none := by
  rw [Item.value?_eq_bind placed, Option.bind_eq_none_iff]

/--
The orders that searches run in are strict and total. One item comes before another exactly if it
does so at the first key that tells them apart, where a value that does not fit the type of its
field is missing. The reversed order compares items the other way round, and reversing it gives the
order back.
-/
theorem Resolved.strictTotal_and_reversed {config : Config} {registry : FieldRegistry}
    (configured : config.registry = .ok registry) {order : SortOrder}
    (resolved : Resolved registry order) :
    order.StrictTotal
      ∧ (∀ a b, order.compare a b = .lt ↔ order.Before a b)
      ∧ (∀ key ∈ order.keys, ∀ item : Item, item.value? key.field = none
        ↔ ∀ json, item.toJson.at? key.field.place = some json →
          FieldValue.ofJson? key.field.type json = none)
      ∧ (∀ a b, order.reversed.compare a b = order.compare b a)
      ∧ order.reversed.reversed = order := by
  have placed := resolved.wellPlaced (Config.registry_wellPlaced configured)
  refine ⟨strictTotal_of_exists_id resolved.exists_id, ?_, ?_, ?_, ?_⟩
  · intro a b
    exact compare_eq_lt_iff
  · intro key mem item
    exact value?_eq_none_iff (placed key mem)
  · intro a b
    exact compare_reversed order a b
  · exact reversed_reversed order

end SortOrder

/-! ## Four items in a row -/

namespace Sample

/-- The order by a field that goes down and the instant. -/
def coarsestFirst : SortOrder :=
  ⟨[⟨.property "gsd" .float, .descending⟩, ⟨FieldRegistry.temporalField, .ascending⟩,
    SortOrder.idKey]⟩

/-- An item of an instant with some JSON as its resolution. -/
def sensed (id : String) (gsd : Json) (datetime : String) : Item :=
  { Item.blank with id, properties := [("datetime", .str datetime), ("gsd", gsd)] }

/-- An item whose resolution is no number. -/
def misfit : Item := sensed "d" (.str "10") "2016-12-31T23:59:60Z"

/-- An item whose resolution is zero. -/
def atZero : Item := sensed "c" (.int 0) "2016-12-31T23:59:60Z"

/-- An item whose resolution is negative zero, in a leap second. -/
def belowZero : Item := sensed "b" (.float ⟨true, 0, Binary64.zero.finite⟩) "2016-12-31T23:59:60Z"

/-- The same in the second behind the leap second. -/
def afterLeap : Item := sensed "a" (.float ⟨true, 0, Binary64.zero.finite⟩) "2017-01-01T00:00:00Z"

/-- A misfit comes first, zero before negative zero, and a leap second before the next one. -/
theorem strictTotal_of_coarsestFirst :
    resolveSort .builtin [⟨"gsd", .descending⟩, ⟨"datetime", .ascending⟩] = .ok coarsestFirst
      ∧ coarsestFirst.StrictTotal
      ∧ coarsestFirst.Before misfit atZero
      ∧ coarsestFirst.Before atZero belowZero
      ∧ coarsestFirst.Before belowZero afterLeap
      ∧ coarsestFirst.reversed.compare afterLeap belowZero = .lt := by
  have configured : Config.unset.registry = .ok .builtin := rfl
  have resolved : resolveSort .builtin [⟨"gsd", .descending⟩, ⟨"datetime", .ascending⟩]
      = .ok coarsestFirst := rfl
  obtain ⟨strict, before, _, reversed, _⟩ :=
    SortOrder.Resolved.strictTotal_and_reversed configured (.requested resolved)
  have leap : coarsestFirst.compare belowZero afterLeap = .lt := by decide +kernel
  refine ⟨resolved, strict, (before _ _).1 ?_, (before _ _).1 ?_, (before _ _).1 leap, ?_⟩
  · decide +kernel
  · decide +kernel
  · rw [reversed]
    exact leap

end Sample

end CatalogSearch
