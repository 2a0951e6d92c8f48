import CatalogSearch.Paging.Cursor
import CatalogSearch.Proofs.Sort.Lexicographic

/-!
# Seeking by clauses

What lies past a position is also said by clauses, each a tie on some first keys and the next value
behind its own. Every item that comes after the position satisfies one of them: the one of the first
key that tells it apart from the position. No other item satisfies any.

* `countP_seekClauses` : how many clauses hold of an item;
* `Cursor.exists_clause_iff_admits` : a clause holds exactly of the items past a position, and no
  more than one does.
-/

namespace CatalogSearch

/-! ## Clauses -/

/-- All conditions of a clause hold of an item. -/
def clauseHolds (item : Item) (clause : List SeekTerm) : Bool :=
  clause.all (·.matchesItem item)

/-- A clause without ties holds of the items whose value comes after the other one. -/
theorem clauseHolds_after (item : Item) (field : Field) (direction : SortDirection)
    (value : Option FieldValue) :
    clauseHolds item [.after field direction value]
      = (compareKey direction (item.value? field) value).isGT := by
  rw [clauseHolds, List.all_cons, List.all_nil, Bool.and_true, SeekTerm.matchesItem]

/-- Behind a tie that an item has it is the rest of the clause that decides. -/
theorem clauseHolds_comp_same_of_eq {item : Item} {field : Field} {value : Option FieldValue}
    (tied : item.value? field = value) :
    (clauseHolds item ∘ fun clause => SeekTerm.same field value :: clause) = clauseHolds item := by
  funext clause
  have same : (SeekTerm.same field value).matchesItem item = true := decide_eq_true tied
  show clauseHolds item (.same field value :: clause) = clauseHolds item clause
  rw [clauseHolds, List.all_cons, same, Bool.true_and, clauseHolds]

/-- No clause with a tie that an item lacks holds of it. -/
theorem not_clauseHolds_same_of_ne {item : Item} {field : Field} {value : Option FieldValue}
    (different : item.value? field ≠ value) (clause : List SeekTerm) :
    clauseHolds item (.same field value :: clause) = false := by
  have same : (SeekTerm.same field value).matchesItem item = false := decide_eq_false different
  rw [clauseHolds, List.all_cons, same, Bool.false_and]

/-- One clause holds of an item that comes after a row of values, and none of any other item. -/
theorem countP_seekClauses (item : Item) {keys : List SortKey} {values : List (Option FieldValue)}
    (complete : values.length = keys.length) :
    (seekClauses keys values).countP (clauseHolds item)
      = (compareRows keys (keys.map fun key => item.value? key.field) values).isGT.toNat := by
  induction keys generalizing values with
  | nil => rfl
  | cons key keys ih =>
    cases values with
    | nil => cases complete
    | cons value values =>
      have others := ih (Nat.succ.inj complete)
      rw [seekClauses, List.countP_cons, List.countP_map, clauseHolds_after, List.map_cons,
        compareRows]
      by_cases tied : item.value? key.field = value
      · -- The first clause fails, and the others lose nothing by their first condition.
        have first : compareKey key.direction (item.value? key.field) value = .eq :=
          compareKey_eq_eq_iff.2 tied
        rw [clauseHolds_comp_same_of_eq tied, others, first]
        rfl
      · -- All clauses but the first one fail, and that one decides.
        have first : compareKey key.direction (item.value? key.field) value ≠ .eq :=
          mt compareKey_eq_eq_iff.1 tied
        have noOther : (seekClauses keys values).countP
            (clauseHolds item ∘ fun clause => SeekTerm.same key.field value :: clause) = 0 := by
          rw [List.countP_eq_zero]
          intro clause _ holds
          rw [Function.comp, not_clauseHolds_same_of_ne tied clause] at holds
          cases holds
        rw [noOther, Nat.zero_add]
        cases decided : compareKey key.direction (item.value? key.field) value with
        | eq => exact absurd decided first
        | lt => rfl
        | gt => rfl

namespace Cursor

/-- A position has as many values in the order that it is scanned in. -/
theorem length_keys_scanOrder (cursor : Cursor) (order : SortOrder) :
    (cursor.scanOrder order).keys.length = order.keys.length := by
  rw [scanOrder]
  cases cursor.direction with
  | forward => rfl
  | backward => exact List.length_map _

/--
Let a position have one value for each key, which may be missing. Some clause of its seek holds of
an item exactly if the seek admits the item, and there is never more than one such clause.
-/
theorem exists_clause_iff_admits {order : SortOrder} {cursor : Cursor}
    (complete : cursor.values.length = order.keys.length) (item : Item) :
    ((∃ clause ∈ (cursor.seek order).clauses, ∀ term ∈ clause, term.matchesItem item = true)
        ↔ (cursor.seek order).admits item = true)
      ∧ ((cursor.seek order).clauses.filter fun clause =>
          clause.all (·.matchesItem item)).length ≤ 1 := by
  have count : (cursor.seek order).clauses.countP (clauseHolds item)
      = ((cursor.seek order).admits item).toNat :=
    countP_seekClauses item (complete.trans (cursor.length_keys_scanOrder order).symm)
  constructor
  · have found : (∃ clause ∈ (cursor.seek order).clauses, clauseHolds item clause = true)
        ↔ 0 < (cursor.seek order).clauses.countP (clauseHolds item) :=
      List.countP_pos_iff.symm
    simp only [clauseHolds, List.all_eq_true] at found
    rw [found, count]
    cases (cursor.seek order).admits item with
    | false => exact iff_of_false (Nat.lt_irrefl 0) Bool.false_ne_true
    | true => exact iff_of_true Nat.one_pos rfl
  · rw [← List.countP_eq_length_filter]
    show (cursor.seek order).clauses.countP (clauseHolds item) ≤ 1
    rw [count]
    exact Bool.toNat_le _

end Cursor

/-! ## A position without a value -/

namespace Sample

/-- An item without a resolution, of a later instant than the one whose resolution is no number. -/
def laterMisfit : Item := sensed "e" .null "2017-01-01T00:00:00Z"

/-- From an item without a value of the first key another one is found forward, but not backward. -/
theorem clause_of_laterMisfit :
    (Cursor.ofItem misfit coarsestFirst .forward).values.head? = some none
      ∧ (Cursor.ofItem misfit coarsestFirst .forward).values.length = coarsestFirst.keys.length
      ∧ (∃ clause ∈ ((Cursor.ofItem misfit coarsestFirst .forward).seek coarsestFirst).clauses,
          ∀ term ∈ clause, term.matchesItem laterMisfit = true)
      ∧ ¬ ∃ clause ∈ ((Cursor.ofItem misfit coarsestFirst .backward).seek coarsestFirst).clauses,
          ∀ term ∈ clause, term.matchesItem laterMisfit = true := by
  have complete (direction : PageDirection) :
      (Cursor.ofItem misfit coarsestFirst direction).values.length = coarsestFirst.keys.length := rfl
  obtain ⟨forward, _⟩ := Cursor.exists_clause_iff_admits (complete .forward) laterMisfit
  obtain ⟨backward, _⟩ := Cursor.exists_clause_iff_admits (complete .backward) laterMisfit
  refine ⟨by decide +kernel, complete .forward, forward.2 ?_, mt backward.1 ?_⟩
  · decide +kernel
  · decide +kernel

end Sample

end CatalogSearch
