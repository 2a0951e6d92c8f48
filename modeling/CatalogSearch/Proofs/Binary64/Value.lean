import CatalogSearch.Proofs.Binary64.Decimal
import Mathlib.Algebra.Order.Field.Basic
import Mathlib.Algebra.Order.Ring.Unbundled.Rat
import Mathlib.Data.Rat.Cast.Order
import Mathlib.Order.Compare

/-!
# Values of binary64 numbers

A finite binary64 number stands for a rational number. The total order of the numbers is the order
of their values, except that the two zeros, which have one value, are told apart.

* `unitsOf_strictMono` : a greater magnitude has a greater value;
* `toInt?_eq_some_iff` : the integer that a number is equal to;
* `totalOrder_eq_compare`, `totalOrder_of_oppositeZeros` : the total order against values;
* `le_value_of_ofInt?` : rounding an integer does not take it below a power of two.
-/

namespace CatalogSearch.Binary64

variable {x y : Binary64}

/-! ## Units -/

/-- A significand of 53 bits with its power of two lies below the next power of two. -/
theorem significand_lt {f e : ℕ} (hf : f < 2 ^ 52) :
    (2 ^ 52 + f) * 2 ^ e < 2 ^ 52 * 2 ^ (e + 1) := by
  rw [Nat.pow_succ' (m := 2) (n := e), ← Nat.mul_assoc]
  exact Nat.mul_lt_mul_of_pos_right (by omega) (Nat.two_pow_pos e)

/-- A greater magnitude has a greater value. -/
theorem unitsOf_strictMono : StrictMono unitsOf := by
  intro m n lt
  simp only [unitsOf]
  by_cases small : n < 2 ^ 52
  · rw [if_pos small, if_pos (by omega)]
    exact lt
  · rw [if_neg small]
    -- The exponent of `n` is `e + 1`.
    obtain ⟨e, he⟩ : ∃ e, n / 2 ^ 52 = e + 1 := ⟨n / 2 ^ 52 - 1, by omega⟩
    have atLeast : 2 ^ 52 * 2 ^ e ≤ (2 ^ 52 + n % 2 ^ 52) * 2 ^ e :=
      Nat.mul_le_mul_right _ (Nat.le_add_right _ _)
    rw [he, Nat.add_sub_cancel]
    split
    · next subnormal =>
      refine Nat.lt_of_lt_of_le subnormal (Nat.le_trans ?_ atLeast)
      exact Nat.le_mul_of_pos_right _ (Nat.two_pow_pos e)
    · next normal =>
      obtain ⟨k, hk⟩ : ∃ k, m / 2 ^ 52 = k + 1 := ⟨m / 2 ^ 52 - 1, by omega⟩
      rw [hk, Nat.add_sub_cancel]
      by_cases same : k = e
      · subst same
        exact Nat.mul_lt_mul_of_pos_right (by omega) (Nat.two_pow_pos k)
      · refine Nat.lt_of_lt_of_le (significand_lt (by omega)) (Nat.le_trans ?_ atLeast)
        exact Nat.mul_le_mul_left _ (Nat.pow_le_pow_right (by decide) (by omega))

/-- The magnitude zero has the value zero. -/
@[simp] theorem unitsOf_zero : unitsOf 0 = 0 := rfl

/-- The magnitude of a power of two. -/
theorem unitsOf_two_pow (e : ℕ) : unitsOf ((e + 1) * 2 ^ 52) = 2 ^ (52 + e) := by
  have normal : ¬ (e + 1) * 2 ^ 52 < 2 ^ 52 := by omega
  have exponent : (e + 1) * 2 ^ 52 / 2 ^ 52 = e + 1 := Nat.mul_div_cancel _ (by decide)
  have fraction : (e + 1) * 2 ^ 52 % 2 ^ 52 = 0 := Nat.mul_mod_left _ _
  rw [unitsOf, if_neg normal, exponent, fraction, Nat.add_zero, Nat.add_sub_cancel, Nat.pow_add]

/-! ## Values -/

/-- The number that a binary64 number stands for. -/
def value (x : Binary64) : ℚ :=
  x.units / 2 ^ 1074

/-- The unit is positive. -/
theorem unit_pos : (0 : ℚ) < 2 ^ 1074 :=
  pow_pos two_pos 1074

/-- The unit as an integer. -/
theorem cast_unit : ((2 ^ 1074 : ℤ) : ℚ) = 2 ^ 1074 := by
  rw [Int.cast_pow, Int.cast_ofNat]

/-- Values are in the order of their counts of units. -/
theorem value_lt_iff : x.value < y.value ↔ x.units < y.units := by
  rw [value, value, div_lt_div_iff_of_pos_right unit_pos, Int.cast_lt]

/-- Values are in the order of their counts of units. -/
theorem value_le_iff : x.value ≤ y.value ↔ x.units ≤ y.units := by
  rw [← not_lt, value_lt_iff, not_lt]

/-- A number is less than another one if its value is. -/
theorem lt_iff_value_lt : x.lt y = true ↔ x.value < y.value := by
  rw [lt, decide_eq_true_eq, value_lt_iff]

/-- A number is equal to an integer if it has as many units as that. -/
theorem value_eq_intCast_iff {n : ℤ} : x.value = n ↔ x.units = n * 2 ^ 1074 := by
  rw [value, div_eq_iff unit_pos.ne', ← cast_unit, ← Int.cast_mul, Int.cast_inj]

/-- The integer of a number is the one that it is equal to. -/
theorem toInt?_eq_some_iff {n : ℤ} : x.toInt? = some n ↔ x.value = n := by
  rw [value_eq_intCast_iff, toInt?]
  have positive : (2 : ℤ) ^ 1074 ≠ 0 := pow_ne_zero _ two_ne_zero
  -- The unit is made opaque, or it would be computed.
  generalize (2 : ℤ) ^ 1074 = unit at positive
  constructor
  · intro h
    split at h
    · next whole =>
      cases h
      exact (Int.ediv_mul_cancel (Int.dvd_of_emod_eq_zero whole)).symm
    · cases h
  · rintro units
    rw [units, Int.mul_emod_left, if_pos rfl, Int.mul_ediv_cancel _ positive]

/-! ## The total order -/

/-- Two zeros of different signs. -/
def OppositeZeros (x y : Binary64) : Prop :=
  x.magnitude = 0 ∧ y.magnitude = 0 ∧ x.negative ≠ y.negative

instance (x y : Binary64) : Decidable (x.OppositeZeros y) :=
  inferInstanceAs (Decidable (_ ∧ _ ∧ _))

/-- A lesser value comes first. -/
theorem rank_lt_of_value_lt (h : x.value < y.value) : x.rank < y.rank := by
  rw [value_lt_iff] at h
  obtain ⟨xs, m, _⟩ := x
  obtain ⟨ys, n, _⟩ := y
  have below : unitsOf m < unitsOf n ↔ m < n := unitsOf_strictMono.lt_iff_lt
  have above : unitsOf n < unitsOf m ↔ n < m := unitsOf_strictMono.lt_iff_lt
  cases xs <;> cases ys <;>
    simp only [units, rank, Bool.false_eq_true, if_true, if_false] at h ⊢ <;>
    omega

/-- Numbers of the same value are the same, unless they are zeros of different signs. -/
theorem eq_of_value_eq (h : x.value = y.value) (notZeros : ¬ x.OppositeZeros y) : x = y := by
  have units : x.units = y.units :=
    le_antisymm (value_le_iff.1 h.le) (value_le_iff.1 h.ge)
  obtain ⟨xs, m, _⟩ := x
  obtain ⟨ys, n, _⟩ := y
  have same : unitsOf m = unitsOf n ↔ m = n := unitsOf_strictMono.injective.eq_iff
  have zero (k : ℕ) : unitsOf k = 0 ↔ k = 0 := unitsOf_strictMono.injective.eq_iff' unitsOf_zero
  have zeroM := zero m
  have zeroN := zero n
  cases xs <;> cases ys <;>
    simp [Binary64.units, OppositeZeros] at units notZeros ⊢ <;> omega

/-- Numbers are in the order of their values, unless they are zeros of different signs. -/
theorem totalOrder_eq_compare (notZeros : ¬ x.OppositeZeros y) :
    x.totalOrder y = compare x.value y.value := by
  rw [totalOrder]
  rcases lt_trichotomy x.value y.value with lt | eq | gt
  · rw [compare_lt_iff_lt.2 lt, compare_lt_iff_lt]
    exact rank_lt_of_value_lt lt
  · rw [compare_eq_iff_eq.2 eq, compare_eq_iff_eq, eq_of_value_eq eq notZeros]
  · rw [compare_gt_iff_gt.2 gt, compare_gt_iff_gt]
    exact rank_lt_of_value_lt gt

/-- Of two zeros of different signs the negative one comes first. -/
theorem totalOrder_of_oppositeZeros (zeros : x.OppositeZeros y) :
    x.totalOrder y = if x.negative then .lt else .gt := by
  obtain ⟨xs, m, _⟩ := x
  obtain ⟨ys, n, _⟩ := y
  obtain ⟨rfl, rfl, different⟩ := zeros
  cases xs <;> cases ys
  · exact absurd rfl different
  · rfl
  · rfl
  · exact absurd rfl different

/-- Zeros have the value zero. -/
theorem value_eq_zero_of_magnitude (zero : x.magnitude = 0) : x.value = 0 := by
  obtain ⟨sign, m, _⟩ := x
  cases zero
  cases sign <;> simp [value, units]

/-! ## Integers -/

/-- Rounding an integer to a binary64 number does not take it below a power of two. -/
theorem le_value_of_ofInt? {n : ℤ} {e : ℕ} (h : 2 ^ e ≤ n) (rounded : ofInt? n = some x) :
    (2 ^ e : ℤ) ≤ x.value := by
  have nonneg : 0 ≤ n := (pow_pos two_pos e).le.trans h
  have natural : 2 ^ e ≤ n.natAbs := by
    rw [← Int.natAbs_of_nonneg nonneg] at h
    exact_mod_cast h
  -- The exponent is made opaque, or the power would be computed.
  have shift {k : ℕ} (hk : k = 1074) : 52 + (e + 1022) = e + k := by omega
  have magnitude {k : ℕ} (hk : k = 1074) :
      (e + 1022 + 1) * 2 ^ 52 ≤ nearestMagnitude (n.natAbs * 2 ^ k) 1 := by
    refine le_nearestMagnitude_of_pow_le Nat.one_pos ?_
    rw [Nat.mul_one, shift hk, pow_add]
    exact Nat.mul_le_mul_right _ natural
  rw [ofInt?, ofMagnitude?, decide_eq_false (not_lt.2 nonneg)] at rounded
  generalize exponent : 1074 = k at rounded
  have units := unitsOf_strictMono.monotone (magnitude exponent.symm)
  rw [unitsOf_two_pow, shift exponent.symm] at units
  split at rounded
  · cases rounded
    have whole := Int.ofNat_le.2 units
    rw [Int.natCast_pow, pow_add] at whole
    rw [value, le_div_iff₀ unit_pos, ← cast_unit, ← Int.cast_mul, Int.cast_le, exponent]
    exact whole
  · cases rounded

end CatalogSearch.Binary64
