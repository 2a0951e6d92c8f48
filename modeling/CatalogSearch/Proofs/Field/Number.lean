import CatalogSearch.Field
import CatalogSearch.Proofs.Binary64.Value

/-!
# Numbers as integers

A JSON number that is equal to an integer of a signed word of 64 bits is that integer as a field
value, however it is written. No other number is an integer, and none is rounded to one.

* `FieldValue.wholeInRange?_of_rounded` : an integer past the words stays past them when rounded;
* `FieldValue.ofJson?_integer_int` : so it makes no difference that such an integer is rounded;
* `FieldValue.ofJson?_integer_eq_some_iff` : which integer a JSON value is read as;
* `FieldValue.integer_exactly` : all together.
-/

namespace CatalogSearch

/-- The value of a JSON number. -/
def Json.number? : Json → Option ℚ
  | .int n => some n
  | .float x => some x.value
  | _ => none

namespace FieldValue

/-- An integer is accepted exactly in the range of a signed word. -/
theorem integerInRange?_eq_some_iff {n : ℤ} {value : FieldValue} :
    integerInRange? n = some value ↔ value = integer n ∧ -2 ^ 63 ≤ n ∧ n < 2 ^ 63 := by
  rw [integerInRange?, ← fitsSigned_iff]
  by_cases fits : fitsSigned n = true
  · simp [fits, eq_comm]
  · simp [fits]

/-- A whole number is accepted exactly in the range of a signed word. -/
theorem wholeInRange?_eq_some_iff {x : Binary64} {value : FieldValue} :
    wholeInRange? x = some value
      ↔ ∃ n : ℤ, value = integer n ∧ x.value = n ∧ -2 ^ 63 ≤ n ∧ n < 2 ^ 63 := by
  simp only [wholeInRange?, Option.bind_eq_some_iff, integerInRange?_eq_some_iff,
    Binary64.toInt?_eq_some_iff]
  constructor
  · rintro ⟨n, same, rfl, range⟩
    exact ⟨n, rfl, same, range⟩
  · rintro ⟨n, rfl, same, range⟩
    exact ⟨n, same, rfl, range⟩

/-- The binary64 number nearest to an integer past the signed words is not accepted. -/
theorem wholeInRange?_of_rounded {n : ℤ} {x : Binary64} (past : 2 ^ 63 ≤ n)
    (rounded : Binary64.ofInt? n = some x) : wholeInRange? x = none := by
  rw [Option.eq_none_iff_forall_ne_some]
  intro value read
  obtain ⟨m, _, same, _, below⟩ := wholeInRange?_eq_some_iff.1 read
  have above := Binary64.le_value_of_ofInt? past rounded
  rw [same, Int.cast_le] at above
  omega

/-- An integer is read as itself if it fits a signed word, and otherwise not at all. -/
theorem ofJson?_integer_int (n : ℤ) : ofJson? .integer (.int n) = integerInRange? n := by
  rw [ofJson?]
  split
  · rfl
  · next notUpTo =>
    have past : 2 ^ 63 ≤ n := by
      rw [maxSigned] at notUpTo
      omega
    have refused : integerInRange? n = none := by
      rw [integerInRange?, if_neg]
      rw [fitsSigned_iff]
      omega
    rw [refused, Option.bind_eq_none_iff]
    intro x rounded
    exact wholeInRange?_of_rounded past rounded

/-- A JSON value is read as the integer that it is equal to, if that fits a signed word. -/
theorem ofJson?_integer_eq_some_iff {json : Json} {value : FieldValue} :
    ofJson? .integer json = some value
      ↔ ∃ n : ℤ, value = integer n ∧ json.number? = some (n : ℚ) ∧ -2 ^ 63 ≤ n ∧ n < 2 ^ 63 := by
  cases json with
  | int m =>
    simp only [ofJson?_integer_int, integerInRange?_eq_some_iff, Json.number?, Option.some.injEq,
      Int.cast_inj]
    constructor
    · rintro ⟨rfl, range⟩
      exact ⟨m, rfl, rfl, range⟩
    · rintro ⟨n, rfl, rfl, range⟩
      exact ⟨rfl, range⟩
  | float x => simp only [ofJson?, wholeInRange?_eq_some_iff, Json.number?, Option.some.injEq]
  | _ => simp [ofJson?, Json.number?]

/--
A JSON value is read as an integer exactly if it is a number equal to an integer of a signed word,
and then as that integer. An integer past the words is no integer after rounding either.
-/
theorem integer_exactly (json : Json) :
    (∀ value, ofJson? .integer json = some value
      ↔ ∃ n : ℤ, value = integer n ∧ json.number? = some (n : ℚ) ∧ -2 ^ 63 ≤ n ∧ n < 2 ^ 63)
    ∧ (ofJson? .integer json = none
      ↔ ∀ n : ℤ, json.number? = some (n : ℚ) → ¬ (-2 ^ 63 ≤ n ∧ n < 2 ^ 63))
    ∧ ∀ (n : ℤ) (x : Binary64), json = .int n → 2 ^ 63 ≤ n → json.binary64? = some x →
        ofJson? .integer (.float x) = none := by
  refine ⟨fun value => ofJson?_integer_eq_some_iff, ?_, ?_⟩
  · rw [Option.eq_none_iff_forall_ne_some]
    constructor
    · intro refused n number range
      exact refused _ (ofJson?_integer_eq_some_iff.2 ⟨n, rfl, number, range⟩)
    · intro noInteger value read
      obtain ⟨n, _, number, range⟩ := ofJson?_integer_eq_some_iff.1 read
      exact noInteger n number range
  · rintro n x rfl past rounded
    exact wholeInRange?_of_rounded past rounded

end FieldValue

end CatalogSearch
