import CatalogSearch.Field
import CatalogSearch.Proofs.Timestamp.Rfc3339

/-!
# Field values read back

A value that was coerced is written in a form of its own, which need not be the one it was coerced
from: instants are written in UTC and whole floats as floats. What is written is coerced to the same
value, with one exception.

* `FieldValue.coerced_of_ofJson?` : the values that coercion gives;
* `FieldValue.Coerced.ofJson?_toJson` : a value whose year has four digits is read back;
* `FieldValue.Coerced.ofJson?_toJson_eq_none` : an instant in any other year is not read back.
-/

namespace CatalogSearch.FieldValue

/-! ## What coercion gives -/

/-- The values of a type that coercion gives: integers of words, and instants that have a text. -/
inductive Coerced : FieldType → FieldValue → Prop
  | string (s : String) : Coerced .string (string s)
  | integer {n : ℤ} : fitsSigned n = true → Coerced .integer (integer n)
  | float (x : Binary64) : Coerced .float (float x)
  | timestamp {s : String} {t : Timestamp} : Timestamp.ofText s = .ok t →
      Coerced .timestamp (timestamp t)

/-- An integer is accepted if it fits a word. -/
theorem coerced_of_integerInRange? {n : ℤ} {value : FieldValue}
    (h : integerInRange? n = some value) : Coerced .integer value := by
  rw [integerInRange?] at h
  split at h
  · next fits =>
    cases h
    exact .integer fits
  · cases h

/-- A whole number is accepted if its integer fits a word. -/
theorem coerced_of_wholeInRange? {x : Binary64} {value : FieldValue}
    (h : wholeInRange? x = some value) : Coerced .integer value := by
  obtain ⟨n, _, h⟩ := Option.bind_eq_some_iff.1 h
  exact coerced_of_integerInRange? h

/-- A text is accepted as an instant if it can be read as one. -/
theorem coerced_of_ofText {s : String} {value : FieldValue}
    (h : (Timestamp.ofText s).toOption.map timestamp = some value) : Coerced .timestamp value := by
  cases read : Timestamp.ofText s with
  | error e =>
    rw [read] at h
    cases h
  | ok t =>
    rw [read] at h
    cases h
    exact .timestamp read

/-- Coercion gives values of these forms only. -/
theorem coerced_of_ofJson? {type : FieldType} {json : Json} {value : FieldValue}
    (h : ofJson? type json = some value) : Coerced type value := by
  unfold ofJson? at h
  split at h
  · cases h
    exact .string _
  · split at h
    · exact coerced_of_integerInRange? h
    · obtain ⟨x, _, h⟩ := Option.bind_eq_some_iff.1 h
      exact coerced_of_wholeInRange? h
  · exact coerced_of_wholeInRange? h
  · obtain ⟨x, _, rfl⟩ := Option.map_eq_some_iff.1 h
    exact .float x
  · cases h
    exact .float _
  · exact coerced_of_ofText h
  · cases h

/-! ## Writing and reading -/

/-- Whether a value can be written with four digits of a year: all but instants far off. -/
def hasFourDigitYear : FieldValue → Bool
  | timestamp t => 0 ≤ t.date.year && t.date.year ≤ 9999
  | _ => true

/-- The years of instants that can be written with four digits. -/
theorem hasFourDigitYear_timestamp {t : Timestamp} :
    (timestamp t).hasFourDigitYear = true ↔ 0 ≤ t.date.year ∧ t.date.year ≤ 9999 := by
  simp [hasFourDigitYear]

/-- A value whose year has four digits is read back. -/
theorem Coerced.ofJson?_toJson {type : FieldType} {value : FieldValue} (h : Coerced type value)
    (year : value.hasFourDigitYear = true) : ofJson? type value.toJson = some value := by
  cases h with
  | string s => rfl
  | @integer n fits =>
    have upTo : n ≤ maxSigned := Int.le_sub_one_of_lt (fitsSigned_iff.1 fits).2
    rw [toJson, ofJson?, if_pos upTo]
    exact if_pos fits
  | float x => rfl
  | timestamp read =>
    have back := Timestamp.ofText_render (Timestamp.second_of_ofText read)
    rw [if_pos (hasFourDigitYear_timestamp.1 year)] at back
    rw [toJson, ofJson?, back]
    rfl

/-- An instant whose year has no four digits is written, but not read. -/
theorem Coerced.ofJson?_toJson_eq_none {type : FieldType} {value : FieldValue}
    (h : Coerced type value) (year : ¬ value.hasFourDigitYear = true) :
    ofJson? type value.toJson = none := by
  cases h with
  | string s => exact absurd rfl year
  | integer fits => exact absurd rfl year
  | float x => exact absurd rfl year
  | timestamp read =>
    have back := Timestamp.ofText_render (Timestamp.second_of_ofText read)
    rw [if_neg (mt hasFourDigitYear_timestamp.2 year)] at back
    rw [toJson, ofJson?, back]
    rfl

/--
A value that was coerced is read back from what it is written as, unless it is an instant whose year
has no four digits in UTC.
-/
theorem ofJson?_toJson_of_ofJson? {type : FieldType} {json : Json} {value : FieldValue}
    (h : ofJson? type json = some value) :
    ofJson? type value.toJson = if value.hasFourDigitYear then some value else none := by
  have coerced := coerced_of_ofJson? h
  split
  · next year => exact coerced.ofJson?_toJson year
  · next year => exact coerced.ofJson?_toJson_eq_none year

/-- An instant of the last hour of the year 9999, west of UTC, lies in the year 10000 in UTC. -/
theorem ofJson?_toJson_of_last_hour :
    ofJson? .timestamp (.str "9999-12-31T23:59:59-01:00")
        = some (timestamp ⟨⟨10000, 1, 1, by decide, by decide⟩, 0, 59, 59, 0, by decide⟩)
      ∧ ofJson? .timestamp
          (timestamp ⟨⟨10000, 1, 1, by decide, by decide⟩, 0, 59, 59, 0, by decide⟩).toJson
        = none := by
  have read : ofJson? .timestamp (.str "9999-12-31T23:59:59-01:00")
      = some (timestamp ⟨⟨10000, 1, 1, by decide, by decide⟩, 0, 59, 59, 0, by decide⟩) := by
    decide +kernel
  exact ⟨read, ofJson?_toJson_of_ofJson? read⟩

end CatalogSearch.FieldValue
