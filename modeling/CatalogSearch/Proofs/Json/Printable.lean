import CatalogSearch.Proofs.Binary64.Extended
import CatalogSearch.Proofs.Json.Reading

/-!
# JSON text without control characters

The text of a value holds no control character, because strings write those as escapes. So it stays
on one line, whatever the value is.

* `Json.printable_chars` : the text of a value is printable.
-/

namespace CatalogSearch

/-- No character of a text is a control character. -/
def Text.Printable (cs : List Char) : Prop :=
  ∀ c ∈ cs, 0x20 ≤ c.toNat

namespace Text

instance (cs : List Char) : Decidable (Printable cs) :=
  List.decidableBAll (fun c : Char => 0x20 ≤ c.toNat) cs

/-- The empty text is printable. -/
@[simp] theorem printable_nil : Printable [] :=
  fun _ mem => absurd mem List.not_mem_nil

/-- A printable text starts with a printable character. -/
@[simp] theorem printable_cons {c : Char} {cs : List Char} :
    Printable (c :: cs) ↔ 0x20 ≤ c.toNat ∧ Printable cs :=
  List.forall_mem_cons

/-- Two printable texts make one. -/
@[simp] theorem printable_append {cs ds : List Char} :
    Printable (cs ++ ds) ↔ Printable cs ∧ Printable ds :=
  List.forall_mem_append

/-- A printable text has no line break in it. -/
theorem Printable.notMem_newline {cs : List Char} (h : Printable cs) : '\n' ∉ cs := by
  intro mem
  exact absurd (h '\n' mem) (by decide)

/-- A digit is printable. -/
theorem printable_of_isDigit {c : Char} (h : c.isDigit = true) : 0x20 ≤ c.toNat := by
  have bounds : 48 ≤ c.toNat ∧ c.toNat ≤ 57 := by
    simp only [Char.isDigit, Bool.and_eq_true, decide_eq_true_eq] at h
    exact h
  omega

/-- A row of digits is printable. -/
theorem printable_digitsOf (n : ℕ) : Printable (Binary64.digitsOf n) :=
  fun _ mem => printable_of_isDigit (isDigit_of_mem_digitsOf mem)

end Text

namespace Json

open Text (Printable printable_nil printable_cons printable_append)

/-! ## Strings -/

/-- A hexadecimal digit is printable. -/
theorem printable_hexDigit {n : ℕ} (h : n < 16) : 0x20 ≤ (hexDigit n).toNat := by
  have all : ∀ n < 16, 0x20 ≤ (hexDigit n).toNat := by decide
  exact all n h

/-- A character is written as printable ones. -/
theorem printable_escapeChar (c : Char) : Printable (escapeChar c) := by
  unfold escapeChar
  split
  · next letter short =>
    unfold shortEscape? at short
    split at short <;> cases short <;> decide
  · split
    · have high := printable_hexDigit (n := c.toNat / 16) (by omega)
      have low := printable_hexDigit (n := c.toNat % 16) (by omega)
      simp [high, low]
    · next noControl => simpa using noControl

/-- A text between quotes is printable. -/
theorem printable_quote (s : String) : Printable (quote s) := by
  have inside : Printable (s.toList.flatMap escapeChar) := by
    intro c mem
    obtain ⟨d, _, mem⟩ := List.mem_flatMap.1 mem
    exact printable_escapeChar d c mem
  simp [quote, inside]

/-! ## Numbers -/

/-- A numeral is printable. -/
theorem Numeral.WellFormed.printable {n : Numeral} (h : n.WellFormed) : Printable n.written := by
  have whole : Printable n.whole := fun c mem => Text.printable_of_isDigit (h.whole.isDigit c mem)
  have fraction : Printable n.fraction := fun c mem => Text.printable_of_isDigit (h.fraction c mem)
  have sign : Printable n.signChars := by
    unfold signChars
    split <;> decide
  have point : Printable n.fractionChars := by
    unfold fractionChars
    split
    · simp
    · simpa using fraction
  have power : Printable n.exponentChars := by
    unfold exponentChars
    split
    · simp
    · next e _ =>
      have digits := Text.printable_digitsOf e.natAbs
      split <;> simpa using digits
  simp [written, sign, whole, point, power]

/-! ## Values -/

mutual

/-- The text of a value is printable. -/
theorem printable_chars : ∀ {value : Json}, value.FitsWords → Printable value.chars
  | .null, _ => by
    rw [chars]
    decide
  | .bool b, _ => by
    cases b <;>
    · rw [chars]
      decide
  | .int n, h => by
    obtain ⟨numeral, wellFormed, written, _⟩ := exists_numeral_integer h
    rw [chars, ← written]
    exact wellFormed.printable
  | .float x, _ => by
    obtain ⟨numeral, wellFormed, written, _⟩ := exists_numeral_float x
    rw [chars, ← written]
    exact wellFormed.printable
  | .str s, _ => by
    rw [chars]
    exact printable_quote s
  | .arr elements, h => by
    have inside := printable_elementChars (show ElementsFit elements from h)
    simp [chars, inside]
  | .obj members, h => by
    have inside := printable_memberChars (show MembersFit members from h)
    simp [chars, inside]

/-- The text of the elements of an array is printable. -/
theorem printable_elementChars : ∀ {values : List Json}, ElementsFit values →
    Printable (elementChars values)
  | [], _ => by simp [elementChars]
  | [value], h => by
    rw [elementChars]
    exact printable_chars h.1
  | value :: next :: values, h => by
    have first := printable_chars h.1
    have others := printable_elementChars h.2
    simp [elementChars_cons_cons, first, others]

/-- The text of the members of an object is printable. -/
theorem printable_memberChars : ∀ {members : List (String × Json)}, MembersFit members →
    Printable (memberChars members)
  | [], _ => by simp [memberChars]
  | [(name, value)], h => by
    have first := printable_chars h.1
    simp [memberChars, printable_quote, first]
  | (name, value) :: next :: members, h => by
    have first := printable_chars h.1
    have others := printable_memberChars h.2
    have whole : memberChars ((name, value) :: next :: members)
        = quote name ++ ':' :: value.chars ++ ',' :: memberChars (next :: members) := rfl
    simp [whole, printable_quote, first, others]

end

/-- The text of an object starts with a brace. -/
theorem head?_chars_obj (members : List (String × Json)) :
    (obj members).chars.head? = some '\x7b' := by
  rw [chars]
  rfl

end Json

end CatalogSearch
