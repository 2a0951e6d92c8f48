import CatalogSearch.Binary64.Decimal
import CatalogSearch.Text.Digits
import Mathlib.Data.List.TakeDrop
import Mathlib.Tactic.Ring

/-!
# Rows of digits read back

* `natOfDigits_digitsOf` : the digits of a number have its value;
* `scanDigits_append` : a row of digits is scanned up to what is no digit;
* `naturalOfText?_toString` : the text of a number of a word says the number.
-/

namespace CatalogSearch.Text

open Binary64 (digitsOf)

/-! ## Values of rows -/

/-- The value of a row of digits, as the core library reads it. -/
theorem natOfDigits_eq (digits : List Char) :
    natOfDigits digits = Nat.ofDigitChars 10 digits 0 := by
  simp only [natOfDigits, Nat.ofDigitChars_eq_foldl, Nat.mul_comm]
  rfl

/-- A row with digits behind it. -/
theorem natOfDigits_append (a b : List Char) :
    natOfDigits (a ++ b) = natOfDigits a * 10 ^ b.length + natOfDigits b := by
  rw [natOfDigits_eq, natOfDigits_eq, natOfDigits_eq, Nat.ofDigitChars_append,
    Nat.ofDigitChars_eq_ofDigitChars_zero, Nat.mul_comm]

/-- Zeros alone say nothing. -/
theorem natOfDigits_replicate_zero (n : ℕ) : natOfDigits (List.replicate n '0') = 0 := by
  rw [natOfDigits_eq, Nat.ofDigitChars_replicate_zero, Nat.mul_zero]

/-- Zeros in front of a row do not count. -/
theorem natOfDigits_zeros_append (n : ℕ) (digits : List Char) :
    natOfDigits (List.replicate n '0' ++ digits) = natOfDigits digits := by
  rw [natOfDigits_append, natOfDigits_replicate_zero, Nat.zero_mul, Nat.zero_add]

/-- Zeros behind a row multiply it. -/
theorem natOfDigits_append_zeros (digits : List Char) (n : ℕ) :
    natOfDigits (digits ++ List.replicate n '0') = natOfDigits digits * 10 ^ n := by
  rw [natOfDigits_append, natOfDigits_replicate_zero, List.length_replicate, Nat.add_zero]

/-- A row of digits says less than the power of ten of its length. -/
theorem natOfDigits_lt {digits : List Char} (h : ∀ c ∈ digits, c.isDigit = true) :
    natOfDigits digits < 10 ^ digits.length := by
  induction digits with
  | nil => exact Nat.one_pos
  | cons c cs ih =>
    have others := ih fun d hd => h d (List.mem_cons_of_mem _ hd)
    have first : c.toNat ≤ 57 := by
      have digit := h c List.mem_cons_self
      simp only [Char.isDigit, Bool.and_eq_true, decide_eq_true_eq] at digit
      exact digit.2
    have value : natOfDigits [c] ≤ 9 := by
      show 0 * 10 + (c.toNat - 48) ≤ 9
      omega
    rw [show c :: cs = [c] ++ cs by rfl, natOfDigits_append, List.length_append,
      List.length_singleton, Nat.pow_add, Nat.pow_one]
    generalize 10 ^ cs.length = power at others
    have scaled := Nat.mul_le_mul_right power value
    omega

/-- The digits of a number have its value. -/
theorem natOfDigits_digitsOf (n : ℕ) : natOfDigits (digitsOf n) = n := by
  rw [natOfDigits_eq]
  exact Nat.ofDigitChars_ten_toDigits

/-! ## Digits of a number -/

/-- The digits of a number are digits. -/
theorem isDigit_of_mem_digitsOf {n : ℕ} {c : Char} (h : c ∈ digitsOf n) : c.isDigit = true :=
  Nat.isDigit_of_mem_toDigits (by decide) (by decide) h

/-- A number has at least one digit. -/
theorem digitsOf_ne_nil (n : ℕ) : digitsOf n ≠ [] :=
  Nat.toDigits_ne_nil

/-- The first digit of a number that is not zero is not zero. -/
theorem exists_digitsOf {n : ℕ} (h : 0 < n) : ∃ c cs, digitsOf n = c :: cs ∧ c ≠ '0' := by
  induction n using Nat.strongRecOn with
  | ind n ih =>
    rw [digitsOf, Nat.toDigits_eq_if (by decide)]
    split
    · next small =>
      have nonzero : ∀ d < 10, 0 < d → Nat.digitChar d ≠ '0' := by decide
      exact ⟨_, [], rfl, nonzero n small h⟩
    · next large =>
      obtain ⟨c, cs, front, nonzero⟩ := ih (n / 10) (by omega) (by omega)
      rw [digitsOf] at front
      exact ⟨c, cs ++ [Nat.digitChar (n % 10)], by rw [front, List.cons_append], nonzero⟩

/-! ## Scanning -/

/-- A row of digits that stands before something else. -/
theorem span_append {digits rest : List Char} (hdigits : ∀ c ∈ digits, c.isDigit = true)
    (hrest : rest.head?.any Char.isDigit = false) :
    (digits ++ rest).span Char.isDigit = (digits, rest) := by
  have stops : rest.takeWhile Char.isDigit = [] ∧ rest.dropWhile Char.isDigit = rest := by
    cases rest with
    | nil => exact ⟨rfl, rfl⟩
    | cons c rest =>
      have other : ¬ c.isDigit = true := by simpa using hrest
      exact ⟨List.takeWhile_cons_of_neg other, List.dropWhile_cons_of_neg other⟩
  rw [List.span_eq_takeWhile_dropWhile, List.takeWhile_append_of_pos hdigits,
    List.dropWhile_append_of_pos hdigits, stops.1, stops.2, List.append_nil]

/-- A row of digits is scanned up to what is no digit. -/
theorem scanDigits_append {digits rest : List Char} (nonempty : digits ≠ [])
    (hdigits : ∀ c ∈ digits, c.isDigit = true) (hrest : rest.head?.any Char.isDigit = false) :
    scanDigits (digits ++ rest) = some (digits, rest) := by
  rw [scanDigits, span_append hdigits hrest]
  cases digits with
  | nil => exact absurd rfl nonempty
  | cons c digits => rfl

/-- The digits of a number are scanned up to what is no digit. -/
theorem scanDigits_digitsOf (n : ℕ) {rest : List Char}
    (hrest : rest.head?.any Char.isDigit = false) :
    scanDigits (digitsOf n ++ rest) = some (digitsOf n, rest) :=
  scanDigits_append (digitsOf_ne_nil n) (fun _ => isDigit_of_mem_digitsOf) hrest

/-- What starts with a digit has no sign. -/
theorem splitSign_of_isDigit {c : Char} (digit : c.isDigit = true) (cs : List Char) :
    splitSign (c :: cs) = (false, c :: cs) := by
  rw [splitSign.eq_def]
  split
  · next same =>
    rw [(List.cons.inj same).1] at digit
    cases digit
  · next same =>
    rw [(List.cons.inj same).1] at digit
    cases digit
  · rfl

/-! ## Texts of integers -/

/-- The text of a number of a word says the number. -/
theorem naturalOfText?_toString {n : ℕ} (h : n ≤ maxWord) :
    naturalOfText? (toString n) = some n := by
  have text : (toString n).toList = digitsOf n := String.toList_ofList
  obtain ⟨c, cs, digits⟩ := List.exists_cons_of_ne_nil (digitsOf_ne_nil n)
  have digit : c.isDigit = true := isDigit_of_mem_digitsOf (digits ▸ List.mem_cons_self)
  have unsigned : splitSign (digitsOf n) = (false, digitsOf n) := by
    rw [digits, splitSign_of_isDigit digit]
  have scanned : scanDigits (digitsOf n) = some (digitsOf n, []) := by
    have noMore : ([] : List Char).head?.any Char.isDigit = false := rfl
    have found := scanDigits_digitsOf n noMore
    rwa [List.append_nil] at found
  have value : decimalOfText? (toString n) = some (n : ℤ) := by
    simp only [decimalOfText?, scanSigned, text, unsigned, scanned, Option.map_some,
      natOfDigits_digitsOf]
    rfl
  simp only [naturalOfText?, text, value]
  split
  · next same =>
    rw [(List.cons.inj (digits.symm.trans same)).1] at digit
    cases digit
  · simp [h]

/-- A number that a text says fits a word. -/
theorem le_maxWord_of_naturalOfText? {s : String} {n : ℕ} (h : naturalOfText? s = some n) :
    n ≤ maxWord := by
  unfold naturalOfText? at h
  split at h
  · cases h
  · exact of_decide_eq_true (Option.filter_eq_some_iff.1 h).2

end CatalogSearch.Text
