import CatalogSearch.Proofs.Encoding.Form

/-!
# Path segments are read back

A text that is written as one segment of a path consists of unreserved characters and escapes, so
nothing in it ends the segment or the path, and it is read back as the text whatever is in that.

* `Percent.escaped_encodeSegment` : what a segment is written with;
* `Percent.decodeSegment?_encodeSegment` : a segment is read back.
-/

namespace CatalogSearch.Percent

/-! ## Escaped texts -/

/-- Whether a character is unreserved in URLs: a letter, a digit, or one of four marks. -/
def IsUnreservedChar (c : Char) : Prop :=
  c.isAlphanum = true ∨ c ∈ ['-', '.', '_', '~']

/-- Whether a character is a hexadecimal digit in upper case. -/
def IsHexDigit (c : Char) : Prop :=
  c.isDigit = true ∨ c ∈ ['A', 'B', 'C', 'D', 'E', 'F']

instance (c : Char) : Decidable (IsUnreservedChar c) :=
  inferInstanceAs (Decidable (c.isAlphanum = true ∨ c ∈ ['-', '.', '_', '~']))

instance (c : Char) : Decidable (IsHexDigit c) :=
  inferInstanceAs (Decidable (c.isDigit = true ∨ c ∈ ['A', 'B', 'C', 'D', 'E', 'F']))

/-- Rows of unreserved characters and of escapes, each of which has two digits. -/
inductive Escaped : List Char → Prop
  | nil : Escaped []
  | plain {c : Char} {rest : List Char} (unreserved : IsUnreservedChar c) (escaped : Escaped rest) :
      Escaped (c :: rest)
  | escape {high low : Char} {rest : List Char} (hhigh : IsHexDigit high) (hlow : IsHexDigit low)
      (escaped : Escaped rest) : Escaped ('%' :: high :: low :: rest)

/-- An escaped row has no other characters. -/
theorem Escaped.notMem {c : Char} (reserved : ¬ IsUnreservedChar c) (noSign : c ≠ '%')
    (noDigit : ¬ IsHexDigit c) {cs : List Char} (escaped : Escaped cs) : c ∉ cs := by
  induction escaped with
  | nil => exact List.not_mem_nil
  | plain unreserved _ ih =>
    rw [List.mem_cons, not_or]
    exact ⟨fun same => reserved (same ▸ unreserved), ih⟩
  | escape hhigh hlow _ ih =>
    rw [List.mem_cons, List.mem_cons, List.mem_cons, not_or, not_or, not_or]
    exact ⟨noSign, fun same => noDigit (same ▸ hhigh), fun same => noDigit (same ▸ hlow), ih⟩

/-! ## One byte -/

/-- A hexadecimal digit is one in upper case. -/
theorem isHexDigit_hexDigit {n : Nat} (h : n < 16) : IsHexDigit (hexDigit n) := by
  have all : ∀ n < 16, IsHexDigit (hexDigit n) := by decide
  exact all n h

/-- A byte that is written as itself is an unreserved character of one byte. -/
theorem unreserved_ofNat {b : UInt8} (h : isUnreserved b = true) :
    IsUnreservedChar (Char.ofNat b.toNat) ∧ b.toNat < 128 ∧ b ≠ 37 := by
  have all : ∀ n < 256, isUnreserved (.ofNat n) = true →
      IsUnreservedChar (Char.ofNat n) ∧ n < 128 ∧ n ≠ 37 := by decide +kernel
  obtain ⟨unreserved, ascii, noSign⟩ := all b.toNat b.toNat_lt_size (by rwa [UInt8.ofNat_toNat])
  exact ⟨unreserved, ascii, fun same => noSign (congrArg UInt8.toNat same)⟩

/-- In front of an escaped row a byte makes another one. -/
theorem Escaped.segmentByte {rest : List Char} (escaped : Escaped rest) (b : UInt8) :
    Escaped (segmentByte b ++ rest) := by
  rw [Percent.segmentByte]
  split
  · next unreserved => exact .plain (unreserved_ofNat unreserved).1 escaped
  · have size : b.toNat < 256 := b.toNat_lt_size
    exact .escape (isHexDigit_hexDigit (by omega)) (isHexDigit_hexDigit (by omega)) escaped

/-- Each byte is read back, whatever follows. -/
theorem unescape_segmentByte (b : UInt8) (rest : List Char) :
    unescape (Utf8.encodeChars (segmentByte b ++ rest))
      = b :: unescape (Utf8.encodeChars rest) := by
  rw [segmentByte]
  split
  · next unreserved =>
    obtain ⟨_, ascii, noSign⟩ := unreserved_ofNat unreserved
    rw [List.singleton_append, encodeChars_ofNat ascii, UInt8.ofNat_toNat,
      unescape_cons_of_ne noSign]
  · obtain ⟨high, low, chars, plain, back⟩ := exists_escape b
    have bytes {n : Nat} (mem : n ∈ [37, high, low]) (rest : List Char) :
        Utf8.encodeChars (Char.ofNat n :: rest) = .ofNat n :: Utf8.encodeChars rest :=
      encodeChars_ofNat (plain n mem).1 rest
    rw [chars, List.cons_append, List.cons_append, List.cons_append, List.nil_append,
      bytes (by simp), bytes (by simp), bytes (by simp)]
    exact back (Utf8.encodeChars rest)

/-! ## Segments -/

/-- A segment consists of unreserved characters and escapes. -/
theorem escaped_encodeSegment (s : String) : Escaped (encodeSegment s).toList := by
  rw [encodeSegment, String.toList_ofList]
  induction Utf8.encode s with
  | nil => exact .nil
  | cons b row ih => exact ih.segmentByte b

/-- Nothing in a segment ends it. -/
theorem notMem_encodeSegment {c : Char} (ends : c ∈ ['/', '?', '#', ' ']) (s : String) :
    c ∉ (encodeSegment s).toList := by
  have apart : ¬ IsUnreservedChar c ∧ c ≠ '%' ∧ ¬ IsHexDigit c := by
    simp only [List.mem_cons, List.not_mem_nil, or_false] at ends
    rcases ends with rfl | rfl | rfl | rfl <;> decide
  obtain ⟨reserved, noSign, noDigit⟩ := apart
  exact (escaped_encodeSegment s).notMem reserved noSign noDigit

/-- A segment is read back as the text that it was written from. -/
theorem decodeSegment?_encodeSegment (s : String) : decodeSegment? (encodeSegment s) = some s := by
  have bytes : ∀ row : List UInt8,
      unescape (Utf8.encodeChars (row.flatMap segmentByte)) = row := by
    intro row
    induction row with
    | nil => rfl
    | cons b row ih => rw [List.flatMap_cons, unescape_segmentByte, ih]
  rw [decodeSegment?, encodeSegment, Utf8.encode, String.toList_ofList, bytes, Utf8.decode?,
    Utf8.encode, Utf8.decodeChars?_encodeChars, Option.map_some, String.ofList_toList]

end CatalogSearch.Percent
