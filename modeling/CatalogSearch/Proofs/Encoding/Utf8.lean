import CatalogSearch.Encoding.Utf8

/-!
# UTF-8 reads back what it writes

* `Utf8.decodeChars?_encodeChars` : decoding the bytes of a row of characters gives the characters;
* `Utf8.utf8ByteSize_ofList` : the size of a text is the number of its bytes.
-/

namespace CatalogSearch.Utf8

/-! ## Bytes of one character -/

/-- The next byte of a character that has a number of bytes to come. -/
theorem decodeFrom_pending {bits more low high b : Nat} (hb : b < 256) (hlow : low ≤ b)
    (hhigh : b ≤ high) (bytes : List UInt8) :
    decodeFrom (some ⟨bits, more + 1, low, high⟩) (.ofNat b :: bytes)
      = decodeFrom (some ⟨bits * 64 + b % 64, more, 0x80, 0xBF⟩) bytes := by
  have same : (UInt8.ofNat b).toNat = b := UInt8.toNat_ofNat_of_lt' hb
  simp [decodeFrom, same, hlow, hhigh]

/-- The last byte of a character. -/
theorem decodeFrom_last {bits low high b : Nat} (hb : b < 256) (hlow : low ≤ b)
    (hhigh : b ≤ high) (bytes : List UInt8) :
    decodeFrom (some ⟨bits, 0, low, high⟩) (.ofNat b :: bytes)
      = some (Char.ofNat (bits * 64 + b % 64)) :: decodeFrom none bytes := by
  have same : (UInt8.ofNat b).toNat = b := UInt8.toNat_ofNat_of_lt' hb
  simp [decodeFrom, same, hlow, hhigh]

/-- The first byte of a character. -/
theorem decodeFrom_start {b : Nat} (hb : b < 256) (bytes : List UInt8) :
    decodeFrom none (.ofNat b :: bytes) = (startAt b).1 ++ decodeFrom (startAt b).2 bytes := by
  have same : (UInt8.ofNat b).toNat = b := UInt8.toNat_ofNat_of_lt' hb
  simp [decodeFrom, same]

/-- The first of two bytes. -/
theorem startAt_two {v : Nat} (hlow : 0x7F < v) (hhigh : v ≤ 0x7FF) :
    startAt (v / 64 % 32 + 0xC0) = ([], some ⟨v / 64, 0, 0x80, 0xBF⟩) := by
  have bits : v / 64 % 32 + 0xC0 - 0xC0 = v / 64 := by omega
  rw [startAt, if_neg (by omega), if_pos (by omega), bits]

/-- The first of three bytes. The second one has no room for surrogates. -/
theorem startAt_three {v : Nat} (hlow : 0x7FF < v) (hhigh : v ≤ 0xFFFF)
    (valid : v < 0xD800 ∨ 0xDFFF < v) :
    ∃ low high, startAt (v / 4096 % 16 + 0xE0) = ([], some ⟨v / 4096, 1, low, high⟩)
      ∧ low ≤ v / 64 % 64 + 0x80 ∧ v / 64 % 64 + 0x80 ≤ high := by
  have bits : v / 4096 % 16 + 0xE0 - 0xE0 = v / 4096 := by omega
  by_cases first : v / 4096 = 0
  · refine ⟨0xA0, 0xBF, ?_, by omega, by omega⟩
    rw [first]
    rfl
  · by_cases surrogate : v / 4096 = 13
    · refine ⟨0x80, 0x9F, ?_, by omega, by omega⟩
      rw [surrogate]
      rfl
    · refine ⟨0x80, 0xBF, ?_, by omega, by omega⟩
      rw [startAt, if_neg (by omega), if_neg (by omega), if_neg (by omega), if_neg (by omega),
        if_pos (by omega), bits]

/-- The first of four bytes. -/
theorem startAt_four {v : Nat} (hlow : 0xFFFF < v) (hhigh : v < 0x110000) :
    ∃ low high, startAt (v / 262144 % 8 + 0xF0) = ([], some ⟨v / 262144, 2, low, high⟩)
      ∧ low ≤ v / 4096 % 64 + 0x80 ∧ v / 4096 % 64 + 0x80 ≤ high := by
  have bits : v / 262144 % 8 + 0xF0 - 0xF0 = v / 262144 := by omega
  by_cases first : v / 262144 = 0
  · refine ⟨0x90, 0xBF, ?_, by omega, by omega⟩
    rw [first]
    rfl
  · by_cases last : v / 262144 = 4
    · refine ⟨0x80, 0x8F, ?_, by omega, by omega⟩
      rw [last]
      rfl
    · refine ⟨0x80, 0xBF, ?_, by omega, by omega⟩
      rw [startAt, if_neg (by omega), if_neg (by omega), if_neg (by omega), if_neg (by omega),
        if_neg (by omega), if_neg (by omega), if_pos (by omega), bits]

/-- The numbers of characters leave out the surrogates and end at `0x10FFFF`. -/
theorem toNat_valid (c : Char) : c.toNat < 0xD800 ∨ 0xDFFF < c.toNat ∧ c.toNat < 0x110000 :=
  c.valid

/-- The bytes of a character read back as the character, whatever follows. -/
theorem decodeFrom_utf8EncodeChar (c : Char) (bytes : List UInt8) :
    decodeFrom none (String.utf8EncodeChar c ++ bytes) = some c :: decodeFrom none bytes := by
  have valid := toNat_valid c
  have back : Char.ofNat c.toNat = c := Char.ofNat_toNat c
  have value : c.val.toNat = c.toNat := rfl
  rw [String.utf8EncodeChar, value]
  generalize c.toNat = v at valid back
  rw [← back]
  -- One case for each number of bytes: a start byte, then continuation bytes up to the last one.
  split
  · rw [List.cons_append, List.nil_append, decodeFrom_start (by omega), startAt, if_pos (by omega)]
    rfl
  · split
    · have bits : v / 64 * 64 + (v % 64 + 0x80) % 64 = v := by omega
      simp only [List.cons_append, List.nil_append]
      rw [decodeFrom_start (by omega), startAt_two (by omega) (by omega), List.nil_append,
        decodeFrom_last (by omega) (by omega) (by omega), bits]
    · split
      · obtain ⟨low, high, start, hlow, hhigh⟩ :=
          startAt_three (v := v) (by omega) (by omega) (by omega)
        have second : v / 4096 * 64 + (v / 64 % 64 + 0x80) % 64 = v / 64 := by omega
        have third : v / 64 * 64 + (v % 64 + 0x80) % 64 = v := by omega
        simp only [List.cons_append, List.nil_append]
        rw [decodeFrom_start (by omega), start, List.nil_append,
          decodeFrom_pending (by omega) hlow hhigh, second,
          decodeFrom_last (by omega) (by omega) (by omega), third]
      · obtain ⟨low, high, start, hlow, hhigh⟩ := startAt_four (v := v) (by omega) (by omega)
        have second : v / 262144 * 64 + (v / 4096 % 64 + 0x80) % 64 = v / 4096 := by omega
        have third : v / 4096 * 64 + (v / 64 % 64 + 0x80) % 64 = v / 64 := by omega
        have fourth : v / 64 * 64 + (v % 64 + 0x80) % 64 = v := by omega
        simp only [List.cons_append, List.nil_append]
        rw [decodeFrom_start (by omega), start, List.nil_append,
          decodeFrom_pending (by omega) hlow hhigh, second,
          decodeFrom_pending (by omega) (by omega) (by omega), third,
          decodeFrom_last (by omega) (by omega) (by omega), fourth]

/-! ## Rows of characters -/

/-- The bytes of a row of characters read back as the characters. -/
theorem decodeFrom_encodeChars (cs : List Char) :
    decodeFrom none (encodeChars cs) = cs.map some := by
  induction cs with
  | nil => rfl
  | cons c cs ih =>
    rw [encodeChars, List.flatMap_cons, decodeFrom_utf8EncodeChar, List.map_cons, ← ih, encodeChars]

/-- Decoding reads back what encoding writes. -/
theorem decodeChars?_encodeChars (cs : List Char) : decodeChars? (encodeChars cs) = some cs := by
  rw [decodeChars?, decodeFrom_encodeChars]
  induction cs with
  | nil => rfl
  | cons c cs ih => simp [ih]

/-! ## Lengths -/

/-- The size of a text is the number of its bytes. -/
theorem utf8ByteSize_ofList (cs : List Char) :
    (String.ofList cs).utf8ByteSize = (encodeChars cs).length := by
  rw [← String.size_toByteArray, String.toByteArray_ofList, List.utf8Encode, encodeChars,
    List.size_toByteArray]

/-- Every character has at least one byte. -/
theorem length_le_length_encodeChars (cs : List Char) : cs.length ≤ (encodeChars cs).length := by
  induction cs with
  | nil => simp
  | cons c cs ih =>
    have size : 0 < c.utf8Size := Char.utf8Size_pos c
    rw [encodeChars, List.flatMap_cons, List.length_append, String.length_utf8EncodeChar,
      ← encodeChars, List.length_cons]
    omega

end CatalogSearch.Utf8
