import CatalogSearch.Encoding.Percent
import CatalogSearch.Proofs.Encoding.Utf8
import CatalogSearch.Proofs.Text.Split

/-!
# Forms are read back

A query string says the entries that it was written from, whatever characters are in them. Names and
values are written byte by byte, each byte is read back by itself, and none of them is written with
one of the characters that separate entries.

* `Percent.decodeFormText_encodeFormText` : a name or a value is read back;
* `Percent.decodeForm_encodeForm` : a list of entries is read back.
-/

namespace CatalogSearch.Percent

/-! ## One byte -/

/-- A character of one byte has the number of that byte. -/
theorem toNat_ofNat {n : Nat} (ascii : n < 128) : (Char.ofNat n).toNat = n := by
  have valid : n.isValidChar := Or.inl (by omega)
  rw [Char.ofNat, dif_pos valid]
  exact UInt32.toNat_ofNatLT

/-- A character of one byte is encoded as that byte. -/
theorem encodeChars_ofNat {n : Nat} (ascii : n < 128) (rest : List Char) :
    Utf8.encodeChars (Char.ofNat n :: rest) = .ofNat n :: Utf8.encodeChars rest := by
  have value : (Char.ofNat n).val.toNat = n := toNat_ofNat ascii
  have one : String.utf8EncodeChar (Char.ofNat n) = [.ofNat n] := by
    rw [String.utf8EncodeChar, value, if_pos (by omega)]
  rw [Utf8.encodeChars, List.flatMap_cons, one]
  rfl

/-- A byte that is no percent sign stands for itself. -/
theorem unescape_cons_of_ne {b : UInt8} (h : b ≠ 37) (rest : List UInt8) :
    unescape (b :: rest) = b :: unescape rest := by
  rw [unescape.eq_def]
  split
  · next same => exact absurd (List.cons.inj same).1 h
  · next same =>
    obtain ⟨rfl, rfl⟩ := List.cons.inj same
    rfl
  · next same => cases same

/-- A hexadecimal digit is a character of one byte, which has the value of the digit. -/
theorem exists_hexDigit {n : Nat} (h : n < 16) :
    ∃ code, hexDigit n = Char.ofNat code ∧ code < 128 ∧ code ∉ [35, 38, 43, 61]
      ∧ hexValue? (.ofNat code) = some n := by
  have all : ∀ n < 16, hexDigit n = Char.ofNat (if n < 10 then 48 + n else 55 + n)
      ∧ (if n < 10 then 48 + n else 55 + n) < 128
      ∧ (if n < 10 then 48 + n else 55 + n) ∉ [35, 38, 43, 61]
      ∧ hexValue? (.ofNat (if n < 10 then 48 + n else 55 + n)) = some n := by decide
  exact ⟨_, all n h⟩

/--
An escape is written with characters of one byte, none of which means anything in a query string,
and it is read back as the byte that it stands for, whatever follows.
-/
theorem exists_escape (b : UInt8) :
    ∃ high low, escape b = [Char.ofNat 37, Char.ofNat high, Char.ofNat low]
      ∧ (∀ n ∈ [37, high, low], n < 128 ∧ n ∉ [35, 38, 43, 61])
      ∧ ∀ rest, unescape (37 :: .ofNat high :: .ofNat low :: rest) = b :: unescape rest := by
  have size : b.toNat < 256 := UInt8.toNat_lt_size b
  obtain ⟨high, hhigh, highAscii, highPlain, highValue⟩ :=
    exists_hexDigit (n := b.toNat / 16) (by omega)
  obtain ⟨low, hlow, lowAscii, lowPlain, lowValue⟩ := exists_hexDigit (n := b.toNat % 16) (by omega)
  have whole : b.toNat / 16 * 16 + b.toNat % 16 = b.toNat := by omega
  refine ⟨high, low, ?_, ?_, fun rest => ?_⟩
  · rw [escape, hhigh, hlow]
  · simp only [List.forall_mem_cons, List.not_mem_nil, false_implies, implies_true, and_true]
    exact ⟨⟨by decide, by decide⟩, ⟨highAscii, highPlain⟩, lowAscii, lowPlain⟩
  · rw [unescape, highValue, lowValue]
    simp only [whole, UInt8.ofNat_toNat]

/-- A byte is written as itself, as a plus sign, or as an escape. -/
theorem formByte_cases (b : UInt8) :
    (formByte b = [Char.ofNat b.toNat] ∧ b.toNat < 128 ∧ b.toNat ∉ [35, 37, 38, 43, 61])
      ∨ (b = 32 ∧ formByte b = ['+']) ∨ formByte b = escape b := by
  rw [formByte]
  split
  · next kept =>
    refine Or.inl ⟨rfl, ?_⟩
    simp only [isAlphanumeric, Bool.or_eq_true, Bool.and_eq_true, decide_eq_true_eq,
      UInt8.le_iff_toNat_le, ← UInt8.toNat_inj] at kept
    simp at kept ⊢
    omega
  · split
    · next blank => exact Or.inr (Or.inl ⟨blank, rfl⟩)
    · exact Or.inr (Or.inr rfl)

/-! ## Names and values -/

/-- The bytes of a name or a value, escapes apart: a plus sign is a blank. -/
def formBytes (cs : List Char) : List UInt8 :=
  (Utf8.encodeChars cs).map fun b => if b = 43 then 32 else b

/-- A character of one byte that is no plus sign is that byte. -/
theorem formBytes_ofNat {n : Nat} (ascii : n < 128) (noPlus : n ≠ 43) (rest : List Char) :
    formBytes (Char.ofNat n :: rest) = .ofNat n :: formBytes rest := by
  have byte : UInt8.ofNat n ≠ 43 := by
    rw [Ne, ← UInt8.toNat_inj, UInt8.toNat_ofNat_of_lt' (Nat.lt_trans ascii (by decide))]
    exact noPlus
  rw [formBytes, encodeChars_ofNat ascii, List.map_cons, if_neg byte]
  rfl

/-- Each byte is read back, whatever follows. -/
theorem unescape_formByte (b : UInt8) (rest : List Char) :
    unescape (formBytes (formByte b ++ rest)) = b :: unescape (formBytes rest) := by
  rcases formByte_cases b with ⟨kept, ascii, plain⟩ | ⟨rfl, blank⟩ | escaped
  · simp only [List.mem_cons, List.not_mem_nil, or_false, not_or] at plain
    have noEscape : b ≠ 37 := fun same => plain.2.1 (congrArg UInt8.toNat same)
    rw [kept, List.singleton_append, formBytes_ofNat ascii plain.2.2.2.1, UInt8.ofNat_toNat,
      unescape_cons_of_ne noEscape]
  · rw [blank]
    exact unescape_cons_of_ne (by decide) _
  · obtain ⟨high, low, chars, plain, back⟩ := exists_escape b
    have bytes {n : Nat} (mem : n ∈ [37, high, low]) (rest : List Char) :
        formBytes (Char.ofNat n :: rest) = .ofNat n :: formBytes rest :=
      formBytes_ofNat (plain n mem).1 (fun plus => (plain n mem).2 (by simp [plus])) rest
    rw [escaped, chars, List.cons_append, List.cons_append, List.cons_append, List.nil_append,
      bytes (by simp), bytes (by simp), bytes (by simp)]
    exact back (formBytes rest)

/-- A name or a value is read back. -/
theorem decodeFormText_encodeFormText (s : String) : decodeFormText (encodeFormText s) = s := by
  have bytes : ∀ row : List UInt8, unescape (formBytes (row.flatMap formByte)) = row := by
    intro row
    induction row with
    | nil => rfl
    | cons b row ih => rw [List.flatMap_cons, unescape_formByte, ih]
  have decoded : decodeFormText (encodeFormText s) = Utf8.decodeLossy (Utf8.encode s) :=
    congrArg Utf8.decodeLossy (bytes (Utf8.encode s))
  rw [decoded, Utf8.decodeLossy, Utf8.encode, Utf8.decodeFrom_encodeChars, List.map_map]
  exact (congrArg String.ofList (List.map_id s.toList)).trans String.ofList_toList

/-- No character of a written byte separates entries or ends a query string. -/
theorem notMem_formByte {c : Char} (separator : c ∈ ['#', '&', '=']) (b : UInt8) :
    c ∉ formByte b := by
  have code : c.toNat ∈ [35, 38, 61] := List.mem_map_of_mem (f := Char.toNat) separator
  -- A character with such a number is none of those that a byte is written with.
  have differs {n : Nat} (ascii : n < 128) (plain : n ∉ [35, 38, 61]) : c ≠ Char.ofNat n := by
    rintro rfl
    rw [toNat_ofNat ascii] at code
    exact plain code
  rcases formByte_cases b with ⟨kept, ascii, plain⟩ | ⟨_, blank⟩ | escaped
  · rw [kept, List.mem_singleton]
    exact differs ascii fun mem => plain (by simp at mem ⊢; omega)
  · rw [blank, List.mem_singleton]
    exact differs (n := 43) (by decide) (by decide)
  · obtain ⟨high, low, chars, plain, _⟩ := exists_escape b
    rw [escaped, chars]
    intro mem
    obtain ⟨n, hn, same⟩ : ∃ n ∈ [37, high, low], Char.ofNat n = c := List.mem_map.1 mem
    refine differs (plain n hn).1 (fun separates => (plain n hn).2 ?_) same.symm
    simp at separates ⊢
    omega

/-- No name or value is written with a character that separates entries or ends a query string. -/
theorem notMem_encodeFormText {c : Char} (separator : c ∈ ['#', '&', '=']) (s : String) :
    c ∉ encodeFormText s := by
  intro mem
  obtain ⟨b, _, mem⟩ := List.mem_flatMap.1 mem
  exact notMem_formByte separator b mem

/-! ## Entries -/

/-- An entry as it is written. -/
def encodeEntry (entry : String × String) : List Char :=
  encodeFormText entry.1 ++ '=' :: encodeFormText entry.2

/-- An entry as it is read. -/
def decodeEntry (piece : List Char) : String × String :=
  (decodeFormText (piece.span (· ≠ '=')).1, decodeFormText ((piece.span (· ≠ '=')).2.drop 1))

/-- An entry is read back. -/
theorem decodeEntry_encodeEntry (entry : String × String) :
    decodeEntry (encodeEntry entry) = entry := by
  rw [decodeEntry, encodeEntry, Text.span_append_cons (notMem_encodeFormText (by decide) _)]
  exact Prod.ext (decodeFormText_encodeFormText entry.1) (decodeFormText_encodeFormText entry.2)

/-- An entry is not written with a character that separates entries or ends a query string. -/
theorem notMem_encodeEntry {c : Char} (separator : c ∈ ['#', '&']) (entry : String × String) :
    c ∉ encodeEntry entry := by
  have among : c ∈ ['#', '&', '='] := List.mem_append_left ['='] separator
  have differs : c ≠ '=' := by
    rintro rfl
    exact absurd separator (by decide)
  rw [encodeEntry, List.mem_append, List.mem_cons, not_or, not_or]
  exact ⟨notMem_encodeFormText among _, differs, notMem_encodeFormText among _⟩

/-- A query string has no character that ends it. -/
theorem notMem_encodeForm (entries : List (String × String)) :
    '#' ∉ (encodeForm entries).toList := by
  show '#' ∉ (String.ofList (['&'].intercalate (entries.map encodeEntry))).toList
  rw [String.toList_ofList]
  refine Text.notMem_intercalate (by decide) fun piece mem => ?_
  obtain ⟨entry, _, rfl⟩ := List.mem_map.1 mem
  exact notMem_encodeEntry (by decide) entry

/-- The entries of a query string are those that it was written from. -/
theorem decodeForm_encodeForm (entries : List (String × String)) :
    decodeForm (encodeForm entries) = entries := by
  show (((Text.splitChars '&' (String.ofList (['&'].intercalate (entries.map encodeEntry))).toList)
    ).filter (!·.isEmpty)).map decodeEntry = entries
  rw [String.toList_ofList]
  cases entries with
  | nil => rfl
  | cons entry entries =>
    have apart : ∀ piece ∈ (entry :: entries).map encodeEntry, '&' ∉ piece := by
      intro piece mem
      obtain ⟨written, _, rfl⟩ := List.mem_map.1 mem
      exact notMem_encodeEntry (by decide) written
    have some : ∀ piece ∈ (entry :: entries).map encodeEntry, (!piece.isEmpty) = true := by
      intro piece mem
      obtain ⟨written, _, rfl⟩ := List.mem_map.1 mem
      simp [encodeEntry]
    rw [Text.splitChars_intercalate (mt List.map_eq_nil_iff.1 (List.cons_ne_nil _ _)) apart,
      List.filter_eq_self.2 some, List.map_map]
    exact (List.map_congr_left fun written _ => decodeEntry_encodeEntry written).trans
      (List.map_id _)

end CatalogSearch.Percent
