import CatalogSearch.Proofs.Encoding.Utf8
import CatalogSearch.Proofs.Json.Number

/-!
# JSON text read back

The text of a value reads as that value, as far as its integers fit words: others would come back
as binary64 numbers.

* `scanString_quote` : a quoted text is scanned up to its closing quote;
* `readValue_chars` : a value is read up to what is behind it;
* `Document.ofChars_chars` : the text of a value reads as the value and nothing behind it.
-/

namespace CatalogSearch.Json

/-! ## Strings -/

/-- Two hexadecimal digits behind two zeros give back a control character. -/
theorem unitOfHex?_hexDigit {n : ℕ} (h : n < 0x20) :
    unitOfHex? '0' '0' (hexDigit (n / 16)) (hexDigit (n % 16)) = some n := by
  have all : ∀ n < 0x20, unitOfHex? '0' '0' (hexDigit (n / 16)) (hexDigit (n % 16)) = some n := by
    decide
  exact all n h

/-- A short escape stands for the character that it was chosen for. -/
theorem escapeOf?_shortEscape? {c letter : Char} (h : shortEscape? c = some letter) :
    letter ≠ 'u' ∧ escapeOf? letter = some c := by
  unfold shortEscape? at h
  split at h <;> cases h
  all_goals exact ⟨by decide, rfl⟩

/-- A character without a short escape is neither quote nor backslash. -/
theorem ne_of_shortEscape?_eq_none {c : Char} (h : shortEscape? c = none) : c ≠ '"' ∧ c ≠ '\\' := by
  constructor
  · rintro rfl
    cases h
  · rintro rfl
    cases h

/-- A character between quotes is scanned as its number. -/
theorem scanString_escapeChar (c : Char) (rest : List Char) :
    scanString (escapeChar c ++ rest)
      = (scanString rest).map fun scanned => (c.toNat :: scanned.1, scanned.2) := by
  rw [escapeChar]
  split
  · next letter short =>
    obtain ⟨other, char⟩ := escapeOf?_shortEscape? short
    show scanString ('\\' :: letter :: rest) = _
    rw [scanString, char]
    · cases scanString rest <;> rfl
    · intro _ _ _ _ _ same
      exact absurd same other
  · next plain =>
    obtain ⟨noQuote, noBackslash⟩ := ne_of_shortEscape?_eq_none plain
    split
    · next control =>
      show scanString ('\\' :: 'u' :: '0' :: '0' :: hexDigit (c.toNat / 16)
        :: hexDigit (c.toNat % 16) :: rest) = _
      rw [scanString, unitOfHex?_hexDigit control]
      cases scanString rest <;> rfl
    · next visible =>
      show scanString (c :: rest) = _
      rw [scanString, if_neg (by simp [visible, noBackslash])]
      · cases scanString rest <;> rfl
      all_goals simp [noQuote, noBackslash]

/-- A quoted text is scanned up to its closing quote. -/
theorem scanString_quote (cs rest : List Char) :
    scanString (cs.flatMap escapeChar ++ '"' :: rest) = some (cs.map Char.toNat, rest) := by
  induction cs with
  | nil => rfl
  | cons c cs ih =>
    rw [List.flatMap_cons, List.append_assoc, scanString_escapeChar, ih]
    rfl

/-- The numbers of characters are no surrogates. -/
theorem pairSurrogates_cons (c : Char) (points : List ℕ) :
    pairSurrogates (c.toNat :: points) = (pairSurrogates points).map (c :: ·) := by
  have valid := Utf8.toNat_valid c
  cases points with
  | nil =>
    have paired : ¬ (0xD800 ≤ c.toNat ∧ c.toNat < 0xE000) := by omega
    simp only [pairSurrogates, if_neg paired, Char.ofNat_toNat, Option.map_some]
  | cons next points =>
    rw [pairSurrogates, if_neg (by omega), if_neg (by omega), Char.ofNat_toNat]
    cases pairSurrogates (next :: points) <;> rfl

/-- The numbers of characters give back the characters. -/
theorem pairSurrogates_map_toNat (cs : List Char) :
    pairSurrogates (cs.map Char.toNat) = some cs := by
  induction cs with
  | nil => rfl
  | cons c cs ih =>
    rw [List.map_cons, pairSurrogates_cons, ih]
    rfl

/-- The numbers of the characters of a text give back the text. -/
theorem pairSurrogates_text (s : String) :
    (pairSurrogates (s.toList.map Char.toNat)).map String.ofList = some s := by
  rw [pairSurrogates_map_toNat, Option.map_some, String.ofList_toList]

/-! ## Values whose integers fit words -/

mutual

/-- Whether every integer in a value fits a word. -/
def FitsWords : Json → Prop
  | int n => FitsWord n
  | arr elements => ElementsFit elements
  | obj members => MembersFit members
  | _ => True

/-- Whether every integer in a list of values fits a word. -/
def ElementsFit : List Json → Prop
  | [] => True
  | value :: values => value.FitsWords ∧ ElementsFit values

/-- Whether every integer in a list of members fits a word. -/
def MembersFit : List (String × Json) → Prop
  | [] => True
  | (_, value) :: members => value.FitsWords ∧ MembersFit members

end

/-- A list of values fits words if each of them does. -/
theorem elementsFit_of_forall {values : List Json} (h : ∀ value ∈ values, value.FitsWords) :
    ElementsFit values := by
  induction values with
  | nil => trivial
  | cons value values ih =>
    refine ⟨h value List.mem_cons_self, ih fun v hv => ?_⟩
    exact h v (List.mem_cons_of_mem _ hv)

/-- A list of members fits words if the value of each of them does. -/
theorem membersFit_of_forall {members : List (String × Json)}
    (h : ∀ member ∈ members, member.2.FitsWords) : MembersFit members := by
  induction members with
  | nil => trivial
  | cons member members ih =>
    obtain ⟨first, others⟩ := List.forall_mem_cons.1 h
    exact ⟨first, ih others⟩

/-! ## Values -/

/-- What a number starts with starts nothing else. -/
theorem startsNumber {c : Char} (h : c = '-' ∨ c.isDigit = true) :
    isSpace c = false ∧ c ∉ ['"', '[', ']', '\x7b', 't', 'f', 'n'] := by
  rcases h with rfl | digit
  · decide
  · refine ⟨?_, fun other => ?_⟩
    · by_contra space
      rw [Bool.not_eq_false, isSpace] at space
      simp only [Bool.or_eq_true, decide_eq_true_eq] at space
      rcases space with ((rfl | rfl) | rfl) | rfl <;> cases digit
    · simp only [List.mem_cons, List.not_mem_nil, or_false] at other
      rcases other with rfl | rfl | rfl | rfl | rfl | rfl | rfl <;> cases digit

/-- What a numeral starts with. -/
theorem exists_written {n : Numeral} (h : n.WellFormed) :
    ∃ c cs, n.written = c :: cs ∧ (c = '-' ∨ c.isDigit = true) := by
  cases negative : n.negative with
  | true =>
    exact ⟨'-', _, by rw [Numeral.written, Numeral.signChars, if_pos negative]; rfl, .inl rfl⟩
  | false =>
    have unsigned : n.written = n.whole ++ (n.fractionChars ++ n.exponentChars) := by
      simp [Numeral.written, Numeral.signChars, negative]
    rw [unsigned]
    generalize n.fractionChars ++ n.exponentChars = rest
    have whole := h.whole
    cases form : n.whole with
    | nil =>
      rw [form] at whole
      cases whole
    | cons c cs =>
      rw [form] at whole
      refine ⟨c, cs ++ rest, rfl, .inr ?_⟩
      cases whole with
      | zero => rfl
      | row _ isDigit => exact isDigit c List.mem_cons_self

/-- A numeral is read up to what cannot go on with a number. -/
theorem readValue_written {n : Numeral} (h : n.WellFormed) (fuel : ℕ) {rest : List Char}
    (hrest : EndsNumber rest) :
    readValue (fuel + 1) (n.written ++ rest) = (.number n.value?, some rest) := by
  have scanned := scanNumeral_written h hrest
  obtain ⟨c, cs, written, first⟩ := exists_written h
  obtain ⟨notSpace, other⟩ := startsNumber first
  -- The first character settles that the reader takes the branch of numbers.
  rw [written, List.cons_append] at scanned ⊢
  have skip : skipSpaces (c :: (cs ++ rest)) = c :: (cs ++ rest) :=
    List.dropWhile_cons_of_neg (by simp [notSpace])
  simp only [List.mem_cons, List.not_mem_nil, or_false, not_or] at other
  simp only [readValue, skip]
  split <;> simp_all

/-- The text of a value starts with no blank, and with nothing that closes an array. -/
theorem exists_chars {value : Json} (h : value.FitsWords) :
    ∃ c cs, value.chars = c :: cs ∧ isSpace c = false ∧ c ≠ ']' := by
  have number : ∀ n : Numeral, n.WellFormed →
      ∃ c cs, n.written = c :: cs ∧ isSpace c = false ∧ c ≠ ']' := by
    intro n wellFormed
    obtain ⟨c, cs, written, first⟩ := exists_written wellFormed
    obtain ⟨notSpace, other⟩ := startsNumber first
    exact ⟨c, cs, written, notSpace, by rintro rfl; simp at other⟩
  cases value with
  | null => exact ⟨'n', _, rfl, rfl, by decide⟩
  | bool b => cases b <;> exact ⟨_, _, rfl, rfl, by decide⟩
  | int n =>
    obtain ⟨numeral, wellFormed, written, _⟩ := exists_numeral_integer h
    rw [chars, ← written]
    exact number numeral wellFormed
  | float x =>
    obtain ⟨numeral, wellFormed, written, _⟩ := exists_numeral_float x
    rw [chars, ← written]
    exact number numeral wellFormed
  | str s => exact ⟨'"', _, rfl, rfl, by decide⟩
  | arr elements => exact ⟨'[', _, rfl, rfl, by decide⟩
  | obj members => exact ⟨'\x7b', _, rfl, rfl, by decide⟩

/-- A text takes at least one character. -/
theorem length_chars_pos {value : Json} (h : value.FitsWords) : 0 < value.chars.length := by
  obtain ⟨c, cs, written, _⟩ := exists_chars h
  rw [written]
  exact Nat.succ_pos _

/-- The text of a list of values starts like that of its first value. -/
theorem elementChars_cons (value : Json) (values : List Json) :
    ∃ tail, elementChars (value :: values) = value.chars ++ tail := by
  cases values with
  | nil => exact ⟨[], (List.append_nil _).symm⟩
  | cons next values => exact ⟨_, rfl⟩

/-- The text of a list of several values. -/
theorem elementChars_cons_cons (value next : Json) (values : List Json) :
    elementChars (value :: next :: values) = value.chars ++ ',' :: elementChars (next :: values) :=
  rfl

/-- The text of a single member. -/
theorem memberChars_singleton (name : String) (value : Json) :
    memberChars [(name, value)]
      = '"' :: (name.toList.flatMap escapeChar ++ '"' :: ':' :: value.chars) := by
  rw [memberChars, quote, List.cons_append, List.append_assoc, List.singleton_append]

/-- The text of a list of several members. -/
theorem memberChars_cons_cons (name : String) (value : Json) (next : String × Json)
    (members : List (String × Json)) :
    memberChars ((name, value) :: next :: members)
      = '"' :: (name.toList.flatMap escapeChar
        ++ '"' :: ':' :: (value.chars ++ ',' :: memberChars (next :: members))) := by
  have whole : memberChars ((name, value) :: next :: members)
      = quote name ++ ':' :: value.chars ++ ',' :: memberChars (next :: members) := rfl
  rw [whole, quote, List.cons_append, List.cons_append, List.append_assoc, List.append_assoc,
    List.singleton_append, List.cons_append]

/-- The text of a list of members starts with the quote of a name. -/
theorem memberChars_cons (member : String × Json) (members : List (String × Json)) :
    ∃ tail, memberChars (member :: members) = '"' :: tail := by
  cases members with
  | nil => exact ⟨_, rfl⟩
  | cons next members => exact ⟨_, rfl⟩

/-- A character that is no blank is not skipped. -/
theorem skipSpaces_cons {c : Char} (h : isSpace c = false) (cs : List Char) :
    skipSpaces (c :: cs) = c :: cs :=
  List.dropWhile_cons_of_neg (by simp [h])

/-- An array that is not empty is read element by element. -/
theorem readValue_array (fuel : ℕ) {c : Char} (cs : List Char) (space : isSpace c = false)
    (other : c ≠ ']') :
    readValue (fuel + 1) ('[' :: c :: cs)
      = (.list (readElements fuel (c :: cs)).1, (readElements fuel (c :: cs)).2) := by
  simp only [readValue, skipSpaces_cons (show isSpace '[' = false by rfl), skipSpaces_cons space]
  split
  · next same => exact absurd (List.cons.inj same).1 other
  · rfl

-- The reader spends one unit of fuel on each value and on each list position. A value has at least
-- one character, so twice the length of the text is enough.
mutual

/-- A value is read up to what is behind it. -/
theorem readValue_chars : ∀ (value : Json) (fuel : ℕ) (rest : List Char), value.FitsWords →
    2 * value.chars.length ≤ fuel + 2 → EndsNumber rest →
    readValue (fuel + 1) (value.chars ++ rest) = (.ofJson value, some rest)
  | .null, fuel, rest, _, _, _ => rfl
  | .bool true, fuel, rest, _, _, _ => rfl
  | .bool false, fuel, rest, _, _, _ => rfl
  | .int n, fuel, rest, fits, _, hrest => by
    obtain ⟨numeral, wellFormed, written, value⟩ := exists_numeral_integer fits
    rw [chars, ← written, readValue_written wellFormed fuel hrest, value]
    rfl
  | .float x, fuel, rest, _, _, hrest => by
    obtain ⟨numeral, wellFormed, written, value⟩ := exists_numeral_float x
    rw [chars, ← written, readValue_written wellFormed fuel hrest, value]
    rfl
  | .str s, fuel, rest, _, _, _ => by
    show readValue (fuel + 1) ('"' :: (s.toList.flatMap escapeChar ++ ['"'] ++ rest)) = _
    rw [List.append_assoc, List.singleton_append]
    simp only [readValue, skipSpaces_cons (show isSpace '"' = false by rfl), scanString_quote,
      pairSurrogates_text, Reading.ofJson]
  | .arr [], fuel, rest, _, _, _ => rfl
  | .arr (value :: values), fuel, rest, fits, hfuel, _ => by
    have elements := readElements_chars value values fuel rest fits (by
      simp only [chars, List.cons_append, List.length_cons, List.length_append, List.length_nil]
        at hfuel
      omega)
    obtain ⟨c, cs, written, space, other⟩ := exists_chars fits.1
    obtain ⟨tail, start⟩ := elementChars_cons value values
    rw [chars, List.cons_append, List.cons_append, List.append_assoc, List.singleton_append]
    -- The first character shows that the array is not empty.
    rw [start, written, List.cons_append, List.cons_append] at elements ⊢
    rw [readValue_array fuel _ space other, elements]
    rfl
  | .obj [], fuel, rest, _, _, _ => rfl
  | .obj (member :: members), fuel, rest, fits, hfuel, _ => by
    have read := readMembers_chars member members fuel rest fits (by
      simp only [chars, List.cons_append, List.length_cons, List.length_append, List.length_nil]
        at hfuel
      omega)
    obtain ⟨tail, start⟩ := memberChars_cons member members
    rw [chars, List.cons_append, List.cons_append, List.append_assoc, List.singleton_append]
    rw [start, List.cons_append] at read ⊢
    simp only [readValue, skipSpaces_cons (show isSpace '\x7b' = false by rfl),
      skipSpaces_cons (show isSpace '"' = false by rfl)]
    show (Reading.record (readMembers fuel _).1, (readMembers fuel _).2) = _
    rw [read]
    rfl

/-- The elements of an array are read up to what is behind its closing bracket. -/
theorem readElements_chars : ∀ (value : Json) (values : List Json) (fuel : ℕ) (rest : List Char),
    ElementsFit (value :: values) → 2 * (elementChars (value :: values)).length ≤ fuel →
    readElements fuel (elementChars (value :: values) ++ ']' :: rest)
      = (Reading.ofElements (value :: values), some rest)
  | value, [], fuel, rest, fits, hfuel => by
    rw [elementChars] at hfuel ⊢
    have positive := length_chars_pos fits.1
    obtain ⟨k, rfl⟩ : ∃ k, fuel = k + 2 := ⟨fuel - 2, by omega⟩
    have first := readValue_chars value k (']' :: rest) fits.1 (by omega)
      (endsNumber_cons (by decide))
    simp only [readElements, first, skipSpaces_cons (show isSpace ']' = false by rfl),
      Reading.ofElements]
  | value, next :: values, fuel, rest, fits, hfuel => by
    rw [elementChars_cons_cons] at hfuel ⊢
    rw [List.length_append, List.length_cons] at hfuel
    have positive := length_chars_pos fits.1
    obtain ⟨k, rfl⟩ : ∃ k, fuel = k + 2 := ⟨fuel - 2, by omega⟩
    have first := readValue_chars value k (',' :: (elementChars (next :: values) ++ ']' :: rest))
      fits.1 (by omega) (endsNumber_cons (by decide))
    have others := readElements_chars next values (k + 1) rest fits.2 (by omega)
    rw [List.append_assoc, List.cons_append, readElements]
    simp only [first, skipSpaces_cons (show isSpace ',' = false by rfl), others]
    rfl

/-- The members of an object are read up to what is behind its closing brace. -/
theorem readMembers_chars : ∀ (member : String × Json) (members : List (String × Json)) (fuel : ℕ)
    (rest : List Char), MembersFit (member :: members) →
    2 * (memberChars (member :: members)).length ≤ fuel →
    readMembers fuel (memberChars (member :: members) ++ '\x7d' :: rest)
      = (Reading.ofMembers (member :: members), some rest)
  | (name, value), [], fuel, rest, fits, hfuel => by
    rw [memberChars_singleton] at hfuel ⊢
    simp only [List.length_cons, List.length_append] at hfuel
    have positive := length_chars_pos fits.1
    obtain ⟨k, rfl⟩ : ∃ k, fuel = k + 2 := ⟨fuel - 2, by omega⟩
    have only := readValue_chars value k ('\x7d' :: rest) fits.1 (by omega)
      (endsNumber_cons (by decide))
    rw [List.cons_append, List.append_assoc, List.cons_append, List.cons_append, readMembers]
    simp only [skipSpaces_cons (show isSpace '"' = false by rfl), scanString_quote,
      skipSpaces_cons (show isSpace ':' = false by rfl), only, pairSurrogates_text,
      skipSpaces_cons (show isSpace '\x7d' = false by rfl)]
    rfl
  | (name, value), next :: members, fuel, rest, fits, hfuel => by
    rw [memberChars_cons_cons] at hfuel ⊢
    simp only [List.length_cons, List.length_append] at hfuel
    have positive := length_chars_pos fits.1
    obtain ⟨k, rfl⟩ : ∃ k, fuel = k + 2 := ⟨fuel - 2, by omega⟩
    have first := readValue_chars value k (',' :: (memberChars (next :: members) ++ '\x7d' :: rest))
      fits.1 (by omega) (endsNumber_cons (by decide))
    have others := readMembers_chars next members (k + 1) rest fits.2 (by omega)
    rw [List.cons_append, List.append_assoc, List.cons_append, List.cons_append, List.append_assoc,
      List.cons_append, readMembers]
    simp only [skipSpaces_cons (show isSpace '"' = false by rfl), scanString_quote,
      skipSpaces_cons (show isSpace ':' = false by rfl), first, pairSurrogates_text,
      skipSpaces_cons (show isSpace ',' = false by rfl), others]
    rfl

end

/-! ## Whole texts -/

/-- The text of a value reads as the value and nothing behind it. -/
theorem Document.ofChars_chars {value : Json} (h : value.FitsWords) :
    Document.ofChars value.chars = ⟨.ofJson value, false⟩ := by
  have read := readValue_chars value (2 * value.chars.length + 1) [] h (by omega) endsNumber_nil
  rw [List.append_nil] at read
  simp only [Document.ofChars, read]
  rfl

end CatalogSearch.Json
