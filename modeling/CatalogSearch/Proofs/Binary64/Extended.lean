import CatalogSearch.Binary64.Extended
import CatalogSearch.Proofs.Json.Number
import CatalogSearch.Proofs.Text.Split

/-!
# Numbers in lists

A text that says a finite number can be an entry of a list with commas, since it is made of digits,
signs, a point and the letter of an exponent. One such text is the one that a number has in JSON.

* `ExtendedNumber.isEntry_of_finite` : texts of finite numbers are entries;
* `ExtendedNumber.ofText?_json` : the JSON text of a number says the number.
-/

namespace CatalogSearch

/-! ## Characters of numbers -/

namespace Text

variable {cs rest : List Char}

/-- Whether a character can stand in the text of a finite number. -/
def isNumberChar (c : Char) : Bool :=
  c.isDigit || ['+', '-', '.', 'e', 'E'].contains c

/-- A character of a number is neither a comma nor a blank. -/
theorem isNumberChar_plain {c : Char} (h : isNumberChar c = true) :
    c ≠ ',' ∧ isBlank c = false := by
  rw [isNumberChar, Bool.or_eq_true, List.contains_iff_mem] at h
  rcases h with digit | other
  · have bounds : 48 ≤ c.toNat ∧ c.toNat ≤ 57 := by
      simp only [Char.isDigit, Bool.and_eq_true, decide_eq_true_eq] at digit
      exact digit
    refine ⟨fun comma => ?_, ?_⟩
    · rw [comma] at bounds
      exact absurd bounds (by decide)
    · simp only [isBlank, Bool.or_eq_false_iff, Bool.and_eq_false_iff, decide_eq_false_iff_not,
        beq_eq_false_iff_ne]
      omega
  · simp only [List.mem_cons, List.not_mem_nil, or_false] at other
    rcases other with rfl | rfl | rfl | rfl | rfl <;> decide

/-- A text made of such characters can be an entry of a list with commas. -/
theorem isEntry_of_isNumberChar {s : String} (nonempty : s ≠ "")
    (plain : ∀ c ∈ s.toList, isNumberChar c = true) : IsEntry s where
  nonempty := nonempty
  noComma := fun mem => (isNumberChar_plain (plain _ mem)).1 rfl
  start := fun _ first => (isNumberChar_plain (plain _ (List.mem_of_mem_head? first))).2
  stop := fun _ last => (isNumberChar_plain (plain _ (List.mem_of_mem_getLast? last))).2

/-- The text of a natural number is such a text. -/
theorem isEntry_toString (n : ℕ) : IsEntry (toString n) := by
  have digits : (toString n).toList = Binary64.digitsOf n := String.toList_ofList
  refine isEntry_of_isNumberChar (fun none => ?_) fun c mem => ?_
  · rw [none] at digits
    exact digitsOf_ne_nil n digits.symm
  · rw [digits] at mem
    rw [isNumberChar, isDigit_of_mem_digitsOf mem, Bool.true_or]

-- What a scanner takes off the front of a text is made of these characters, so the whole text is if
-- the rest is.

/-- A sign and what follows it. -/
theorem isNumberChar_of_splitSign (plain : ∀ c ∈ (splitSign cs).2, isNumberChar c = true) :
    ∀ c ∈ cs, isNumberChar c = true := by
  rw [splitSign.eq_def] at plain
  split at plain
  · exact List.forall_mem_cons.2 ⟨rfl, plain⟩
  · exact List.forall_mem_cons.2 ⟨rfl, plain⟩
  · exact plain

/-- A row of digits and what follows it. -/
theorem isNumberChar_of_span (plain : ∀ c ∈ (cs.span Char.isDigit).2, isNumberChar c = true) :
    ∀ c ∈ cs, isNumberChar c = true := by
  intro c mem
  rw [List.span_eq_takeWhile_dropWhile] at plain
  rw [← List.takeWhile_append_dropWhile (p := Char.isDigit) (l := cs)] at mem
  rcases List.mem_append.1 mem with digits | behind
  · rw [isNumberChar, List.mem_takeWhile_imp digits, Bool.true_or]
  · exact plain c behind

/-- Digits with a point and what follows them. -/
theorem isNumberChar_of_scanDecimal {digits : List Char × List Char}
    (h : scanDecimal cs = some (digits, rest)) (plain : ∀ c ∈ rest, isNumberChar c = true) :
    ∀ c ∈ cs, isNumberChar c = true := by
  simp only [scanDecimal] at h
  refine isNumberChar_of_span ?_
  split at h
  · next behind point =>
    obtain ⟨_, same⟩ := Option.ite_none_left_eq_some.1 h
    cases same
    rw [point]
    exact List.forall_mem_cons.2 ⟨rfl, isNumberChar_of_span plain⟩
  · obtain ⟨_, same⟩ := Option.ite_none_left_eq_some.1 h
    cases same
    exact plain

/-- An exponent and what follows it. -/
theorem isNumberChar_of_scanExponent {exponent : Option ℤ}
    (h : scanExponent cs = some (exponent, rest)) (plain : ∀ c ∈ rest, isNumberChar c = true) :
    ∀ c ∈ cs, isNumberChar c = true := by
  cases cs with
  | nil => exact fun _ mem => absurd mem List.not_mem_nil
  | cons letter cs =>
    rw [scanExponent] at h
    split at h
    · next exponential =>
      obtain ⟨⟨value, behind⟩, signed, same⟩ := Option.map_eq_some_iff.1 h
      cases same
      obtain ⟨⟨row, behind⟩, digits, same⟩ := Option.map_eq_some_iff.1 signed
      cases same
      refine List.forall_mem_cons.2 ⟨?_, isNumberChar_of_splitSign (isNumberChar_of_span ?_)⟩
      · rcases exponential with rfl | rfl <;> rfl
      · rw [scanDigits] at digits
        split at digits
        · cases digits
        · have found : (splitSign cs).2.span Char.isDigit = (row, rest) := Option.some.inj digits
          rw [found]
          exact plain
    · cases h
      exact plain

end Text

namespace ExtendedNumber

/-- A text that says a finite number can be an entry of a list with commas. -/
theorem isEntry_of_finite {s : String} {x : Binary64} (h : ofText? s = some (finite x)) :
    Text.IsEntry s := by
  simp only [ofText?] at h
  split at h
  · cases h
  · split at h
    · cases h
    · obtain ⟨⟨digits, behind⟩, decimal, h⟩ := Option.bind_eq_some_iff.1 h
      obtain ⟨⟨exponent, rest⟩, scanned, h⟩ := Option.bind_eq_some_iff.1 h
      split at h
      · next atEnd =>
        have noMore : ∀ c ∈ rest, Text.isNumberChar c = true := fun c mem => by
          have none : rest = [] := List.isEmpty_iff.1 atEnd
          exact absurd mem (none ▸ List.not_mem_nil)
        have unsigned := Text.isNumberChar_of_scanDecimal decimal
          (Text.isNumberChar_of_scanExponent scanned noMore)
        refine Text.isEntry_of_isNumberChar ?_ (Text.isNumberChar_of_splitSign unsigned)
        rintro rfl
        cases decimal
      · cases h

end ExtendedNumber

/-! ## Numbers as JSON writes them -/

namespace Json

/-- What stands before a point is made of digits. -/
theorem IsWhole.isDigit {whole : List Char} (h : IsWhole whole) :
    ∀ c ∈ whole, c.isDigit = true := by
  cases h with
  | zero => exact List.forall_mem_singleton.2 rfl
  | row _ isDigit => exact isDigit

/-- What stands before a point is not empty. -/
theorem IsWhole.ne_nil {whole : List Char} (h : IsWhole whole) : whole ≠ [] := by
  cases h with
  | zero => exact List.cons_ne_nil _ _
  | row _ _ => exact List.cons_ne_nil _ _

end Json

namespace ExtendedNumber

open Json (Numeral)

/-- Digits with a point are scanned up to the exponent. -/
theorem scanDecimal_written {n : Numeral} (h : n.WellFormed) :
    Text.scanDecimal (n.whole ++ (n.fractionChars ++ n.exponentChars))
      = some ((n.whole, n.fraction), n.exponentChars) := by
  obtain ⟨noDigit, noPoint⟩ := Json.head?_exponentChars_append n Json.endsNumber_nil
  rw [List.append_nil] at noDigit noPoint
  have whole := Text.span_append h.whole.isDigit (Json.noDigit_fractionChars_append n noDigit)
  have nonempty : n.whole.isEmpty = false := List.isEmpty_eq_false_iff.2 h.whole.ne_nil
  simp only [Text.scanDecimal, whole, nonempty, Bool.false_and, Bool.false_eq_true, if_false]
  by_cases none : n.fraction = []
  · rw [Numeral.fractionChars, if_pos none, none, List.nil_append]
    split
    · next point => exact absurd (congrArg List.head? point) noPoint
    · rfl
  · rw [Numeral.fractionChars, if_neg none]
    show some ((n.whole, ((n.fraction ++ n.exponentChars).span Char.isDigit).1),
      ((n.fraction ++ n.exponentChars).span Char.isDigit).2) = _
    rw [Text.span_append h.fraction noDigit]

/-- What starts with a digit is no word, whatever the case of its letters. -/
theorem map_toLower_ne {c letter : Char} {cs word : List Char} (digit : c.isDigit = true)
    (letters : letter.isDigit = false) : (c :: cs).map Char.toLower ≠ letter :: word := by
  have low : c.toLower = c := by
    refine dif_neg fun capital => ?_
    simp only [Char.isDigit, Bool.and_eq_true, decide_eq_true_eq] at digit
    have bounds : 48 ≤ c.toNat ∧ c.toNat ≤ 57 := digit
    have above : 65 ≤ c.toNat ∧ c.toNat ≤ 90 := capital
    omega
  intro same
  rw [List.map_cons, low] at same
  rw [(List.cons.inj same).1, letters] at digit
  cases digit

/-- The text that a number has in JSON says the number. -/
theorem ofText?_json (x : Binary64) :
    ofText? (.ofList (Binary64.Layout.json.render x)) = some (finite x) := by
  obtain ⟨n, wellFormed, written, value⟩ := Json.exists_numeral_float x
  obtain ⟨c, cs, whole⟩ := List.exists_cons_of_ne_nil wellFormed.whole.ne_nil
  have digit : c.isDigit = true := wellFormed.whole.isDigit c (whole ▸ List.mem_cons_self)
  have sign : Text.splitSign n.written
      = (n.negative, n.whole ++ (n.fractionChars ++ n.exponentChars)) := by
    rw [Numeral.written, Numeral.signChars]
    cases negative : n.negative with
    | true => rfl
    | false =>
      show Text.splitSign (n.whole ++ _) = _
      rw [whole]
      exact Text.splitSign_of_isDigit digit _
  have exponent := Json.scanExponent_append n Json.endsNumber_nil
  rw [List.append_nil] at exponent
  have number : Binary64.ofDecimal? n.negative (Text.natOfDigits (n.whole ++ n.fraction))
      (n.exponent.getD 0 - n.fraction.length) = some x := by
    simp only [Numeral.value?] at value
    split at value
    · cases value
    · split at value
      · cases value
      · obtain ⟨y, found, same⟩ := Option.map_eq_some_iff.1 value
        cases same
        exact found
  rw [← written]
  simp only [ofText?, String.toList_ofList, sign]
  rw [if_neg, if_neg]
  · rw [scanDecimal_written wellFormed]
    show (Text.scanExponent n.exponentChars >>= _) = _
    rw [exponent]
    show some (ofDecimal n.negative _ _) = _
    rw [ofDecimal, number]
  · rw [whole]
    exact map_toLower_ne digit rfl
  · rw [whole, not_or]
    exact ⟨map_toLower_ne digit rfl, map_toLower_ne digit rfl⟩

end ExtendedNumber

end CatalogSearch
