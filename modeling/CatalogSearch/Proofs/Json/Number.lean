import CatalogSearch.Json.Printer
import CatalogSearch.Json.Reading
import CatalogSearch.Proofs.Binary64.Decimal
import CatalogSearch.Proofs.Text.Digits

/-!
# JSON numbers read back

A number that is written has the form of a `Numeral`: every layout of digits is one, and a numeral
is scanned as it stands. What is left is its value.

* `scanNumeral_written` : a numeral is scanned up to what cannot go on with a number;
* `exists_numeral_integer` : an integer of a word is written as a numeral of its value;
* `exists_numeral_float` : so is every binary64 number.
-/

namespace CatalogSearch.Json

open Binary64 (Decimal Layout digitsOf magnitudeOfDecimal shortest)
open Text (natOfDigits)

/-! ## Numerals as they are written -/

/-- What stands before the point of a number: a zero alone, or a row that starts otherwise. -/
inductive IsWhole : List Char → Prop
  | zero : IsWhole ['0']
  | row {c : Char} {cs : List Char} : c ≠ '0' → (∀ d ∈ c :: cs, d.isDigit = true) →
      IsWhole (c :: cs)

/-- The digits of a number may stand before a point. -/
theorem isWhole_digitsOf (n : ℕ) : IsWhole (digitsOf n) := by
  by_cases zero : n = 0
  · rw [zero]
    exact .zero
  · obtain ⟨c, cs, digits, nonzero⟩ := Text.exists_digitsOf (Nat.pos_of_ne_zero zero)
    have isDigit : ∀ d ∈ digitsOf n, d.isDigit = true := fun _ => Text.isDigit_of_mem_digitsOf
    rw [digits] at isDigit ⊢
    exact .row nonzero isDigit

/-- A single digit may stand before a point. -/
theorem isWhole_singleton {c : Char} (h : c.isDigit = true) : IsWhole [c] := by
  by_cases zero : c = '0'
  · rw [zero]
    exact .zero
  · refine .row zero fun d hd => ?_
    rw [List.mem_singleton.1 hd]
    exact h

/-- What a numeral has before its fraction. -/
def Numeral.signChars (n : Numeral) : List Char :=
  if n.negative then ['-'] else []

/-- The fraction of a numeral with its point. -/
def Numeral.fractionChars (n : Numeral) : List Char :=
  if n.fraction = [] then [] else '.' :: n.fraction

/-- The exponent of a numeral with its sign. -/
def Numeral.exponentChars (n : Numeral) : List Char :=
  match n.exponent with
  | none => []
  | some e => 'e' :: (if e < 0 then '-' else '+') :: digitsOf e.natAbs

/-- A numeral as it is written. -/
def Numeral.written (n : Numeral) : List Char :=
  n.signChars ++ (n.whole ++ (n.fractionChars ++ n.exponentChars))

/-- A numeral is made of digits, without needless zeros in front. -/
structure Numeral.WellFormed (n : Numeral) : Prop where
  whole : IsWhole n.whole
  fraction : ∀ c ∈ n.fraction, c.isDigit = true

/-- What cannot go on with a number. -/
def EndsNumber (rest : List Char) : Prop :=
  ∀ c ∈ rest.head?, c.isDigit = false ∧ c ≠ '.' ∧ c ≠ 'e' ∧ c ≠ 'E'

/-- Nothing at all ends a number. -/
theorem endsNumber_nil : EndsNumber [] := by
  intro c h
  cases h

/-- A character that is neither digit, point nor exponent ends a number. -/
theorem endsNumber_cons {c : Char} {cs : List Char}
    (h : c.isDigit = false ∧ c ≠ '.' ∧ c ≠ 'e' ∧ c ≠ 'E') : EndsNumber (c :: cs) := by
  intro d hd
  rw [List.head?_cons, Option.mem_some_iff] at hd
  rw [← hd]
  exact h

/-- What ends a number starts with no digit. -/
theorem EndsNumber.noDigit {rest : List Char} (h : EndsNumber rest) :
    rest.head?.any Char.isDigit = false := by
  cases rest with
  | nil => rfl
  | cons c rest => exact (h c rfl).1

/-! ## Scanning a numeral -/

/-- The digits before a point are scanned up to what is no digit. -/
theorem scanWhole_append {whole rest : List Char} (h : IsWhole whole)
    (hrest : rest.head?.any Char.isDigit = false) :
    scanWhole (whole ++ rest) = some (whole, rest) := by
  cases h with
  | zero =>
    show scanWhole ('0' :: rest) = _
    simp only [scanWhole, hrest]
    rfl
  | row nonzero isDigit =>
    rw [List.cons_append, scanWhole, ← List.cons_append]
    · exact Text.scanDigits_append (List.cons_ne_nil _ _) isDigit hrest
    · intro _ same
      exact nonzero (List.cons.inj same).1

/-- A fraction is scanned up to what is neither digit nor point. -/
theorem scanFraction_append {n : Numeral} (h : n.WellFormed) {rest : List Char}
    (hrest : rest.head?.any Char.isDigit = false) (noPoint : rest.head? ≠ some '.') :
    scanFraction (n.fractionChars ++ rest) = some (n.fraction, rest) := by
  by_cases none : n.fraction = []
  · rw [Numeral.fractionChars, if_pos none, none, List.nil_append, scanFraction]
    intro cs same
    exact noPoint (by rw [same, List.head?_cons])
  · rw [Numeral.fractionChars, if_neg none]
    exact Text.scanDigits_append none h.fraction hrest

/-- An exponent is scanned up to what cannot go on with a number. -/
theorem scanExponent_append (n : Numeral) {rest : List Char} (hrest : EndsNumber rest) :
    Text.scanExponent (n.exponentChars ++ rest) = some (n.exponent, rest) := by
  rw [Numeral.exponentChars]
  split
  · next absent =>
    rw [absent]
    cases rest with
    | nil => rfl
    | cons c rest =>
      have other := hrest c rfl
      exact if_neg (by simp [other.2.2.1, other.2.2.2])
  · next e present =>
    rw [present]
    have digits := Text.scanDigits_digitsOf e.natAbs hrest.noDigit
    by_cases negative : e < 0
    · have value : -(e.natAbs : ℤ) = e := by omega
      simp only [if_pos negative, List.cons_append, Text.scanExponent, Text.scanSigned,
        Text.splitSign, digits, Option.map_some, Text.natOfDigits_digitsOf, value, true_or, if_true]
    · have value : (e.natAbs : ℤ) = e := by omega
      simp only [if_neg negative, List.cons_append, Text.scanExponent, Text.scanSigned,
        Text.splitSign, digits, Option.map_some, Text.natOfDigits_digitsOf, value, true_or, if_true]
      rfl

/-- What follows the digits before the point starts with no digit. -/
theorem noDigit_fractionChars_append (n : Numeral) {rest : List Char}
    (hrest : rest.head?.any Char.isDigit = false) :
    (n.fractionChars ++ rest).head?.any Char.isDigit = false := by
  rw [Numeral.fractionChars]
  split
  · exact hrest
  · rfl

/-- What follows the fraction starts with neither digit nor point. -/
theorem head?_exponentChars_append (n : Numeral) {rest : List Char} (hrest : EndsNumber rest) :
    (n.exponentChars ++ rest).head?.any Char.isDigit = false
      ∧ (n.exponentChars ++ rest).head? ≠ some '.' := by
  rw [Numeral.exponentChars]
  split
  · refine ⟨hrest.noDigit, fun point => ?_⟩
    exact (hrest '.' point).2.1 rfl
  · exact ⟨rfl, by simp⟩

/-- A numeral is scanned up to what cannot go on with a number. -/
theorem scanNumeral_written {n : Numeral} (h : n.WellFormed) {rest : List Char}
    (hrest : EndsNumber rest) : scanNumeral (n.written ++ rest) = some (n, rest) := by
  obtain ⟨noDigit, noPoint⟩ := head?_exponentChars_append n hrest
  have whole := scanWhole_append h.whole (noDigit_fractionChars_append n noDigit)
  have fraction := scanFraction_append h noDigit noPoint
  have exponent := scanExponent_append n hrest
  have text : n.written ++ rest
      = n.signChars ++ (n.whole ++ (n.fractionChars ++ (n.exponentChars ++ rest))) := by
    simp only [Numeral.written, List.append_assoc]
  rw [text, Numeral.signChars]
  cases negative : n.negative with
  | true =>
    show scanNumeral ('-' :: (n.whole ++ (n.fractionChars ++ (n.exponentChars ++ rest)))) = _
    simp only [scanNumeral, whole, fraction, exponent, Option.bind_eq_bind, Option.bind_some,
      Option.pure_def, ← negative]
  | false =>
    -- Without a sign the digits must not be taken for one.
    have unsigned : ∀ cs, n.whole ++ (n.fractionChars ++ (n.exponentChars ++ rest)) = '-' :: cs →
        False := by
      intro cs same
      rw [same] at whole
      cases whole
    show scanNumeral (n.whole ++ (n.fractionChars ++ (n.exponentChars ++ rest))) = _
    simp only [scanNumeral, whole, fraction, exponent, Option.bind_eq_bind, Option.bind_some,
      Option.pure_def, ← negative]

/-! ## Integers -/

/-- Whether an integer lies in the range of words with or without a sign. -/
def FitsWord (n : ℤ) : Prop :=
  -2 ^ 63 ≤ n ∧ n < 2 ^ 64

/-- An integer of a word is written as a numeral of its value. -/
theorem exists_numeral_integer {n : ℤ} (h : FitsWord n) :
    ∃ numeral : Numeral, numeral.WellFormed ∧ numeral.written = integerChars n
      ∧ numeral.value? = some (.int n) := by
  refine ⟨⟨decide (n < 0), digitsOf n.natAbs, [], none⟩, ⟨isWhole_digitsOf _, by simp⟩, ?_, ?_⟩
  · by_cases negative : n < 0
    · simp [Numeral.written, Numeral.signChars, Numeral.fractionChars, Numeral.exponentChars,
        integerChars, negative]
    · simp [Numeral.written, Numeral.signChars, Numeral.fractionChars, Numeral.exponentChars,
        integerChars, negative]
  · obtain ⟨low, high⟩ := h
    by_cases negative : n < 0
    · have value : -(n.natAbs : ℤ) = n := by omega
      have fits : fitsSigned n = true := fitsSigned_iff.2 ⟨low, by omega⟩
      have positive : 0 < n.natAbs := by omega
      simp only [Numeral.value?, List.append_nil, Text.natOfDigits_digitsOf, negative, value, fits,
        positive]
      rfl
    · have value : (n.natAbs : ℤ) = n := by omega
      have fits : n.natAbs ≤ maxWord := by
        rw [maxWord]
        omega
      simp [Numeral.value?, Text.natOfDigits_digitsOf, negative, value, fits]

/-! ## Binary64 numbers -/

/-- A numeral with a fraction or an exponent that reads like a decimal with a sign. -/
structure Numeral.Denotes (n : Numeral) (negative : Bool) (d : Decimal) : Prop where
  wellFormed : n.WellFormed
  sign : n.negative = negative
  notWhole : n.fraction ≠ [] ∨ n.exponent ≠ none
  magnitude : magnitudeOfDecimal (natOfDigits (n.whole ++ n.fraction))
    (n.exponent.getD 0 - n.fraction.length) = magnitudeOfDecimal d.digits d.exponent

/-- A numeral that denotes the shortest decimal of a number has the number as its value. -/
theorem Numeral.Denotes.value? {n : Numeral} {x : Binary64}
    (h : n.Denotes x.negative (shortest x.magnitude)) : n.value? = some (.float x) := by
  have notInteger : (n.fraction.isEmpty && n.exponent.isNone) = false := by
    rcases h.notWhole with fraction | exponent
    · rw [List.isEmpty_eq_false_iff.2 fraction, Bool.false_and]
    · rw [Option.isNone_eq_false_iff.2 (Option.isSome_iff_ne_none.2 exponent), Bool.and_false]
  have number : Binary64.ofDecimal? n.negative (natOfDigits (n.whole ++ n.fraction))
      (n.exponent.getD 0 - n.fraction.length) = some x := by
    rw [Binary64.ofDecimal?_eq, h.magnitude, Binary64.magnitudeOfDecimal_shortest, h.sign,
      Binary64.ofMagnitude?, dif_pos x.finite]
  simp only [Numeral.value?, notInteger, Bool.false_and, Bool.false_eq_true, if_false, number,
    Option.map_some]

/-- Digits behind the point, zeros in front of them. -/
theorem denotes_below_one (negative : Bool) {d : Decimal} {places : ℤ}
    (hplaces : places = d.exponent + (digitsOf d.digits).length) (h : places ≤ 0) :
    (Numeral.mk negative ['0'] (List.replicate places.natAbs '0' ++ digitsOf d.digits) none).Denotes
      negative d := by
  refine ⟨⟨.zero, ?_⟩, rfl, .inl ?_, ?_⟩
  · intro c hc
    rcases List.mem_append.1 hc with zeros | digits
    · rw [List.eq_of_mem_replicate zeros]
      rfl
    · exact Text.isDigit_of_mem_digitsOf digits
  · exact List.append_ne_nil_of_right_ne_nil _ (Text.digitsOf_ne_nil _)
  · have exponent : (none : Option ℤ).getD 0
        - (List.replicate places.natAbs '0' ++ digitsOf d.digits).length = d.exponent := by
      simp only [Option.getD_none, List.length_append, List.length_replicate]
      omega
    rw [exponent, show ['0'] = List.replicate 1 '0' by rfl, Text.natOfDigits_zeros_append,
      Text.natOfDigits_zeros_append, Text.natOfDigits_digitsOf]

/-- Digits before the point, zeros behind them. -/
theorem denotes_whole (negative : Bool) {d : Decimal} {places : ℤ}
    (hplaces : places = d.exponent + (digitsOf d.digits).length)
    (zero : d.digits = 0 → d.exponent = 0) (h : (digitsOf d.digits).length ≤ places.toNat) :
    (Numeral.mk negative
      (digitsOf d.digits ++ List.replicate (places.toNat - (digitsOf d.digits).length) '0')
      ['0'] none).Denotes negative d := by
  have nonempty : 0 < (digitsOf d.digits).length :=
    List.length_pos_iff.2 (Text.digitsOf_ne_nil d.digits)
  refine ⟨⟨?_, by simp⟩, rfl, .inl (List.cons_ne_nil _ _), ?_⟩
  -- A zero may stand alone only, so it has no zeros behind it.
  · by_cases isZero : d.digits = 0
    · have one : places.toNat - (digitsOf d.digits).length = 0 := by
        rw [hplaces, zero isZero]
        omega
      rw [one, isZero]
      exact .zero
    · obtain ⟨c, cs, digits, nonzero⟩ := Text.exists_digitsOf (Nat.pos_of_ne_zero isZero)
      rw [digits, List.cons_append]
      refine .row nonzero fun e he => ?_
      rw [← List.cons_append, ← digits] at he
      rcases List.mem_append.1 he with front | zeros
      · exact Text.isDigit_of_mem_digitsOf front
      · rw [List.eq_of_mem_replicate zeros]
        rfl
  · have exponent : (none : Option ℤ).getD 0 - (['0'] : List Char).length
        + ((places.toNat - (digitsOf d.digits).length + 1 : ℕ) : ℤ) = d.exponent := by
      simp only [Option.getD_none, List.length_singleton]
      omega
    have digits : digitsOf d.digits
          ++ List.replicate (places.toNat - (digitsOf d.digits).length) '0' ++ ['0']
        = digitsOf d.digits
          ++ List.replicate (places.toNat - (digitsOf d.digits).length + 1) '0' := by
      rw [List.replicate_succ', List.append_assoc]
    rw [digits, Text.natOfDigits_append_zeros, Text.natOfDigits_digitsOf,
      Binary64.magnitudeOfDecimal_mul_pow, exponent]

/-- Some first digits of a number of several digits may stand before a point. -/
theorem isWhole_take {n count : ℕ} (hcount : 0 < count) (h : count < (digitsOf n).length) :
    IsWhole ((digitsOf n).take count) := by
  have isDigit : ∀ c ∈ (digitsOf n).take count, c.isDigit = true := fun _ hc =>
    Text.isDigit_of_mem_digitsOf (List.mem_of_mem_take hc)
  have positive : 0 < n := by
    refine Nat.pos_of_ne_zero fun zero => ?_
    rw [zero] at h
    have single : (digitsOf 0).length = 1 := rfl
    omega
  obtain ⟨c, cs, digits, nonzero⟩ := Text.exists_digitsOf positive
  obtain ⟨more, rfl⟩ : ∃ more, count = more + 1 := ⟨count - 1, by omega⟩
  rw [digits, List.take_succ_cons] at isDigit ⊢
  exact .row nonzero isDigit

/-- A point among the digits. -/
theorem denotes_split (negative : Bool) {d : Decimal} {places : ℤ}
    (hplaces : places = d.exponent + (digitsOf d.digits).length) (hpositive : 0 < places)
    (h : places.toNat < (digitsOf d.digits).length) :
    (Numeral.mk negative ((digitsOf d.digits).take places.toNat)
      ((digitsOf d.digits).drop places.toNat) none).Denotes negative d := by
  refine ⟨⟨isWhole_take (by omega) h, ?_⟩, rfl, .inl ?_, ?_⟩
  · intro c hc
    exact Text.isDigit_of_mem_digitsOf (List.mem_of_mem_drop hc)
  · rw [Ne, List.drop_eq_nil_iff]
    omega
  · have exponent : (none : Option ℤ).getD 0 - ((digitsOf d.digits).drop places.toNat).length
        = d.exponent := by
      simp only [Option.getD_none, List.length_drop]
      omega
    rw [exponent, List.take_append_drop, Text.natOfDigits_digitsOf]

/-- One digit before the point and an exponent. -/
theorem denotes_scientific (negative : Bool) {d : Decimal} {exponent : ℤ}
    (h : exponent = d.exponent + (digitsOf d.digits).length - 1) :
    (Numeral.mk negative ((digitsOf d.digits).take 1) ((digitsOf d.digits).drop 1)
      (some exponent)).Denotes negative d := by
  have nonempty : 0 < (digitsOf d.digits).length :=
    List.length_pos_iff.2 (Text.digitsOf_ne_nil d.digits)
  refine ⟨⟨?_, ?_⟩, rfl, .inr (Option.some_ne_none _), ?_⟩
  · cases digits : digitsOf d.digits with
    | nil => exact absurd digits (Text.digitsOf_ne_nil _)
    | cons c cs =>
      have isDigit : c ∈ digitsOf d.digits := by simp [digits]
      exact isWhole_singleton (Text.isDigit_of_mem_digitsOf isDigit)
  · intro c hc
    exact Text.isDigit_of_mem_digitsOf (List.mem_of_mem_drop hc)
  · have shifted : (some exponent).getD 0 - ((digitsOf d.digits).drop 1).length
        = d.exponent := by
      simp only [Option.getD_some, List.length_drop]
      omega
    rw [shifted, List.take_append_drop, Text.natOfDigits_digitsOf]

/-- The positional layout of a decimal is a numeral that denotes it. -/
theorem exists_numeral_point (negative : Bool) {d : Decimal} {places : ℤ}
    (hplaces : places = d.exponent + (digitsOf d.digits).length)
    (zero : d.digits = 0 → d.exponent = 0) :
    ∃ n : Numeral, n.Denotes negative d
      ∧ n.written = n.signChars ++ Layout.json.point (digitsOf d.digits) places := by
  by_cases small : places ≤ 0
  · refine ⟨_, denotes_below_one negative hplaces small, ?_⟩
    simp [Numeral.written, Numeral.fractionChars, Numeral.exponentChars, Layout.point, small,
      Text.digitsOf_ne_nil]
  · by_cases whole : (digitsOf d.digits).length ≤ places.toNat
    · refine ⟨_, denotes_whole negative hplaces zero whole, ?_⟩
      simp [Numeral.written, Numeral.fractionChars, Numeral.exponentChars, Layout.point, small,
        whole, Layout.json]
    · have behind : (digitsOf d.digits).drop places.toNat ≠ [] := by
        rw [Ne, List.drop_eq_nil_iff]
        exact whole
      refine ⟨_, denotes_split negative hplaces (by omega) (by omega), ?_⟩
      simp only [Numeral.written, Numeral.fractionChars, if_neg behind, Numeral.exponentChars,
        Layout.point, if_neg small, if_neg whole, List.append_nil]

/-- The layout of a decimal with an exponent is a numeral that denotes it. -/
theorem exists_numeral_scientific (negative : Bool) {d : Decimal} {exponent : ℤ}
    (h : exponent = d.exponent + (digitsOf d.digits).length - 1) :
    ∃ n : Numeral, n.Denotes negative d
      ∧ n.written = n.signChars ++ Layout.json.scientific (digitsOf d.digits) exponent := by
  refine ⟨_, denotes_scientific negative h, ?_⟩
  simp only [Numeral.written, Numeral.fractionChars, Numeral.exponentChars, Layout.scientific,
    Layout.json]
  cases (digitsOf d.digits).drop 1 with
  | nil => by_cases below : exponent < 0 <;> simp [below]
  | cons c cs => by_cases below : exponent < 0 <;> simp [below]

/-- A binary64 number is written as a numeral of its value. -/
theorem exists_numeral_float (x : Binary64) :
    ∃ numeral : Numeral, numeral.WellFormed ∧ numeral.written = Layout.json.render x
      ∧ numeral.value? = some (.float x) := by
  have zero : (shortest x.magnitude).digits = 0 → (shortest x.magnitude).exponent = 0 := by
    intro h
    rw [(Binary64.shortest_digits_eq_zero_iff _).1 h]
    rfl
  have layout : ∃ n : Numeral, n.Denotes x.negative (shortest x.magnitude)
      ∧ n.written = Layout.json.render x := by
    rw [Layout.render]
    generalize shortest x.magnitude = d at zero
    have before : d.exponent + (digitsOf d.digits).length - 1 + 1
        = d.exponent + (digitsOf d.digits).length := by omega
    by_cases positional :
        Layout.json.positional (d.exponent + (digitsOf d.digits).length - 1) = true
    · obtain ⟨n, denotes, written⟩ := exists_numeral_point x.negative before zero
      exact ⟨n, denotes, by rw [written, Numeral.signChars, denotes.sign, if_pos positional]⟩
    · obtain ⟨n, denotes, written⟩ := exists_numeral_scientific x.negative (d := d) rfl
      exact ⟨n, denotes, by rw [written, Numeral.signChars, denotes.sign, if_neg positional]⟩
  obtain ⟨n, denotes, written⟩ := layout
  exact ⟨n, denotes.wellFormed, written, denotes.value?⟩

end CatalogSearch.Json
