import CatalogSearch.Binary64.Decimal
import Mathlib.Tactic.Ring
import Mathlib.Tactic.NormNum

/-!
# Shortest decimals read back

The magnitude nearest to a quotient depends on the quotient alone, so a decimal may be written with
more digits and a smaller exponent without a change of what it reads as. The shortest decimal of a
magnitude reads as that magnitude.

* `nearestMagnitude_unitsOf` : a value is nearest to itself;
* `ofDecimal?_eq` : the limits on the powers that are computed change no result;
* `magnitudeOfDecimal_shortest` : the shortest decimal reads back.
-/

namespace CatalogSearch.Binary64

/-! ## Rounding quotients -/

/-- Rounding depends on the quotient alone. -/
theorem roundHalfEven_mul {k : ℕ} (hk : 0 < k) (n d : ℕ) :
    roundHalfEven (k * n) (k * d) = roundHalfEven n d := by
  have quotient : k * n / (k * d) = n / d := Nat.mul_div_mul_left n d hk
  have remainder : 2 * (k * n % (k * d)) = k * (2 * (n % d)) := by
    rw [Nat.mul_mod_mul_left]
    ring
  have above : k * (2 * (n % d)) > k * d ↔ 2 * (n % d) > d := Nat.mul_lt_mul_left hk
  have tie : k * (2 * (n % d)) = k * d ↔ 2 * (n % d) = d := Nat.mul_right_inj (Nat.ne_of_gt hk)
  simp only [roundHalfEven, quotient, remainder, above, tie]

/-- A whole number is not rounded. -/
theorem roundHalfEven_mul_self (q : ℕ) {d : ℕ} (hd : 0 < d) : roundHalfEven (q * d) d = q := by
  have scaled := roundHalfEven_mul hd q 1
  rw [Nat.mul_one, Nat.mul_comm] at scaled
  rw [scaled]
  simp [roundHalfEven, Nat.mod_one]

/-- Rounding never goes below the whole part. -/
theorem div_le_roundHalfEven (n d : ℕ) : n / d ≤ roundHalfEven n d := by
  rw [roundHalfEven]
  split <;> omega

/-- The nearest magnitude depends on the quotient alone. -/
theorem nearestMagnitude_mul {k : ℕ} (hk : 0 < k) (n d : ℕ) :
    nearestMagnitude (k * n) (k * d) = nearestMagnitude n d := by
  have quotient : k * n / (k * d) = n / d := Nat.mul_div_mul_left n d hk
  simp only [nearestMagnitude, quotient, Nat.mul_assoc, roundHalfEven_mul hk]

/-- Nothing but zero is nearest to what lies below half a unit. -/
theorem nearestMagnitude_eq_zero {n d : ℕ} (h : 2 * n < d) : nearestMagnitude n d = 0 := by
  have quotient : n / d = 0 := Nat.div_eq_of_lt (by omega)
  have remainder : n % d = n := Nat.mod_eq_of_lt (by omega)
  have notAbove : ¬ (2 * n > d ∨ (2 * n = d ∧ 0 % 2 = 1)) := by omega
  simp only [nearestMagnitude, quotient, Nat.log2_zero, Nat.zero_sub, Nat.pow_zero, Nat.mul_one,
    Nat.zero_mul, Nat.zero_add, roundHalfEven, remainder, if_neg notAbove]

/-- What is at least a power of two is not rounded below its magnitude. -/
theorem le_nearestMagnitude_of_pow_le {n d e : ℕ} (hd : 0 < d) (h : 2 ^ (52 + e) * d ≤ n) :
    (e + 1) * 2 ^ 52 ≤ nearestMagnitude n d := by
  have large : 2 ^ (52 + e) ≤ n / d := (Nat.le_div_iff_mul_le hd).2 h
  have nonzero : n / d ≠ 0 := Nat.ne_of_gt (Nat.lt_of_lt_of_le (Nat.two_pow_pos _) large)
  have logarithm : 52 + e ≤ (n / d).log2 := (Nat.le_log2 nonzero).2 large
  -- The quotient is cut to 53 bits, so the significand is at least `2 ^ 52`.
  obtain ⟨shift, hshift⟩ : ∃ shift, (n / d).log2 = 52 + shift := ⟨(n / d).log2 - 52, by omega⟩
  have significand : 2 ^ 52 ≤ roundHalfEven n (d * 2 ^ shift) := by
    refine Nat.le_trans ?_ (div_le_roundHalfEven _ _)
    rw [← Nat.div_div_eq_div_mul, Nat.le_div_iff_mul_le (Nat.two_pow_pos _), ← Nat.pow_add,
      ← hshift]
    exact Nat.log2_self_le nonzero
  have cut : (n / d).log2 - 52 = shift := by omega
  simp only [nearestMagnitude, cut]
  omega

/-- Magnitudes of `2 ^ 1024` and more are past those of finite numbers. -/
theorem le_nearestMagnitude {n d a b : ℕ} (hd : 0 < d) (exponents : a + b = 1024 + 1074)
    (h : 2 ^ a * 2 ^ b * d ≤ n) : 0x7FF0000000000000 ≤ nearestMagnitude n d := by
  obtain ⟨e, he⟩ : ∃ e, e = 2046 := ⟨2046, rfl⟩
  have exponent : a + b = 52 + e := by omega
  rw [← Nat.pow_add, exponent] at h
  have past := le_nearestMagnitude_of_pow_le hd h
  omega

/-! ## Values of magnitudes -/

/-- The binary logarithm of a significand of 53 bits with its power of two. -/
theorem log2_significand {f e : ℕ} (hf : f < 2 ^ 52) : ((2 ^ 52 + f) * 2 ^ e).log2 = 52 + e := by
  rw [Nat.log2_eq_iff (by positivity)]
  constructor
  · rw [Nat.pow_add]
    exact Nat.mul_le_mul_right _ (Nat.le_add_right _ _)
  · rw [show 52 + e + 1 = 53 + e by omega, Nat.pow_add]
    exact Nat.mul_lt_mul_of_pos_right (by omega) (Nat.two_pow_pos e)

/-- A value is nearest to itself. -/
theorem nearestMagnitude_unitsOf (m : ℕ) : nearestMagnitude (unitsOf m) 1 = m := by
  rw [unitsOf]
  split
  · next small =>
    have logarithm : m.log2 - 52 = 0 := by
      by_cases zero : m = 0
      · rw [zero]
        rfl
      · have below := (Nat.log2_lt zero).2 small
        omega
    simp only [nearestMagnitude, Nat.div_one, logarithm, Nat.zero_mul, Nat.pow_zero, Nat.mul_one,
      Nat.zero_add]
    simpa using roundHalfEven_mul_self m Nat.one_pos
  · next large =>
    have exponent : 1 ≤ m / 2 ^ 52 := by omega
    have logarithm := log2_significand (f := m % 2 ^ 52) (e := m / 2 ^ 52 - 1) (by omega)
    have cut : 52 + (m / 2 ^ 52 - 1) - 52 = m / 2 ^ 52 - 1 := by omega
    simp only [nearestMagnitude, Nat.div_one, logarithm, cut, Nat.one_mul]
    rw [roundHalfEven_mul_self _ (Nat.two_pow_pos _)]
    omega

/-! ## Reading decimals -/

/-- A decimal reads as a quotient whose two powers of ten differ by the exponent. -/
theorem magnitudeOfDecimal_eq (digits : ℕ) {exponent : ℤ} {a b : ℕ} (h : exponent = a - b) :
    magnitudeOfDecimal digits exponent
      = nearestMagnitude (digits * 10 ^ a * 2 ^ 1074) (10 ^ b) := by
  rw [magnitudeOfDecimal]
  -- The exponent is made opaque, or the power would be computed.
  generalize 1074 = k
  split
  · next nonneg =>
    obtain ⟨e, rfl⟩ : ∃ e, a = e + b := ⟨a - b, by omega⟩
    have whole : exponent.toNat = e := by omega
    have scaled := nearestMagnitude_mul (Nat.pow_pos (n := b) (show 0 < 10 by decide))
      (digits * 10 ^ e * 2 ^ k) 1
    rw [whole, ← scaled, Nat.mul_one]
    rw [show 10 ^ b * (digits * 10 ^ e * 2 ^ k) = digits * 10 ^ (e + b) * 2 ^ k by ring]
  · next negative =>
    obtain ⟨e, rfl⟩ : ∃ e, b = e + a := ⟨b - a, by omega⟩
    have part : exponent.natAbs = e := by omega
    have scaled := nearestMagnitude_mul (Nat.pow_pos (n := a) (show 0 < 10 by decide))
      (digits * 2 ^ k) (10 ^ e)
    rw [part, ← scaled]
    rw [show 10 ^ a * (digits * 2 ^ k) = digits * 10 ^ a * 2 ^ k by ring, Nat.pow_add,
      Nat.mul_comm (10 ^ e)]

/-- More digits and a smaller exponent read the same. -/
theorem magnitudeOfDecimal_mul_pow (digits k : ℕ) (exponent : ℤ) :
    magnitudeOfDecimal (digits * 10 ^ k) exponent = magnitudeOfDecimal digits (exponent + k) := by
  have fewer : exponent = (exponent.toNat : ℤ) - (-exponent).toNat := by omega
  have more : exponent + k = ((exponent.toNat + k : ℕ) : ℤ) - (-exponent).toNat := by omega
  rw [magnitudeOfDecimal_eq _ fewer, magnitudeOfDecimal_eq _ more, Nat.pow_add,
    Nat.mul_assoc digits, Nat.mul_comm (10 ^ k)]

/-- Nothing but zero is the reading of the digit zero. -/
theorem magnitudeOfDecimal_zero (exponent : ℤ) : magnitudeOfDecimal 0 exponent = 0 := by
  have split : exponent = (exponent.toNat : ℤ) - (-exponent).toNat := by omega
  rw [magnitudeOfDecimal_eq _ split]
  generalize 2 ^ 1074 = unit
  rw [Nat.zero_mul, Nat.zero_mul]
  exact nearestMagnitude_eq_zero (Nat.pow_pos (by decide))

/-- A number lies below the power of ten that its digits count. -/
theorem lt_pow_length_digitsOf (n : ℕ) : n < 10 ^ (digitsOf n).length :=
  (Nat.length_toDigits_le_iff (by decide) Nat.length_toDigits_pos).1 (Nat.le_refl _)

/-- A number that is not zero is at least the power of ten of its first digit. -/
theorem pow_length_digitsOf_le {n : ℕ} (h : 0 < n) : 10 ^ ((digitsOf n).length - 1) ≤ n := by
  by_cases single : (digitsOf n).length = 1
  · rw [single]
    exact h
  · have several : 0 < (digitsOf n).length - 1 := by
      have positive : 0 < (digitsOf n).length := Nat.length_toDigits_pos
      omega
    by_contra below
    have short := (Nat.length_toDigits_le_iff (n := n) (show 1 < 10 by decide) several).2 (by omega)
    rw [digitsOf] at several short
    omega

/-- Half a unit is above `10 ^ -325`. -/
theorem two_mul_unit_le : 2 * 2 ^ 1074 ≤ 10 ^ 325 := by
  decide +kernel

/-- The numbers past the finite ones begin below `10 ^ 310`. -/
theorem finite_limit_le : 2 ^ 1024 ≤ 10 ^ 310 := by
  decide +kernel

/-- A decimal far below the least positive number reads as zero. -/
theorem magnitudeOfDecimal_eq_zero {digits : ℕ} {exponent : ℤ}
    (h : (digitsOf digits).length + exponent < -325) : magnitudeOfDecimal digits exponent = 0 := by
  obtain ⟨e, he⟩ : ∃ e : ℕ, (-exponent).toNat = (digitsOf digits).length + 325 + e :=
    ⟨(-exponent).toNat - (digitsOf digits).length - 325, by omega⟩
  have split : exponent = ((0 : ℕ) : ℤ) - (-exponent).toNat := by omega
  have below := lt_pow_length_digitsOf digits
  rw [magnitudeOfDecimal_eq _ split, he]
  apply nearestMagnitude_eq_zero
  generalize (digitsOf digits).length = places at below
  have unit := two_mul_unit_le
  generalize 2 ^ 1074 = u at unit ⊢
  generalize 325 = bound at unit ⊢
  calc 2 * (digits * 10 ^ 0 * u) = digits * (2 * u) := by ring
    _ < 10 ^ places * 10 ^ bound := Nat.mul_lt_mul_of_lt_of_le below unit (Nat.pow_pos (by decide))
    _ ≤ 10 ^ places * 10 ^ bound * 10 ^ e := Nat.le_mul_of_pos_right _ (Nat.pow_pos (by decide))
    _ = 10 ^ (places + bound + e) := by rw [Nat.pow_add, Nat.pow_add]

/-- A decimal far above the greatest finite number reads as none of them. -/
theorem le_magnitudeOfDecimal {digits : ℕ} {exponent : ℤ} (hdigits : 0 < digits)
    (h : 310 < (digitsOf digits).length + exponent) :
    0x7FF0000000000000 ≤ magnitudeOfDecimal digits exponent := by
  have split : exponent = (exponent.toNat : ℤ) - (-exponent).toNat := by omega
  have above := pow_length_digitsOf_le hdigits
  obtain ⟨e, he⟩ : ∃ e : ℕ,
      (digitsOf digits).length - 1 + exponent.toNat = (-exponent).toNat + 310 + e :=
    ⟨(digitsOf digits).length - 1 + exponent.toNat - (-exponent).toNat - 310, by omega⟩
  rw [magnitudeOfDecimal_eq _ split]
  apply le_nearestMagnitude (a := 1024) (Nat.pow_pos (by decide)) rfl
  generalize (digitsOf digits).length - 1 = places at above he
  generalize exponent.toNat = a at he
  generalize (-exponent).toNat = b at he
  have limit := finite_limit_le
  generalize 2 ^ 1024 = l at limit ⊢
  generalize 2 ^ 1074 = u
  generalize 310 = bound at limit he
  calc l * u * 10 ^ b = 10 ^ b * l * u := by ring
    _ ≤ 10 ^ b * 10 ^ bound * u := Nat.mul_le_mul_right _ (Nat.mul_le_mul_left _ limit)
    _ ≤ 10 ^ b * 10 ^ bound * 10 ^ e * u :=
        Nat.mul_le_mul_right _ (Nat.le_mul_of_pos_right _ (Nat.pow_pos (by decide)))
    _ = 10 ^ places * 10 ^ a * u := by
        rw [← Nat.pow_add, ← Nat.pow_add, ← Nat.pow_add, he]
    _ ≤ digits * 10 ^ a * u := Nat.mul_le_mul_right _ (Nat.mul_le_mul_right _ above)

/-- The limits on the powers that are computed change no result. -/
theorem ofDecimal?_eq (negative : Bool) (digits : ℕ) (exponent : ℤ) :
    ofDecimal? negative digits exponent
      = ofMagnitude? negative (magnitudeOfDecimal digits exponent) := by
  simp only [ofDecimal?]
  split
  · next small =>
    have isZero : magnitudeOfDecimal digits exponent = 0 := by
      rcases small with rfl | far
      · exact magnitudeOfDecimal_zero exponent
      · exact magnitudeOfDecimal_eq_zero far
    rw [isZero]
    rfl
  · next notSmall =>
    split
    · next far =>
      have positive : 0 < digits := by omega
      have past := le_magnitudeOfDecimal positive far
      rw [ofMagnitude?, dif_neg (by omega)]
    · rfl

/-! ## The shortest decimal -/

namespace Decimal

/-- A candidate of some number of digits reads back. -/
theorem reads_of_withDigits? {magnitude count : ℕ} {places : ℤ} {d : Decimal}
    (h : withDigits? magnitude places count = some d) : d.reads magnitude := by
  simp only [withDigits?] at h
  split at h
  · next below above =>
    cases h
    split
    · exact above
    · exact below
  · next below _ =>
    cases h
    exact below
  · next _ above =>
    cases h
    exact above
  · cases h

/-- The first fit is one of the candidates. -/
theorem exists_of_firstFit {candidate : ℕ → Option Decimal} {d : Decimal} {count more : ℕ}
    (h : firstFit candidate count more = some d) : ∃ k, candidate k = some d := by
  induction more generalizing count with
  | zero => cases h
  | succ more ih =>
    rw [firstFit, Option.orElse_eq_orElse, Option.orElse_eq_or, Option.or_eq_some_iff] at h
    rcases h with h | ⟨_, h⟩
    · exact ⟨count, h⟩
    · exact ih h

/-- Moving zeros into the exponent does not change what a decimal reads as. -/
theorem magnitudeOfDecimal_strip (d : Decimal) (fuel : ℕ) :
    magnitudeOfDecimal (d.strip fuel).digits (d.strip fuel).exponent
      = magnitudeOfDecimal d.digits d.exponent := by
  induction fuel generalizing d with
  | zero => rfl
  | succ fuel ih =>
    rw [strip]
    split
    · next zeros =>
      have whole : d.digits / 10 * 10 ^ 1 = d.digits := by omega
      rw [ih, ← whole, magnitudeOfDecimal_mul_pow, whole]
      rfl
    · rfl

end Decimal

/-- The exact value of a magnitude in decimal reads as that magnitude. -/
theorem magnitudeOfDecimal_exact (m : ℕ) {k : ℕ} (hk : 1074 = k) :
    magnitudeOfDecimal (unitsOf m * 5 ^ k) (-1074) = m := by
  have split : (-1074 : ℤ) = ((0 : ℕ) : ℤ) - (1074 : ℕ) := rfl
  rw [magnitudeOfDecimal_eq _ split, hk]
  have scaled := nearestMagnitude_mul (Nat.pow_pos (n := k) (show 0 < 10 by decide)) (unitsOf m) 1
  have ten : 5 ^ k * 2 ^ k = 10 ^ k := (Nat.mul_pow 5 2 k).symm
  rw [nearestMagnitude_unitsOf, Nat.mul_one, Nat.mul_comm] at scaled
  rw [Nat.pow_zero, Nat.mul_one, Nat.mul_assoc, ten, scaled]

/-- The shortest decimal of a magnitude reads as that magnitude. -/
theorem magnitudeOfDecimal_shortest (m : ℕ) :
    magnitudeOfDecimal (shortest m).digits (shortest m).exponent = m := by
  simp only [shortest]
  split
  · next zero =>
    rw [zero]
    exact magnitudeOfDecimal_zero 0
  · split
    -- Every candidate was tested by reading it, and the last resort is exact.
    · next d fit =>
      obtain ⟨count, candidate⟩ := Decimal.exists_of_firstFit fit
      rw [Decimal.magnitudeOfDecimal_strip]
      exact of_decide_eq_true (Decimal.reads_of_withDigits? candidate)
    · generalize exponent : 1074 = k
      exact magnitudeOfDecimal_exact m exponent

/-- The digits of the shortest decimal are zero for zero alone. -/
theorem shortest_digits_eq_zero_iff (m : ℕ) : (shortest m).digits = 0 ↔ m = 0 := by
  constructor
  · intro h
    rw [← magnitudeOfDecimal_shortest m, h, magnitudeOfDecimal_zero]
  · rintro rfl
    rfl

end CatalogSearch.Binary64
