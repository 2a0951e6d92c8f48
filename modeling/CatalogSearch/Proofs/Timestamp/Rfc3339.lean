import CatalogSearch.Proofs.Encoding.Utf8
import CatalogSearch.Proofs.Outcome
import CatalogSearch.Proofs.Text.Digits
import CatalogSearch.Timestamp.Rfc3339
import Mathlib.Data.List.TakeWhile

/-!
# Timestamps read back

An instant is written with four digits of a year only where the year lies in `0..9999`. The reader
wants four digits, so it takes these years and no others.

* `ofText_render` : an instant is read back, or refused for its year;
* `second_of_ofText` : an instant that was read has leap seconds at the end of a minute only.
-/

namespace CatalogSearch.Timestamp

/-! ## Padded numbers -/

/-- The digits of a padded number are digits. -/
theorem isDigit_of_mem_padded {width n : ℕ} {c : Char} (h : c ∈ padded width n) :
    c.isDigit = true := by
  rcases List.mem_append.1 h with zeros | digits
  · rw [List.eq_of_mem_replicate zeros]
    rfl
  · exact Text.isDigit_of_mem_digitsOf digits

/-- A padded number has the value of the number. -/
theorem natOfDigits_padded (width n : ℕ) : Text.natOfDigits (padded width n) = n := by
  rw [padded]
  exact (Text.natOfDigits_zeros_append _ _).trans (Text.natOfDigits_digitsOf n)

/-- A padded number has at least the given width. -/
theorem le_length_padded (width n : ℕ) : width ≤ (padded width n).length := by
  rw [padded, List.length_append, List.length_replicate]
  omega

/-- A number that fits the width is padded to it. -/
theorem length_padded {width n : ℕ} (hwidth : 0 < width) (h : n < 10 ^ width) :
    (padded width n).length = width := by
  have digits := (Nat.length_toDigits_le_iff (show 1 < 10 by decide) hwidth).2 h
  rw [padded, List.length_append, List.length_replicate]
  omega

/-! ## Reading rows of digits -/

/-- A row of digits is read as its value behind that of the digits before it. -/
theorem readDigits_append {digits : List Char} (h : ∀ c ∈ digits, c.isDigit = true)
    (value : ℕ) (rest : List Char) :
    readDigits value digits.length (digits ++ rest)
      = .ok (digits.foldl (fun n c => n * 10 + digitValue c) value, rest) := by
  induction digits generalizing value with
  | nil => rfl
  | cons c cs ih =>
    rw [List.length_cons, List.cons_append, readDigits, if_pos (h c List.mem_cons_self),
      ih fun d hd => h d (List.mem_cons_of_mem _ hd)]
    rfl

/-- A padded number is read back. -/
theorem readDigits_padded {width n : ℕ} (hwidth : 0 < width) (h : n < 10 ^ width)
    (rest : List Char) : readDigits 0 width (padded width n ++ rest) = .ok (n, rest) := by
  have isDigit : ∀ c ∈ padded width n, c.isDigit = true := fun _ => isDigit_of_mem_padded
  have read := readDigits_append isDigit 0 rest
  have value : (padded width n).foldl (fun n c => n * 10 + digitValue c) 0 = n :=
    natOfDigits_padded width n
  rw [length_padded hwidth h, value] at read
  exact read

/-- A row of digits behind a point is read as nanoseconds. -/
theorem readFraction_padded {width n : ℕ} (hwidth : 0 < width) (hnine : width ≤ 9)
    (h : n < 10 ^ width) :
    readFraction ('.' :: (padded width n ++ ['Z'])) = .ok (n * 10 ^ (9 - width), ['Z']) := by
  have isDigit : ∀ c ∈ padded width n, c.isDigit = true := fun _ => isDigit_of_mem_padded
  have row := Text.span_append isDigit (show (['Z'].head?.any Char.isDigit) = false by rfl)
  have places := length_padded hwidth h
  have value : (padded width n).foldl (fun n c => n * 10 + digitValue c) 0 = n :=
    natOfDigits_padded width n
  have nanos : nanosOfDigits (padded width n) = n * 10 ^ (9 - width) := by
    rw [nanosOfDigits, List.take_of_length_le (by omega), value, places]
  rw [readFraction, row, ← nanos]
  cases digits : padded width n with
  | nil =>
    rw [digits, List.length_nil] at places
    omega
  | cons c cs => rfl

/-- A fraction that is written is read back. -/
theorem readFraction_fractionChars {nanos : ℕ} (h : nanos < 1000000000) :
    readFraction (fractionChars nanos ++ ['Z']) = .ok (nanos, ['Z']) := by
  rw [fractionChars]
  split
  · next zero =>
    rw [zero]
    rfl
  · split
    · next millis =>
      have whole : nanos / 1000000 * 10 ^ (9 - 3) = nanos := by omega
      rw [List.cons_append, readFraction_padded (by decide) (by decide) (by omega), whole]
    · split
      · next micros =>
        have whole : nanos / 1000 * 10 ^ (9 - 6) = nanos := by omega
        rw [List.cons_append, readFraction_padded (by decide) (by decide) (by omega), whole]
      · have whole : nanos * 10 ^ (9 - 9) = nanos := Nat.mul_one nanos
        rw [List.cons_append, readFraction_padded (by decide) (by decide) (by omega), whole]

/-! ## Reading an instant -/

/-- A date that is written with four digits of a year is read back. -/
theorem readDate_append (date : Date) (h : 0 ≤ date.year ∧ date.year ≤ 9999) (rest : List Char) :
    readDate (yearChars date.year ++ '-' :: (padded 2 date.month ++ '-' :: (padded 2 date.day
      ++ rest))) = .ok (date, rest) := by
  have month := date.month_bounds
  have day := date.day_bounds
  have days := daysIn_bounds date.year date.month
  have year : ((date.year.natAbs : ℕ) : ℤ) = date.year := by omega
  have whole : Date.of? date.year date.month date.day = some date := by
    rw [Date.of?, dif_pos ⟨month, day⟩]
  have fourDigits : date.year.natAbs < 10 ^ 4 := by omega
  have twoDigits : date.month < 10 ^ 2 ∧ date.day < 10 ^ 2 := by omega
  rw [yearChars, if_neg (by omega), if_neg (by omega)]
  simp only [readDate, readDigits_padded (show 0 < 4 by decide) fourDigits,
    readDigits_padded Nat.two_pos twoDigits.1, readDigits_padded Nat.two_pos twoDigits.2, readOneOf,
    List.mem_singleton, if_true, bind, Except.bind, pure, Except.pure, year, whole]

/-- A time of day is read back. -/
theorem readClock_append {hour minute second : ℕ}
    (h : hour < 10 ^ 2 ∧ minute < 10 ^ 2 ∧ second < 10 ^ 2)
    (rest : List Char) :
    readClock (padded 2 hour ++ ':' :: (padded 2 minute ++ ':' :: (padded 2 second ++ rest)))
      = .ok ((hour, minute, second), rest) := by
  obtain ⟨hhour, hminute, hsecond⟩ := h
  simp only [readClock, readDigits_padded Nat.two_pos hhour, readDigits_padded Nat.two_pos hminute,
    readDigits_padded Nat.two_pos hsecond, readOneOf, List.mem_singleton, if_true, bind, Except.bind,
    pure, Except.pure]

/-- A date and a time in UTC are an instant as they stand. -/
theorem ofLocal_utc (t : Timestamp) :
    ofLocal t.date t.hour t.minute t.second t.nanos 0 t.bounds = t := by
  obtain ⟨hour, minute, _⟩ := t.bounds
  have early : ¬ ((t.hour * 60 + t.minute - 0 : ℤ) < 0) := by omega
  have late : ¬ (1440 ≤ (t.hour * 60 + t.minute - 0 : ℤ)) := by omega
  have hours : ((t.hour * 60 + t.minute - 0 : ℤ) % 1440).toNat / 60 = t.hour := by omega
  have minutes : ((t.hour * 60 + t.minute - 0 : ℤ) % 1440).toNat % 60 = t.minute := by omega
  simp only [ofLocal, if_neg early, if_neg late, hours, minutes]

/-- The seconds of an instant as they are written. -/
def writtenSecond (t : Timestamp) : ℕ :=
  if 1000000000 ≤ t.nanos then t.second + 1 else t.second

/-- The nanoseconds of an instant as they are written. -/
def writtenNanos (t : Timestamp) : ℕ :=
  if 1000000000 ≤ t.nanos then t.nanos - 1000000000 else t.nanos

/-- The characters of an instant, one part behind the other. -/
theorem chars_eq (t : Timestamp) :
    t.chars = yearChars t.date.year ++ '-' :: (padded 2 t.date.month ++ '-' :: (padded 2 t.date.day
      ++ 'T' :: (padded 2 t.hour ++ ':' :: (padded 2 t.minute ++ ':' :: (padded 2 t.writtenSecond
      ++ (fractionChars t.writtenNanos ++ ['Z'])))))) := by
  simp only [chars, writtenSecond, writtenNanos, List.append_assoc, List.cons_append]

/-- The second and the nanoseconds of an instant are told by those that are written. -/
theorem written_eq {t : Timestamp} (leap : 1000000000 ≤ t.nanos → t.second = 59) :
    ¬ 60 < t.writtenSecond
      ∧ (if t.writtenSecond = 60 then 59 else t.writtenSecond) = t.second
      ∧ (if t.writtenSecond = 60 then t.writtenNanos + 1000000000 else t.writtenNanos) = t.nanos
      ∧ t.writtenNanos < 1000000000 := by
  have bounds := t.bounds
  by_cases isLeap : 1000000000 ≤ t.nanos
  · have last := leap isLeap
    have second : t.writtenSecond = 60 := by rw [writtenSecond, if_pos isLeap, last]
    have nanos : t.writtenNanos = t.nanos - 1000000000 := by rw [writtenNanos, if_pos isLeap]
    rw [second, nanos, if_pos rfl, if_pos rfl]
    omega
  · have second : t.writtenSecond = t.second := by rw [writtenSecond, if_neg isLeap]
    have nanos : t.writtenNanos = t.nanos := by rw [writtenNanos, if_neg isLeap]
    have before : ¬ t.second = 60 := by omega
    rw [second, nanos, if_neg before, if_neg before]
    omega

/-- An instant with four digits of a year is read back. -/
theorem ofChars_chars {t : Timestamp} (leap : 1000000000 ≤ t.nanos → t.second = 59)
    (year : 0 ≤ t.date.year ∧ t.date.year ≤ 9999) : ofChars t.chars = .ok t := by
  have bounds := t.bounds
  obtain ⟨late, second, nanos, fraction⟩ := written_eq leap
  have clock : t.hour < 10 ^ 2 ∧ t.minute < 10 ^ 2 ∧ t.writtenSecond < 10 ^ 2 := by omega
  have offset : readOffset ['Z'] = .ok (0, []) := rfl
  rw [chars_eq]
  simp only [ofChars, readDate_append t.date year, readOneOf, List.mem_cons, true_or, if_true,
    readClock_append clock, readFraction_fractionChars fraction, bind, Except.bind, if_neg late,
    second, nanos, dif_pos bounds, offset, List.isEmpty_nil, pure, Except.pure, Int.natAbs_zero,
    ofLocal_utc]
  rfl

/-- A year without four digits is refused for its sign. -/
theorem ofChars_chars_of_year {t : Timestamp} (year : ¬ (0 ≤ t.date.year ∧ t.date.year ≤ 9999)) :
    ofChars t.chars = .error .invalid := by
  rw [chars_eq, yearChars]
  -- Such a year starts with a sign, and the reader wants a digit.
  by_cases negative : t.date.year < 0
  · rw [if_pos negative]
    rfl
  · rw [if_neg negative, if_pos (by omega)]
    rfl

/-- The text of an instant is long enough to be read. -/
theorem le_utf8ByteSize_render (t : Timestamp) : 19 ≤ t.render.utf8ByteSize := by
  have characters := Utf8.length_le_length_encodeChars t.chars
  have year : 4 ≤ (yearChars t.date.year).length := by
    have width := le_length_padded 4 t.date.year.natAbs
    rw [yearChars]
    split
    · rw [List.length_cons]
      omega
    · split
      · rw [List.length_cons]
        omega
      · exact width
  have month := le_length_padded 2 t.date.month
  have day := le_length_padded 2 t.date.day
  have hour := le_length_padded 2 t.hour
  have minute := le_length_padded 2 t.minute
  have second := le_length_padded 2 t.writtenSecond
  rw [render, Utf8.utf8ByteSize_ofList]
  refine Nat.le_trans ?_ characters
  rw [chars_eq]
  simp only [List.length_append, List.length_cons]
  omega

/-- An instant whose leap seconds end a minute is read back, or refused for its year. -/
theorem ofText_render {t : Timestamp} (leap : 1000000000 ≤ t.nanos → t.second = 59) :
    ofText t.render
      = if 0 ≤ t.date.year ∧ t.date.year ≤ 9999 then .ok t else .error .invalid := by
  have size := le_utf8ByteSize_render t
  rw [ofText, if_neg (by omega), render, String.toList_ofList]
  split
  · next year => exact ofChars_chars leap year
  · next year => exact ofChars_chars_of_year year

/-! ## Instants that were read -/

/-- The nanoseconds of a row of digits are less than a second. -/
theorem nanosOfDigits_lt {digits : List Char} (h : ∀ c ∈ digits, c.isDigit = true) :
    nanosOfDigits digits < 1000000000 := by
  have isDigit : ∀ c ∈ digits.take 9, c.isDigit = true := fun c hc => h c (List.mem_of_mem_take hc)
  have value : Text.natOfDigits (digits.take 9) < 10 ^ (digits.take 9).length :=
    Text.natOfDigits_lt isDigit
  rw [List.length_take] at value
  have scaled := Nat.mul_lt_mul_of_pos_right value
    (Nat.pow_pos (n := 9 - digits.length) (show 0 < 10 by decide))
  have nine : 10 ^ min 9 digits.length * 10 ^ (9 - digits.length) = 1000000000 := by
    rw [← Nat.pow_add, show min 9 digits.length + (9 - digits.length) = 9 by omega]
  rw [nine] at scaled
  exact scaled

/-- A fraction of a second is read as less than a second. -/
theorem readFraction_lt {cs rest : List Char} {nanos : ℕ}
    (h : readFraction cs = .ok (nanos, rest)) : nanos < 1000000000 := by
  unfold readFraction at h
  split at h
  · next cs =>
    split at h
    · cases h
    · cases h
    · next digits _ _ _ row =>
      cases h
      rw [List.span_eq_takeWhile_dropWhile] at row
      refine nanosOfDigits_lt fun c hc => ?_
      rw [← (Prod.mk.inj row).1] at hc
      exact List.mem_takeWhile_imp hc
  · cases h
    decide

/-- The second and the fraction that an instant was read from. -/
theorem exists_of_ofChars {cs : List Char} {t : Timestamp} (h : ofChars cs = .ok t) :
    ∃ second nanos, nanos < 1000000000 ∧ (if second = 60 then 59 else second) = t.second
      ∧ (if second = 60 then nanos + 1000000000 else nanos) = t.nanos := by
  rw [ofChars] at h
  obtain ⟨⟨date, cs⟩, _, h⟩ := exists_of_bind_eq_ok h
  obtain ⟨cs, _, h⟩ := exists_of_bind_eq_ok h
  obtain ⟨⟨⟨hour, minute, second⟩, cs⟩, _, h⟩ := exists_of_bind_eq_ok h
  obtain ⟨⟨nanos, cs⟩, fraction, h⟩ := exists_of_bind_eq_ok h
  refine ⟨second, nanos, readFraction_lt fraction, ?_⟩
  dsimp only at h
  -- The two are made opaque so that only the tests of the reader are split.
  generalize (if second = 60 then 59 else second) = keptSecond at h ⊢
  generalize (if second = 60 then nanos + 1000000000 else nanos) = keptNanos at h ⊢
  split at h
  · cases h
  · split at h
    · obtain ⟨⟨offset, cs⟩, _, h⟩ := exists_of_bind_eq_ok h
      dsimp only at h
      split at h
      · split at h
        · cases h
          exact ⟨rfl, rfl⟩
        · cases h
      · cases h
    · cases h

/-- An instant that was read has leap seconds at the end of a minute only. -/
theorem second_of_ofText {s : String} {t : Timestamp} (h : ofText s = .ok t)
    (leap : 1000000000 ≤ t.nanos) : t.second = 59 := by
  rw [ofText] at h
  split at h
  · cases h
  · obtain ⟨second, nanos, below, hsecond, hnanos⟩ := exists_of_ofChars h
    by_cases last : second = 60
    · rw [← hsecond, if_pos last]
    · rw [← hnanos, if_neg last] at leap
      omega

end CatalogSearch.Timestamp
