import CatalogSearch.Word

/-!
# Instants

An instant is a calendar date and a time of day in UTC. A leap second is the second 59 with a
fraction of one second or more, so it comes after every other instant of its minute. Instants are
ordered by one integer, `Timestamp.rank`, which no two of them share.
-/

namespace CatalogSearch

/-! ## Dates -/

/-- Whether a year of the Gregorian calendar has a 29th of February. -/
def isLeapYear (year : Int) : Bool :=
  year % 4 = 0 && (year % 100 ≠ 0 || year % 400 = 0)

/-- The number of days of a month. -/
def daysIn (year : Int) (month : Nat) : Nat :=
  if month = 2 then if isLeapYear year then 29 else 28
  else if month = 4 ∨ month = 6 ∨ month = 9 ∨ month = 11 then 30
  else 31

/-- A month has at least 28 and at most 31 days. -/
theorem daysIn_bounds (year : Int) (month : Nat) :
    28 ≤ daysIn year month ∧ daysIn year month ≤ 31 := by
  unfold daysIn
  repeat' split
  all_goals omega

/-- A date of the Gregorian calendar, which is extended to all years. -/
structure Date where
  year : Int
  month : Nat
  day : Nat
  month_bounds : 1 ≤ month ∧ month ≤ 12
  day_bounds : 1 ≤ day ∧ day ≤ daysIn year month
deriving DecidableEq

namespace Date

/-- The date with the given numbers, if the calendar has it. -/
def of? (year : Int) (month day : Nat) : Option Date :=
  if h : (1 ≤ month ∧ month ≤ 12) ∧ 1 ≤ day ∧ day ≤ daysIn year month then
    some ⟨year, month, day, h.1, h.2⟩
  else none

/-- The day after a date. -/
def next (d : Date) : Date :=
  if inMonth : d.day < daysIn d.year d.month then
    { d with day := d.day + 1, day_bounds := ⟨by omega, inMonth⟩ }
  else if inYear : d.month < 12 then
    ⟨d.year, d.month + 1, 1, by omega, by have := daysIn_bounds d.year (d.month + 1); omega⟩
  else ⟨d.year + 1, 1, 1, by omega, by have := daysIn_bounds (d.year + 1) 1; omega⟩

/-- The day before a date. -/
def previous (d : Date) : Date :=
  if inMonth : 1 < d.day then
    { d with day := d.day - 1, day_bounds := by have := d.day_bounds; omega }
  else if inYear : 1 < d.month then
    ⟨d.year, d.month - 1, daysIn d.year (d.month - 1), by have := d.month_bounds; omega,
      by have := daysIn_bounds d.year (d.month - 1); omega⟩
  else ⟨d.year - 1, 12, 31, by omega, by simp [daysIn]⟩

/-- The place of a date in the order of dates. -/
def rank (d : Date) : Int :=
  (d.year * 12 + d.month) * 32 + d.day

/-- Dates of the same rank are the same. -/
theorem rank_injective {d e : Date} (h : d.rank = e.rank) : d = e := by
  have dm := d.month_bounds
  have em := e.month_bounds
  have dd := d.day_bounds
  have ed := e.day_bounds
  have dn := daysIn_bounds d.year d.month
  have en := daysIn_bounds e.year e.month
  obtain ⟨dy, dmo, dda, _, _⟩ := d
  obtain ⟨ey, emo, eda, _, _⟩ := e
  simp only [rank] at h dm em dd ed dn en
  have year : dy = ey := by omega
  have month : dmo = emo := by omega
  have day : dda = eda := by omega
  subst year month day
  rfl

end Date

/-! ## Instants -/

/-- A date and a time of day in UTC, to the nanosecond. -/
structure Timestamp where
  date : Date
  hour : Nat
  minute : Nat
  second : Nat
  /-- The fraction of the second; from `10 ^ 9` on it lies in a leap second. -/
  nanos : Nat
  bounds : hour < 24 ∧ minute < 60 ∧ second < 60 ∧ nanos < 2000000000
deriving DecidableEq

namespace Timestamp

/-- The place of an instant in the order of instants. -/
def rank (t : Timestamp) : Int :=
  (((t.date.rank * 24 + t.hour) * 60 + t.minute) * 60 + t.second) * 2000000000 + t.nanos

/-- Instants of the same rank are the same. -/
theorem rank_injective {s t : Timestamp} (h : s.rank = t.rank) : s = t := by
  have sb := s.bounds
  have tb := t.bounds
  obtain ⟨sd, sh, sm, ss, sn, _⟩ := s
  obtain ⟨td, th, tm, ts, tn, _⟩ := t
  simp only [rank] at h sb tb
  have nanos : sn = tn := by omega
  have second : ss = ts := by omega
  have minute : sm = tm := by omega
  have hour : sh = th := by omega
  have date : sd = td := Date.rank_injective (by omega)
  subst nanos second minute hour date
  rfl

/--
The instant of a local date and time that is `offset` minutes ahead of UTC. An offset is less than a
day, so the date moves by a day at most.
-/
def ofLocal (date : Date) (hour minute second nanos : Nat) (offset : Int)
    (bounds : hour < 24 ∧ minute < 60 ∧ second < 60 ∧ nanos < 2000000000) : Timestamp :=
  let minutes : Int := hour * 60 + minute - offset
  let date := if minutes < 0 then date.previous else if 1440 ≤ minutes then date.next else date
  let ofDay := (minutes % 1440).toNat
  ⟨date, ofDay / 60, ofDay % 60, second, nanos, by omega⟩

end Timestamp

end CatalogSearch
