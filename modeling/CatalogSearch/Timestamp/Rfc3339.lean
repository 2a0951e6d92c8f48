import CatalogSearch.Timestamp

/-!
# Instants as RFC 3339 text

Reading takes any offset below a day and any number of digits of a second, of which nine count.
Writing uses UTC and no, three, six or nine digits of a second, as few as tell the instant.
-/

namespace CatalogSearch.Timestamp

-- Powers are those of the core language, whatever else defines powers.
attribute [local instance (2000)] instPowNat

/-! ## Reading -/

/-- Why a text is not a timestamp. -/
inductive ReadError where
  | premature
  | invalid
  | outOfRange
  | trailing
deriving DecidableEq

/-- The words for an error. -/
def ReadError.message : ReadError → String
  | premature => "premature end of input"
  | invalid => "input contains invalid characters"
  | outOfRange => "input is out of range"
  | trailing => "trailing input"

/-- The value of a decimal digit. -/
def digitValue (c : Char) : Nat :=
  c.toNat - 48

/-- A number of exactly `count` digits, behind the digits of `value`. -/
def readDigits (value : Nat) : Nat → List Char → Except ReadError (Nat × List Char)
  | 0, cs => .ok (value, cs)
  | _ + 1, [] => .error .premature
  | count + 1, c :: cs =>
    if c.isDigit then readDigits (value * 10 + digitValue c) count cs else .error .invalid

/-- One character out of a list of allowed ones. -/
def readOneOf (allowed : List Char) : List Char → Except ReadError (List Char)
  | [] => .error .premature
  | c :: cs => if c ∈ allowed then .ok cs else .error .invalid

/-- A date that the calendar has. -/
def readDate (cs : List Char) : Except ReadError (Date × List Char) := do
  let (year, cs) ← readDigits 0 4 cs
  let cs ← readOneOf ['-'] cs
  let (month, cs) ← readDigits 0 2 cs
  let cs ← readOneOf ['-'] cs
  let (day, cs) ← readDigits 0 2 cs
  match Date.of? year month day with
  | some date => return (date, cs)
  | none => throw .outOfRange

/-- Hours, minutes and seconds, whatever their values. -/
def readClock (cs : List Char) : Except ReadError ((Nat × Nat × Nat) × List Char) := do
  let (hour, cs) ← readDigits 0 2 cs
  let cs ← readOneOf [':'] cs
  let (minute, cs) ← readDigits 0 2 cs
  let cs ← readOneOf [':'] cs
  let (second, cs) ← readDigits 0 2 cs
  return ((hour, minute, second), cs)

/-- The nanoseconds of a row of digits behind a decimal point. -/
def nanosOfDigits (digits : List Char) : Nat :=
  (digits.take 9).foldl (fun n c => n * 10 + digitValue c) 0 * 10 ^ (9 - digits.length)

/-- The fraction of a second, zero where there is none. -/
def readFraction : List Char → Except ReadError (Nat × List Char)
  | '.' :: cs =>
    match cs.span Char.isDigit with
    | ([], []) => .error .premature
    | ([], _ :: _) => .error .invalid
    | (digits, rest) => .ok (nanosOfDigits digits, rest)
  | cs => .ok (0, cs)

/-- Two digits of an offset; a last byte alone is premature whatever it is. -/
def readOffsetDigits : List Char → Except ReadError (Char × Char × List Char)
  | [] => .error .premature
  | [c] => .error (if c.utf8Size = 1 then .premature else .invalid)
  | c :: d :: cs => if c.isDigit && d.isDigit then .ok (c, d, cs) else .error .invalid

/-- Hours and minutes of an offset, as minutes. -/
def readOffsetClock (cs : List Char) : Except ReadError (Int × List Char) := do
  let (h1, h2, cs) ← readOffsetDigits cs
  let cs ← readOneOf [':'] cs
  let (m1, m2, cs) ← readOffsetDigits cs
  if '5' < m1 then throw .outOfRange
  let hours : Int := digitValue h1 * 10 + digitValue h2
  return (hours * 60 + digitValue m1 * 10 + digitValue m2, cs)

/-- The offset from UTC in minutes: a letter for none, or a sign, hours and minutes. -/
def readOffset : List Char → Except ReadError (Int × List Char)
  | [] => .error .premature
  | c :: cs =>
    if c = 'Z' ∨ c = 'z' then .ok (0, cs)
    else if c = '+' then readOffsetClock cs
    else if c = '-' ∨ c = '\u2212' then
      (readOffsetClock cs).map fun (minutes, cs) => (-minutes, cs)
    else .error .invalid

/-- The instant that a row of characters says. -/
def ofChars (cs : List Char) : Except ReadError Timestamp := do
  let (date, cs) ← readDate cs
  let cs ← readOneOf ['T', 't', ' '] cs
  let ((hour, minute, second), cs) ← readClock cs
  let (nanos, cs) ← readFraction cs
  if 60 < second then throw .outOfRange
  let leap := second = 60
  let second := if leap then 59 else second
  let nanos := if leap then nanos + 1000000000 else nanos
  if bounds : hour < 24 ∧ minute < 60 ∧ second < 60 ∧ nanos < 2000000000 then
    let (offset, cs) ← readOffset cs
    unless cs.isEmpty do throw .trailing
    unless offset.natAbs < 1440 do throw .outOfRange
    return ofLocal date hour minute second nanos offset bounds
  else throw .outOfRange

/-- The instant that a text says. A text of fewer than 19 bytes is premature whatever it holds. -/
def ofText (s : String) : Except ReadError Timestamp :=
  if s.utf8ByteSize < 19 then .error .premature else ofChars s.toList

/-! ## Writing -/

/-- A number in decimal, with zeros in front up to `width` digits. -/
def padded (width n : Nat) : List Char :=
  let digits := Nat.toDigits 10 n
  List.replicate (width - digits.length) '0' ++ digits

/-- A year: four digits, or a sign and at least four where it does not lie in `0..9999`. -/
def yearChars (year : Int) : List Char :=
  if year < 0 then '-' :: padded 4 year.natAbs
  else if 9999 < year then '+' :: padded 4 year.natAbs
  else padded 4 year.natAbs

/-- A fraction of a second in no, three, six or nine digits. -/
def fractionChars (nanos : Nat) : List Char :=
  if nanos = 0 then []
  else if nanos % 1000000 = 0 then '.' :: padded 3 (nanos / 1000000)
  else if nanos % 1000 = 0 then '.' :: padded 6 (nanos / 1000)
  else '.' :: padded 9 nanos

/-- An instant as characters. -/
def chars (t : Timestamp) : List Char :=
  let leap := 1000000000 ≤ t.nanos
  let second := if leap then t.second + 1 else t.second
  let nanos := if leap then t.nanos - 1000000000 else t.nanos
  yearChars t.date.year ++ '-' :: padded 2 t.date.month ++ '-' :: padded 2 t.date.day
    ++ 'T' :: padded 2 t.hour ++ ':' :: padded 2 t.minute ++ ':' :: padded 2 second
    ++ fractionChars nanos ++ ['Z']

/-- An instant as text. -/
def render (t : Timestamp) : String :=
  .ofList t.chars

end CatalogSearch.Timestamp
