import CatalogSearch.Timestamp.Rfc3339

/-!
# Dates and times in TOML

A moment is a date, a time of day, or a date and a time with or without an offset from UTC. Its
canonical text has a capital `T` between date and time, a capital `Z` for UTC, and no zeros at the
end of the fraction of a second but for the first digit. The seconds may be missing.
-/

namespace CatalogSearch.Toml

open Timestamp (padded readDigits readDate readFraction)

/-! ## Parts -/

/-- A date in canonical form, and what follows it. -/
def scanDate (cs : List Char) : Option (List Char × List Char) := do
  let (date, rest) ← (readDate cs).toOption
  return (Timestamp.yearChars date.year ++ '-' :: padded 2 date.month ++ '-' :: padded 2 date.day,
    rest)

/-- A fraction of a second without zeros at its end, of one digit at least. -/
def fraction (nanos : Nat) : List Char :=
  if nanos = 0 then ['.', '0']
  else '.' :: ((padded 9 nanos).reverse.dropWhile (· = '0')).reverse

/-- Two numbers of two digits with a colon between them, each below its bound. -/
def scanPair (bound : Nat × Nat) (cs : List Char) : Option ((Nat × Nat) × List Char) := do
  let (first, rest) ← (readDigits 0 2 cs).toOption
  match rest with
  | ':' :: rest =>
    let (second, rest) ← (readDigits 0 2 rest).toOption
    if first < bound.1 ∧ second < bound.2 then some ((first, second), rest) else none
  | _ => none

/-- The seconds of a time of day in canonical form, if there are any, and what follows them. -/
def scanSeconds : List Char → Option (List Char × List Char)
  | ':' :: cs => do
    let (second, rest) ← (readDigits 0 2 cs).toOption
    if 60 < second then none
    match rest with
    | '.' :: _ =>
      let (nanos, rest) ← (readFraction rest).toOption
      return (':' :: padded 2 second ++ fraction nanos, rest)
    | _ => return (':' :: padded 2 second, rest)
  | cs => some ([], cs)

/-- A time of day in canonical form, and what follows it. -/
def scanTime (cs : List Char) : Option (List Char × List Char) := do
  let ((hour, minute), rest) ← scanPair (24, 60) cs
  let (seconds, rest) ← scanSeconds rest
  return (padded 2 hour ++ ':' :: padded 2 minute ++ seconds, rest)

/-- An offset in canonical form. The sign of an offset of zero is a plus. -/
def offset? : List Char → Option (List Char)
  | [] => some []
  | c :: cs =>
    if c = 'Z' ∨ c = 'z' then if cs.isEmpty then some ['Z'] else none
    else if c = '+' ∨ c = '-' then
      match scanPair (24, 60) cs with
      | some ((hours, minutes), []) =>
        let sign := if c = '-' ∧ (hours, minutes) ≠ (0, 0) then '-' else '+'
        some (sign :: padded 2 hours ++ ':' :: padded 2 minutes)
      | _ => none
    else none

/-! ## Moments -/

/-- The canonical text of a date, or of a date and a time. -/
def dateOrBoth? (cs : List Char) : Option (List Char) := do
  let (date, rest) ← scanDate cs
  match rest with
  | [] => some date
  | c :: rest =>
    if c = 'T' ∨ c = 't' ∨ c = ' ' then
      let (time, rest) ← scanTime rest
      let offset ← offset? rest
      return date ++ 'T' :: time ++ offset
    else none

/-- The canonical text of a time of day. -/
def timeOnly? (cs : List Char) : Option (List Char) :=
  match scanTime cs with
  | some (time, []) => some time
  | _ => none

/-- The canonical text of a moment. -/
def moment? (cs : List Char) : Option String :=
  (dateOrBoth? cs <|> timeOnly? cs).map .ofList

end CatalogSearch.Toml
