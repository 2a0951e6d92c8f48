import CatalogSearch.Binary64.Decimal
import CatalogSearch.Encoding.Utf8
import CatalogSearch.Json
import CatalogSearch.Text.Digits

/-!
# Reading JSON text

A text is first read into a `Reading`: what it says from its start to the place where it stops
being JSON, if there is one. Strings with unpaired surrogates and numbers too large for binary64 are
kept as such, because they matter only to a reader who uses them. What a reading means, and which of
its faults is met first, is decided by whoever takes it apart in the order of the text.
-/

namespace CatalogSearch.Json

/-- What a JSON text says, in the order of the text. -/
inductive Reading where
  | null
  | bool (value : Bool)
  /-- A number, or nothing if it is too large. -/
  | number (value : Option Json)
  /-- A string, or nothing if it holds an unpaired surrogate. -/
  | text (value : Option String)
  | list (elements : List Reading)
  /-- Members as they stand; a name is missing where it is no valid string. -/
  | record (members : List (Option String × Reading))
  /-- The place where the text stops being JSON. -/
  | broken

instance : Inhabited Reading := ⟨.broken⟩

/-! ## Blanks and strings -/

/-- The four blank characters of JSON. -/
def isSpace (c : Char) : Bool :=
  c = ' ' || c = '\t' || c = '\n' || c = '\r'

/-- The characters from the first one that is not blank. -/
def skipSpaces (cs : List Char) : List Char :=
  cs.dropWhile isSpace

/-- The value of a hexadecimal digit. -/
def hexValue? (c : Char) : Option Nat :=
  if '0' ≤ c ∧ c ≤ '9' then some (c.toNat - 48)
  else if 'a' ≤ c ∧ c ≤ 'f' then some (c.toNat - 87)
  else if 'A' ≤ c ∧ c ≤ 'F' then some (c.toNat - 55)
  else none

/-- The 16-bit unit of four hexadecimal digits. -/
def unitOfHex? (a b c d : Char) : Option Nat := do
  return (((← hexValue? a) * 16 + (← hexValue? b)) * 16 + (← hexValue? c)) * 16 + (← hexValue? d)

/-- What a single character after a backslash stands for. -/
def escapeOf? : Char → Option Char
  | '"' => some '"'
  | '\\' => some '\\'
  | '/' => some '/'
  | 'b' => some '\x08'
  | 'f' => some '\x0c'
  | 'n' => some '\n'
  | 'r' => some '\r'
  | 't' => some '\t'
  | _ => none

/--
The code points of a string from behind its opening quote, surrogates of escapes one by one, and
the text behind its closing quote. Control characters must be escaped.
-/
def scanString : List Char → Option (List Nat × List Char)
  | [] => none
  | '"' :: rest => some ([], rest)
  | '\\' :: 'u' :: a :: b :: c :: d :: rest => do
    let unit ← unitOfHex? a b c d
    let (points, rest) ← scanString rest
    return (unit :: points, rest)
  | '\\' :: e :: rest => do
    let char ← escapeOf? e
    let (points, rest) ← scanString rest
    return (char.toNat :: points, rest)
  | c :: rest =>
    if c.toNat < 0x20 ∨ c = '\\' then none
    else do
      let (points, rest) ← scanString rest
      return (c.toNat :: points, rest)

/-- The characters of a list of code points in which surrogates stand in pairs. -/
def pairSurrogates : List Nat → Option (List Char)
  | [] => some []
  | [point] => if 0xD800 ≤ point ∧ point < 0xE000 then none else some [Char.ofNat point]
  | point :: next :: rest =>
    if 0xD800 ≤ point ∧ point < 0xDC00 then
      if 0xDC00 ≤ next ∧ next < 0xE000 then do
        let cs ← pairSurrogates rest
        return Char.ofNat (0x10000 + (point - 0xD800) * 0x400 + (next - 0xDC00)) :: cs
      else none
    else if 0xDC00 ≤ point ∧ point < 0xE000 then none
    else do
      let cs ← pairSurrogates (next :: rest)
      return Char.ofNat point :: cs

/-! ## Numbers -/

/-- A number as it is written. -/
structure Numeral where
  negative : Bool
  /-- The digits before the point. -/
  whole : List Char
  /-- The digits behind the point. -/
  fraction : List Char
  /-- The power of ten, if one is written. -/
  exponent : Option Int

/-- The digits before the point: a zero alone, or a row that starts with another digit. -/
def scanWhole : List Char → Option (List Char × List Char)
  | '0' :: rest => if (rest.head?.any Char.isDigit) then none else some (['0'], rest)
  | cs => Text.scanDigits cs

/-- The digits behind the point, if a point follows. -/
def scanFraction : List Char → Option (List Char × List Char)
  | '.' :: rest => Text.scanDigits rest
  | rest => some ([], rest)

/-- A number and what follows it. -/
def scanNumeral (cs : List Char) : Option (Numeral × List Char) := do
  let (negative, cs) := match cs with
    | '-' :: rest => (true, rest)
    | rest => (false, rest)
  let (whole, cs) ← scanWhole cs
  let (fraction, cs) ← scanFraction cs
  let (exponent, cs) ← Text.scanExponent cs
  return (⟨negative, whole, fraction, exponent⟩, cs)

/--
What a number means. Written without point and exponent it is an integer where a 64-bit word holds
it; the negative zero and everything else is the nearest binary64 number.
-/
def Numeral.value? (n : Numeral) : Option Json :=
  let digits := Text.natOfDigits (n.whole ++ n.fraction)
  let exponent := n.exponent.getD 0 - n.fraction.length
  let whole := n.fraction.isEmpty && n.exponent.isNone
  if whole && !n.negative && digits ≤ maxWord then some (.int digits)
  else if whole && n.negative && 0 < digits && fitsSigned (-digits) then some (.int (-digits))
  else (Binary64.ofDecimal? n.negative digits exponent).map .float

/-! ## Values -/

/-- A literal word, if the characters start with it. -/
def readWord (word : List Char) (value : Reading) (cs : List Char) :
    Reading × Option (List Char) :=
  if word.isPrefixOf cs then (value, some (cs.drop word.length)) else (.broken, none)

mutual

/--
The value at the start of a text and the text behind it, which is missing where the value is broken.
The fuel counts calls.
-/
def readValue : Nat → List Char → Reading × Option (List Char)
  | 0, _ => (.broken, none)
  | fuel + 1, cs =>
    match skipSpaces cs with
    | [] => (.broken, none)
    | '"' :: rest =>
      match scanString rest with
      | none => (.broken, none)
      | some (points, rest) => (.text ((pairSurrogates points).map .ofList), some rest)
    | '[' :: rest =>
      match skipSpaces rest with
      | ']' :: rest => (.list [], some rest)
      | rest =>
        let (elements, rest) := readElements fuel rest
        (.list elements, rest)
    | '\x7b' :: rest =>
      match skipSpaces rest with
      | '\x7d' :: rest => (.record [], some rest)
      | rest =>
        let (members, rest) := readMembers fuel rest
        (.record members, rest)
    | 't' :: rest => readWord ['r', 'u', 'e'] (.bool true) rest
    | 'f' :: rest => readWord ['a', 'l', 's', 'e'] (.bool false) rest
    | 'n' :: rest => readWord ['u', 'l', 'l'] .null rest
    | cs =>
      match scanNumeral cs with
      | none => (.broken, none)
      | some (numeral, rest) => (.number numeral.value?, some rest)

/-- The elements of an array from the first one on, and the text behind the closing bracket. -/
def readElements : Nat → List Char → List Reading × Option (List Char)
  | 0, _ => ([.broken], none)
  | fuel + 1, cs =>
    match readValue fuel cs with
    | (value, none) => ([value], none)
    | (value, some rest) =>
      match skipSpaces rest with
      | ']' :: rest => ([value], some rest)
      | ',' :: rest =>
        let (values, rest) := readElements fuel rest
        (value :: values, rest)
      | _ => ([value, .broken], none)

/-- The members of an object from the first one on, and the text behind the closing brace. -/
def readMembers : Nat → List Char → List (Option String × Reading) × Option (List Char)
  | 0, _ => ([(none, .broken)], none)
  | fuel + 1, cs =>
    match skipSpaces cs with
    | '"' :: rest =>
      match scanString rest with
      | none => ([(none, .broken)], none)
      | some (points, rest) =>
        let name := (pairSurrogates points).map String.ofList
        match skipSpaces rest with
        | ':' :: rest =>
          match readValue fuel rest with
          | (value, none) => ([(name, value)], none)
          | (value, some rest) =>
            match skipSpaces rest with
            | '\x7d' :: rest => ([(name, value)], some rest)
            | ',' :: rest =>
              let (members, rest) := readMembers fuel rest
              ((name, value) :: members, rest)
            | _ => ([(name, value), (none, .broken)], none)
        | _ => ([(name, .broken)], none)
    | _ => ([(none, .broken)], none)

end

/-! ## Whole texts -/

/-- What a whole text says, and whether anything but blanks stands behind its value. -/
structure Document where
  root : Reading
  trailing : Bool

/-- Reads a whole text. Two calls a character are enough. -/
def Document.ofChars (cs : List Char) : Document :=
  match readValue (2 * cs.length + 2) cs with
  | (root, none) => ⟨root, false⟩
  | (root, some rest) => ⟨root, !(skipSpaces rest).isEmpty⟩

/-- Reads a whole text. -/
def Document.ofText (s : String) : Document :=
  .ofChars s.toList

/--
Reads a whole file. A byte that is not UTF-8 is read as a letter and an escaped surrogate without
its other half: it spoils the string that it stands in for whoever uses that string, and an escape
or anything but a string for everyone.
-/
def Document.ofBytes (bytes : List UInt8) : Document :=
  .ofChars ((Utf8.decodeFrom none bytes).flatMap fun c =>
    c.elim ['x', '\\', 'u', 'D', 'C', '0', '0'] ([·]))

/-! ## A value as a reading -/

mutual

/-- The reading of a text that says a value. -/
def Reading.ofJson : Json → Reading
  | .null => .null
  | .bool b => .bool b
  | .int n => .number (some (.int n))
  | .float x => .number (some (.float x))
  | .str s => .text (some s)
  | .arr elements => .list (Reading.ofElements elements)
  | .obj members => .record (Reading.ofMembers members)

/-- The readings of a list of values. -/
def Reading.ofElements : List Json → List Reading
  | [] => []
  | value :: values => Reading.ofJson value :: Reading.ofElements values

/-- The readings of a list of members. -/
def Reading.ofMembers : List (String × Json) → List (Option String × Reading)
  | [] => []
  | (name, value) :: members => (some name, Reading.ofJson value) :: Reading.ofMembers members

end

end CatalogSearch.Json
