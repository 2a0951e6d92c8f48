import CatalogSearch.Json.Reading
import CatalogSearch.Toml
import CatalogSearch.Toml.Moment

/-!
# TOML strings, numbers and moments

Everything that is written without brackets. A line ends with a line feed, which may have a carriage
return before it; carriage returns stand nowhere else.
-/

namespace CatalogSearch.Toml

/-- The characters of comments and strings: no controls but the tab. -/
def isText (c : Char) : Bool :=
  c = '\t' || (0x20 ≤ c.toNat && c.toNat ≠ 0x7F)

/-- The text behind a line break, if one stands here. -/
def afterBreak? : List Char → Option (List Char)
  | '\n' :: cs => some cs
  | '\r' :: '\n' :: cs => some cs
  | _ => none

/-! ## Escapes -/

/-- What a single character after a backslash stands for. -/
def escapeOf? : Char → Option Char
  | '"' => some '"'
  | '\\' => some '\\'
  | 'b' => some '\x08'
  | 'e' => some '\x1b'
  | 'f' => some '\x0c'
  | 'n' => some '\n'
  | 'r' => some '\r'
  | 't' => some '\t'
  | _ => none

/-- The character whose code point is written in exactly `count` hexadecimal digits. -/
def scanCodePoint (count : Nat) (cs : List Char) : Option (Char × List Char) := do
  let digits ← (cs.take count).mapM Json.hexValue?
  let point := digits.foldl (fun n d => n * 16 + d) 0
  if digits.length = count ∧ point.isValidChar then some (Char.ofNat point, cs.drop count)
  else none

/-- The character of an escape from behind its backslash. -/
def scanEscape : List Char → Option (Char × List Char)
  | 'x' :: rest => scanCodePoint 2 rest
  | 'u' :: rest => scanCodePoint 4 rest
  | 'U' :: rest => scanCodePoint 8 rest
  | c :: rest => (escapeOf? c).map (·, rest)
  | [] => none

/-! ## Strings -/

/-- A string with escapes from behind its opening quote. The fuel counts characters. -/
def scanBasic : Nat → List Char → Option (List Char × List Char)
  | 0, _ | _, [] => none
  | fuel + 1, c :: cs =>
    if c = '"' then some ([], cs)
    else if c = '\\' then do
      let (escaped, cs) ← scanEscape cs
      let (chars, rest) ← scanBasic fuel cs
      return (escaped :: chars, rest)
    else if isText c then (scanBasic fuel cs).map fun (chars, rest) => (c :: chars, rest)
    else none

/-- A string without escapes from behind its opening quote. -/
def scanLiteral : List Char → Option (List Char × List Char)
  | [] => none
  | c :: cs =>
    if c = '\'' then some ([], cs)
    else if isText c then (scanLiteral cs).map fun (chars, rest) => (c :: chars, rest)
    else none

/-- Up to two quotes of a string that stand right before the three that close it. -/
def closing (quote : Char) : List Char → List Char × List Char
  | [] => ([], [])
  | [c] => if c = quote then ([c], []) else ([], [c])
  | c :: d :: rest =>
    if c = quote ∧ d = quote then ([c, d], rest)
    else if c = quote then ([c], d :: rest)
    else ([], c :: d :: rest)

/-- The text from the next mark on, behind blanks and line breaks. -/
def skipWhite : List Char → List Char
  | ' ' :: cs | '\t' :: cs | '\n' :: cs | '\r' :: '\n' :: cs => skipWhite cs
  | cs => cs

/-- What follows a backslash at the end of a line: the text from the next mark on. -/
def skipLineEnd? (cs : List Char) : Option (List Char) :=
  (afterBreak? (cs.dropWhile fun c => c = ' ' ∨ c = '\t')).map skipWhite

/--
A string of several lines from behind its opening quotes. Its line breaks are kept as they are. The
fuel counts characters.
-/
def scanLines (quote : Char) (escapes : Bool) : Nat → List Char → Option (List Char × List Char)
  | 0, _ | _, [] => none
  | fuel + 1, c :: cs =>
    if c = quote ∧ cs.take 2 = [quote, quote] then some (closing quote (cs.drop 2))
    else if escapes ∧ c = '\\' then
      match skipLineEnd? cs with
      | some cs => scanLines quote escapes fuel cs
      | none => do
        let (escaped, cs) ← scanEscape cs
        let (chars, rest) ← scanLines quote escapes fuel cs
        return (escaped :: chars, rest)
    else if isText c ∨ (afterBreak? (c :: cs)).isSome then
      (scanLines quote escapes fuel cs).map fun (chars, rest) => (c :: chars, rest)
    else none

/-- The text behind opening quotes; a line break right behind them does not count. -/
def skipFirstBreak (cs : List Char) : List Char :=
  (afterBreak? cs).getD cs

/-- A string of one line or several, if a quote stands here. -/
def scanText (cs : List Char) : Option (String × List Char) :=
  let found := match cs with
    | '"' :: '"' :: '"' :: rest => scanLines '"' true (rest.length + 1) (skipFirstBreak rest)
    | '\'' :: '\'' :: '\'' :: rest => scanLines '\'' false (rest.length + 1) (skipFirstBreak rest)
    | '"' :: rest => scanBasic (rest.length + 1) rest
    | '\'' :: rest => scanLiteral rest
    | _ => none
  found.map fun (chars, rest) => (.ofList chars, rest)

/-! ## Numbers -/

/-- A row of digits without the underscores between them. -/
def ungroup (digit : Char → Bool) : List Char → Option (List Char)
  | [] => none
  | [c] => if digit c then some [c] else none
  | c :: '_' :: rest => if digit c then (ungroup digit rest).map (c :: ·) else none
  | c :: rest => if digit c then (ungroup digit rest).map (c :: ·) else none

/-- A row of decimal digits that starts with a zero only if it is one. -/
def wholeDigits? (cs : List Char) : Option (List Char) :=
  match ungroup Char.isDigit cs with
  | some ('0' :: _ :: _) => none
  | found => found

/-- An integer, if a signed 64-bit word holds it. -/
def word? (n : Int) : Option Toml :=
  if fitsSigned n then some (.integer n) else none

/-- The integer of a row of digits of a base. -/
def integerOfBase? (base : Nat) (cs : List Char) : Option Toml := do
  let digits ← ungroup (fun c => (Json.hexValue? c).any (· < base)) cs
  word? (digits.foldl (fun n c => n * base + (Json.hexValue? c).getD 0) 0 : Nat)

/-- The integer that a token says. -/
def integer? : List Char → Option Toml
  | '0' :: 'x' :: cs => integerOfBase? 16 cs
  | '0' :: 'o' :: cs => integerOfBase? 8 cs
  | '0' :: 'b' :: cs => integerOfBase? 2 cs
  | cs => do
    let (negative, cs) := Text.splitSign cs
    let n := Text.natOfDigits (← wholeDigits? cs)
    word? (if negative then -(n : Int) else n)

/-- The digits behind a point, if there is one. -/
def fraction? : List Char → Option (List Char)
  | '.' :: cs => ungroup Char.isDigit cs
  | [] => some []
  | _ => none

/-- The exponent behind its letter, if there is one. -/
def exponent? : List Char → Option Int
  | _ :: cs => do
    let (negative, cs) := Text.splitSign cs
    let n := Text.natOfDigits (← ungroup Char.isDigit cs)
    return if negative then -(n : Int) else n
  | [] => some 0

/-- The number that a token says with a point or an exponent; it has to be finite. -/
def decimal? (negative : Bool) (cs : List Char) : Option Toml := do
  let (mantissa, exponent) := cs.span fun c => c ≠ 'e' ∧ c ≠ 'E'
  let (whole, fraction) := mantissa.span (· ≠ '.')
  if fraction.isEmpty && exponent.isEmpty then none
  let whole ← wholeDigits? whole
  let fraction ← fraction? fraction
  let exponent ← exponent? exponent
  let x ← Binary64.ofDecimal? negative (Text.natOfDigits (whole ++ fraction))
    (exponent - fraction.length)
  return .number (.finite x)

/-- The number that a token says, if it is no integer. -/
def number? (cs : List Char) : Option Toml :=
  let (negative, cs) := Text.splitSign cs
  if cs = ['i', 'n', 'f'] then some (.number (.infinite negative))
  else if cs = ['n', 'a', 'n'] then some (.number .notANumber)
  else decimal? negative cs

/-! ## Tokens -/

/-- The characters of values that are neither strings nor in brackets. -/
def isTokenChar (c : Char) : Bool :=
  c.isAlphanum || c = '+' || c = '-' || c = '.' || c = '_' || c = ':'

/-- A token and what follows it. A blank may stand between a date and a time. -/
def scanToken (cs : List Char) : List Char × List Char :=
  let (token, rest) := cs.span isTokenChar
  match rest with
  | ' ' :: c :: more =>
    if c.isDigit ∧ (scanDate token).any (·.2.isEmpty) then
      let (time, rest) := (c :: more).span isTokenChar
      (token ++ ' ' :: time, rest)
    else (token, rest)
  | _ => (token, rest)

/-- The value of a token. -/
def ofToken? (token : List Char) : Option Toml :=
  if token = ['t', 'r', 'u', 'e'] then some (.boolean true)
  else if token = ['f', 'a', 'l', 's', 'e'] then some (.boolean false)
  else integer? token <|> number? token <|> (moment? token).map .moment

end CatalogSearch.Toml
