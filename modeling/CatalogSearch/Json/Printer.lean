import CatalogSearch.Binary64.Decimal
import CatalogSearch.Json

/-!
# JSON text of a value

`Json.render` writes a value without blanks; `Json.renderIndented` spreads it over lines, two
spaces a level. Both write the members of an object in the order in which they are listed.
-/

namespace CatalogSearch.Json

/-! ## Strings -/

/-- One hexadecimal digit in lower case. -/
def hexDigit (n : Nat) : Char :=
  if n < 10 then Char.ofNat (48 + n) else Char.ofNat (87 + n)

/-- The letter that stands behind a backslash for a character that has a short escape. -/
def shortEscape? : Char → Option Char
  | '"' => some '"'
  | '\\' => some '\\'
  | '\n' => some 'n'
  | '\r' => some 'r'
  | '\t' => some 't'
  | '\x08' => some 'b'
  | '\x0c' => some 'f'
  | _ => none

/-- A character as it stands between quotes. Only quotes, backslashes and controls are escaped. -/
def escapeChar (c : Char) : List Char :=
  match shortEscape? c with
  | some letter => ['\\', letter]
  | none =>
    if c.toNat < 0x20 then
      ['\\', 'u', '0', '0', hexDigit (c.toNat / 16), hexDigit (c.toNat % 16)]
    else [c]

/-- A text between quotes. -/
def quote (s : String) : List Char :=
  '"' :: (s.toList.flatMap escapeChar ++ ['"'])

/-! ## Values -/

/-- An integer in decimal. -/
def integerChars (n : Int) : List Char :=
  if n < 0 then '-' :: Binary64.digitsOf n.natAbs else Binary64.digitsOf n.natAbs

mutual

/-- The text of a value without blanks. -/
def chars : Json → List Char
  | null => ['n', 'u', 'l', 'l']
  | bool true => ['t', 'r', 'u', 'e']
  | bool false => ['f', 'a', 'l', 's', 'e']
  | int n => integerChars n
  | float x => Binary64.Layout.json.render x
  | str s => quote s
  | arr elements => '[' :: elementChars elements ++ [']']
  | obj members => '\x7b' :: memberChars members ++ ['\x7d']

/-- The elements of an array, separated by commas. -/
def elementChars : List Json → List Char
  | [] => []
  | [value] => chars value
  | value :: values => chars value ++ ',' :: elementChars values

/-- The members of an object, separated by commas. -/
def memberChars : List (String × Json) → List Char
  | [] => []
  | [(name, value)] => quote name ++ ':' :: chars value
  | (name, value) :: members => quote name ++ ':' :: chars value ++ ',' :: memberChars members

end

/-- The text of a value without blanks. -/
def render (value : Json) : String :=
  .ofList value.chars

/-! ## Values over several lines -/

/-- A line break and the blanks of a level. -/
def newline (level : Nat) : List Char :=
  '\n' :: List.replicate (2 * level) ' '

mutual

/-- The text of a value whose first line is already indented to a level. -/
def indented (level : Nat) : Json → List Char
  | arr [] => ['[', ']']
  | arr (value :: values) =>
    '[' :: newline (level + 1) ++ indented (level + 1) value ++ indentedElements (level + 1) values
      ++ newline level ++ [']']
  | obj [] => ['\x7b', '\x7d']
  | obj ((name, value) :: members) =>
    '\x7b' :: newline (level + 1) ++ quote name ++ [':', ' '] ++ indented (level + 1) value
      ++ indentedMembers (level + 1) members ++ newline level ++ ['\x7d']
  | value => chars value

/-- The elements after the first one, each on a line of its own. -/
def indentedElements (level : Nat) : List Json → List Char
  | [] => []
  | value :: values => ',' :: newline level ++ indented level value ++ indentedElements level values

/-- The members after the first one, each on a line of its own. -/
def indentedMembers (level : Nat) : List (String × Json) → List Char
  | [] => []
  | (name, value) :: members =>
    ',' :: newline level ++ quote name ++ [':', ' '] ++ indented level value
      ++ indentedMembers level members

end

/-- The text of a value over several lines. -/
def renderIndented (value : Json) : String :=
  .ofList (value.indented 0)

end CatalogSearch.Json
