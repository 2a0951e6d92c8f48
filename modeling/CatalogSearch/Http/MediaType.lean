import CatalogSearch.Text

/-!
# Media types

A content type is a type and a subtype, both tokens, and parameters behind semicolons. It is one of
JSON if the type is `application` and the subtype is `json` or has `json` before or behind its last
plus sign, where a plus sign that starts the subtype does not count.
-/

namespace CatalogSearch.Http

/-- The characters of a token. -/
def isTokenChar (c : Char) : Bool :=
  c.isAlphanum || "!#$%&'*+-.^_\x60|~".toList.contains c

/-! ## Parameters -/

/-- Where a character of a row of parameters stands. -/
inductive ParameterPlace where
  /-- Before a parameter. -/
  | gap
  | name
  /-- Right behind the equals sign. -/
  | value
  /-- In a value without quotes. -/
  | token
  /-- Right behind the opening quote. -/
  | quote
  /-- In a value with quotes, which is not empty. -/
  | quoted
  /-- Behind the closing quote. -/
  | closed
deriving DecidableEq

/--
The place behind a character. A value with quotes has no escapes, and its first character may be a
quote.
-/
def ParameterPlace.step? (place : ParameterPlace) (c : Char) : Option ParameterPlace :=
  match place with
  | gap => if c = ' ' then some gap else if isTokenChar c then some name else none
  | name => if c = '=' then some value else if isTokenChar c then some name else none
  | value => if c = '"' then some quote else if isTokenChar c then some token else none
  | token => if c = ';' then some gap else if isTokenChar c then some token else none
  | quote => if 0x20 ≤ c.toNat ∧ c.toNat < 0x7F then some quoted else none
  | quoted =>
    if c = '"' then some closed
    else if 0x20 ≤ c.toNat ∧ c.toNat < 0x7F then some quoted
    else none
  | closed => if c = ';' then some gap else if c = ' ' then some closed else none

/-- Whether a row of parameters may end here. -/
def ParameterPlace.mayEnd (place : ParameterPlace) : Bool :=
  place ∉ [name, quote, quoted]

/-- Whether the characters behind the first semicolon are parameters. -/
def areParameters (cs : List Char) : Bool :=
  (cs.foldlM ParameterPlace.step? ParameterPlace.gap).any (·.mayEnd)

/-! ## Content types -/

/-- What a subtype is made of: what is before its last plus sign and what is behind it. -/
def subtypeParts (subtype : List Char) : List (List Char) :=
  match subtype.reverse.span (· ≠ '+') with
  | (behind, _ :: c :: before) => [(c :: before).reverse, behind.reverse]
  | _ => [subtype]

/-- Whether a content type is one of JSON. -/
def isJsonType (contentType : String) : Bool :=
  let (type, rest) := (contentType.toList.map Char.toLower).span isTokenChar
  match rest with
  | '/' :: rest =>
    let (subtype, rest) := rest.span isTokenChar
    type = "application".toList && (subtypeParts subtype).contains "json".toList
      && match rest with
        | [] => true
        | ';' :: parameters => areParameters parameters
        | _ => false
  | _ => false

end CatalogSearch.Http
