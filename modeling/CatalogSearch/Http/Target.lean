import CatalogSearch.Encoding.Utf8
import CatalogSearch.Text

/-!
# Request targets

What a request is sent to: a path and a query string. A target that starts with a slash is a path
with an optional query; one with a scheme has them behind its authority; a lone authority has
neither. Bytes that may not stand in a target make it invalid.
-/

namespace CatalogSearch.Http

/-- A path and the query string behind it, both still encoded. -/
structure Target where
  path : String
  query : String
deriving DecidableEq

/-- The bytes that may stand in a path. -/
def isPathByte (b : Nat) : Bool :=
  b = 0x21 || b = 0x22 || (0x24 ≤ b && b ≤ 0x3B) || b = 0x3D || (0x40 ≤ b && b ≤ 0x5F)
    || (0x61 ≤ b && b ≤ 0x7E) || 0x7F ≤ b

/-- The bytes that may stand in a query string. -/
def isQueryByte (b : Nat) : Bool :=
  b = 0x21 || (0x24 ≤ b && b ≤ 0x3B) || b = 0x3D || (0x3F ≤ b && b ≤ 0x7E) || 0x7F ≤ b

/-- Whether every byte of a row of characters passes a test. -/
def bytesPass (test : Nat → Bool) (cs : List Char) : Bool :=
  (Utf8.encodeChars cs).all fun b => test b.toNat

/-! ## Authorities -/

/-- What is known of the characters of an authority so far. -/
structure AuthorityScan where
  /-- The colons of the host and the port. -/
  colons : Nat
  /-- Whether there is an opening and a closing bracket. -/
  opened : Bool
  closed : Bool
  /-- Whether there is an escape in the host. -/
  escaped : Bool
  /-- Whether the last character ends the user. -/
  userEnds : Bool
deriving DecidableEq

namespace AuthorityScan

/-- Nothing is known before the first character. -/
def start : AuthorityScan := ⟨0, false, false, false, false⟩

/--
What is known behind one more character. What stands before an at sign or a closing bracket may have
colons and escapes.
-/
def step? (scan : AuthorityScan) (c : Char) : Option AuthorityScan :=
  let scan := { scan with userEnds := false }
  if c = ':' then
    if scan.colons < 8 then some { scan with colons := scan.colons + 1 } else none
  else if c = '[' then
    if scan.escaped || scan.opened then none else some { scan with opened := true }
  else if c = ']' then
    if scan.opened && !scan.closed then
      some { scan with closed := true, colons := 0, escaped := false }
    else none
  else if c = '@' then some { scan with colons := 0, escaped := false, userEnds := true }
  else if c = '%' then some { scan with escaped := true }
  else if c.isAlphanum || "!$&'()*+,-.;=_~".toList.contains c then some scan
  else none

/-- Whether what is known makes an authority. -/
def isSound (scan : AuthorityScan) : Bool :=
  scan.opened == scan.closed && scan.colons ≤ 1 && !scan.userEnds && !scan.escaped

end AuthorityScan

/-- Whether a row of characters is a host with an optional user before it and port behind it. -/
def isAuthority (cs : List Char) : Bool :=
  !cs.isEmpty && (cs.foldlM AuthorityScan.step? AuthorityScan.start).any (·.isSound)

/-! ## Targets -/

/-- The most bytes of a target. -/
def maxBytes : Nat := 65534

namespace Target

/-- The target of a path that may be followed by a query and a fragment. -/
def ofPath? (cs : List Char) : Option Target :=
  let cs := cs.takeWhile (· ≠ '#')
  let (path, query) := cs.span (· ≠ '?')
  let query := query.drop 1
  if bytesPass isPathByte path && bytesPass isQueryByte query then
    some ⟨.ofList path, .ofList query⟩
  else none

/-- The characters of a scheme. -/
def isSchemeChar (c : Char) : Bool :=
  c.isAlphanum || c = '+' || c = '-' || c = '.'

/-- The most characters of a scheme. -/
def maxScheme : Nat := 64

/-- What stands behind the scheme of a text, if it has one. -/
def afterScheme? (cs : List Char) : Option (List Char) :=
  match cs.span isSchemeChar with
  | (scheme, ':' :: '/' :: '/' :: rest) => if scheme.length ≤ maxScheme then some rest else none
  | _ => none

/-- The target that a text of at most `maxBytes` bytes says. -/
def ofText? (s : String) : Option Target :=
  if maxBytes < s.utf8ByteSize then none
  else match s.toList with
    | [] => none
    | '/' :: rest => ofPath? ('/' :: rest)
    | ['*'] => some ⟨"*", ""⟩
    | cs => match afterScheme? cs with
      | none => if isAuthority cs then some ⟨"", ""⟩ else none
      | some rest =>
        let (authority, rest) := rest.span fun c => c ∉ ['/', '?', '#']
        if isAuthority authority then (ofPath? rest).map fun target =>
          if target.path = "" then { target with path := "/" } else target
        else none

end Target

end CatalogSearch.Http
