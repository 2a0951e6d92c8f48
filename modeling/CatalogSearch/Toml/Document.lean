import CatalogSearch.Toml.Scalar
import CatalogSearch.Toml.Table

/-!
# Reading TOML documents

A document is a row of statements, one a line: assignments to keys, and headers, which say to which
table the assignments behind them belong.
-/

namespace CatalogSearch.Toml

/-! ## Blanks -/

/-- The text from the first character that is neither blank nor tab. -/
def skipBlanks (cs : List Char) : List Char :=
  cs.dropWhile fun c => c = ' ' ∨ c = '\t'

/-- The text behind a comment, if one starts here. -/
def skipComment : List Char → List Char
  | '#' :: cs => cs.dropWhile isText
  | cs => cs

/-- The text behind blanks, comments and line breaks. The fuel counts lines. -/
def skipLines : Nat → List Char → List Char
  | 0, cs => cs
  | fuel + 1, cs =>
    let line := skipComment (skipBlanks cs)
    match afterBreak? line with
    | some cs => skipLines fuel cs
    | none => line

/-- The next line, if nothing but a comment is left of this one. -/
def nextLine? (cs : List Char) : Option (List Char) :=
  match skipComment (skipBlanks cs) with
  | [] => some []
  | rest => afterBreak? rest

/-! ## Keys -/

/-- The characters of keys without quotes. -/
def isKeyChar (c : Char) : Bool :=
  c.isAlphanum || c = '_' || c = '-'

/-- One key. -/
def scanKey (cs : List Char) : Option (String × List Char) :=
  let found := match cs with
    | '"' :: rest => scanBasic (rest.length + 1) rest
    | '\'' :: rest => scanLiteral rest
    | _ => match cs.span isKeyChar with
      | ([], _) => none
      | found => some found
  found.map fun (chars, rest) => (.ofList chars, rest)

/-- How many brackets of values may be open at once, and how many keys a path may have. -/
def maxDepth : Nat := 80

/-- At most so many keys with points between them, and the blanks behind them. -/
def scanKeys : Nat → List Char → Option (List String × List Char)
  | 0, _ => none
  | most + 1, cs => do
    let (key, rest) ← scanKey (skipBlanks cs)
    match skipBlanks rest with
    | '.' :: rest =>
      let (path, rest) ← scanKeys most rest
      return (key :: path, rest)
    | rest => return ([key], rest)

/-- The keys of a path. -/
def scanPath (cs : List Char) : Option (List String × List Char) :=
  scanKeys maxDepth cs

/-! ## Values -/

/-- The table of a row of assignments. -/
def tableOf? (assignments : List (List String × Toml)) : Option Toml := do
  let (_, entries) ← assignAll assignments (.written, [])
  return .table (Node.finishEntries entries)

mutual

/-- A value with at most `depth` brackets open at once. The fuel counts calls. -/
def scanValue (depth : Nat) : Nat → List Char → Option (Toml × List Char)
  | 0, _ => none
  | fuel + 1, cs =>
    match cs, depth with
    | '[' :: _, 0 | '\x7b' :: _, 0 => none
    | '[' :: rest, depth + 1 => do
      let (elements, rest) ← scanElements depth fuel rest
      return (.list elements, rest)
    | '\x7b' :: rest, depth + 1 => do
      let (assignments, rest) ← scanAssignments depth fuel rest
      return (← tableOf? assignments, rest)
    | '"' :: _, _ | '\'' :: _, _ => (scanText cs).map fun (s, rest) => (.text s, rest)
    | _, _ => do
      let (token, rest) := scanToken cs
      return (← ofToken? token, rest)

/-- The elements that are left of an array, and the text behind its bracket. -/
def scanElements (depth : Nat) : Nat → List Char → Option (List Toml × List Char)
  | 0, _ => none
  | fuel + 1, cs =>
    match skipLines cs.length cs with
    | ']' :: rest => some ([], rest)
    | rest => do
      let (value, rest) ← scanValue depth fuel rest
      match skipLines rest.length rest with
      | ']' :: rest => return ([value], rest)
      | ',' :: rest =>
        let (values, rest) ← scanElements depth fuel rest
        return (value :: values, rest)
      | _ => none

/-- The assignments that are left of a table in braces, and the text behind its brace. -/
def scanAssignments (depth : Nat) :
    Nat → List Char → Option (List (List String × Toml) × List Char)
  | 0, _ => none
  | fuel + 1, cs =>
    match skipLines cs.length cs with
    | '\x7d' :: rest => some ([], rest)
    | rest => do
      let (path, rest) ← scanPath rest
      match rest with
      | '=' :: rest =>
        let (value, rest) ← scanValue depth fuel (skipBlanks rest)
        match skipLines rest.length rest with
        | '\x7d' :: rest => return ([(path, value)], rest)
        | ',' :: rest =>
          let (assignments, rest) ← scanAssignments depth fuel rest
          return ((path, value) :: assignments, rest)
        | _ => none
      | _ => none

end

/-! ## Statements -/

/-- A line of a document. -/
inductive Statement where
  | assignment (path : List String) (value : Toml)
  /-- A header in brackets. -/
  | header (path : List String)
  /-- A header in double brackets. -/
  | element (path : List String)

/-- One statement and the line behind it. -/
def scanStatement (cs : List Char) : Option (Statement × List Char) :=
  match cs with
  | '[' :: '[' :: rest => do
    let (path, rest) ← scanPath rest
    match rest with
    | ']' :: ']' :: rest => return (.element path, ← nextLine? rest)
    | _ => none
  | '[' :: rest => do
    let (path, rest) ← scanPath rest
    match rest with
    | ']' :: rest => return (.header path, ← nextLine? rest)
    | _ => none
  | _ => do
    let (path, rest) ← scanPath cs
    match rest with
    | '=' :: rest =>
      let (value, rest) ← scanValue maxDepth (2 * rest.length + 2) (skipBlanks rest)
      return (.assignment path value, ← nextLine? rest)
    | _ => none

/-- The statements of a text. The fuel counts lines. -/
def scanStatements : Nat → List Char → Option (List Statement)
  | 0, _ => none
  | fuel + 1, cs =>
    match skipLines cs.length cs with
    | [] => some []
    | rest => do
      let (statement, rest) ← scanStatement rest
      return statement :: (← scanStatements fuel rest)

/-! ## Documents -/

/-- A header with the assignments behind it. -/
structure Section where
  /-- Whether its brackets are double. -/
  repeated : Bool
  path : List String
  assignments : List (List String × Toml)

/-- The assignments before the first header, and the sections. -/
def sectionsOf : List Statement → List (List String × Toml) × List Section
  | [] => ([], [])
  | statement :: statements =>
    let (own, sections) := sectionsOf statements
    match statement with
    | .assignment path value => ((path, value) :: own, sections)
    | .header path => ([], ⟨false, path, own⟩ :: sections)
    | .element path => ([], ⟨true, path, own⟩ :: sections)

/-- Adds a section to a document. -/
def addSection (t : Growing) (s : Section) : Option Growing :=
  if s.repeated then addTable (assignAll s.assignments) s.path t
  else openTable (assignAll s.assignments) s.path t

/-- A text without the mark of the byte order, if it starts with one. -/
def withoutMark : List Char → List Char
  | '\uFEFF' :: cs => cs
  | cs => cs

/-- The entries of the table that a document says. -/
def ofText? (s : String) : Option (List (String × Toml)) := do
  let cs := withoutMark s.toList
  let (own, sections) := sectionsOf (← scanStatements (cs.length + 1) cs)
  let root ← assignAll own (.written, [])
  let (_, entries) ← sections.foldlM addSection root
  return Node.finishEntries entries

end CatalogSearch.Toml
