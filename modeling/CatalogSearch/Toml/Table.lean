import CatalogSearch.SortedMap
import CatalogSearch.Toml

/-!
# Building TOML tables

A document writes its tables piece by piece. What may be added to a table depends on how it came
about: a table under a header of its own cannot be named by a second header or by dotted keys, and
one that came about by dotted keys cannot get a header.
-/

namespace CatalogSearch.Toml

/-- How a table came about. -/
inductive Origin where
  /-- It has a header of its own or is the document. -/
  | written
  /-- It is on the way to a table with a header. -/
  | implied
  /-- It is on the way to a key with dots. -/
  | dotted
deriving DecidableEq

/-- A part of a document that is being read. -/
inductive Node where
  /-- A value to which nothing can be added. -/
  | value (value : Toml)
  | table (origin : Origin) (entries : List (String × Node))
  /-- The tables of headers with double brackets, of which the last one can grow. -/
  | tables (elements : List (List (String × Node)))

/-- A table that is being read: how it came about and what it holds. -/
abbrev Growing := Origin × List (String × Node)

/-! ## Growing -/

/--
Changes the table at the end of a path, making the tables on the way that are missing. A path of
`dotted` keys does not enter tables that have a header.
-/
def descend (dotted : Bool) (change : Growing → Option Growing) :
    List String → Growing → Option Growing
  | [], t => change t
  | key :: path, (origin, entries) =>
    match entries.lookup key with
    | none => do
      let (o, es) ← descend dotted change path (if dotted then .dotted else .implied, [])
      return (origin, insertEntry key (.table o es) entries)
    | some (.table o es) =>
      if dotted ∧ o = .written then none
      else do
        let (o, es) ← descend dotted change path (o, es)
        return (origin, insertEntry key (.table o es) entries)
    | some (.tables elements) => do
      let (_, es) ← descend dotted change path (.written, elements.getLastD [])
      return (origin, insertEntry key (.tables (elements.dropLast ++ [es])) entries)
    | some (.value _) => none

/-- Writes a value at a path of dotted keys, which must be new. -/
def assign (t : Growing) (path : List String) (value : Toml) : Option Growing := do
  let key ← path.getLast?
  descend true (fun (origin, entries) =>
    if (origin = .dotted) = (path.length = 1) ∨ (entries.lookup key).isSome then none
    else some (origin, insertEntry key (.value value) entries)) path.dropLast t

/-- Writes assignments one after another. -/
def assignAll (assignments : List (List String × Toml)) (t : Growing) : Option Growing :=
  assignments.foldlM (fun t (path, value) => assign t path value) t

/-- Fills the table of a header, which must have none yet. -/
def openTable (fill : Growing → Option Growing) (path : List String) (t : Growing) :
    Option Growing := do
  let key ← path.getLast?
  descend false (fun (origin, entries) => do
    let start ← match entries.lookup key with
      | none => some []
      | some (.table .implied es) => some es
      | _ => none
    let (o, es) ← fill (.written, start)
    return (origin, insertEntry key (.table o es) entries)) path.dropLast t

/-- Fills one more table of a header with double brackets. -/
def addTable (fill : Growing → Option Growing) (path : List String) (t : Growing) :
    Option Growing := do
  let key ← path.getLast?
  descend false (fun (origin, entries) => do
    let elements ← match entries.lookup key with
      | none => some []
      | some (.tables elements) => some elements
      | _ => none
    let (_, es) ← fill (.written, [])
    return (origin, insertEntry key (.tables (elements ++ [es])) entries)) path.dropLast t

/-! ## Finished values -/

mutual

/-- The value of a part once the document is read. -/
def Node.finish : Node → Toml
  | .value v => v
  | .table _ entries => .table (Node.finishEntries entries)
  | .tables elements => .list (Node.finishTables elements)

/-- The values of entries. -/
def Node.finishEntries : List (String × Node) → List (String × Toml)
  | [] => []
  | (name, node) :: entries => (name, node.finish) :: Node.finishEntries entries

/-- The values of tables. -/
def Node.finishTables : List (List (String × Node)) → List Toml
  | [] => []
  | entries :: elements => .table (Node.finishEntries entries) :: Node.finishTables elements

end

end CatalogSearch.Toml
