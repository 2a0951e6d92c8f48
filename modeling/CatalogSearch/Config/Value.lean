import CatalogSearch.Json
import CatalogSearch.Toml

/-!
# Values of a layered configuration

A configuration is laid together from several sources, each of which says something about some of
its entries. Tables are laid over one another entry by entry; of everything else the upper one
counts. What the entries are good for is decided only when the result is read.
-/

namespace CatalogSearch

/-- A value in a configuration that is not read yet. -/
inductive ConfigValue where
  /-- Nothing, said on purpose. -/
  | nothing
  | boolean (value : Bool)
  | integer (value : Int)
  | number (value : ExtendedNumber)
  | text (value : String)
  | list (elements : List ConfigValue)
  /-- Entries in increasing order of name. -/
  | table (entries : List (String × ConfigValue))

namespace ConfigValue

instance : Inhabited ConfigValue := ⟨nothing⟩

/-- The entries of a table; other values have none. -/
def entries : ConfigValue → List (String × ConfigValue)
  | table entries => entries
  | _ => []

/-- The elements of a list; other values have none. -/
def elements : ConfigValue → List ConfigValue
  | list elements => elements
  | _ => []

/-! ## Laying over -/

mutual

/-- The second value laid over the first one. -/
def under (lower : ConfigValue) : ConfigValue → ConfigValue
  | table upper => table (underEntries lower.entries upper)
  | upper => upper

/-- Entries laid over entries. -/
def underEntries (lower : List (String × ConfigValue)) :
    List (String × ConfigValue) → List (String × ConfigValue)
  | [] => lower
  | (name, upper) :: rest =>
    let value := under ((lower.lookup name).getD nothing) upper
    underEntries (insertEntry name value lower) rest

end

/-! ## Places -/

/-- A step from a value to one inside it. -/
inductive Step where
  | entry (name : String)
  /-- An element of a list, counted from its end if the number is negative. -/
  | element (index : Int)
deriving DecidableEq

/--
Changes an element of a list, which grows by as many places as it takes: at its end, or at its
beginning if the number counts from the end past the first element.
-/
def changeElement (index : Int) (change : ConfigValue → ConfigValue) (values : List ConfigValue) :
    List ConfigValue :=
  let place := if 0 ≤ index then index else values.length + index
  let values := List.replicate (-place).toNat nothing ++ values
  let values := values ++ List.replicate (place.toNat + 1 - values.length) nothing
  values.modify place.toNat change

/-- Changes the value at the end of a path, making what is missing on the way. -/
def changeAt (change : ConfigValue → ConfigValue) : List Step → ConfigValue → ConfigValue
  | [], value => change value
  | .entry name :: path, value =>
    let inner := (value.entries.lookup name).getD nothing
    table (insertEntry name (changeAt change path inner) value.entries)
  | .element index :: path, value =>
    list (changeElement index (changeAt change path) value.elements)

/-! ## Other formats -/

mutual

/-- A JSON value in a configuration. -/
def ofJson : Json → ConfigValue
  | .null => nothing
  | .bool b => boolean b
  | .int n => integer n
  | .float x => number (.finite x)
  | .str s => text s
  | .arr elements => list (ofJsonElements elements)
  | .obj members => table (ofJsonMembers members)

/-- JSON elements in a configuration. -/
def ofJsonElements : List Json → List ConfigValue
  | [] => []
  | value :: values => ofJson value :: ofJsonElements values

/-- JSON members in a configuration. -/
def ofJsonMembers : List (String × Json) → List (String × ConfigValue)
  | [] => []
  | (name, value) :: members => (name, ofJson value) :: ofJsonMembers members

end

mutual

/-- A TOML value in a configuration, where moments are texts. -/
def ofToml : Toml → ConfigValue
  | .text s => text s
  | .integer n => integer n
  | .number x => number x
  | .boolean b => boolean b
  | .moment s => text s
  | .list elements => list (ofTomlElements elements)
  | .table entries => table (ofTomlEntries entries)

/-- TOML elements in a configuration. -/
def ofTomlElements : List Toml → List ConfigValue
  | [] => []
  | value :: values => ofToml value :: ofTomlElements values

/-- TOML entries in a configuration. -/
def ofTomlEntries : List (String × Toml) → List (String × ConfigValue)
  | [] => []
  | (name, value) :: entries => (name, ofToml value) :: ofTomlEntries entries

end

end ConfigValue

end CatalogSearch
