import CatalogSearch.Binary64.Extended

/-!
# TOML values

What a TOML document says. Dates and times are kept as text in one canonical form.
-/

namespace CatalogSearch

/-- A TOML value. -/
inductive Toml where
  | text (value : String)
  | integer (value : Int)
  | number (value : ExtendedNumber)
  | boolean (value : Bool)
  /-- A date, a time of day or both, with or without an offset from UTC. -/
  | moment (value : String)
  | list (elements : List Toml)
  /-- Entries in increasing order of name. -/
  | table (entries : List (String × Toml))

namespace Toml

instance : Inhabited Toml := ⟨table []⟩

end Toml

end CatalogSearch
