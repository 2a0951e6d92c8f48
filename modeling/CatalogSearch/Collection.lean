import CatalogSearch.Json.Decoder

/-!
# Collections

A collection is a record that groups items. Besides the members that the catalog uses it keeps all
others as they are.
-/

namespace CatalogSearch

/-- A record that groups items. -/
structure Collection where
  id : String
  kind : String
  version : String
  title : Option String
  description : String
  links : List Json
  /-- The members of other names, in increasing order of name. -/
  extra : List (String × Json)

namespace Collection

/-- A collection of which only the identifier is known. -/
def bare (id : String) : Collection :=
  { id, kind := "Collection", version := "1.0.0", title := none, description := "", links := [],
    extra := [] }

instance : Inhabited Collection := ⟨bare ""⟩

/-- How a collection is written, below `enclosing` levels of nesting. -/
def jsonShape (enclosing : Nat) : Json.Shape Collection where
  start := bare ""
  members :=
    [ .need "id" .string fun v c => { c with id := v },
      .allow "type" .string fun v c => { c with kind := v },
      .allow "stac_version" .string fun v c => { c with version := v },
      .allow "title" (.nullable .string) fun v c => { c with title := v },
      .allow "description" .string fun v c => { c with description := v },
      .allow "links" (.list (.value (enclosing + 2))) fun v c => { c with links := v } ]
  foreign := .kept (enclosing + 1) fun name value c =>
    { c with extra := insertEntry name value c.extra }

/-- A collection below `enclosing` levels of nesting, which is always written as an object. -/
def decoder (enclosing : Nat) : Json.Decoder Collection :=
  (jsonShape enclosing).decodeObject

/-- A collection as an object. -/
def toJson (c : Collection) : Json :=
  .object ([("id", .str c.id), ("type", .str c.kind), ("stac_version", .str c.version)]
    ++ Json.optional "title" (c.title.map .str)
    ++ [("description", .str c.description), ("links", .arr c.links)] ++ c.extra)

end Collection

end CatalogSearch
