import CatalogSearch.Config
import CatalogSearch.Config.Value

/-!
# Reading a layered configuration

Truth values, numbers and texts are taken for one another where that makes sense, because the
environment has texts only. A section may be written as a table or as a list of its members in
order.
-/

namespace CatalogSearch

namespace ConfigValue

/-! ## Scalars -/

/-- The truth value that a word stands for, whatever the case of its letters. -/
def truthOfWord? (s : String) : Option Bool :=
  let word := Text.lowerAscii s
  if word ∈ ["true", "on", "yes"] then some true
  else if word ∈ ["false", "off", "no"] then some false
  else none

/-- A value as a truth value. -/
def boolean? : ConfigValue → Option Bool
  | boolean b => some b
  | integer n => some (n ≠ 0)
  | number x => some x.isNonzero
  | text s => if s = "1" then some true else if s = "0" then some false else truthOfWord? s
  | _ => none

/-- A value as a number of a 64-bit word. -/
def natural? : ConfigValue → Option Nat
  | boolean b => some (if b then 1 else 0)
  | integer n => if 0 ≤ n then some n.toNat else none
  | number x => some x.toWord
  | text s => match truthOfWord? s with
    | some b => some (if b then 1 else 0)
    | none => Text.naturalOfText? s
  | _ => none

/-- A value as a text. -/
def text? : ConfigValue → Option String
  | text s => some s
  | boolean b => some (if b then "true" else "false")
  | integer n => some (toString n)
  | number x => some x.text
  | _ => none

/-- A value as a text, or nothing. -/
def optionalText? : ConfigValue → Option (Option String)
  | nothing => some none
  | value => value.text?.map some

/-- A value as a type of fields: its name, or a table with that one name. -/
def fieldType? : ConfigValue → Option FieldType
  | text s => FieldType.byName.lookup s
  | table [(name, _)] => FieldType.byName.lookup name
  | _ => none

/-! ## Containers -/

/-- A list whose elements are all read. -/
def list? {α : Type} (read : ConfigValue → Option α) : ConfigValue → Option (List α)
  | list elements => elements.mapM read
  | _ => none

/-- A member of a section, read if it is there. Only tables and lists can be sections. -/
def member? {α : Type} (value : ConfigValue) (place : Nat) (name : String)
    (read : ConfigValue → Option α) : Option (Option α) :=
  match value with
  | table entries => (entries.lookup name).elim (some none) fun v => (read v).map some
  | list elements => elements[place]?.elim (some none) fun v => (read v).map some
  | _ => none

/-- A member of a section, or a value for want of it. -/
def memberOr? {α : Type} (value : ConfigValue) (place : Nat) (name : String)
    (read : ConfigValue → Option α) (otherwise : α) : Option α :=
  (value.member? place name read).map (·.getD otherwise)

end ConfigValue

/-! ## Sections -/

/-- Reads the section on searches. -/
def SearchConfig.ofValue? (v : ConfigValue) : Option SearchConfig := do
  return {
    title := ← v.memberOr? 0 "title" ConfigValue.text? unset.title
    description := ← v.memberOr? 1 "description" ConfigValue.text? unset.description
    baseUrl := ← v.memberOr? 2 "base_url" ConfigValue.text? unset.baseUrl
    defaultLimit := ← v.memberOr? 3 "default_limit" ConfigValue.natural? unset.defaultLimit
    maxLimit := ← v.memberOr? 4 "max_limit" ConfigValue.natural? unset.maxLimit
    defaultIncludes := ← v.memberOr? 5 "default_includes" (ConfigValue.list? ConfigValue.text?)
      unset.defaultIncludes }

/-- Reads the section on capabilities. -/
def Capabilities.ofValue? (v : ConfigValue) : Option Capabilities := do
  return {
    context := ← v.memberOr? 0 "context" ConfigValue.boolean? true
    fields := ← v.memberOr? 1 "fields" ConfigValue.boolean? true
    sort := ← v.memberOr? 2 "sort" ConfigValue.boolean? true
    query := ← v.memberOr? 3 "query" ConfigValue.boolean? true }

/-- Reads a queryable property. -/
def Queryable.ofValue? (v : ConfigValue) : Option Queryable := do
  return {
    name := ← (← v.member? 0 "name" ConfigValue.text?)
    path := ← v.memberOr? 1 "path" ConfigValue.optionalText? none
    type := ← (← v.member? 2 "type" ConfigValue.fieldType?) }

namespace Config

/-- Reads the section on the server. -/
def bindOfValue? (v : ConfigValue) : Option String :=
  v.memberOr? 0 "bind" ConfigValue.text? unset.bind

/-- Reads a configuration. -/
def ofValue? (v : ConfigValue) : Option Config := do
  return {
    search := ← v.memberOr? 0 "search" SearchConfig.ofValue? unset.search
    capabilities := ← v.memberOr? 1 "capabilities" Capabilities.ofValue? unset.capabilities
    bind := ← v.memberOr? 2 "server" bindOfValue? unset.bind
    queryables :=
      ← v.memberOr? 3 "queryables" (ConfigValue.list? Queryable.ofValue?) unset.queryables }

/-! ## Writing -/

/-- A list of texts in a configuration. -/
def textsValue (texts : List String) : ConfigValue :=
  .list (texts.map .text)

/-- What a configuration says about searches, capabilities and the server. -/
def toLayer (c : Config) : List (String × ConfigValue) :=
  [ ("search.title", .text c.search.title),
    ("search.description", .text c.search.description),
    ("search.base_url", .text c.search.baseUrl),
    ("search.default_limit", .integer c.search.defaultLimit),
    ("search.max_limit", .integer c.search.maxLimit),
    ("search.default_includes", textsValue c.search.defaultIncludes),
    ("capabilities.context", .boolean c.capabilities.context),
    ("capabilities.fields", .boolean c.capabilities.fields),
    ("capabilities.sort", .boolean c.capabilities.sort),
    ("capabilities.query", .boolean c.capabilities.query),
    ("server.bind", .text c.bind) ]

end Config

end CatalogSearch
