import CatalogSearch.Field.Registry
import CatalogSearch.Json.Decoder
import CatalogSearch.Settings
import CatalogSearch.Text

/-!
# Configuration

A configuration is what a deployment writes down. The registry of fields and the settings are made
from it, each of which can fail.
-/

namespace CatalogSearch

/-! ## Configurations -/

/-- A property that a deployment makes known to filters and sort orders. -/
structure Queryable where
  name : String
  /-- Where it is stored, if not under its own name. -/
  path : Option String
  type : FieldType

/-- The configuration of searches. -/
structure SearchConfig where
  title : String
  description : String
  baseUrl : String
  defaultLimit : Nat
  maxLimit : Nat
  defaultIncludes : List String

/-- A configuration. -/
structure Config where
  search : SearchConfig
  capabilities : Capabilities
  /-- The address to listen on. -/
  bind : String
  queryables : List Queryable

/-- The searches of a configuration that says nothing about them. -/
def SearchConfig.unset : SearchConfig :=
  { title := "geocat", description := "", baseUrl := "http://127.0.0.1:8080", defaultLimit := 10,
    maxLimit := 10000,
    defaultIncludes :=
      ["id", "type", "geometry", "bbox", "links", "assets", "properties.datetime"] }

namespace Config

/-- A configuration that says nothing. -/
def unset : Config :=
  { search := .unset, capabilities := .all, bind := "127.0.0.1:8080", queryables := [] }

/-- The configuration that others are laid over. -/
def defaults : Config :=
  { unset with search := { SearchConfig.unset with
      description := "Catalog search with keyset pagination" } }

end Config

/-! ## Reading -/

/-- How the section on searches is written. -/
def SearchConfig.jsonShape : Json.Shape SearchConfig where
  start := unset
  members :=
    [ .allow "title" .string fun v c => { c with title := v },
      .allow "description" .string fun v c => { c with description := v },
      .allow "base_url" .string fun v c => { c with baseUrl := v },
      .allow "default_limit" .natural fun v c => { c with defaultLimit := v },
      .allow "max_limit" .natural fun v c => { c with maxLimit := v },
      .allow "default_includes" (.list .string) fun v c => { c with defaultIncludes := v } ]
  foreign := .ignored

/-- How the section on capabilities is written. -/
def Capabilities.jsonShape : Json.Shape Capabilities where
  start := .all
  members :=
    [ .allow "context" .boolean fun v c => { c with context := v },
      .allow "fields" .boolean fun v c => { c with fields := v },
      .allow "sort" .boolean fun v c => { c with sort := v },
      .allow "query" .boolean fun v c => { c with query := v } ]
  foreign := .ignored

/-- How the section on the server is written. -/
def Config.serverShape : Json.Shape String where
  start := Config.unset.bind
  members := [.allow "bind" .string fun v _ => v]
  foreign := .ignored

/-- How a queryable property is written. -/
def Queryable.jsonShape : Json.Shape Queryable where
  start := ⟨"", none, .string⟩
  members :=
    [ .need "name" .string fun v q => { q with name := v },
      .allow "path" (.nullable .string) fun v q => { q with path := v },
      .need "type" (.word FieldType.byName) fun v q => { q with type := v } ]
  foreign := .ignored

/-- How a configuration is written. -/
def Config.jsonShape : Json.Shape Config where
  start := .unset
  members :=
    [ .allow "search" SearchConfig.jsonShape.decode fun v c => { c with search := v },
      .allow "capabilities" Capabilities.jsonShape.decode fun v c => { c with capabilities := v },
      .allow "server" Config.serverShape.decode fun v c => { c with bind := v },
      .allow "queryables" (.list Queryable.jsonShape.decode) fun v c => { c with queryables := v } ]
  foreign := .ignored

/-! ## Making sense of it -/

/-- Why a queryable property is refused. -/
inductive QueryableFault where
  | notAProperty
  | coreField
deriving DecidableEq

/-- Why a configuration is refused. -/
inductive ConfigError where
  | invalidLimits (defaultLimit maxLimit : Nat)
  | invalidQueryable (name : String) (fault : QueryableFault)
deriving DecidableEq

/-- The reason in the words of a message. -/
def QueryableFault.message : QueryableFault → String
  | notAProperty => "path must address a key under 'properties.'"
  | coreField => "core fields cannot be redefined"

/-- The words for an error. -/
def ConfigError.message : ConfigError → String
  | invalidLimits defaultLimit maxLimit =>
    s!"default_limit {defaultLimit} must be between 1 and max_limit {maxLimit}"
  | invalidQueryable name fault => s!"queryable '{name}': {fault.message}"

/-- Whether a path is that of a property, whose name is not empty. -/
def isPropertyPath (path : String) : Bool :=
  (Text.after? Field.propertyLead path).any (· ≠ "")

/-- The field of a queryable property. -/
def Queryable.field (q : Queryable) : Except ConfigError Field :=
  match q.path with
  | none => .ok (.property q.name q.type)
  | some path =>
    if isPropertyPath path then .ok ⟨q.name, path, q.type⟩
    else .error (.invalidQueryable q.name .notAProperty)

/-- The registry with queryable properties added in their order. -/
def registerAll (registry : FieldRegistry) : List Queryable → Except ConfigError FieldRegistry
  | [] => .ok registry
  | q :: qs => do
    let field ← q.field
    match registry.register? field with
    | some registry => registerAll registry qs
    | none => throw (.invalidQueryable q.name .coreField)

namespace Config

/-- The fields that a configuration makes known. -/
def registry (config : Config) : Except ConfigError FieldRegistry :=
  registerAll .builtin config.queryables

/-- The settings of a configuration. -/
def settings (config : Config) : Except ConfigError Settings :=
  let search := config.search
  if search.maxLimit = 0 ∨ search.defaultLimit = 0 ∨ search.maxLimit < search.defaultLimit then
    .error (.invalidLimits search.defaultLimit search.maxLimit)
  else
    .ok
      { title := search.title
        description := search.description
        baseUrl := Text.dropTrailing '/' search.baseUrl
        defaultLimit := search.defaultLimit
        maxLimit := search.maxLimit
        defaultIncludes := .ofList search.defaultIncludes
        capabilities := config.capabilities }

end Config

end CatalogSearch
