import CatalogSearch.Error
import CatalogSearch.SortedMap
import CatalogSearch.Text

/-!
# Settings of a catalog

What a deployment decides about searches, once it is known to make sense.
-/

namespace CatalogSearch

/-- Which capabilities are switched on. -/
structure Capabilities where
  context : Bool
  fields : Bool
  sort : Bool
  query : Bool
deriving DecidableEq

namespace Capabilities

/-- Everything is switched on. -/
def all : Capabilities := ⟨true, true, true, true⟩

/-- Whether a capability is switched on. -/
def allows (c : Capabilities) : Capability → Bool
  | .context => c.context
  | .fields => c.fields
  | .sort => c.sort
  | .query => c.query

end Capabilities

/-- The settings of searches. -/
structure Settings where
  title : String
  description : String
  /-- What links start with; there is no slash at its end. -/
  baseUrl : String
  defaultLimit : Nat
  maxLimit : Nat
  /-- The paths that every projected record keeps. -/
  defaultIncludes : StringSet
  capabilities : Capabilities

end CatalogSearch
