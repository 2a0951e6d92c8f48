import CatalogSearch.Collection
import CatalogSearch.Paging.Cursor
import CatalogSearch.Query.Predicate

/-!
# Stores

A store answers scans and counts and looks records up. It is a bundle of operations in some monad,
so that a search can be run over a store in memory, over one that fails, and over one that takes
note of what it is asked.
-/

namespace CatalogSearch

/-- A request for rows in order. -/
structure ScanRequest where
  /-- All of these have to hold. -/
  predicates : List Predicate
  /-- The order of the rows; for a page that goes backward it is already reversed. -/
  order : SortOrder
  /-- What the rows come after. -/
  seek : Option Seek
  limit : Nat

/-- Whether an item is one of the rows, the limit apart. -/
def ScanRequest.admits (request : ScanRequest) (item : Item) : Bool :=
  matchesAll request.predicates item && request.seek.all (·.admits item)

/-- The operations of a store. -/
structure Store (m : Type → Type) where
  /-- The first rows that a request admits, in its order. -/
  scan : ScanRequest → m (Except StoreError (List Item))
  /-- How many items satisfy all predicates. -/
  count : List Predicate → m (Except StoreError Nat)
  get : String → m (Except StoreError (Option Item))
  /-- Every collection, in order of identifiers. -/
  collections : m (Except StoreError (List Collection))
  getCollection : String → m (Except StoreError (Option Collection))

end CatalogSearch
