import CatalogSearch.Store

/-!
# Stores in memory

Items and declared collections by identifier, each under its own one. A collection exists if it is
declared or if an item belongs to it; in the latter case only its identifier is known.
-/

namespace CatalogSearch

/-- The contents of a store in memory. -/
structure MemoryStore where
  items : SortedMap Item
  /-- The collections that were declared. -/
  declared : SortedMap Collection
  items_keyed : items.Keyed Item.id
  declared_keyed : declared.Keyed Collection.id

namespace MemoryStore

/-! ## Writing -/

/-- The store without contents. -/
def empty : MemoryStore := ⟨.empty, .empty, SortedMap.keyed_empty _, SortedMap.keyed_empty _⟩

instance : Inhabited MemoryStore := ⟨empty⟩

/-- Writes an item in the place of the one with its identifier. -/
def insert (store : MemoryStore) (item : Item) : MemoryStore :=
  { store with
    items := store.items.insert item.id item
    items_keyed := store.items_keyed.insert item }

/-- Writes an item, and tells which one was in its place. -/
def replace (store : MemoryStore) (item : Item) : Option Item × MemoryStore :=
  (store.items.get? item.id, store.insert item)

/-- Writes items one after another. -/
def extend (store : MemoryStore) (items : List Item) : MemoryStore :=
  items.foldl insert store

/-- The store of a list of items, without declared collections. -/
def ofItems (items : List Item) : MemoryStore :=
  empty.extend items

/-- Declares a collection in the place of the one with its identifier. -/
def insertCollection (store : MemoryStore) (collection : Collection) : MemoryStore :=
  { store with
    declared := store.declared.insert collection.id collection
    declared_keyed := store.declared_keyed.insert collection }

/-- Declares exactly the given collections. -/
def withCollections (store : MemoryStore) (collections : List Collection) : MemoryStore :=
  { store with
    declared := SortedMap.ofList (collections.map fun c => (c.id, c))
    declared_keyed := SortedMap.keyed_ofList Collection.id collections }

/-! ## Reading -/

/-- The item of an identifier. -/
def get? (store : MemoryStore) (id : String) : Option Item :=
  store.items.get? id

/-- How many items there are. -/
def size (store : MemoryStore) : Nat :=
  store.items.size

/-- The first rows that a request admits, in its order. -/
def scan (store : MemoryStore) (request : ScanRequest) : List Item :=
  let rows := store.items.values.filter request.admits
  (rows.mergeSort fun a b => (request.order.compare a b).isLE).take request.limit

/-- How many items satisfy all predicates. -/
def count (store : MemoryStore) (predicates : List Predicate) : Nat :=
  (store.items.values.filter (matchesAll predicates)).length

/-- Adds a collection of which only the identifier is known, unless it is there. -/
def mention (collections : SortedMap Collection) (id : String) : SortedMap Collection :=
  if collections.contains id then collections else collections.insert id (.bare id)

/-- Every collection, in order of identifiers. -/
def collections (store : MemoryStore) : List Collection :=
  (store.items.values.foldl (fun all item => mention all item.collection) store.declared).values

/-- The collection of an identifier. -/
def getCollection? (store : MemoryStore) (id : String) : Option Collection :=
  match store.declared.get? id with
  | some collection => some collection
  | none =>
    if store.items.values.any (·.collection = id) then some (.bare id) else none

/-- The operations of a store in memory, none of which fails. -/
def toStore (store : MemoryStore) : Store Id where
  scan request := .ok (store.scan request)
  count predicates := .ok (store.count predicates)
  get id := .ok (store.get? id)
  collections := .ok store.collections
  getCollection id := .ok (store.getCollection? id)

end MemoryStore

end CatalogSearch
