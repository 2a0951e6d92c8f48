import CatalogSearch.Proofs.Json.Object
import CatalogSearch.Proofs.Store.Collections
import Mathlib.Data.List.Dedup

/-!
# Last writes of a store in memory

Under an identifier a store keeps the item that was written last, and nothing else of what was
written. Whether items come one by one or several at once makes no difference, and neither does the
order of items with different identifiers.

* `Item.last?` : the last of some items that has an identifier;
* `MemoryStore.get?_extend` : what is found after items were written;
* `MemoryStore.ofItems_eq_iff`, `MemoryStore.size_ofItems` : the store of a list of items;
* `MemoryStore.last_writes_count` : stores after sequences of writes.
-/

namespace CatalogSearch

/-! ## The last item of an identifier -/

/-- The last of some items that has an identifier. -/
def Item.last? (id : String) (items : List Item) : Option Item :=
  items.reverse.find? (·.id = id)

/-- An item in front of others is the last one only if none of them has its identifier. -/
theorem Item.last?_cons (id : String) (item : Item) (items : List Item) :
    last? id (item :: items) = (last? id items).or (if item.id = id then some item else none) := by
  rw [last?, List.reverse_cons, List.find?_append, last?]
  by_cases same : item.id = id <;> simp [same]

/-- There is a last item of each identifier that some item has. -/
theorem Item.isSome_last?_iff {id : String} {items : List Item} :
    (last? id items).isSome = true ↔ id ∈ items.map (·.id) := by
  rw [last?, List.find?_isSome, List.mem_map]
  simp

namespace MemoryStore

variable {store : MemoryStore} {items items' : List Item}

/-! ## Items written one after another -/

/-- Under an identifier a store has the last item that was written, or else what it had before. -/
theorem get?_extend (store : MemoryStore) (items : List Item) (id : String) :
    (store.extend items).get? id = (Item.last? id items).or (store.get? id) := by
  induction items generalizing store with
  | nil => rfl
  | cons item items ih =>
    have first : (store.insert item).get? id
        = (if item.id = id then some item else none).or (store.get? id) := by
      show (store.items.insert item.id item).get? id = _
      rw [SortedMap.get?_insert]
      by_cases same : item.id = id
      · rw [if_pos same.symm, if_pos same, Option.some_or]
      · rw [if_neg (Ne.symm same), if_neg same, Option.none_or]
        rfl
    show ((store.insert item).extend items).get? id = _
    rw [ih, first, Item.last?_cons, Option.or_assoc]

/-- Items that are written declare nothing. -/
theorem declared_extend (store : MemoryStore) (items : List Item) :
    (store.extend items).declared = store.declared := by
  induction items generalizing store with
  | nil => rfl
  | cons item items ih => exact ih (store.insert item)

/-- A store of items has the last one of each identifier. -/
theorem get?_ofItems (items : List Item) (id : String) :
    (ofItems items).get? id = Item.last? id items := by
  rw [ofItems, get?_extend]
  exact Option.or_none

/-- Stores of items are the same exactly if the last items of all identifiers are. -/
theorem ofItems_eq_iff :
    ofItems items = ofItems items' ↔ ∀ id, Item.last? id items = Item.last? id items' := by
  constructor
  · intro same id
    rw [← get?_ofItems, same, get?_ofItems]
  · intro same
    have found : (ofItems items).items = (ofItems items').items := by
      refine SortedMap.eq_of_get?_eq fun id => ?_
      exact (get?_ofItems items id).trans ((same id).trans (get?_ofItems items' id).symm)
    have declared : (ofItems items).declared = (ofItems items').declared := by
      rw [ofItems, ofItems, declared_extend, declared_extend]
    cases first : ofItems items
    cases second : ofItems items'
    rw [first, second] at found declared
    cases found
    cases declared
    rfl

/-- A store of items has as many of them as they have different identifiers. -/
theorem size_ofItems (items : List Item) :
    (ofItems items).size = (items.map (·.id)).dedup.length := by
  have distinct : ((ofItems items).items.values.map (·.id)).Nodup := by
    rw [List.Nodup, List.pairwise_map]
    exact distinct_values (ofItems items)
  have perm : ((ofItems items).items.values.map (·.id)).Perm (items.map (·.id)).dedup := by
    refine (List.perm_ext_iff_of_nodup distinct (List.nodup_dedup _)).2 fun id => ?_
    have there : id ∈ (ofItems items).items.values.map (·.id)
        ↔ ((ofItems items).get? id).isSome = true := by
      rw [List.mem_map, Option.isSome_iff_exists]
      exact exists_congr fun item => (ofItems items).items_keyed.get?_eq_some_iff.symm
    rw [there, get?_ofItems, Item.isSome_last?_iff, List.mem_dedup]
  rw [← perm.length_eq, List.length_map]
  exact (List.length_map _).symm

end MemoryStore

/-! ## Sequences of writes -/

/-- A write of items: of one, or of several. -/
inductive ItemWrite where
  | insert (item : Item)
  | extend (items : List Item)

namespace ItemWrite

/-- What is done to the contents of a store. -/
def toStoreWrite : ItemWrite → StoreWrite
  | insert item => .insert item
  | extend items => .extend items

/-- The items that are written. -/
def items : ItemWrite → List Item
  | insert item => [item]
  | extend items => items

/-- All items that were written, one after another, since a store was made of some. -/
def history (items : List Item) (writes : List ItemWrite) : List Item :=
  items ++ writes.flatMap (·.items)

end ItemWrite

namespace MemoryStore

open ItemWrite (history)

/-- The store of a list of items after a sequence of writes of items. -/
def afterWrites (items : List Item) (writes : List ItemWrite) : MemoryStore :=
  written items (writes.map (·.toStoreWrite))

/-- Writing items and then others writes all of them. -/
theorem extend_append (store : MemoryStore) (items items' : List Item) :
    store.extend (items ++ items') = (store.extend items).extend items' :=
  List.foldl_append

/-- A write of items writes them one after another. -/
theorem write_toStoreWrite (store : MemoryStore) (write : ItemWrite) :
    store.write write.toStoreWrite = store.extend write.items := by
  cases write <;> rfl

/-- After a sequence of writes a store is that of all items that were written. -/
theorem afterWrites_eq_ofItems (items : List Item) (writes : List ItemWrite) :
    afterWrites items writes = ofItems (history items writes) := by
  rw [afterWrites, written, history, ofItems, ofItems, extend_append]
  generalize empty.extend items = store
  induction writes generalizing store with
  | nil => rfl
  | cons write writes ih =>
    rw [List.map_cons, List.foldl_cons, ih, write_toStoreWrite, List.flatMap_cons, extend_append]

/--
Only the last item that was written under each identifier counts. Two stores answer every scan,
count and look-up alike exactly if these items are the same for both, so no search and no document
of a catalog tells them apart either. Writing an item tells the one that was written under its
identifier before, and there are as many items as identifiers were written.
-/
theorem last_writes_count (items items' : List Item) (writes writes' : List ItemWrite) :
    ((∀ id, Item.last? id (history items writes) = Item.last? id (history items' writes'))
        ↔ (afterWrites items writes).toStore = (afterWrites items' writes').toStore)
      ∧ (∀ item, (afterWrites items writes).replace item
        = (Item.last? item.id (history items writes), afterWrites items (writes ++ [.insert item])))
      ∧ (afterWrites items writes).size = ((history items writes).map (·.id)).dedup.length := by
  rw [afterWrites_eq_ofItems, afterWrites_eq_ofItems]
  refine ⟨⟨fun same => ?_, fun same id => ?_⟩, fun item => ?_, size_ofItems _⟩
  · rw [ofItems_eq_iff.2 same]
  · have looked : (ofItems (history items writes)).toStore.get id
        = (ofItems (history items' writes')).toStore.get id := by rw [same]
    rw [← get?_ofItems, ← get?_ofItems]
    exact Except.ok.inj looked
  · have appended : history items (writes ++ [.insert item]) = history items writes ++ [item] := by
      rw [history, history, List.flatMap_append, List.append_assoc]
      rfl
    have old := get?_ofItems (history items writes) item.id
    rw [afterWrites_eq_ofItems, appended, ← old, ofItems, ofItems, extend_append]
    rfl

end MemoryStore

end CatalogSearch
