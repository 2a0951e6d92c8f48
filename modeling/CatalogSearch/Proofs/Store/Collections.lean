import CatalogSearch.Catalog
import CatalogSearch.Proofs.Paging.AtCursor

/-!
# Collections of a store in memory

A store lists the collections that were declared, and those that its items belong to. What counts is
the last that was said: an item gives way to a later one of its identifier and then no longer stands
for its collection, a declaration gives way to a later one, and all of them to a new list of
declarations. The listing and the look-up of one collection are computed in different ways and tell
the same, and so do the documents of the catalog.

* `StoreEvent.Stands` : what is not overridden later;
* `MemoryStore.get?_merged` : the listing holds what the look-up finds;
* `MemoryStore.collections_agree` : the collections after any sequence of writes, in the store and
  in the documents of a catalog.
-/

namespace CatalogSearch

/-! ## Keyed maps -/

namespace SortedMap.Keyed

variable {α : Type} {key : α → String} {m : SortedMap α}

/-- A value is in a keyed map if it is found under its own name. -/
theorem mem_values_iff (h : m.Keyed key) {value : α} :
    value ∈ m.values ↔ m.get? (key value) = some value := by
  rw [h.get?_eq_some_iff]
  simp

/-- What is in a keyed map after a value was written. -/
theorem mem_values_insert (h : m.Keyed key) {value other : α} :
    other ∈ (m.insert (key value) value).values
      ↔ other = value ∨ (other ∈ m.values ∧ key value ≠ key other) := by
  rw [(h.insert value).mem_values_iff, get?_insert, h.mem_values_iff]
  by_cases same : key other = key value
  · rw [if_pos same, Option.some.injEq]
    simp [same, eq_comm]
  · rw [if_neg same]
    constructor
    · intro found
      exact Or.inr ⟨found, fun eq => same eq.symm⟩
    · rintro (rfl | ⟨found, _⟩)
      · exact absurd rfl same
      · exact found

/-- The value of a name is the first one that has it by itself. -/
theorem find?_values (h : m.Keyed key) (name : String) :
    m.values.find? (key · = name) = m.get? name := by
  cases found : m.values.find? (key · = name) with
  | none =>
    symm
    refine Option.eq_none_iff_forall_ne_some.2 fun value there => ?_
    obtain ⟨mem, named⟩ := h.get?_eq_some_iff.1 there
    exact List.find?_eq_none.1 found value mem (decide_eq_true named)
  | some value =>
    have named := List.find?_some found
    exact (h.get?_eq_some_iff.2 ⟨List.mem_of_find?_eq_some found, of_decide_eq_true named⟩).symm

end SortedMap.Keyed

/-! ## Writes and what they say -/

/-- What is done to the contents of a store. -/
inductive StoreWrite where
  | insert (item : Item)
  | extend (items : List Item)
  | insertCollection (collection : Collection)
  | withCollections (collections : List Collection)

/-- The store after a write. -/
def MemoryStore.write (store : MemoryStore) : StoreWrite → MemoryStore
  | .insert item => store.insert item
  | .extend items => store.extend items
  | .insertCollection collection => store.insertCollection collection
  | .withCollections collections => store.withCollections collections

/-- The store of a list of items after a sequence of writes. -/
def MemoryStore.written (items : List Item) (writes : List StoreWrite) : MemoryStore :=
  writes.foldl write (.ofItems items)

/-- One thing that is said about the contents of a store. -/
inductive StoreEvent where
  | stored (item : Item)
  | declared (collection : Collection)
  /-- All declarations so far are void. -/
  | forgotten

/-- What a write says, one thing after another. -/
def StoreWrite.events : StoreWrite → List StoreEvent
  | insert item => [.stored item]
  | extend items => items.map .stored
  | insertCollection collection => [.declared collection]
  | withCollections collections => .forgotten :: collections.map .declared

/-- All that was said about a store since it was made. -/
def StoreEvent.history (items : List Item) (writes : List StoreWrite) : List StoreEvent :=
  items.map .stored ++ writes.flatMap (·.events)

namespace StoreEvent

variable {said : List StoreEvent} {event last : StoreEvent}

/-- Whether a later event makes an earlier one void. -/
def Overrides : StoreEvent → StoreEvent → Prop
  | stored later, stored item => later.id = item.id
  | declared later, declared collection => later.id = collection.id
  | forgotten, declared _ => True
  | _, _ => False

/-- An event that was not made void by any later one. -/
def Stands (said : List StoreEvent) (event : StoreEvent) : Prop :=
  ∃ before after, said = before ++ event :: after ∧ ∀ later ∈ after, ¬ later.Overrides event

/-- Nothing stands where nothing was said. -/
theorem not_stands_nil : ¬ Stands [] event := by
  rintro ⟨before, after, split, _⟩
  cases before <;> cases split

/-- What stands is what was said last, and what stood before unless that overrides it. -/
theorem stands_concat :
    Stands (said ++ [last]) event
      ↔ event = last ∨ (Stands said event ∧ ¬ last.Overrides event) := by
  constructor
  · -- The event is the last one, or the last one is behind it and does not override it.
    rintro ⟨before, after, split, kept⟩
    rcases List.eq_nil_or_concat after with rfl | ⟨after, final, rfl⟩
    · have ends := List.append_inj' (split : said ++ [last] = before ++ [event]) rfl
      exact Or.inl (List.cons.inj ends.2).1.symm
    · rw [List.concat_eq_append, ← List.cons_append, ← List.append_assoc] at split
      have ends := List.append_inj' split rfl
      obtain rfl : last = final := (List.cons.inj ends.2).1
      refine Or.inr ⟨⟨before, after, ends.1, fun later mem => kept later ?_⟩, kept last ?_⟩
      · simp [mem]
      · simp
  · rintro (rfl | ⟨⟨before, after, rfl, kept⟩, notVoid⟩)
    · exact ⟨said, [], rfl, fun _ mem => absurd mem List.not_mem_nil⟩
    · refine ⟨before, after ++ [last], by simp, fun later mem => ?_⟩
      rcases List.mem_append.1 mem with mem | mem
      · exact kept later mem
      · rwa [List.mem_singleton.1 mem]

end StoreEvent

/-! ## The store after what was said -/

namespace MemoryStore

open StoreEvent (Stands history)

variable {store : MemoryStore} {said : List StoreEvent}

/-- The store after one thing was said. -/
def apply (store : MemoryStore) : StoreEvent → MemoryStore
  | .stored item => store.insert item
  | .declared collection => store.insertCollection collection
  | .forgotten => store.withCollections []

/-- Declarations one after another. -/
theorem foldl_apply_declared (collections : List Collection) (store : MemoryStore) :
    (collections.map StoreEvent.declared).foldl apply store
      = { store with
          declared := store.declared.insertAll (collections.map fun c => (c.id, c))
          declared_keyed := store.declared_keyed.insertAll collections } := by
  induction collections generalizing store with
  | nil => rfl
  | cons collection collections ih => exact ih (store.insertCollection collection)

/-- A write does what it says. -/
theorem write_eq_foldl (store : MemoryStore) (write : StoreWrite) :
    store.write write = write.events.foldl apply store := by
  cases write with
  | insert item => rfl
  | extend items =>
    show items.foldl insert store = (items.map StoreEvent.stored).foldl apply store
    rw [List.foldl_map]
    rfl
  | insertCollection collection => rfl
  | withCollections collections =>
    show _ = (collections.map StoreEvent.declared).foldl apply (store.withCollections [])
    rw [foldl_apply_declared]
    rfl

/-- A store is what was said since it was made. -/
theorem written_eq_foldl (items : List Item) (writes : List StoreWrite) :
    written items writes = (history items writes).foldl apply empty := by
  have start : ofItems items = (items.map StoreEvent.stored).foldl apply empty :=
    write_eq_foldl empty (.extend items)
  unfold written history
  rw [List.foldl_append, ← start]
  generalize ofItems items = store
  induction writes generalizing store with
  | nil => rfl
  | cons write writes ih =>
    rw [List.foldl_cons, ih, write_eq_foldl, List.flatMap_cons, List.foldl_append]

/-- A store holds exactly the items and the declarations that stand. -/
structure Reflects (store : MemoryStore) (said : List StoreEvent) : Prop where
  items : ∀ item, item ∈ store.items.values ↔ Stands said (.stored item)
  declared : ∀ c, c ∈ store.declared.values ↔ Stands said (.declared c)

/-- Nothing stands in a store that was just made, and nothing is in it. -/
theorem reflects_empty : Reflects empty [] where
  items _ := iff_of_false List.not_mem_nil StoreEvent.not_stands_nil
  declared _ := iff_of_false List.not_mem_nil StoreEvent.not_stands_nil

/-- A store goes on to hold what stands when one more thing is said. -/
theorem Reflects.apply (reflects : store.Reflects said) (event : StoreEvent) :
    (store.apply event).Reflects (said ++ [event]) := by
  constructor
  · intro item
    rw [StoreEvent.stands_concat, ← reflects.items]
    cases event with
    | stored written =>
      rw [StoreEvent.stored.injEq]
      exact store.items_keyed.mem_values_insert
    | declared c => simp [MemoryStore.apply, insertCollection, StoreEvent.Overrides]
    | forgotten => simp [MemoryStore.apply, withCollections, StoreEvent.Overrides]
  · intro c
    rw [StoreEvent.stands_concat, ← reflects.declared]
    cases event with
    | stored written => simp [MemoryStore.apply, insert, StoreEvent.Overrides]
    | declared written =>
      rw [StoreEvent.declared.injEq]
      exact store.declared_keyed.mem_values_insert
    | forgotten =>
      -- With no declarations left there is nothing to hold.
      have none : c ∉ (store.withCollections []).declared.values := List.not_mem_nil
      simp [MemoryStore.apply, none, StoreEvent.Overrides]

/-- A store goes on to hold what stands when more things are said. -/
theorem Reflects.foldl (reflects : store.Reflects said) (events : List StoreEvent) :
    (events.foldl MemoryStore.apply store).Reflects (said ++ events) := by
  induction events generalizing store said with
  | nil =>
    rw [List.append_nil]
    exact reflects
  | cons event events ih =>
    rw [List.append_cons]
    exact ih (reflects.apply event)

/-- A store holds what stands of all that was said since it was made. -/
theorem reflects_written (items : List Item) (writes : List StoreWrite) :
    (written items writes).Reflects (history items writes) := by
  rw [written_eq_foldl]
  exact reflects_empty.foldl (history items writes)

/-! ## The listing -/

/-- What is found under an identifier after a collection was mentioned. -/
theorem get?_mention (collections : SortedMap Collection) (id other : String) :
    (mention collections id).get? other
      = (collections.get? other).or (if id = other then some (.bare other) else none) := by
  unfold mention SortedMap.contains
  by_cases same : id = other
  · subst same
    cases there : collections.get? id <;> simp [there]
  · have different : other ≠ id := fun eq => same eq.symm
    split <;> simp [different]

/-- Mentioning a collection keeps all under their own identifiers. -/
theorem keyed_mention {collections : SortedMap Collection} (h : collections.Keyed Collection.id)
    (id : String) : (mention collections id).Keyed Collection.id := by
  unfold mention
  split
  · exact h
  · exact h.insert (.bare id)

/-- The collections that were declared, and behind these the ones that items belong to. -/
def merged (store : MemoryStore) : SortedMap Collection :=
  store.items.values.foldl (fun all item => mention all item.collection) store.declared

/-- The listed collections stand under their own identifiers. -/
theorem keyed_merged (store : MemoryStore) : store.merged.Keyed Collection.id := by
  unfold merged
  have start := store.declared_keyed
  generalize store.declared = collections at start
  induction store.items.values generalizing collections with
  | nil => exact start
  | cons item items ih => exact ih _ (keyed_mention start item.collection)

/-- The listing holds under each identifier what the look-up finds. -/
theorem get?_merged (store : MemoryStore) (id : String) :
    store.merged.get? id = store.getCollection? id := by
  -- A name is found where it was, or else in the first mention of it, for any start of the fold.
  have mentioned : ∀ (items : List Item) (collections : SortedMap Collection),
      (items.foldl (fun all item => mention all item.collection) collections).get? id
        = (collections.get? id).or
          (if items.any (·.collection = id) then some (.bare id) else none) := by
    intro items
    induction items with
    | nil => simp
    | cons item items ih =>
      intro collections
      rw [List.foldl_cons, ih, get?_mention, Option.or_assoc]
      by_cases same : item.collection = id <;> simp [same]
  unfold merged getCollection?
  rw [mentioned]
  cases store.declared.get? id <;> simp

/-- The look-up finds what the listing has. -/
theorem getCollection?_eq_find? (store : MemoryStore) (id : String) :
    store.getCollection? id = store.collections.find? (·.id = id) := by
  rw [← get?_merged]
  exact ((keyed_merged store).find?_values id).symm

/-- A collection is listed exactly if the look-up of its identifier finds it. -/
theorem mem_collections_iff {c : Collection} :
    c ∈ store.collections ↔ store.getCollection? c.id = some c := by
  rw [← get?_merged]
  exact (keyed_merged store).mem_values_iff

/-- What the look-up finds: what was declared, or else a bare record if an item refers to it. -/
theorem getCollection?_eq_some_iff {id : String} {c : Collection} :
    store.getCollection? id = some c
      ↔ (c ∈ store.declared.values ∧ c.id = id)
        ∨ (store.declared.get? id = none ∧ (∃ item ∈ store.items.values, item.collection = id)
          ∧ c = .bare id) := by
  unfold getCollection?
  rw [← store.declared_keyed.get?_eq_some_iff]
  cases store.declared.get? id with
  | some declared => simp
  | none =>
    by_cases referred : ∃ item ∈ store.items.values, item.collection = id
    · have any : store.items.values.any (·.collection = id) = true := by simpa using referred
      simp only [any, if_true, Option.some.injEq, reduceCtorEq, false_or, referred, true_and]
      exact eq_comm
    · have none : store.items.values.any (·.collection = id) = false := by simpa using referred
      simp [none, referred]

/-- The collections that a store lists, against what was said about it. -/
structure Lists (store : MemoryStore) (said : List StoreEvent) : Prop where
  increasing : store.collections.Pairwise (·.id < ·.id)
  /-- A collection is listed if it is declared or an item belongs to it. -/
  listed_iff : ∀ id, (∃ c ∈ store.collections, c.id = id)
    ↔ (∃ c, Stands said (.declared c) ∧ c.id = id)
      ∨ ∃ item, Stands said (.stored item) ∧ item.collection = id
  /-- A declared record is listed as it is, and no bare one takes its place. -/
  declared : ∀ c, Stands said (.declared c) → c ∈ store.collections
  /-- Any other record is bare. -/
  bare : ∀ c ∈ store.collections, Stands said (.declared c)
    ∨ (c = .bare c.id ∧ ∀ other, Stands said (.declared other) → other.id ≠ c.id)
  lookup : ∀ id, store.getCollection? id = store.collections.find? (·.id = id)

/-- A store lists its collections by what stands of all that was said. -/
theorem Reflects.lists (reflects : store.Reflects said) : store.Lists said := by
  have declared (c : Collection) (stands : Stands said (.declared c)) : c ∈ store.collections :=
    mem_collections_iff.2 (getCollection?_eq_some_iff.2
      (Or.inl ⟨(reflects.declared c).2 stands, rfl⟩))
  constructor
  · exact (keyed_merged store).pairwise_values
  · intro id
    constructor
    · rintro ⟨c, listed, rfl⟩
      rcases getCollection?_eq_some_iff.1 (mem_collections_iff.1 listed) with
        ⟨there, _⟩ | ⟨_, ⟨item, stored, belongs⟩, _⟩
      · exact Or.inl ⟨c, (reflects.declared c).1 there, rfl⟩
      · exact Or.inr ⟨item, (reflects.items item).1 stored, belongs⟩
    · rintro (⟨c, stands, rfl⟩ | ⟨item, stands, rfl⟩)
      · exact ⟨c, declared c stands, rfl⟩
      · have stored := (reflects.items item).2 stands
        cases there : store.declared.get? item.collection with
        | some c =>
          obtain ⟨mem, named⟩ := store.declared_keyed.get?_eq_some_iff.1 there
          exact ⟨c, declared c ((reflects.declared c).1 mem), named⟩
        | none =>
          refine ⟨.bare item.collection, mem_collections_iff.2 ?_, rfl⟩
          exact getCollection?_eq_some_iff.2 (Or.inr ⟨there, ⟨item, stored, rfl⟩, rfl⟩)
  · exact declared
  · intro c listed
    rcases getCollection?_eq_some_iff.1 (mem_collections_iff.1 listed) with
      ⟨there, _⟩ | ⟨absent, _, bare⟩
    · exact Or.inl ((reflects.declared c).1 there)
    · refine Or.inr ⟨bare, fun other stands same => ?_⟩
      have found := store.declared_keyed.get?_eq_some_iff.2
        ⟨(reflects.declared other).2 stands, same⟩
      rw [absent] at found
      cases found
  · exact getCollection?_eq_find? store

/-! ## Documents and answers -/

/-- The rows of a scan are items of the store. -/
theorem mem_values_of_mem_scan {request : ScanRequest} {item : Item}
    (h : item ∈ store.scan request) : item ∈ store.items.values := by
  have row := List.mem_mergeSort.1 (List.mem_of_mem_take h)
  exact (List.mem_filter.1 row).1

end MemoryStore

/-- The documents and answers of a service show a list of collections. -/
structure SearchService.Serves (service : SearchService) (store : MemoryStore)
    (listed : List Collection) : Prop where
  /-- All of them, with their links. -/
  all : ∃ links, service.allCollections store.toStore
    = .ok ⟨listed.map (withLinks service.settings.baseUrl), links⟩
  /-- One of them, with the same links. -/
  one : ∀ id, service.getCollection store.toStore id
    = ((listed.map (withLinks service.settings.baseUrl)).find? (·.id = id)).elim
        (.error (.collectionNotFound id)) .ok
  /-- A link to each of them. -/
  children : ∃ page, service.landingPage store.toStore = .ok page
    ∧ page.links.filter (·.rel = .child) = listed.map fun c =>
        .nav .child jsonType (collectionHref service.settings.baseUrl c.id) c.title
  /-- Only items that belong to one of them. -/
  items : ∀ (token : Option String) (plan : SearchPlan)
    (answer : Except SearchError SearchResponse), service.Answered store token plan answer →
    ∃ (items : List Item) (response : SearchResponse), answer = .ok response
      ∧ response.features = items.map plan.feature
      ∧ ∀ item ∈ items, ∃ c ∈ listed, c.id = item.collection

/-- A service shows the collections that its store lists. -/
theorem SearchService.serves_of_reflects {store : MemoryStore} {said : List StoreEvent}
    (reflects : store.Reflects said) (service : SearchService) :
    service.Serves store store.collections := by
  constructor
  · exact ⟨_, rfl⟩
  · intro id
    show (SearchService.found (.collectionNotFound id) (.ok (store.getCollection? id))).map
      (withLinks service.settings.baseUrl) = _
    rw [MemoryStore.getCollection?_eq_find?, List.find?_map]
    show _ = ((store.collections.find? (·.id = id)).map _).elim _ _
    cases store.collections.find? (·.id = id) <;> rfl
  · refine ⟨_, rfl, ?_⟩
    rw [List.filter_append]
    have children : ∀ link ∈ store.collections.map fun c =>
        Link.nav .child jsonType (collectionHref service.settings.baseUrl c.id) c.title,
        decide (link.rel = .child) = true := by
      intro link mem
      obtain ⟨c, _, rfl⟩ := List.mem_map.1 mem
      rfl
    rw [List.filter_eq_self.2 children]
    rfl
  · intro token plan answer answered
    obtain ⟨context, link, rfl⟩ := answered.eq_ofPage
    refine ⟨(store.page plan).items, _, rfl, rfl, fun item mem => ?_⟩
    have stored := MemoryStore.mem_values_of_mem_scan (Page.mem_of_mem_ofRows mem)
    exact (reflects.lists.listed_iff item.collection).2
      (Or.inr ⟨item, (reflects.items item).1 stored, rfl⟩)

/--
After any sequence of writes a store lists, once each and in increasing order, the collections that
are declared and the ones that its items belong to, and the look-up of one finds the listed record
and nothing else. The documents of a catalog show the same collections, and every item of an answer
belongs to one of them.
-/
theorem MemoryStore.collections_agree (items : List Item) (writes : List StoreWrite)
    (service : SearchService) :
    (written items writes).Lists (StoreEvent.history items writes)
      ∧ service.Serves (written items writes) (written items writes).collections :=
  ⟨(reflects_written items writes).lists,
    service.serves_of_reflects (reflects_written items writes)⟩

/-- A list of declarations voids the one before it, and an item that is replaced counts no more. -/
example : ((MemoryStore.written [{ Item.blank with id := "a", collection := "x" }]
    [.insertCollection (.bare "y"), .withCollections [.bare "z"],
      .insert { Item.blank with id := "a", collection := "w" }]).collections.map (·.id))
    = ["w", "z"] := by
  decide +kernel

end CatalogSearch
