import CatalogSearch.Config
import CatalogSearch.Proofs.Outcome
import CatalogSearch.Proofs.Sort.Total

/-!
# Resolved orders

The registry of a configuration holds the identifier, the collection and fields of properties, and
nothing else. The orders that searches run in are made of its fields and always have the identifier
among their keys.

* `Config.registry_wellPlaced` : what a configured registry can hold;
* `Config.registry_named` : its fields stand under their own names;
* `SortOrder.Resolved` : the orders that searches run in;
* `SortOrder.Resolved.registered` : their keys are of registered fields.
-/

namespace CatalogSearch

/-! ## Places of fields -/

/-- A field is the identifier, the collection, or stored below the properties. -/
def Field.WellPlaced (field : Field) : Prop :=
  field = FieldRegistry.idField ∨ field = FieldRegistry.collectionField
    ∨ ∃ name, field.path = Field.propertyLead ++ name

/-- A property is stored below the properties. -/
theorem Field.wellPlaced_property (name : String) (type : FieldType) :
    (Field.property name type).WellPlaced :=
  Or.inr (Or.inr ⟨name, rfl⟩)

/-- The path of a property is neither of the two other ones. -/
theorem Field.propertyLead_append_ne (name : String) :
    Field.propertyLead ++ name ≠ "id" ∧ Field.propertyLead ++ name ≠ "collection" := by
  constructor <;>
  · intro h
    have chars := congrArg String.toList h
    rw [String.toList_append, Field.propertyLead] at chars
    simp at chars

/-- A value that an item has of a well placed field is the reading of some JSON value. -/
theorem Field.WellPlaced.exists_ofJson? {field : Field} (h : field.WellPlaced) {item : Item}
    {value : FieldValue} (has : item.value? field = some value) :
    ∃ json, FieldValue.ofJson? field.type json = some value := by
  rcases h with rfl | rfl | ⟨name, path⟩
  · exact ⟨.str item.id, has⟩
  · exact ⟨.str item.collection, has⟩
  · obtain ⟨notId, notCollection⟩ := Field.propertyLead_append_ne name
    rw [Item.value?, path, if_neg notId, if_neg notCollection] at has
    obtain ⟨property, _, has⟩ := Option.bind_eq_some_iff.1 has
    obtain ⟨json, _, has⟩ := Option.bind_eq_some_iff.1 has
    exact ⟨json, has⟩

/-! ## Fields of a registry -/

namespace FieldRegistry

/-- All fields of a registry are well placed. -/
def WellPlaced (registry : FieldRegistry) : Prop :=
  ∀ field ∈ registry.toList, field.WellPlaced

/-- A field that a name stands for is registered. -/
theorem mem_of_resolve? {registry : FieldRegistry} {name : String} {field : Field}
    (h : registry.resolve? name = some field) : field ∈ registry.toList := by
  rw [resolve?, Option.orElse_eq_orElse, Option.orElse_eq_or, Option.or_eq_some_iff] at h
  rcases h with h | ⟨_, h⟩
  · obtain ⟨before, after, split, _⟩ := List.lookup_eq_some_iff.1 h
    rw [toList, SortedMap.values, split]
    simp
  · exact List.mem_of_find?_eq_some h

/-- The core fields are well placed. -/
theorem wellPlaced_of_core {field : Field} (core : field ∈ coreFields) : field.WellPlaced := by
  simp only [coreFields, List.mem_cons, List.not_mem_nil, or_false] at core
  rcases core with rfl | rfl | rfl
  · exact Or.inl rfl
  · exact Field.wellPlaced_property "datetime" .timestamp
  · exact Or.inr (Or.inl rfl)

/-- The built-in fields are well placed. -/
theorem builtin_wellPlaced : builtin.WellPlaced := by
  intro field mem
  obtain ⟨entry, stored, rfl⟩ := List.mem_map.1 mem
  obtain ⟨field, listed, rfl⟩ := List.mem_map.1 (SortedMap.mem_ofList stored)
  rcases List.mem_append.1 listed with common | core
  · obtain ⟨⟨name, type⟩, _, rfl⟩ := List.mem_map.1 common
    exact Field.wellPlaced_property name type
  · exact wellPlaced_of_core core

/-- Registering a well placed field keeps all fields well placed. -/
theorem WellPlaced.register? {registry registry' : FieldRegistry} {field : Field}
    (h : registry.WellPlaced) (placed : field.WellPlaced)
    (registered : registry.register? field = some registry') : registry'.WellPlaced := by
  rw [FieldRegistry.register?] at registered
  split at registered
  · cases registered
  · cases registered
    intro other mem
    obtain ⟨entry, stored, rfl⟩ := List.mem_map.1 mem
    rcases mem_insertEntry stored with rfl | old
    · exact placed
    · exact h _ (List.mem_map_of_mem old)

/-- Fields stand under their own names, and the core fields are among them. -/
structure Named (registry : FieldRegistry) : Prop where
  keyed : registry.fields.Keyed Field.name
  core : ∀ field ∈ coreFields, registry.fields.get? field.name = some field

/-- The built-in fields stand under their own names. -/
theorem builtin_named : builtin.Named where
  keyed := SortedMap.keyed_ofList Field.name _
  core := by decide +kernel

/-- Registering a field keeps all fields under their own names. -/
theorem Named.register? {registry registry' : FieldRegistry} {field : Field} (h : registry.Named)
    (registered : registry.register? field = some registry') : registry'.Named := by
  rw [FieldRegistry.register?] at registered
  split at registered
  · cases registered
  · next notCore =>
    cases registered
    refine ⟨h.keyed.insert field, fun core hcore => ?_⟩
    -- The field that is written has not the name of a core field.
    have other : core.name ≠ field.name := fun same =>
      notCore (List.any_eq_true.2 ⟨core, hcore, decide_eq_true same⟩)
    rw [SortedMap.get?_insert, if_neg other]
    exact h.core core hcore

/-- A core field is registered. -/
theorem Named.mem_of_core {registry : FieldRegistry} (h : registry.Named) {field : Field}
    (core : field ∈ coreFields) : field ∈ registry.toList :=
  (h.keyed.get?_eq_some_iff.1 (h.core field core)).1

/-- Registered fields of the same name are the same. -/
theorem Named.eq_of_name_eq {registry : FieldRegistry} (h : registry.Named) {field other : Field}
    (mem : field ∈ registry.toList) (mem' : other ∈ registry.toList)
    (same : field.name = other.name) : field = other :=
  h.keyed.eq_of_key_eq mem mem' same

end FieldRegistry

/-! ## Configured registries -/

/-- The field of a queryable is stored below the properties. -/
theorem Queryable.wellPlaced {q : Queryable} {field : Field} (h : q.field = .ok field) :
    field.WellPlaced := by
  rw [Queryable.field] at h
  split at h
  · cases h
    exact Field.wellPlaced_property q.name q.type
  · next path _ =>
    split at h
    · next isProperty =>
      cases h
      obtain ⟨name, split, _⟩ := (Option.any_eq_true _ _).1 isProperty
      exact Or.inr (Or.inr ⟨name, Text.after?_eq_some_iff.1 split⟩)
    · cases h

/-- What registering the fields of queryables keeps is true of the registry with all of them. -/
theorem registerAll_induction {P : FieldRegistry → Prop}
    (step : ∀ {q : Queryable} {field : Field} {registry registry' : FieldRegistry},
      q.field = .ok field → registry.register? field = some registry' → P registry → P registry')
    {queryables : List Queryable} {registry registry' : FieldRegistry} (h : P registry)
    (registered : registerAll registry queryables = .ok registry') : P registry' := by
  induction queryables generalizing registry with
  | nil =>
    cases registered
    exact h
  | cons q qs ih =>
    rw [registerAll] at registered
    obtain ⟨field, made, registered⟩ := exists_of_bind_eq_ok registered
    cases added : registry.register? field with
    | none =>
      rw [added] at registered
      cases registered
    | some more =>
      rw [added] at registered
      exact ih (step made added h) registered

/-- All fields of a configured registry are well placed. -/
theorem Config.registry_wellPlaced {config : Config} {registry : FieldRegistry}
    (h : config.registry = .ok registry) : registry.WellPlaced :=
  registerAll_induction (fun made added placed => placed.register? (Queryable.wellPlaced made) added)
    FieldRegistry.builtin_wellPlaced h

/-- The fields of a configured registry stand under their own names, the core fields among them. -/
theorem Config.registry_named {config : Config} {registry : FieldRegistry}
    (h : config.registry = .ok registry) : registry.Named :=
  registerAll_induction (fun _ added named => named.register? added) FieldRegistry.builtin_named h

/-! ## Orders -/

/-- The orders that searches over a registry run in. -/
inductive SortOrder.Resolved (registry : FieldRegistry) : SortOrder → Prop
  | newestFirst : Resolved registry .newestFirst
  | byId : Resolved registry .byId
  | requested {entries : List SortBy} {order : SortOrder}
      (resolved : resolveSort registry entries = .ok order) : Resolved registry order

/-- Keys that are cut at the identifier have it among them. -/
theorem exists_id_mem_endWithId (keys : List SortKey) :
    ∃ key ∈ endWithId keys, key.field = FieldRegistry.idField := by
  induction keys with
  | nil => exact ⟨SortOrder.idKey, List.mem_singleton_self _, rfl⟩
  | cons key keys ih =>
    rw [endWithId]
    split
    · next isId => exact ⟨key, List.mem_singleton_self _, isId⟩
    · obtain ⟨idKey, mem, isId⟩ := ih
      exact ⟨idKey, List.mem_cons_of_mem _ mem, isId⟩

/-- Keys that are cut at the identifier are old ones or the one that was put behind them. -/
theorem mem_endWithId {keys : List SortKey} {key : SortKey} (h : key ∈ endWithId keys) :
    key ∈ keys ∨ key = SortOrder.idKey := by
  induction keys with
  | nil => exact Or.inr (List.mem_singleton.1 h)
  | cons head keys ih =>
    rw [endWithId] at h
    split at h
    · exact Or.inl (List.mem_singleton.1 h ▸ List.mem_cons_self)
    · rcases List.mem_cons.1 h with rfl | h
      · exact Or.inl List.mem_cons_self
      · exact (ih h).imp_left (List.mem_cons_of_mem _)

/-- Every key behind the given ones is one of a registered field. -/
theorem mem_of_resolveKeys {registry : FieldRegistry} {keys keys' : List SortKey}
    {entries : List SortBy} (h : resolveKeys registry keys entries = .ok keys') {key : SortKey}
    (mem : key ∈ keys') : key ∈ keys ∨ key.field ∈ registry.toList := by
  induction entries generalizing keys with
  | nil =>
    cases h
    exact Or.inl mem
  | cons entry entries ih =>
    rw [resolveKeys] at h
    split at h
    · cases h
    · next field found =>
      split at h
      · cases h
      · rcases ih h with mem | mem
        · rcases List.mem_append.1 mem with mem | mem
          · exact Or.inl mem
          · rw [List.mem_singleton.1 mem]
            exact Or.inr (FieldRegistry.mem_of_resolve? found)
        · exact Or.inr mem

/-- The keys of a requested order. -/
theorem keys_of_resolveSort {registry : FieldRegistry} {entries : List SortBy} {order : SortOrder}
    (h : resolveSort registry entries = .ok order) :
    order = .newestFirst ∨
      ∃ keys, resolveKeys registry [] entries = .ok keys ∧ order = ⟨endWithId keys⟩ := by
  rw [resolveSort] at h
  split at h
  · cases h
    exact Or.inl rfl
  · cases resolved : resolveKeys registry [] entries with
    | error e =>
      rw [resolved] at h
      cases h
    | ok keys =>
      rw [resolved] at h
      cases h
      exact Or.inr ⟨keys, rfl, rfl⟩

namespace SortOrder.Resolved

variable {registry : FieldRegistry} {order : SortOrder}

/-- The identifier is among the keys. -/
theorem exists_id (h : Resolved registry order) : ∃ key ∈ order.keys, key.field.path = "id" := by
  have newest : ∃ key ∈ SortOrder.newestFirst.keys, key.field.path = "id" :=
    ⟨idKey, List.mem_cons_of_mem _ (List.mem_singleton_self _), rfl⟩
  cases h with
  | newestFirst => exact newest
  | byId => exact ⟨idKey, List.mem_singleton_self _, rfl⟩
  | requested resolved =>
    rcases keys_of_resolveSort resolved with rfl | ⟨keys, _, rfl⟩
    · exact newest
    · obtain ⟨key, mem, isId⟩ := exists_id_mem_endWithId keys
      exact ⟨key, mem, congrArg Field.path isId⟩

/-- What is true of all registered fields and of the core fields is true of those of the keys. -/
theorem forall_field {P : Field → Prop} (h : Resolved registry order)
    (core : ∀ field ∈ FieldRegistry.coreFields, P field)
    (registered : ∀ field ∈ registry.toList, P field) : ∀ key ∈ order.keys, P key.field := by
  have id : P idKey.field := core _ List.mem_cons_self
  have newest : ∀ key ∈ SortOrder.newestFirst.keys, P key.field := by
    intro key mem
    simp only [SortOrder.newestFirst, List.mem_cons, List.not_mem_nil, or_false] at mem
    rcases mem with rfl | rfl
    · exact core _ (List.mem_cons_of_mem _ List.mem_cons_self)
    · exact id
  cases h with
  | newestFirst => exact newest
  | byId =>
    intro key mem
    rw [List.mem_singleton.1 mem]
    exact id
  | requested resolved =>
    rcases keys_of_resolveSort resolved with rfl | ⟨keys, found, rfl⟩
    · exact newest
    · intro key mem
      rcases mem_endWithId mem with requested | rfl
      · exact registered _ ((mem_of_resolveKeys found requested).resolve_left List.not_mem_nil)
      · exact id

/-- All keys are of well placed fields if those of the registry are. -/
theorem wellPlaced (h : Resolved registry order) (placed : registry.WellPlaced) :
    ∀ key ∈ order.keys, key.field.WellPlaced :=
  h.forall_field (fun _ => FieldRegistry.wellPlaced_of_core) placed

/-- All keys are of registered fields if the core fields are registered. -/
theorem registered (h : Resolved registry order) (named : registry.Named) :
    ∀ key ∈ order.keys, key.field ∈ registry.toList :=
  h.forall_field (fun _ => named.mem_of_core) fun _ mem => mem

end SortOrder.Resolved

end CatalogSearch
