import CatalogSearch.Proofs.Sort.Resolved

/-!
# What names stand for

Names and paths of fields are looked up in one place, names first, and of several fields that are
stored at one path the first one in order of name is found. So every field is found under its own
name, and the core fields under theirs. Under its path a field of that path is found unless another
field has the path as its name, and the instant is found under its path unless another field has the
path as its name or comes before it in order of name.

* `FieldRegistry.Named.resolve?_eq_some_iff` : what a name stands for;
* `Config.resolve_registered` : what the names and the paths of registered fields stand for.
-/

namespace CatalogSearch

namespace FieldRegistry

/-- A name stands for the field of that name, or else for the first field stored at that path. -/
inductive StandsFor (registry : FieldRegistry) (name : String) (field : Field) : Prop
  | ofName (mem : field ∈ registry.toList) (named : field.name = name)
  | ofPath (mem : field ∈ registry.toList) (stored : field.path = name)
      (unnamed : ∀ other ∈ registry.toList, other.name ≠ name)
      (first : ∀ other ∈ registry.toList, other.path = name → field.name ≤ other.name)

variable {registry : FieldRegistry} {name path : String} {field : Field}

/-- A field that is found at a path is stored there. -/
theorem stored_of_find? (found : registry.toList.find? (·.path = path) = some field) :
    field.path = path :=
  of_decide_eq_true (List.find?_some (p := fun other : Field => other.path = path) found)

/-- A field is found at a path if one is stored there. -/
theorem exists_find? (mem : field ∈ registry.toList) (stored : field.path = path) :
    ∃ first, registry.toList.find? (·.path = path) = some first := by
  refine Option.isSome_iff_exists.1 (List.find?_isSome.2 ⟨field, mem, ?_⟩)
  exact decide_eq_true stored

namespace Named

/-- The fields are listed in strictly increasing order of name. -/
theorem pairwise_toList (h : registry.Named) :
    registry.toList.Pairwise (·.name < ·.name) :=
  h.keyed.pairwise_values

/-- The field that is found first of those at a path has the least name of them. -/
theorem le_of_find? (h : registry.Named)
    (found : registry.toList.find? (·.path = path) = some field) {other : Field}
    (mem : other ∈ registry.toList) (stored : other.path = path) : field.name ≤ other.name := by
  obtain ⟨_, before, after, split, passed⟩ := List.find?_eq_some_iff_append.1 found
  have sorted := h.pairwise_toList
  rw [split] at mem sorted
  rcases List.mem_append.1 mem with earlier | mem
  · -- Nothing in front of the field is stored there.
    have elsewhere := passed other earlier
    rw [decide_eq_true stored] at elsewhere
    cases elsewhere
  · rcases List.mem_cons.1 mem with rfl | later
    · exact String.le_refl _
    · obtain ⟨_, tail, _⟩ := List.pairwise_append.1 sorted
      have lt := (List.pairwise_cons.1 tail).1 other later
      exact String.not_lt.1 (String.lt_asymm lt)

/-- The field of the least name at a path is found first. -/
theorem find?_eq_some_iff (h : registry.Named) :
    registry.toList.find? (·.path = path) = some field
      ↔ field ∈ registry.toList ∧ field.path = path
        ∧ ∀ other ∈ registry.toList, other.path = path → field.name ≤ other.name := by
  constructor
  · intro found
    exact ⟨List.mem_of_find?_eq_some found, stored_of_find? found,
      fun other mem stored => h.le_of_find? found mem stored⟩
  · rintro ⟨mem, stored, least⟩
    obtain ⟨first, found⟩ := exists_find? mem stored
    have firstMem := List.mem_of_find?_eq_some found
    have same := String.le_antisymm (h.le_of_find? found mem stored)
      (least first firstMem (stored_of_find? found))
    rw [found, h.eq_of_name_eq firstMem mem same]

/-- What a name stands for. -/
theorem resolve?_eq_some_iff (h : registry.Named) :
    registry.resolve? name = some field ↔ registry.StandsFor name field := by
  have byName : ∀ other, registry.fields.get? name = some other
      ↔ other ∈ registry.toList ∧ other.name = name := fun _ => h.keyed.get?_eq_some_iff
  have noName : registry.fields.get? name = none
      ↔ ∀ other ∈ registry.toList, other.name ≠ name := by
    rw [Option.eq_none_iff_forall_ne_some]
    exact ⟨fun none other mem named => none other ((byName other).2 ⟨mem, named⟩),
      fun unnamed other found => unnamed other ((byName other).1 found).1 ((byName other).1 found).2⟩
  rw [resolve?, Option.orElse_eq_orElse, Option.orElse_eq_or, Option.or_eq_some_iff, byName,
    noName, h.find?_eq_some_iff]
  constructor
  · rintro (⟨mem, named⟩ | ⟨unnamed, mem, stored, first⟩)
    · exact .ofName mem named
    · exact .ofPath mem stored unnamed first
  · intro stands
    cases stands with
    | ofName mem named => exact Or.inl ⟨mem, named⟩
    | ofPath mem stored unnamed first => exact Or.inr ⟨unnamed, mem, stored, first⟩

/-- A registered field is found under its name. -/
theorem resolve?_name (h : registry.Named) (mem : field ∈ registry.toList) :
    registry.resolve? field.name = some field :=
  h.resolve?_eq_some_iff.2 (.ofName mem rfl)

/-- Some field is found under the path of a registered one. -/
theorem exists_resolve?_path (h : registry.Named) (mem : field ∈ registry.toList) :
    ∃ found, registry.resolve? field.path = some found := by
  by_cases named : ∃ other ∈ registry.toList, other.name = field.path
  · obtain ⟨other, hother, same⟩ := named
    exact ⟨other, h.resolve?_eq_some_iff.2 (.ofName hother same)⟩
  · obtain ⟨first, found⟩ := exists_find? mem rfl
    obtain ⟨firstMem, stored, least⟩ := h.find?_eq_some_iff.1 found
    have unnamed : ∀ other ∈ registry.toList, other.name ≠ field.path :=
      fun other hother same => named ⟨other, hother, same⟩
    exact ⟨first, h.resolve?_eq_some_iff.2 (.ofPath firstMem stored unnamed least)⟩

/-- What is found under a path is stored there exactly if every field of that name is. -/
theorem path_eq_iff_of_resolve? (h : registry.Named)
    (found : registry.resolve? path = some field) :
    field.path = path ↔ ∀ other ∈ registry.toList, other.name = path → other.path = path := by
  cases h.resolve?_eq_some_iff.1 found with
  | ofName mem named =>
    constructor
    · intro stored other hother same
      rw [h.eq_of_name_eq hother mem (same.trans named.symm)]
      exact stored
    · intro all
      exact all field mem named
  | ofPath mem stored unnamed first =>
    exact iff_of_true stored fun other hother same => absurd same (unnamed other hother)

/-- A field whose name is not its path is found under its path if no other one is preferred. -/
theorem resolve?_path_eq_some_iff (h : registry.Named) (mem : field ∈ registry.toList)
    (different : field.name ≠ field.path) :
    registry.resolve? field.path = some field
      ↔ ∀ other ∈ registry.toList, other.name ≠ field.path
        ∧ (other.path = field.path → field.name ≤ other.name) := by
  rw [h.resolve?_eq_some_iff]
  constructor
  · intro stands other hother
    cases stands with
    | ofName _ named => exact absurd named different
    | ofPath _ _ unnamed first => exact ⟨unnamed other hother, first other hother⟩
  · intro none
    exact .ofPath mem rfl (fun other hother => (none other hother).1)
      (fun other hother => (none other hother).2)

end Named

end FieldRegistry

/--
With the fields of a configuration every field is found under its name, and so are the core fields.
Under the path of a field another one of that path is found exactly if no field of that name is
stored elsewhere. The instant is found under its path exactly if no field has the path as its name
and none that is stored there comes before it in order of name.
-/
theorem Config.resolve_registered {config : Config} {registry : FieldRegistry}
    (configured : config.registry = .ok registry) :
    (∀ field ∈ registry.toList, registry.resolve? field.name = some field)
      ∧ (∀ field ∈ registry.toList, ∃ found, registry.resolve? field.path = some found
        ∧ (found.path = field.path
          ↔ ∀ other ∈ registry.toList, other.name = field.path → other.path = field.path))
      ∧ registry.resolve? "id" = some FieldRegistry.idField
      ∧ registry.resolve? "collection" = some FieldRegistry.collectionField
      ∧ registry.resolve? "datetime" = some FieldRegistry.temporalField
      ∧ (registry.resolve? "properties.datetime" = some FieldRegistry.temporalField
        ↔ ∀ other ∈ registry.toList, other.name ≠ "properties.datetime"
          ∧ (other.path = "properties.datetime" → "datetime" ≤ other.name)) := by
  have named := Config.registry_named configured
  have core : ∀ field ∈ FieldRegistry.coreFields, registry.resolve? field.name = some field :=
    fun field mem => named.resolve?_name (named.mem_of_core mem)
  refine ⟨fun field mem => named.resolve?_name mem, ?_, core FieldRegistry.idField (by decide),
    core FieldRegistry.collectionField (by decide), core FieldRegistry.temporalField (by decide), ?_⟩
  · intro field mem
    obtain ⟨found, resolved⟩ := named.exists_resolve?_path mem
    exact ⟨found, resolved, named.path_eq_iff_of_resolve? resolved⟩
  · have mem : FieldRegistry.temporalField ∈ registry.toList := named.mem_of_core (by decide)
    exact named.resolve?_path_eq_some_iff mem (by decide)

/-! ## Fields that stand in front of others -/

namespace Sample

/--
A configuration with a property of its own, one that is named like the path of a built-in field, and
one that is stored where the instant is.
-/
def aliasConfig : Config :=
  { Config.unset with queryables :=
      [⟨"platform", none, .string⟩, ⟨"properties.gsd", none, .string⟩,
        ⟨"acquired", some "properties.datetime", .string⟩] }

/-- The fields of that configuration. -/
def aliasRegistry : FieldRegistry :=
  aliasConfig.registry.toOption.getD .builtin

/-- The property and the instant are found by name, but neither of the two paths is kept. -/
theorem resolve_registered_of_aliasConfig :
    aliasConfig.registry = .ok aliasRegistry
      ∧ aliasRegistry.resolve? "platform" = some (.property "platform" .string)
      ∧ aliasRegistry.resolve? "datetime" = some FieldRegistry.temporalField
      ∧ (∃ found, aliasRegistry.resolve? "properties.gsd" = some found
        ∧ found.path ≠ "properties.gsd")
      ∧ aliasRegistry.resolve? "properties.datetime" ≠ some FieldRegistry.temporalField := by
  have configured : aliasConfig.registry = .ok aliasRegistry := rfl
  obtain ⟨byName, byPath, _, _, instant, instantByPath⟩ := Config.resolve_registered configured
  have platform : Field.property "platform" .string ∈ aliasRegistry.toList := by decide +kernel
  have gsd : Field.property "gsd" .float ∈ aliasRegistry.toList := by decide +kernel
  have named : Field.property "properties.gsd" .string ∈ aliasRegistry.toList := by decide +kernel
  have acquired : ⟨"acquired", "properties.datetime", .string⟩ ∈ aliasRegistry.toList := by
    decide +kernel
  refine ⟨configured, byName _ platform, instant, ?_, ?_⟩
  · obtain ⟨found, resolved, kept⟩ := byPath _ gsd
    refine ⟨found, resolved, fun same => ?_⟩
    exact absurd (kept.1 same _ named rfl) (by decide)
  · intro resolved
    exact absurd ((instantByPath.1 resolved _ acquired).2 rfl) (by decide)

end Sample

end CatalogSearch
