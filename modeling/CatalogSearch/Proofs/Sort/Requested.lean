import CatalogSearch.Proofs.Field.Resolve
import CatalogSearch.Proofs.Sort.Lexicographic

/-!
# Requested orders

A request lists the keys of an order by the names or the paths of their fields. The list is refused
exactly if one of its entries stands for no field or two of them stand for the same one. Otherwise
the keys up to the identifier are kept, and the identifier is put behind keys that lack it. This
changes nothing about how two items of different identifiers are compared, since nothing behind the
identifier ever decides.

* `resolveKeys_eq_ok_iff` : the keys that a list of entries is resolved to;
* `exists_endWithId` : the identifier ends an order and stands nowhere else in it;
* `SortOrder.compare_endWithId` : what is dropped behind the identifier decides nothing;
* `Config.resolveSort_keeps` : when a list is refused, and what is kept of it otherwise.
-/

namespace CatalogSearch

variable {registry : FieldRegistry} {entries : List SortBy} {keys : List SortKey}

/-! ## What entries stand for -/

/-- The keys that a list of entries stands for, each in the place of its entry. -/
def Requests (registry : FieldRegistry) (entries : List SortBy) (keys : List SortKey) : Prop :=
  List.Forall₂ (fun entry key =>
    registry.StandsFor entry.field key.field ∧ key.direction = entry.direction) entries keys

/-- A name that no registered field has and at which none is stored. -/
def FieldRegistry.Lacks (registry : FieldRegistry) (name : String) : Prop :=
  ∀ field ∈ registry.toList, field.name ≠ name ∧ field.path ≠ name

/-- Two entries that do not stand for the same field. -/
def SortBy.Apart (registry : FieldRegistry) (a b : SortBy) : Prop :=
  ∀ field, registry.StandsFor a.field field → ¬ registry.StandsFor b.field field

/--
A list of entries of which one stands for no field, or an earlier and a later one stand for the same
field.
-/
def Unresolvable (registry : FieldRegistry) (entries : List SortBy) : Prop :=
  (∃ entry ∈ entries, registry.Lacks entry.field)
    ∨ ∃ a b field, [a, b].Sublist entries
      ∧ registry.StandsFor a.field field ∧ registry.StandsFor b.field field

namespace FieldRegistry

/-- A name stands for some field unless no field has it and none is stored there. -/
theorem Named.exists_standsFor_iff (h : registry.Named) {name : String} :
    (∃ field, registry.StandsFor name field) ↔ ¬ registry.Lacks name := by
  constructor
  · rintro ⟨field, stands⟩ lacks
    cases stands with
    | ofName mem named => exact (lacks field mem).1 named
    | ofPath mem stored => exact (lacks field mem).2 stored
  · intro known
    unfold Lacks at known
    push Not at known
    obtain ⟨field, mem, found⟩ := known
    by_cases named : field.name = name
    · exact ⟨field, .ofName mem named⟩
    · obtain ⟨first, resolved⟩ := h.exists_resolve?_path mem
      rw [found named] at resolved
      exact ⟨first, h.resolve?_eq_some_iff.1 resolved⟩

/-- A name stands for one field at most. -/
theorem Named.standsFor_unique (h : registry.Named) {name : String} {field other : Field}
    (first : registry.StandsFor name field) (second : registry.StandsFor name other) :
    field = other := by
  rw [← h.resolve?_eq_some_iff] at first second
  rw [first] at second
  exact Option.some.inj second

end FieldRegistry

/-- Entries stand for keys if each of them stands for some field. -/
theorem exists_requests_iff (named : registry.Named) :
    (∃ keys, Requests registry entries keys) ↔ ∀ entry ∈ entries, ¬ registry.Lacks entry.field := by
  induction entries with
  | nil => exact iff_of_true ⟨[], .nil⟩ nofun
  | cons entry entries ih =>
    rw [List.forall_mem_cons, ← ih, ← named.exists_standsFor_iff]
    constructor
    · rintro ⟨_, _ | ⟨⟨stands, _⟩, others⟩⟩
      exact ⟨⟨_, stands⟩, _, others⟩
    · rintro ⟨⟨field, stands⟩, keys, others⟩
      exact ⟨⟨field, entry.direction⟩ :: keys, .cons ⟨stands, rfl⟩ others⟩

/-- The field of an entry is among those of the keys if the entry is not apart from all others. -/
theorem Requests.mem_field_iff (named : registry.Named) (h : Requests registry entries keys)
    {entry : SortBy} {field : Field} (stands : registry.StandsFor entry.field field) :
    field ∉ keys.map (·.field) ↔ ∀ other ∈ entries, entry.Apart registry other := by
  induction h with
  | nil => exact iff_of_true List.not_mem_nil nofun
  | @cons head key entries keys first others ih =>
    rw [List.map_cons, List.mem_cons, not_or, List.forall_mem_cons, ih]
    refine and_congr_left fun _ => ?_
    constructor
    · intro different shared first' second
      apply different
      rw [named.standsFor_unique stands first', named.standsFor_unique second first.1]
    · rintro apart rfl
      exact apart _ stands first.1

/-- The fields of the keys are different if no two entries stand for the same one. -/
theorem Requests.nodup_iff (named : registry.Named) (h : Requests registry entries keys) :
    (keys.map (·.field)).Nodup ↔ entries.Pairwise (SortBy.Apart registry) := by
  induction h with
  | nil => exact iff_of_true List.nodup_nil .nil
  | @cons entry key entries keys first others ih =>
    rw [List.map_cons, List.nodup_cons, List.pairwise_cons, ih,
      Requests.mem_field_iff named others first.1]

/-- The first key is the one of the field that the first entry stands for. -/
theorem requests_cons_iff (named : registry.Named) {entry : SortBy} {field : Field}
    (stands : registry.StandsFor entry.field field) :
    Requests registry (entry :: entries) keys
      ↔ ∃ more, Requests registry entries more ∧ keys = ⟨field, entry.direction⟩ :: more := by
  constructor
  · rintro (_ | @⟨_, ⟨other, direction⟩, _, more, ⟨stands', same⟩, others⟩)
    cases named.standsFor_unique stands' stands
    cases same
    exact ⟨more, others, rfl⟩
  · rintro ⟨more, others, rfl⟩
    exact .cons ⟨stands, rfl⟩ others

/-! ## Resolving a list -/

/-- The keys that a list of entries is resolved to, behind the keys so far. -/
theorem resolveKeys_eq_ok_iff (named : registry.Named) (distinct : (keys.map (·.field)).Nodup)
    {result : List SortKey} :
    resolveKeys registry keys entries = .ok result
      ↔ ∃ more, Requests registry entries more ∧ ((keys ++ more).map (·.field)).Nodup
        ∧ result = keys ++ more := by
  -- By induction on the entries, for any different keys that were resolved before.
  induction entries generalizing keys with
  | nil =>
    constructor
    · intro resolved
      cases resolved
      exact ⟨[], .nil, by simpa using distinct, (List.append_nil _).symm⟩
    · rintro ⟨_, ⟨⟩, _, rfl⟩
      rw [List.append_nil]
      rfl
  | cons entry entries ih =>
    unfold resolveKeys
    cases found : registry.resolve? entry.field with
    | none =>
      constructor
      · intro resolved
        cases resolved
      · rintro ⟨_, _ | ⟨⟨stands, _⟩, _⟩, _⟩
        rw [named.resolve?_eq_some_iff.2 stands] at found
        cases found
    | some field =>
      have stands := named.resolve?_eq_some_iff.1 found
      simp only [requests_cons_iff named stands]
      by_cases taken : field ∈ keys.map (·.field)
      · -- The field was requested before, so with the key for the entry it stands twice.
        have known : keys.any (·.field = field) = true := by simpa using taken
        simp only [known, if_true]
        constructor
        · intro resolved
          cases resolved
        · rintro ⟨_, ⟨more, _, rfl⟩, nodup, _⟩
          rw [List.map_append, List.nodup_append] at nodup
          exact absurd rfl (nodup.2.2 field taken field (by simp))
      · have fresh : keys.any (·.field = field) = false := by simpa using taken
        have longer : ((keys ++ [(⟨field, entry.direction⟩ : SortKey)]).map (·.field)).Nodup := by
          rw [List.map_append, List.map_singleton, ← List.concat_eq_append]
          exact distinct.concat taken
        simp only [fresh, Bool.false_eq_true, if_false, ih longer]
        constructor
        · rintro ⟨more, requests, nodup, rfl⟩
          rw [List.append_assoc, List.singleton_append] at nodup ⊢
          exact ⟨_, ⟨more, requests, rfl⟩, nodup, rfl⟩
        · rintro ⟨_, ⟨more, requests, rfl⟩, nodup, rfl⟩
          rw [List.append_cons] at nodup
          exact ⟨more, requests, nodup, List.append_cons _ _ _⟩

/-- A list is resolved to different keys, if there are such. -/
theorem resolveKeys_nil_eq_ok_iff (named : registry.Named) :
    resolveKeys registry [] entries = .ok keys
      ↔ Requests registry entries keys ∧ (keys.map (·.field)).Nodup := by
  rw [resolveKeys_eq_ok_iff named (by simp)]
  constructor
  · rintro ⟨more, requests, nodup, rfl⟩
    exact ⟨requests, nodup⟩
  · rintro ⟨requests, nodup⟩
    exact ⟨keys, requests, nodup, rfl⟩

/-- A list is refused exactly if an entry stands for no field or two of them for the same one. -/
theorem exists_error_resolveKeys_iff (named : registry.Named) :
    (∃ e, resolveKeys registry [] entries = .error e) ↔ Unresolvable registry entries := by
  have refused : (∃ e, resolveKeys registry [] entries = .error e)
      ↔ ¬ ∃ keys, resolveKeys registry [] entries = .ok keys := by
    cases resolveKeys registry [] entries <;> simp
  rw [refused]
  simp only [resolveKeys_nil_eq_ok_iff named]
  constructor
  · intro none
    by_contra resolvable
    unfold Unresolvable at resolvable
    push Not at resolvable
    obtain ⟨known, apart⟩ := resolvable
    obtain ⟨keys, requests⟩ := (exists_requests_iff named).2 known
    refine none ⟨keys, requests, (requests.nodup_iff named).2 ?_⟩
    rw [List.pairwise_iff_forall_sublist]
    intro a b earlier field
    exact apart a b field earlier
  · rintro unresolvable ⟨keys, requests, nodup⟩
    rcases unresolvable with ⟨entry, mem, lacks⟩ | ⟨a, b, field, earlier, first, second⟩
    · exact (exists_requests_iff named).1 ⟨keys, requests⟩ entry mem lacks
    · have apart := (requests.nodup_iff named).1 nodup
      exact List.pairwise_iff_forall_sublist.1 apart earlier field first second

/-! ## The identifier at the end -/

/-- The identifier ends an order and stands nowhere else in it; the keys in front are kept. -/
theorem exists_endWithId (keys : List SortKey) :
    ∃ front direction, endWithId keys = front ++ [⟨FieldRegistry.idField, direction⟩]
      ∧ front <+: keys ∧ ∀ key ∈ front, key.field ≠ FieldRegistry.idField := by
  induction keys with
  | nil => exact ⟨[], .ascending, rfl, List.prefix_rfl, nofun⟩
  | cons key keys ih =>
    unfold endWithId
    split
    · next isId =>
      obtain ⟨field, direction⟩ := key
      cases isId
      exact ⟨[], direction, rfl, List.nil_prefix, nofun⟩
    · next other =>
      obtain ⟨front, direction, ended, kept, others⟩ := ih
      refine ⟨key :: front, direction, ?_, List.cons_prefix_cons.2 ⟨rfl, kept⟩, ?_⟩
      · rw [ended, List.cons_append]
      · exact List.forall_mem_cons.2 ⟨other, others⟩

/-- Keys that end with the identifier are kept as they are. -/
theorem endWithId_of_last {front : List SortKey} {direction : SortDirection}
    (others : ∀ key ∈ front, key.field ≠ FieldRegistry.idField) :
    endWithId (front ++ [⟨FieldRegistry.idField, direction⟩])
      = front ++ [⟨FieldRegistry.idField, direction⟩] := by
  induction front with
  | nil => exact if_pos rfl
  | cons key front ih =>
    obtain ⟨other, others⟩ := List.forall_mem_cons.1 others
    rw [List.cons_append, endWithId, if_neg other, ih others]

/-- The key of the identifier tells items of different identifiers apart. -/
theorem compareKey_id_ne_eq {a b : Item} (different : a.id ≠ b.id) (direction : SortDirection) :
    compareKey direction (a.value? FieldRegistry.idField) (b.value? FieldRegistry.idField)
      ≠ .eq := by
  intro tied
  have same : some (FieldValue.string a.id) = some (FieldValue.string b.id) :=
    eq_of_compareKey_eq tied
  exact different (FieldValue.string.inj (Option.some.inj same))

namespace SortOrder

/-- What is dropped behind the identifier never decides, and neither does a second identifier. -/
theorem compare_endWithId {a b : Item} (different : a.id ≠ b.id) (keys : List SortKey) :
    compare ⟨endWithId keys⟩ a b = compare ⟨keys ++ [idKey]⟩ a b := by
  induction keys with
  | nil => rfl
  | cons key keys ih =>
    unfold endWithId
    split
    · next isId =>
      -- The keys behind the identifier differ, but they are never asked.
      have decides := compareKey_id_ne_eq different key.direction
      rw [← isId] at decides
      rw [List.cons_append, compare_cons, compare_cons]
      cases decided : compareKey key.direction (a.value? key.field) (b.value? key.field) with
      | eq => exact absurd decided decides
      | lt => rfl
      | gt => rfl
    · rw [List.cons_append, compare_cons, compare_cons, ih]

/-! ## Orders for lists of entries -/

/-- The names of the fields of an order with their directions. -/
def toEntries (order : SortOrder) : List SortBy :=
  order.keys.map fun key => ⟨key.field.name, key.direction⟩

/-- An order of registered fields is what its own names stand for. -/
theorem requests_toEntries {order : SortOrder}
    (registered : ∀ key ∈ order.keys, key.field ∈ registry.toList) :
    Requests registry order.toEntries order.keys := by
  unfold Requests toEntries
  rw [List.forall₂_map_left_iff, List.forall₂_same]
  intro key mem
  exact ⟨.ofName (registered key mem) rfl, rfl⟩

/-- What an order keeps of the list of entries that was requested. -/
structure Keeps (registry : FieldRegistry) (entries : List SortBy) (order : SortOrder) :
    Prop where
  /-- No field is repeated. -/
  nodup : (order.keys.map (·.field)).Nodup
  /-- The identifier stands at the end and nowhere else. -/
  id_last : ∃ front direction, order.keys = front ++ [⟨FieldRegistry.idField, direction⟩]
    ∧ ∀ key ∈ front, key.field ≠ FieldRegistry.idField
  /-- Its own names and directions are resolved to the same order. -/
  again : resolveSort registry order.toEntries = .ok order
  /-- All requested keys decide in their order, and then the identifier. -/
  decides : ∃ keys, Requests registry entries keys ∧ ∀ a b : Item, a.id ≠ b.id →
    order.compare a b = compare ⟨keys ++ [idKey]⟩ a b
      ∧ (order.compare a b = .lt ↔ Before ⟨keys ++ [idKey]⟩ a b)

end SortOrder

/--
A list of entries is refused exactly if one of them stands for no field or two of them stand for the
same one. Otherwise it is resolved to an order without repeated fields that ends with the
identifier, to which its own names are resolved again, and which compares any two items of different
identifiers by all requested keys and then by the identifier.
-/
theorem Config.resolveSort_keeps {config : Config} (configured : config.registry = .ok registry)
    (nonempty : entries ≠ []) :
    ((∃ e, resolveSort registry entries = .error e) ↔ Unresolvable registry entries)
      ∧ ∀ order, resolveSort registry entries = .ok order → order.Keeps registry entries := by
  have named := Config.registry_named configured
  have listed : entries.isEmpty = false := by simpa using nonempty
  constructor
  · rw [← exists_error_resolveKeys_iff named]
    unfold resolveSort
    simp only [listed, Bool.false_eq_true, if_false]
    cases resolveKeys registry [] entries <;> simp [Except.map]
  · intro order resolved
    have registered := (SortOrder.Resolved.requested resolved).registered named
    unfold resolveSort at resolved
    simp only [listed, Bool.false_eq_true, if_false] at resolved
    obtain ⟨keys, found, rfl⟩ := exists_of_map_eq_ok resolved
    obtain ⟨requests, distinct⟩ := (resolveKeys_nil_eq_ok_iff named).1 found
    obtain ⟨front, direction, ended, kept, others⟩ := exists_endWithId keys
    have nodup : ((endWithId keys).map (·.field)).Nodup := by
      rw [ended, List.map_append, List.map_singleton, ← List.concat_eq_append]
      refine List.Nodup.concat ?_ ((kept.sublist.map _).nodup distinct)
      simpa using others
    constructor
    · exact nodup
    · exact ⟨front, direction, ended, others⟩
    · have own := (resolveKeys_nil_eq_ok_iff named).2
        ⟨SortOrder.requests_toEntries registered, nodup⟩
      have kept' : endWithId (endWithId keys) = endWithId keys := by
        rw [ended, endWithId_of_last others]
      have some' : SortOrder.toEntries ⟨endWithId keys⟩ ≠ [] := by
        simp [SortOrder.toEntries, ended]
      unfold resolveSort
      rw [if_neg (by simpa using some'), own]
      exact congrArg (fun keys => Except.ok (SortOrder.mk keys)) kept'
    · refine ⟨keys, requests, ?_⟩
      intro a b different
      have same := SortOrder.compare_endWithId different keys
      exact ⟨same, by rw [same, SortOrder.compare_eq_lt_iff]⟩

/-! ## An order by four keys -/

namespace Sample

/-- A list that names one field by its name and by its path. -/
def repeated : List SortBy :=
  [⟨"gsd", .ascending⟩, ⟨"datetime", .ascending⟩, ⟨"properties.gsd", .descending⟩]

/-- A list with the identifier in front of its last key. -/
def idInside : List SortBy :=
  [⟨"properties.datetime", .ascending⟩, ⟨"id", .descending⟩, ⟨"gsd", .ascending⟩]

/-- The order by the keys of that list up to the identifier. -/
def upToId : SortOrder :=
  ⟨[⟨FieldRegistry.temporalField, .ascending⟩, ⟨FieldRegistry.idField, .descending⟩]⟩

/-- The first list is refused, and of the second one the last key is dropped. -/
theorem resolveSort_keeps_idInside :
    (∃ e, resolveSort .builtin repeated = .error e)
      ∧ resolveSort .builtin idInside = .ok upToId
      ∧ upToId.Keeps .builtin idInside := by
  have configured : Config.unset.registry = .ok .builtin := rfl
  have resolved : resolveSort .builtin idInside = .ok upToId := rfl
  obtain ⟨refused, _⟩ := Config.resolveSort_keeps configured (show repeated ≠ [] by decide)
  obtain ⟨_, keeps⟩ := Config.resolveSort_keeps configured (show idInside ≠ [] by decide)
  refine ⟨refused.2 (Or.inr ⟨⟨"gsd", .ascending⟩, ⟨"properties.gsd", .descending⟩,
    .property "gsd" .float, by decide, ?_, ?_⟩), resolved, keeps upToId resolved⟩
  · exact FieldRegistry.builtin_named.resolve?_eq_some_iff.1 rfl
  · exact FieldRegistry.builtin_named.resolve?_eq_some_iff.1 rfl

end Sample

end CatalogSearch
