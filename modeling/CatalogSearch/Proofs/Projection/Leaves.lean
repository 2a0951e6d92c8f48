import CatalogSearch.Proofs.Projection.Floor

/-!
# The leaves of a projected record

A value in a record that is no object is a leaf. A projection keeps a leaf exactly if an included
path leads to it or to something that it lies in, and no excluded path does. It makes no new leaves,
and projecting a second time changes nothing.

* `StringSet.covers_iff_whole` : the leaves that a set of paths leads to, by its tree;
* `PathTree.isObject_of_at?_keepIn` : below what is chosen in parts only objects are kept;
* `PathTree.keepIn_removeIn` : keeping and removing may change places;
* `Projection.apply_apply` : projecting twice is projecting once;
* `Projection.selects_leaves` : which leaves are kept.
-/

namespace CatalogSearch

/-! ## Paths that lead to a place -/

/--
Whether a path of a set leads to a row of keys or to something on the way to it. A path with an
empty segment leads nowhere.
-/
def StringSet.Covers (paths : StringSet) (keys : List String) : Prop :=
  ∃ path ∈ paths, "" ∉ Text.splitOn '.' path ∧ Text.splitOn '.' path <+: keys

instance (paths : StringSet) (keys : List String) : Decidable (paths.Covers keys) :=
  inferInstanceAs (Decidable (∃ path ∈ paths.toList,
    "" ∉ Text.splitOn '.' path ∧ Text.splitOn '.' path <+: keys))

/-- The tree of a set of paths chooses as a whole what the paths lead to. -/
theorem StringSet.covers_iff_whole {paths : StringSet} {keys : List String} :
    paths.Covers keys ↔ (PathTree.ofPaths paths.toList).selection.at? keys = some .whole := by
  rw [PathTree.at?_ofPaths_eq_whole]
  constructor
  · rintro ⟨path, mem, noEmpty, leads⟩
    exact ⟨path, mem, _, PathTree.segments?_eq_some_iff.2 ⟨rfl, noEmpty⟩, leads⟩
  · rintro ⟨path, mem, segments, hsegments, leads⟩
    obtain ⟨rfl, noEmpty⟩ := PathTree.segments?_eq_some_iff.1 hsegments
    exact ⟨path, mem, noEmpty, leads⟩

namespace PathTree

/-! ## Objects that are kept -/

/-- What is found among the members that are objects is one. -/
theorem isObject_of_lookup_filter {members : List (String × Json)} {key : String} {value : Json}
    (found : (members.filter (·.2.isObject)).lookup key = some value) : value.isObject = true := by
  induction members with
  | nil => cases found
  | cons member members ih =>
    obtain ⟨name, first⟩ := member
    rw [List.filter_cons] at found
    split at found
    · next object =>
      rw [lookup_cons] at found
      split at found
      · cases found
        exact object
      · exact ih found
    · exact ih found

/-- Where an object is chosen in parts, nothing but objects is kept. -/
theorem isObject_of_at?_keepIn {children below : List (String × Selection)} {keys : List String}
    {value json : Json} (object : value.isObject = true)
    (parts : (Selection.nested children).at? keys = some (.nested below))
    (kept : (keepIn children value).at? keys = some json) : json.isObject = true := by
  induction keys generalizing children value with
  | nil =>
    cases value with
    | obj members =>
      cases kept
      rfl
    | _ => cases object
  | cons key keys ih =>
    cases value with
    | obj members =>
      rw [keepIn, Json.at?, Json.get?] at kept
      obtain ⟨member, found, kept⟩ := Option.bind_eq_some_iff.1 kept
      rw [Selection.at?_cons] at parts
      obtain ⟨selection, chosen, parts⟩ := Option.bind_eq_some_iff.1 parts
      cases selection with
      | whole =>
        rw [Selection.at?_whole] at parts
        cases parts
      | nested inner =>
        rw [lookup_keepMembers_of_nested chosen] at found
        obtain ⟨original, isThere, rfl⟩ := Option.map_eq_some_iff.1 found
        exact ih (isObject_of_lookup_filter isThere) parts kept
    | _ => cases object

/-- The chosen part of an object is an object. -/
@[simp] theorem isObject_keepIn (children : List (String × Selection)) (value : Json) :
    (keepIn children value).isObject = value.isObject := by
  cases value <;> rfl

/-- What is left of an object is an object. -/
@[simp] theorem isObject_removeIn (children : List (String × Selection)) (value : Json) :
    (removeIn children value).isObject = value.isObject := by
  cases value <;> rfl

/-! ## Keeping and removing twice -/

-- Whether a member stays depends on its name and on whether it is an object, and neither is changed
-- by what is kept or removed below it. So the members can be taken one by one.

mutual

/-- Keeping a second time changes nothing. -/
theorem keepIn_keepIn (children : List (String × Selection)) :
    ∀ value, keepIn children (keepIn children value) = keepIn children value
  | .obj members => congrArg Json.obj (keepMembers_keepMembers children members)
  | .null | .bool _ | .int _ | .float _ | .str _ | .arr _ => rfl

/-- Keeping members a second time changes nothing. -/
theorem keepMembers_keepMembers (children : List (String × Selection)) :
    ∀ members, keepMembers children (keepMembers children members) = keepMembers children members
  | [] => rfl
  | (name, value) :: members => by
    have rest := keepMembers_keepMembers children members
    rw [keepMembers]
    cases chosen : children.lookup name with
    | none => exact rest
    | some selection =>
      cases selection with
      | whole => simp only [keepMembers, chosen, rest]
      | nested below =>
        have inner := keepIn_keepIn below value
        by_cases object : value.isObject = true
        · simp only [object, if_true, keepMembers, chosen, isObject_keepIn, inner, rest]
        · simp only [object, if_false, rest, Bool.false_eq_true]

end

mutual

/-- Removing a second time changes nothing. -/
theorem removeIn_removeIn (children : List (String × Selection)) :
    ∀ value, removeIn children (removeIn children value) = removeIn children value
  | .obj members => congrArg Json.obj (removeMembers_removeMembers children members)
  | .null | .bool _ | .int _ | .float _ | .str _ | .arr _ => rfl

/-- Removing members a second time changes nothing. -/
theorem removeMembers_removeMembers (children : List (String × Selection)) :
    ∀ members,
      removeMembers children (removeMembers children members) = removeMembers children members
  | [] => rfl
  | (name, value) :: members => by
    have rest := removeMembers_removeMembers children members
    rw [removeMembers]
    cases chosen : children.lookup name with
    | none => simp only [removeMembers, chosen, rest]
    | some selection =>
      cases selection with
      | whole => exact rest
      | nested below =>
        have inner := removeIn_removeIn below value
        simp only [removeMembers, chosen, inner, rest]

end

mutual

/-- Keeping and removing may change places. -/
theorem keepIn_removeIn (kept removed : List (String × Selection)) :
    ∀ value, keepIn kept (removeIn removed value) = removeIn removed (keepIn kept value)
  | .obj members => congrArg Json.obj (keepMembers_removeMembers kept removed members)
  | .null | .bool _ | .int _ | .float _ | .str _ | .arr _ => rfl

/-- Keeping and removing members may change places. -/
theorem keepMembers_removeMembers (kept removed : List (String × Selection)) :
    ∀ members, keepMembers kept (removeMembers removed members)
      = removeMembers removed (keepMembers kept members)
  | [] => rfl
  | (name, value) :: members => by
    have rest := keepMembers_removeMembers kept removed members
    rw [removeMembers, keepMembers]
    cases toKeep : kept.lookup name with
    | none =>
      cases toRemove : removed.lookup name with
      | none => simp only [keepMembers, toKeep, rest]
      | some unwanted => cases unwanted <;> simp only [keepMembers, toKeep, rest]
    | some wanted =>
      cases wanted with
      | whole =>
        cases toRemove : removed.lookup name with
        | none => simp only [keepMembers, toKeep, removeMembers, toRemove, rest]
        | some unwanted =>
          cases unwanted <;> simp only [keepMembers, toKeep, removeMembers, toRemove, rest]
      | nested inside =>
        by_cases object : value.isObject = true
        · cases toRemove : removed.lookup name with
          | none =>
            simp only [keepMembers, toKeep, removeMembers, toRemove, object, if_true, rest]
          | some unwanted =>
            cases unwanted with
            | whole => simp only [removeMembers, toRemove, object, if_true, rest]
            | nested below =>
              have inner := keepIn_removeIn inside below value
              simp only [keepMembers, toKeep, removeMembers, toRemove, isObject_removeIn, object,
                if_true, inner, rest]
        · cases toRemove : removed.lookup name with
          | none =>
            simp only [keepMembers, toKeep, object, if_false, rest, Bool.false_eq_true]
          | some unwanted =>
            cases unwanted <;>
              simp only [keepMembers, toKeep, isObject_removeIn, object, if_false, rest,
                Bool.false_eq_true]

end

/-! ## Names of what is left -/

/-- The names of kept members are some of the names, in their order. -/
theorem names_keepMembers (children : List (String × Selection)) (members : List (String × Json)) :
    ((keepMembers children members).map (·.1)).Sublist (members.map (·.1)) := by
  induction members with
  | nil => exact .slnil
  | cons member members ih =>
    obtain ⟨name, value⟩ := member
    rw [keepMembers]
    split
    · exact ih.cons _
    · exact ih.cons_cons _
    · split
      · exact ih.cons_cons _
      · exact ih.cons _

/-- The names of members that are not removed are some of the names, in their order. -/
theorem names_removeMembers (children : List (String × Selection))
    (members : List (String × Json)) :
    ((removeMembers children members).map (·.1)).Sublist (members.map (·.1)) := by
  induction members with
  | nil => exact .slnil
  | cons member members ih =>
    obtain ⟨name, value⟩ := member
    rw [removeMembers]
    split
    · exact ih.cons_cons _
    · exact ih.cons _
    · exact ih.cons_cons _

mutual

/-- Keeping a part of a value repeats no names. -/
theorem distinct_keepIn (children : List (String × Selection)) :
    ∀ value : Json, value.Distinct → (keepIn children value).Distinct
  | .obj members, distinct =>
    ⟨distinct.1.sublist (names_keepMembers children members),
      distinct_keepMembers children members distinct.2⟩
  | .null, _ | .bool _, _ | .int _, _ | .float _, _ | .str _, _ => trivial
  | .arr _, distinct => distinct

/-- Keeping a part of members repeats no names in their values. -/
theorem distinct_keepMembers (children : List (String × Selection)) :
    ∀ members, Json.MembersDistinct members → Json.MembersDistinct (keepMembers children members)
  | [], _ => trivial
  | (name, value) :: members, distinct => by
    have rest := distinct_keepMembers children members distinct.2
    rw [keepMembers]
    split
    · exact rest
    · exact ⟨distinct.1, rest⟩
    · next below _ =>
      split
      · exact ⟨distinct_keepIn below value distinct.1, rest⟩
      · exact rest

end

mutual

/-- Removing a part of a value repeats no names. -/
theorem distinct_removeIn (children : List (String × Selection)) :
    ∀ value : Json, value.Distinct → (removeIn children value).Distinct
  | .obj members, distinct =>
    ⟨distinct.1.sublist (names_removeMembers children members),
      distinct_removeMembers children members distinct.2⟩
  | .null, _ | .bool _, _ | .int _, _ | .float _, _ | .str _, _ => trivial
  | .arr _, distinct => distinct

/-- Removing a part of members repeats no names in their values. -/
theorem distinct_removeMembers (children : List (String × Selection)) :
    ∀ members, Json.MembersDistinct members →
      Json.MembersDistinct (removeMembers children members)
  | [], _ => trivial
  | (name, value) :: members, distinct => by
    have rest := distinct_removeMembers children members distinct.2
    rw [removeMembers]
    split
    · exact ⟨distinct.1, rest⟩
    · exact rest
    · next below _ => exact ⟨distinct_removeIn below value distinct.1, rest⟩

end

end PathTree

/-! ## Projections -/

namespace Projection

variable {p : Projection} {members : List (String × Json)} {keys : List String} {leaf : Json}

/-- Projecting twice is projecting once. -/
theorem apply_apply (p : Projection) (record : Json) :
    p.apply (p.apply record) = p.apply record := by
  simp only [apply, PathTree.keep, PathTree.remove]
  rw [PathTree.keepIn_removeIn, PathTree.removeIn_removeIn, PathTree.keepIn_keepIn]

/-- A projected record repeats no names. -/
theorem distinct_apply (p : Projection) {record : Json} (distinct : record.Distinct) :
    (p.apply record).Distinct :=
  PathTree.distinct_removeIn _ _ (PathTree.distinct_keepIn _ _ distinct)

/-- A leaf is left after removing exactly if no removed path leads to it. -/
theorem at?_remove_leaf {paths : StringSet} {value : Json} (noObject : leaf.isObject = false)
    (found : value.at? keys = some leaf) :
    ((PathTree.ofPaths paths.toList).remove value).at? keys = some leaf ↔ ¬ paths.Covers keys := by
  rw [StringSet.covers_iff_whole, PathTree.selection, PathTree.remove, PathTree.at?_removeIn]
  cases (Selection.nested (PathTree.ofPaths paths.toList).children).at? keys with
  | none => simp [found]
  | some selection =>
    cases selection with
    | whole => simp
    | nested below =>
      -- Nothing can be removed below what is no object.
      have leafLeft : PathTree.removeIn below leaf = leaf := by
        cases leaf with
        | obj members => cases noObject
        | _ => rfl
      simp [found, leafLeft]

/-- Of the leaves of an object those are kept that an included path leads to. -/
theorem at?_keep_leaf {paths : StringSet} (distinct : (Json.obj members).Distinct)
    (noObject : leaf.isObject = false) :
    ((PathTree.ofPaths paths.toList).keep (.obj members)).at? keys = some leaf
      ↔ (Json.obj members).at? keys = some leaf ∧ paths.Covers keys := by
  rw [StringSet.covers_iff_whole]
  constructor
  · intro kept
    obtain ⟨selection, original, chosen, found, same⟩ :=
      PathTree.exists_of_at?_keepIn distinct kept
    subst same
    rw [Selection.partOf_eq_self noObject]
    refine ⟨found, ?_⟩
    cases selection with
    | whole => exact chosen
    | nested below =>
      rw [PathTree.isObject_of_at?_keepIn rfl chosen kept] at noObject
      cases noObject
  · rintro ⟨found, whole⟩
    exact PathTree.at?_keepIn_of_whole whole found

/-- The leaves of a projected record are those that are included and not excluded. -/
theorem at?_apply_leaf (distinct : (Json.obj members).Distinct) (noObject : leaf.isObject = false) :
    (p.apply (.obj members)).at? keys = some leaf
      ↔ (Json.obj members).at? keys = some leaf
        ∧ p.included.Covers keys ∧ ¬ p.excluded.Covers keys := by
  rw [apply]
  constructor
  · intro left
    have kept := PathTree.at?_of_at?_removeIn left noObject
    obtain ⟨found, included⟩ := (at?_keep_leaf distinct noObject).1 kept
    exact ⟨found, included, (at?_remove_leaf noObject kept).1 left⟩
  · rintro ⟨found, included, notExcluded⟩
    have kept := (at?_keep_leaf distinct noObject).2 ⟨found, included⟩
    exact (at?_remove_leaf noObject kept).2 notExcluded

/-- Where something is left there was something before, an object exactly if it is one now. -/
theorem exists_of_at?_apply {record value : Json} (distinct : record.Distinct)
    (left : (p.apply record).at? keys = some value) :
    ∃ original, record.at? keys = some original ∧ value.isObject = original.isObject := by
  have fromKept : ∀ json, ((PathTree.ofPaths p.included.toList).keep record).at? keys = some json →
      ∃ original, record.at? keys = some original ∧ json.isObject = original.isObject := by
    intro json kept
    obtain ⟨selection, original, _, found, rfl⟩ := PathTree.exists_of_at?_keepIn distinct kept
    refine ⟨original, found, ?_⟩
    cases selection with
    | whole => rfl
    | nested children => exact PathTree.isObject_keepIn children original
  rw [apply, PathTree.remove, PathTree.at?_removeIn] at left
  split at left
  · exact fromKept value left
  · cases left
  · next below _ =>
    obtain ⟨json, kept, rfl⟩ := Option.map_eq_some_iff.1 left
    rw [PathTree.isObject_removeIn]
    exact fromKept json kept

/--
A leaf of a record is kept, as it is, if an included path leads to it or to something that it lies
in and no excluded path does; otherwise nothing stands in its place. There are no other leaves, no
name stands twice in an object that is left, and projecting once more changes nothing.
-/
theorem selects_leaves (p : Projection) {members : List (String × Json)}
    (distinct : (Json.obj members).Distinct) :
    (∀ keys leaf, (Json.obj members).at? keys = some leaf → leaf.isObject = false →
      (p.included.Covers keys ∧ ¬ p.excluded.Covers keys →
        (p.apply (.obj members)).at? keys = some leaf)
      ∧ (¬ (p.included.Covers keys ∧ ¬ p.excluded.Covers keys) →
        (p.apply (.obj members)).at? keys = none))
    ∧ (∀ keys leaf, (p.apply (.obj members)).at? keys = some leaf → leaf.isObject = false →
        (Json.obj members).at? keys = some leaf)
    ∧ (p.apply (.obj members)).Distinct
    ∧ p.apply (p.apply (.obj members)) = p.apply (.obj members) := by
  refine ⟨fun keys leaf found noObject => ⟨fun chosen => ?_, fun notChosen => ?_⟩,
    fun keys leaf left noObject => ((at?_apply_leaf distinct noObject).1 left).1,
    distinct_apply p distinct, apply_apply p _⟩
  · exact (at?_apply_leaf distinct noObject).2 ⟨found, chosen⟩
  · by_contra something
    obtain ⟨value, left⟩ := Option.ne_none_iff_exists'.1 something
    -- What is left is no object either, so it is a leaf of its own right.
    obtain ⟨original, found', same⟩ := exists_of_at?_apply distinct left
    cases found.symm.trans found'
    exact notChosen ((at?_apply_leaf distinct (same.trans noObject)).1 left).2

end Projection

/-! ## Paths that overlap at several depths -/

namespace Sample

/-- A record with a number where paths expect an object, and a name with a point in it. -/
def scene : Json :=
  .obj [("a", .obj [("b", .arr [.int 1]), ("c", .obj [("d", .null), ("e", .bool true)]),
    ("c.d", .str "s")]), ("f", .int 5)]

/-- Twice all of `a`, and something below a number; not `a.c.d`. The path `a.` leads nowhere. -/
def sceneProjection : Projection where
  included := .ofList ["a", "a.b", "f.g"]
  excluded := .ofList ["a.", "a.b.x", "a.c.d"]

/-- The leaf at `a.c.d` and the number at `f` are gone, all others stay. -/
theorem leaves_of_scene :
    scene.Distinct
      ∧ (sceneProjection.apply scene).at? ["a", "b"] = some (.arr [.int 1])
      ∧ (sceneProjection.apply scene).at? ["a", "c", "d"] = none
      ∧ (sceneProjection.apply scene).at? ["a", "c", "e"] = some (.bool true)
      ∧ (sceneProjection.apply scene).at? ["a", "c.d"] = some (.str "s")
      ∧ (sceneProjection.apply scene).at? ["f"] = none := by
  have distinct : scene.Distinct :=
    ⟨by decide, ⟨by decide, ⟨trivial, trivial⟩, ⟨by decide, trivial, trivial, trivial⟩, trivial,
      trivial⟩, trivial, trivial⟩
  obtain ⟨leaves, _⟩ := Projection.selects_leaves sceneProjection distinct
  exact ⟨distinct,
    (leaves ["a", "b"] _ rfl rfl).1 (by decide),
    (leaves ["a", "c", "d"] _ rfl rfl).2 (by decide),
    (leaves ["a", "c", "e"] _ rfl rfl).1 (by decide),
    (leaves ["a", "c.d"] _ rfl rfl).1 (by decide),
    (leaves ["f"] _ rfl rfl).2 (by decide)⟩

end Sample

end CatalogSearch
