import CatalogSearch.Proofs.Json.Object
import CatalogSearch.Proofs.Projection.Tree

/-!
# The floor of a projection

Whatever a request includes and excludes, the defaults and the paths of its filters stay in a record
as they are. What it excludes away from them is gone, and nothing else changes: a value that is left
and is no object is the one of the record.

* `PathTree.exists_of_at?_keepIn`, `PathTree.at?_removeIn` : what is left at a row of keys;
* `Projection.floor_and_exclusion` : what a resolved projection keeps, removes and leaves alone.
-/

namespace CatalogSearch

/-! ## What is left at a row of keys -/

/-- The chosen part of a value. -/
def Selection.partOf : Selection → Json → Json
  | .whole, value => value
  | .nested children, value => PathTree.keepIn children value

/-- A chosen part that is no object is all of the value. -/
theorem Selection.partOf_eq_self {selection : Selection} {value : Json}
    (noObject : (selection.partOf value).isObject = false) : selection.partOf value = value := by
  cases selection with
  | whole => rfl
  | nested children =>
    cases value with
    | obj members => cases noObject
    | _ => rfl

namespace PathTree

variable {children : List (String × Selection)} {keys : List String} {value json : Json}

/-- What is kept at a row of keys is the chosen part of what stands there. -/
theorem exists_of_at?_keepIn (distinct : value.Distinct)
    (kept : (keepIn children value).at? keys = some json) :
    ∃ selection original, (Selection.nested children).at? keys = some selection
      ∧ value.at? keys = some original ∧ json = selection.partOf original := by
  induction keys generalizing children value with
  | nil => exact ⟨.nested children, value, rfl, rfl, (Option.some.inj kept).symm⟩
  | cons key keys ih =>
    cases value with
    | obj members =>
      rw [keepIn, Json.at?, Json.get?] at kept
      obtain ⟨member, found, kept⟩ := Option.bind_eq_some_iff.1 kept
      cases chosen : children.lookup key with
      | none =>
        rw [lookup_keepMembers_of_none chosen] at found
        cases found
      | some selection =>
        rw [Selection.at?_cons, chosen, Option.bind_some, Json.at?, Json.get?]
        cases selection with
        | whole =>
          rw [lookup_keepMembers_of_whole chosen] at found
          exact ⟨.whole, json, Selection.at?_whole keys,
            Option.bind_eq_some_iff.2 ⟨member, found, kept⟩, rfl⟩
        | nested below =>
          rw [lookup_keepMembers_of_nested chosen] at found
          obtain ⟨original, isThere, rfl⟩ := Option.map_eq_some_iff.1 found
          have there := Json.lookup_of_lookup_filter distinct.1 isThere
          rw [there]
          exact ih (Json.distinct_of_lookup distinct.2 there) kept
    | _ => cases kept

/-- What is chosen as a whole is kept as it is, if it is there. -/
theorem at?_keepIn_eq_of_whole (distinct : value.Distinct)
    (whole : (Selection.nested children).at? keys = some .whole) :
    (keepIn children value).at? keys = value.at? keys := by
  refine Option.ext fun json => ⟨fun kept => ?_, at?_keepIn_of_whole whole⟩
  obtain ⟨selection, original, chosen, found, rfl⟩ := exists_of_at?_keepIn distinct kept
  cases whole.symm.trans chosen
  exact found

/-- What is left at a row of keys after removing. -/
theorem at?_removeIn (children : List (String × Selection)) (value : Json) (keys : List String) :
    (removeIn children value).at? keys
      = match (Selection.nested children).at? keys with
        | none => value.at? keys
        | some .whole => none
        | some (.nested below) => (value.at? keys).map (removeIn below) := by
  induction keys generalizing children value with
  | nil => rfl
  | cons key keys ih =>
    rw [Selection.at?_cons]
    cases value with
    | obj members =>
      rw [removeIn, Json.at?, Json.at?, Json.get?, Json.get?, lookup_removeMembers]
      cases children.lookup key with
      | none => rfl
      | some selection =>
        cases selection with
        | whole => simp
        | nested below =>
          cases members.lookup key with
          | none =>
            simp only [Option.map_none, Option.bind_none, Option.bind_some]
            split <;> rfl
          | some member => exact ih below member
    | _ => split <;> rfl

/-- A value that is left after removing and is no object was there before. -/
theorem at?_of_at?_removeIn (left : (removeIn children value).at? keys = some json)
    (noObject : json.isObject = false) : value.at? keys = some json := by
  rw [at?_removeIn] at left
  split at left
  · exact left
  · cases left
  · obtain ⟨original, found, rfl⟩ := Option.map_eq_some_iff.1 left
    cases original with
    | obj members => cases noObject
    | _ => exact found

end PathTree

/-! ## Resolved projections -/

namespace Projection

variable {defaults filtered : StringSet} {fields : FieldsRequest} {path : String}
  {segments : List String} {record : Json}

/-- The paths that stay are included. -/
theorem mem_included_of_kept (kept : path ∈ defaults ∨ path ∈ filtered) :
    path ∈ (resolve defaults fields filtered).included := by
  rw [resolve, StringSet.mem_union, StringSet.mem_filter, StringSet.mem_union]
  rcases kept with isDefault | isFiltered
  · exact Or.inr ⟨Or.inr isDefault, by simp [isDefault]⟩
  · exact Or.inl isFiltered

/-- What is removed is what the request excludes, as far as it touches nothing that stays. -/
theorem mem_excluded_iff :
    path ∈ (resolve defaults fields filtered).excluded
      ↔ path ∈ fields.excluded
        ∧ ∀ kept, kept ∈ defaults ∨ kept ∈ filtered → pathsOverlap path kept = false := by
  rw [resolve, StringSet.mem_filter, Bool.not_eq_true', List.any_eq_false]
  simp only [List.mem_append, Bool.not_eq_true]
  rfl

/-- A projection removes nothing on the way to a path that stays, at it, or below it. -/
theorem excluded_at?_of_kept (kept : path ∈ defaults ∨ path ∈ filtered)
    (hsegments : PathTree.segments? path = some segments) :
    (PathTree.ofPaths (resolve defaults fields filtered).excluded.toList).selection.at? segments
      = none := by
  by_contra some
  obtain ⟨other, excluded, others, hothers, near⟩ :=
    (PathTree.isSome_at?_ofPaths (PathTree.segments_ne_nil hsegments)).1
      (Option.isSome_iff_ne_none.2 some)
  have overlap : pathsOverlap other path = true := by
    rw [pathsOverlap_iff, (PathTree.segments?_eq_some_iff.1 hothers).1,
      (PathTree.segments?_eq_some_iff.1 hsegments).1]
    exact near
  have apart := (mem_excluded_iff.1 excluded).2 path kept
  rw [overlap] at apart
  cases apart

/-- What stands at a path that stays is what stood there. -/
theorem at?_apply_of_kept (distinct : record.Distinct) (kept : path ∈ defaults ∨ path ∈ filtered)
    (hsegments : PathTree.segments? path = some segments) :
    ((resolve defaults fields filtered).apply record).at? segments = record.at? segments := by
  have whole : (PathTree.ofPaths
      (resolve defaults fields filtered).included.toList).selection.at? segments = some .whole :=
    PathTree.at?_ofPaths_eq_whole.2
      ⟨path, mem_included_of_kept kept, segments, hsegments, List.prefix_rfl⟩
  rw [apply, PathTree.remove, PathTree.at?_removeIn_of_none (excluded_at?_of_kept kept hsegments)]
  exact PathTree.at?_keepIn_eq_of_whole distinct whole

/-- Nothing stands at a path that is removed. -/
theorem at?_apply_of_removed {p : Projection} (removed : path ∈ p.excluded)
    (hsegments : PathTree.segments? path = some segments) :
    (p.apply record).at? segments = none := by
  have whole : (PathTree.ofPaths p.excluded.toList).selection.at? segments = some .whole :=
    PathTree.at?_ofPaths_eq_whole.2 ⟨path, removed, segments, hsegments, List.prefix_rfl⟩
  rw [PathTree.selection] at whole
  rw [apply, PathTree.remove, PathTree.at?_removeIn, whole]

/-- A value that is left and is no object is the one of the record. -/
theorem at?_of_at?_apply {p : Projection} {keys : List String} {value : Json}
    (distinct : record.Distinct) (left : (p.apply record).at? keys = some value)
    (noObject : value.isObject = false) : record.at? keys = some value := by
  have kept := PathTree.at?_of_at?_removeIn left noObject
  obtain ⟨selection, original, _, found, rfl⟩ := PathTree.exists_of_at?_keepIn distinct kept
  rwa [Selection.partOf_eq_self noObject]

/--
At the defaults and the paths of the filters a projected record is the record. At an excluded path
that is none of them, contains none and lies under none there is nothing. A value that is left and
is no object is that of the record.
-/
theorem floor_and_exclusion (defaults filtered : StringSet) (fields : FieldsRequest) {record : Json}
    (distinct : record.Distinct) :
    (∀ path, path ∈ defaults ∨ path ∈ filtered →
      ∀ segments, PathTree.segments? path = some segments →
        ((resolve defaults fields filtered).apply record).at? segments = record.at? segments)
    ∧ (∀ path ∈ fields.excluded,
      (∀ kept, kept ∈ defaults ∨ kept ∈ filtered →
        ¬ Text.splitOn '.' path <+: Text.splitOn '.' kept
          ∧ ¬ Text.splitOn '.' kept <+: Text.splitOn '.' path) →
      ∀ segments, PathTree.segments? path = some segments →
        ((resolve defaults fields filtered).apply record).at? segments = none)
    ∧ ∀ keys value, ((resolve defaults fields filtered).apply record).at? keys = some value →
        value.isObject = false → record.at? keys = some value := by
  refine ⟨fun path kept segments hsegments => at?_apply_of_kept distinct kept hsegments,
    fun path excluded apart segments hsegments => ?_,
    fun keys value left noObject => at?_of_at?_apply distinct left noObject⟩
  refine at?_apply_of_removed (mem_excluded_iff.2 ⟨excluded, fun kept stays => ?_⟩) hsegments
  obtain ⟨notAbove, notBelow⟩ := apart kept stays
  exact Bool.eq_false_iff.2 (mt pathsOverlap_iff.1 (not_or.2 ⟨notAbove, notBelow⟩))

end Projection

/-! ## Properties with and without their resolution -/

namespace Sample

/-- A record with two properties. -/
def measured : Json :=
  .obj [("id", .str "a"),
    ("properties", .obj [("datetime", .str "2024-01-01T00:00:00Z"), ("gsd", .int 10)])]

/-- A request for all properties that does not want them. -/
def unmeasuredFields : FieldsRequest where
  included := .ofList ["properties"]
  excluded := .ofList ["properties", "properties.gsd"]

/-- A record of which the identifier and the datetime are always returned. -/
def unmeasured : Json :=
  (Projection.resolve (.ofList ["id", "properties.datetime"]) unmeasuredFields .empty).apply
    measured

/-- The datetime stays although all properties are excluded, and the resolution is gone. -/
theorem floor_of_unmeasured :
    measured.Distinct
      ∧ unmeasured.at? ["properties", "datetime"] = some (.str "2024-01-01T00:00:00Z")
      ∧ unmeasured.at? ["properties", "gsd"] = none
      ∧ measured.at? ["id"] = some (.str "a") := by
  have distinct : measured.Distinct :=
    ⟨by decide, trivial, ⟨by decide, trivial, trivial, trivial⟩, trivial⟩
  obtain ⟨floor, exclusion, origin⟩ := Projection.floor_and_exclusion
    (.ofList ["id", "properties.datetime"]) .empty unmeasuredFields distinct
  refine ⟨distinct, floor "properties.datetime" (Or.inl (by decide)) _ (by decide), ?_, ?_⟩
  · refine exclusion "properties.gsd" (by decide) ?_ _ (by decide)
    rintro kept (isDefault | none)
    · have apart : ∀ kept ∈ StringSet.ofList ["id", "properties.datetime"],
          ¬ Text.splitOn '.' "properties.gsd" <+: Text.splitOn '.' kept
            ∧ ¬ Text.splitOn '.' kept <+: Text.splitOn '.' "properties.gsd" := by decide
      exact apart kept isDefault
    · cases none
  · exact origin ["id"] (.str "a") rfl rfl

end Sample

end CatalogSearch
