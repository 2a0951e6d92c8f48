import CatalogSearch.Projection
import CatalogSearch.Proofs.Field.Place
import Mathlib.Data.List.Infix

/-!
# Path trees

A tree of paths answers two questions about a row of keys: whether everything at its end is chosen,
and whether anything on the way to it or below it is. Both answers depend on the set of paths alone.
What a tree keeps of a record and what it removes can be read off them.

* `pathsOverlap_iff` : paths overlap exactly if the segments of one begin with those of the other;
* `PathTree.at?_ofPaths_eq_whole`, `PathTree.isSome_at?_ofPaths` : the two questions;
* `PathTree.at?_keepIn_of_whole`, `PathTree.at?_keepIn_of_none` : what is kept;
* `PathTree.at?_removeIn_of_none` : what is not removed.
-/

namespace CatalogSearch

/-! ## Overlapping paths -/

/-- A row of texts put together in two parts. -/
theorem intercalate_append {sep : Char} {xs ys : List (List Char)} (hxs : xs ≠ []) (hys : ys ≠ []) :
    [sep].intercalate (xs ++ ys) = [sep].intercalate xs ++ sep :: [sep].intercalate ys := by
  induction xs with
  | nil => exact absurd rfl hxs
  | cons x xs ih =>
    cases xs with
    | nil =>
      rw [List.singleton_append, List.intercalate_cons_of_ne_nil hys, List.intercalate_singleton,
        List.append_assoc, List.singleton_append]
    | cons next xs =>
      rw [List.cons_append, List.cons_append, List.intercalate_cons_cons, ← List.cons_append,
        ih (List.cons_ne_nil _ _), List.intercalate_cons_cons]
      simp only [List.append_assoc]

/-- The pieces of one text begin with those of another if a separator follows the other in it. -/
theorem splitChars_prefix_iff {sep : Char} {cs ds : List Char} :
    Text.splitChars sep cs <+: Text.splitChars sep ds
      ↔ ds = cs ∨ ∃ rest, ds = cs ++ sep :: rest := by
  constructor
  · rintro ⟨pieces, split⟩
    rw [← Text.intercalate_splitChars sep cs, ← Text.intercalate_splitChars sep ds, ← split]
    by_cases none : pieces = []
    · exact Or.inl (by rw [none, List.append_nil])
    · exact Or.inr ⟨_, intercalate_append (Text.splitChars_ne_nil sep cs) none⟩
  · rintro (rfl | ⟨rest, rfl⟩)
    · exact List.prefix_rfl
    · rw [Text.splitChars_append]
      exact List.prefix_append _ _

/-- A path lies below another if it goes on behind it with a point. -/
theorem liesBelow_iff {path parent : String} :
    liesBelow path parent = true ↔ ∃ rest, path.toList = parent.toList ++ '.' :: rest := by
  simp only [liesBelow, Option.isSome_iff_exists, Option.bind_eq_some_iff,
    Text.after?_eq_some_iff]
  constructor
  · rintro ⟨rest, point, rfl, rfl⟩
    exact ⟨rest.toList, by simp⟩
  · rintro ⟨rest, chars⟩
    have behind : String.ofList ('.' :: rest) = "." ++ String.ofList rest := by
      simp
    refine ⟨String.ofList rest, String.ofList ('.' :: rest), ?_, behind⟩
    rw [← String.toList_inj, chars, String.toList_append, String.toList_ofList]

/-- The segments of a path begin with those of another if it is the other one or lies below it. -/
theorem splitOn_prefix_iff {path parent : String} :
    Text.splitOn '.' parent <+: Text.splitOn '.' path
      ↔ path = parent ∨ liesBelow path parent = true := by
  rw [Text.splitOn, Text.splitOn,
    List.prefix_map_iff_of_injective fun _ _ same => String.ofList_injective same,
    splitChars_prefix_iff, liesBelow_iff, String.toList_inj]

/-- Two paths overlap exactly if the segments of one begin with those of the other. -/
theorem pathsOverlap_iff {a b : String} :
    pathsOverlap a b = true
      ↔ Text.splitOn '.' a <+: Text.splitOn '.' b ∨ Text.splitOn '.' b <+: Text.splitOn '.' a := by
  rw [splitOn_prefix_iff, splitOn_prefix_iff]
  simp only [pathsOverlap, Bool.or_eq_true, decide_eq_true_eq]
  constructor
  · rintro ((same | below) | below)
    · exact Or.inr (Or.inl same)
    · exact Or.inl (Or.inr below)
    · exact Or.inr (Or.inr below)
  · rintro ((same | below) | same | below)
    · exact Or.inl (Or.inl same.symm)
    · exact Or.inl (Or.inr below)
    · exact Or.inl (Or.inl same)
    · exact Or.inr below

/-! ## Selections -/

/-- What is chosen at a row of keys: everything, or only what is chosen below it. -/
def Selection.at? : Selection → List String → Option Selection
  | .whole, _ => some .whole
  | .nested children, [] => some (.nested children)
  | .nested children, key :: keys => (children.lookup key).bind (·.at? keys)

/-- Below what is chosen as a whole everything is. -/
@[simp] theorem Selection.at?_whole (keys : List String) :
    Selection.whole.at? keys = some .whole := by
  cases keys <;> rfl

/-- What is chosen below a key is looked for there. -/
theorem Selection.at?_cons (children : List (String × Selection)) (key : String)
    (keys : List String) :
    (nested children).at? (key :: keys) = (children.lookup key).bind (·.at? keys) :=
  rfl

/-- What is chosen where an entry was written. -/
theorem Selection.at?_insertEntry (key other : String) (selection : Selection)
    (children : List (String × Selection)) (keys : List String) :
    (nested (insertEntry key selection children)).at? (other :: keys)
      = if other = key then selection.at? keys else (nested children).at? (other :: keys) := by
  rw [at?_cons, at?_cons, lookup_insertEntry]
  split <;> rfl

namespace PathTree

/-! ## Segments -/

/-- A path has segments if none of its pieces is empty. -/
theorem segments?_eq_some_iff {path : String} {segments : List String} :
    segments? path = some segments ↔ Text.splitOn '.' path = segments ∧ "" ∉ segments := by
  simp only [segments?, List.contains_eq_mem, decide_eq_true_eq, Option.ite_none_left_eq_some,
    Option.some.injEq]
  constructor
  · rintro ⟨noEmpty, rfl⟩
    exact ⟨rfl, noEmpty⟩
  · rintro ⟨rfl, noEmpty⟩
    exact ⟨noEmpty, rfl⟩

/-- A path has at least one segment. -/
theorem segments_ne_nil {path : String} {segments : List String}
    (h : segments? path = some segments) : segments ≠ [] := by
  obtain ⟨rfl, _⟩ := segments?_eq_some_iff.1 h
  exact mt List.map_eq_nil_iff.1 (Text.splitChars_ne_nil _ _)

/-- Adding a path whose first key is new. -/
theorem insertPath_of_none {key next : String} {rest : List String}
    {children : List (String × Selection)} (h : children.lookup key = none) :
    insertPath (key :: next :: rest) children
      = insertEntry key (.nested (insertPath (next :: rest) [])) children := by
  rw [insertPath, h]
  exact List.cons_ne_nil _ _

/-- Adding a path whose first key is chosen as a whole. -/
theorem insertPath_of_whole {key next : String} {rest : List String}
    {children : List (String × Selection)} (h : children.lookup key = some .whole) :
    insertPath (key :: next :: rest) children = children := by
  rw [insertPath, h]
  exact List.cons_ne_nil _ _

/-- Adding a path that goes on below its first key. -/
theorem insertPath_of_nested {key next : String} {rest : List String}
    {children below : List (String × Selection)} (h : children.lookup key = some (.nested below)) :
    insertPath (key :: next :: rest) children
      = insertEntry key (.nested (insertPath (next :: rest) below)) children := by
  rw [insertPath, h]
  exact List.cons_ne_nil _ _

/-- Adding a path changes nothing below other first keys. -/
theorem at?_insertPath_of_ne {key other : String} (h : other ≠ key) {path keys : List String}
    {children : List (String × Selection)} :
    (Selection.nested (insertPath (key :: path) children)).at? (other :: keys)
      = (Selection.nested children).at? (other :: keys) := by
  cases path with
  | nil => rw [insertPath, Selection.at?_insertEntry, if_neg h]
  | cons next rest =>
    cases found : children.lookup key with
    | none => rw [insertPath_of_none found, Selection.at?_insertEntry, if_neg h]
    | some selection =>
      cases selection with
      | whole => rw [insertPath_of_whole found]
      | nested below => rw [insertPath_of_nested found, Selection.at?_insertEntry, if_neg h]

/-- After a path was added everything is chosen where it was before, and from the path on. -/
theorem at?_insertPath_eq_whole {path keys : List String} (hpath : path ≠ [])
    {children : List (String × Selection)} :
    (Selection.nested (insertPath path children)).at? keys = some .whole
      ↔ (Selection.nested children).at? keys = some .whole ∨ path <+: keys := by
  induction path generalizing children keys with
  | nil => exact absurd rfl hpath
  | cons key path ih =>
    cases keys with
    | nil => simp [Selection.at?]
    | cons other keys =>
      by_cases same : other = key
      · subst same
        rw [List.cons_prefix_cons, Selection.at?_cons children]
        cases path with
        | nil => simp [insertPath, Selection.at?_insertEntry]
        | cons next rest =>
          have ih := @ih keys (List.cons_ne_nil next rest)
          cases found : children.lookup other with
          | none =>
            have nothing : (Selection.nested []).at? keys ≠ some .whole := by
              cases keys <;> simp [Selection.at?]
            simp [insertPath_of_none found, Selection.at?_insertEntry, ih, nothing]
          | some selection =>
            cases selection with
            | whole => simp [insertPath_of_whole found, Selection.at?_cons, found]
            | nested below => simp [insertPath_of_nested found, Selection.at?_insertEntry, ih]
      · -- Nothing changes below other keys.
        have elsewhere : (Selection.nested (insertPath (key :: path) children)).at? (other :: keys)
            = (Selection.nested children).at? (other :: keys) := at?_insertPath_of_ne same
        rw [elsewhere, List.cons_prefix_cons]
        simp [Ne.symm same]

/-- After a path was added something is chosen where it was before, on the path, and from it on. -/
theorem isSome_at?_insertPath {path keys : List String} (hpath : path ≠ [])
    {children : List (String × Selection)} :
    ((Selection.nested (insertPath path children)).at? keys).isSome
      ↔ ((Selection.nested children).at? keys).isSome ∨ path <+: keys ∨ keys <+: path := by
  induction path generalizing children keys with
  | nil => exact absurd rfl hpath
  | cons key path ih =>
    cases keys with
    | nil => simp [Selection.at?]
    | cons other keys =>
      rw [List.cons_prefix_cons, List.cons_prefix_cons]
      by_cases same : other = key
      · subst same
        rw [Selection.at?_cons children]
        cases path with
        | nil => simp [insertPath, Selection.at?_insertEntry]
        | cons next rest =>
          have ih := @ih keys (List.cons_ne_nil next rest)
          cases found : children.lookup other with
          | none =>
            have start : ((Selection.nested []).at? keys).isSome ↔ keys = [] := by
              cases keys <;> simp [Selection.at?]
            have onPath : keys = [] → keys <+: next :: rest := fun none => none ▸ List.nil_prefix
            simp only [insertPath_of_none found, Selection.at?_insertEntry, if_true, true_and,
              Option.bind_none, Option.isSome_none, Bool.false_eq_true, false_or]
            rw [ih, start]
            exact or_iff_right_of_imp fun none => Or.inr (onPath none)
          | some selection =>
            cases selection with
            | whole => simp [insertPath_of_whole found, Selection.at?_cons, found]
            | nested below => simp [insertPath_of_nested found, Selection.at?_insertEntry, ih]
      · simp [at?_insertPath_of_ne same, same, Ne.symm same]

/-- The selection of a tree. -/
def selection (tree : PathTree) : Selection :=
  .nested tree.children

/--
If a property of trees holds after a path was added exactly where it held before or the path has
some property of its own, then it holds of a tree exactly if one of its paths has that.
-/
theorem ofPaths_iff {P : List (String × Selection) → Prop} {Q : List String → Prop}
    (step : ∀ path children, path ≠ [] → (P (insertPath path children) ↔ P children ∨ Q path))
    (paths : List String) :
    P (ofPaths paths).children
      ↔ P [] ∨ ∃ path ∈ paths, ∃ segments, segments? path = some segments ∧ Q segments := by
  suffices all : ∀ children,
      P ((paths.filterMap segments?).foldl (fun children path => insertPath path children) children)
        ↔ P children ∨ ∃ path ∈ paths, ∃ segments, segments? path = some segments ∧ Q segments from
    all []
  induction paths with
  | nil => simp
  | cons path paths ih =>
    intro children
    cases hsegments : segments? path with
    | none => simp [hsegments, ih]
    | some segments =>
      rw [List.filterMap_cons, hsegments, List.foldl_cons, ih,
        step segments children (segments_ne_nil hsegments)]
      simp [hsegments, or_assoc]

/-- A tree chooses everything at and below the paths that it is made of. -/
theorem at?_ofPaths_eq_whole {paths keys : List String} :
    (ofPaths paths).selection.at? keys = some .whole
      ↔ ∃ path ∈ paths, ∃ segments, segments? path = some segments ∧ segments <+: keys := by
  have start : (Selection.nested []).at? keys ≠ some .whole := by
    cases keys <;> simp [Selection.at?]
  have made := @ofPaths_iff (fun children => (Selection.nested children).at? keys = some .whole)
    (· <+: keys) (fun _ _ nonempty => at?_insertPath_eq_whole nonempty) paths
  exact made.trans (or_iff_right start)

/-- A tree chooses something on the paths that it is made of, at them, and below them. -/
theorem isSome_at?_ofPaths {paths keys : List String} (hkeys : keys ≠ []) :
    ((ofPaths paths).selection.at? keys).isSome
      ↔ ∃ path ∈ paths, ∃ segments, segments? path = some segments
        ∧ (segments <+: keys ∨ keys <+: segments) := by
  have start : (Selection.nested []).at? keys = none := by
    obtain ⟨key, rest, rfl⟩ := List.exists_cons_of_ne_nil hkeys
    rfl
  have made := @ofPaths_iff (fun children => ((Selection.nested children).at? keys).isSome)
    (fun path => path <+: keys ∨ keys <+: path) (fun _ _ nonempty => isSome_at?_insertPath nonempty)
    paths
  exact made.trans (or_iff_right (by simp [start]))

/-! ## Records -/

section Records

variable {children below : List (String × Selection)} {members : List (String × Json)}
  {key name : String}

/-- What is kept of a member does not depend on members of other names. -/
theorem lookup_keepMembers_cons_of_ne (h : key ≠ name) (value : Json) :
    (keepMembers children ((name, value) :: members)).lookup key
      = (keepMembers children members).lookup key := by
  rw [keepMembers]
  split
  · rfl
  · rw [lookup_cons, if_neg h]
  · split
    · rw [lookup_cons, if_neg h]
    · rfl

/-- A member that is not chosen is not kept. -/
theorem lookup_keepMembers_of_none (h : children.lookup key = none) :
    (keepMembers children members).lookup key = none := by
  induction members with
  | nil => rfl
  | cons member members ih =>
    obtain ⟨name, value⟩ := member
    by_cases same : key = name
    · subst same
      rw [keepMembers, h]
      exact ih
    · rw [lookup_keepMembers_cons_of_ne same, ih]

/-- A member that is chosen as a whole is kept as it is. -/
theorem lookup_keepMembers_of_whole (h : children.lookup key = some .whole) :
    (keepMembers children members).lookup key = members.lookup key := by
  induction members with
  | nil => rfl
  | cons member members ih =>
    obtain ⟨name, value⟩ := member
    by_cases same : key = name
    · subst same
      rw [keepMembers, h]
      simp only [lookup_cons, if_true]
    · rw [lookup_keepMembers_cons_of_ne same, ih, lookup_cons, if_neg same]

/-- Of a member below which something is chosen that is kept, if the member is an object. -/
theorem lookup_keepMembers_of_nested (h : children.lookup key = some (.nested below)) :
    (keepMembers children members).lookup key
      = ((members.filter (·.2.isObject)).lookup key).map (keepIn below) := by
  induction members with
  | nil => rfl
  | cons member members ih =>
    obtain ⟨name, value⟩ := member
    rw [List.filter_cons]
    by_cases same : key = name
    · subst same
      rw [keepMembers, h]
      by_cases object : value.isObject = true
      · simp only [object, if_true, lookup_cons, Option.map_some]
      · simp only [object, if_false, ih, Bool.false_eq_true]
    · rw [lookup_keepMembers_cons_of_ne same, ih]
      split
      · rw [lookup_cons, if_neg same]
      · rfl

/-- A member that is an object is found among those. -/
theorem lookup_filter_isObject {value : Json} (found : members.lookup key = some value)
    (object : value.isObject = true) :
    (members.filter (·.2.isObject)).lookup key = some value := by
  induction members with
  | nil => cases found
  | cons member members ih =>
    obtain ⟨name, other⟩ := member
    rw [lookup_cons] at found
    by_cases same : key = name
    · rw [if_pos same] at found
      cases found
      rw [List.filter_cons, if_pos object, lookup_cons, if_pos same]
    · rw [if_neg same] at found
      rw [List.filter_cons]
      split
      · rw [lookup_cons, if_neg same, ih found]
      · exact ih found

/-- What is found of a member after removing. -/
theorem lookup_removeMembers (children : List (String × Selection)) (members : List (String × Json))
    (key : String) :
    (removeMembers children members).lookup key
      = match children.lookup key with
        | none => members.lookup key
        | some .whole => none
        | some (.nested below) => (members.lookup key).map (removeIn below) := by
  induction members with
  | nil =>
    rw [removeMembers]
    split <;> rfl
  | cons member members ih =>
    obtain ⟨name, value⟩ := member
    by_cases same : key = name
    · subst same
      rw [removeMembers]
      cases found : children.lookup key with
      | none => simp only [lookup_cons, if_true]
      | some selection =>
        rw [found] at ih
        cases selection with
        | whole => exact ih
        | nested below => simp only [lookup_cons, if_true, Option.map_some]
    · have rest : (removeMembers children ((name, value) :: members)).lookup key
          = (removeMembers children members).lookup key := by
        rw [removeMembers]
        split
        · rw [lookup_cons, if_neg same]
        · rfl
        · rw [lookup_cons, if_neg same]
      rw [rest, ih, lookup_cons, if_neg same]

end Records

/-! ## Places in records -/

section Places

variable {children : List (String × Selection)} {keys : List String} {value json : Json}

/-- What is chosen as a whole is kept as it is. -/
theorem at?_keepIn_of_whole (h : (Selection.nested children).at? keys = some .whole)
    (found : value.at? keys = some json) : (keepIn children value).at? keys = some json := by
  induction keys generalizing children value with
  | nil => cases h
  | cons key keys ih =>
    obtain ⟨selection, hselection, whole⟩ := Option.bind_eq_some_iff.1 h
    obtain ⟨member, hmember, hjson⟩ := Option.bind_eq_some_iff.1 found
    cases value with
    | obj members =>
      rw [keepIn, Json.at?, Json.get?]
      cases selection with
      | whole =>
        rw [lookup_keepMembers_of_whole hselection]
        exact Option.bind_eq_some_iff.2 ⟨member, hmember, hjson⟩
      | nested below =>
        -- There is more of the row, so the member is an object.
        have object : member.isObject = true := by
          cases keys with
          | nil => cases whole
          | cons next keys =>
            cases member with
            | obj members => rfl
            | _ => cases hjson
        rw [lookup_keepMembers_of_nested hselection, lookup_filter_isObject hmember object]
        exact ih whole hjson
    | _ => cases hmember

/-- Where nothing is chosen nothing is kept. -/
theorem at?_keepIn_of_none (h : (Selection.nested children).at? keys = none) :
    (keepIn children value).at? keys = none := by
  induction keys generalizing children value with
  | nil => cases h
  | cons key keys ih =>
    cases value with
    | obj members =>
      rw [keepIn, Json.at?, Json.get?]
      cases hselection : children.lookup key with
      | none => rw [lookup_keepMembers_of_none hselection, Option.bind_none]
      | some selection =>
        have below : selection.at? keys = none := by
          rw [Selection.at?_cons, hselection] at h
          exact h
        cases selection with
        | whole => simp at below
        | nested below =>
          rw [lookup_keepMembers_of_nested hselection]
          cases (members.filter (·.2.isObject)).lookup key with
          | none => rfl
          | some member => exact ih ‹_›
    | _ => rfl

/-- Where nothing is chosen nothing is removed. -/
theorem at?_removeIn_of_none (h : (Selection.nested children).at? keys = none) :
    (removeIn children value).at? keys = value.at? keys := by
  induction keys generalizing children value with
  | nil => cases h
  | cons key keys ih =>
    cases value with
    | obj members =>
      rw [removeIn, Json.at?, Json.at?, Json.get?, Json.get?, lookup_removeMembers]
      cases hselection : children.lookup key with
      | none => rfl
      | some selection =>
        have below : selection.at? keys = none := by
          rw [Selection.at?_cons, hselection] at h
          exact h
        cases selection with
        | whole => simp at below
        | nested below =>
          cases members.lookup key with
          | none => rfl
          | some member => exact ih ‹_›
    | _ => rfl

end Places

end PathTree

end CatalogSearch
