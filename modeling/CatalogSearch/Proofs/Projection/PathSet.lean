import CatalogSearch.Proofs.Json.Object
import CatalogSearch.Proofs.Projection.Tree

/-!
# Trees of sets of paths

The tree of a list of paths is the tree of the set of them: neither their order nor how often one of
them is listed makes a difference. A path takes in all paths below it, whether they were added
before it or after it, so what the keys of a tree lead to can be said of the listed paths alone.

* `Selection.Ordered.eq_of_at?` : trees in order are the same if they choose the same;
* `PathTree.ordered_ofPaths` : every tree that is made of paths is in order;
* `PathTree.reach?_ofPaths_whole_iff`, `PathTree.reach?_ofPaths_nested_iff` : where keys lead;
* `PathTree.ofPaths_absorbs` : both together.
-/

namespace CatalogSearch

/-! ## Following keys -/

/-- What stands at the end of a row of keys. No keys stand below what is chosen as a whole. -/
def Selection.reach? : Selection → List String → Option Selection
  | selection, [] => some selection
  | .whole, _ :: _ => none
  | .nested children, key :: keys => (children.lookup key).bind (·.reach? keys)

/-- At a single key that is chosen which stands under it. -/
theorem Selection.at?_singleton (children : List (String × Selection)) (key : String) :
    (nested children).at? [key] = children.lookup key := by
  rw [at?_cons]
  cases children.lookup key with
  | none => rfl
  | some child => cases child <;> rfl

/-- What is chosen in parts at a row of keys is what the keys lead to. -/
theorem Selection.reach?_eq_nested_iff {selection : Selection} {keys : List String}
    {below : List (String × Selection)} :
    selection.reach? keys = some (.nested below) ↔ selection.at? keys = some (.nested below) := by
  induction keys generalizing selection with
  | nil => cases selection <;> simp [reach?, at?]
  | cons key keys ih =>
    cases selection with
    | whole => simp [reach?]
    | nested children =>
      rw [reach?, at?_cons]
      cases children.lookup key with
      | none => simp
      | some child => exact ih

/-- Keys lead to a whole if everything is chosen at their end, and nowhere on the way to it. -/
theorem Selection.reach?_eq_whole_iff {selection : Selection} {keys : List String} :
    selection.reach? keys = some .whole
      ↔ selection.at? keys = some .whole
        ∧ ∀ shorter, shorter <+: keys → shorter ≠ keys → selection.at? shorter ≠ some .whole := by
  induction keys generalizing selection with
  | nil => cases selection <;> simp [reach?, at?]
  | cons key keys ih =>
    cases selection with
    | whole =>
      refine iff_of_false (Option.some_ne_none whole).symm ?_
      rintro ⟨_, notBefore⟩
      exact notBefore [] List.nil_prefix (List.cons_ne_nil key keys).symm rfl
    | nested children =>
      rw [reach?, at?_cons]
      cases found : children.lookup key with
      | none => simp
      | some child =>
        rw [Option.bind_some, Option.bind_some, ih]
        refine and_congr_right fun _ => ⟨fun notBefore shorter before other => ?_,
          fun notBefore shorter before other => ?_⟩
        · cases shorter with
          | nil => simp [at?]
          | cons first rest =>
            obtain ⟨rfl, behind⟩ := List.cons_prefix_cons.1 before
            rw [at?_cons, found]
            exact notBefore rest behind fun same => other (congrArg _ same)
        · have := notBefore (key :: shorter) (List.cons_prefix_cons.2 ⟨rfl, before⟩)
            fun same => other (List.cons.inj same).2
          rwa [at?_cons, found] at this

/-! ## Trees in order -/

/-- At each level of a tree the keys are in increasing order. -/
inductive Selection.Ordered : Selection → Prop
  | whole : Ordered .whole
  | nested {children : List (String × Selection)} (sorted : children.Pairwise (·.1 < ·.1))
      (below : ∀ child ∈ children, child.2.Ordered) : Ordered (.nested children)

namespace Selection.Ordered

variable {children : List (String × Selection)} {key : String} {child : Selection}

/-- What stands below a key of a tree in order is in order. -/
theorem of_lookup (ordered : (Selection.nested children).Ordered)
    (found : children.lookup key = some child) : child.Ordered := by
  cases ordered with
  | nested sorted below =>
    exact below (key, child) ((SortedMap.get?_eq_some_iff (m := ⟨children, sorted⟩)).1 found)

/-- Writing a tree in order under a key of another one leaves that in order. -/
theorem insertEntry (ordered : (Selection.nested children).Ordered) (hchild : child.Ordered)
    (key : String) :
    (Selection.nested (CatalogSearch.insertEntry key child children)).Ordered := by
  cases ordered with
  | nested sorted below =>
    refine .nested (pairwise_insertEntry key child sorted) fun entry mem => ?_
    rcases mem_insertEntry mem with rfl | mem
    · exact hchild
    · exact below entry mem

/-- Trees in order are the same if they choose the same, in whole and at all. -/
theorem eq_of_at? {s t : Selection} (hs : s.Ordered) (ht : t.Ordered)
    (whole : ∀ keys, s.at? keys = some .whole ↔ t.at? keys = some .whole)
    (chosen : ∀ keys, (s.at? keys).isSome ↔ (t.at? keys).isSome) : s = t := by
  induction hs generalizing t with
  | whole =>
    cases ht with
    | whole => rfl
    | nested _ _ => cases (whole []).1 rfl
  | @nested children sorted below ih =>
    cases ht with
    | whole => cases (whole []).2 rfl
    | @nested others sorted' below' =>
      -- The keys of both are increasing, so it is enough to find the same under each of them.
      have found (key : String) : children.lookup key = others.lookup key := by
        have there : (children.lookup key).isSome ↔ (others.lookup key).isSome := by
          have atKey := chosen [key]
          rwa [Selection.at?_singleton, Selection.at?_singleton] at atKey
        cases hchild : children.lookup key with
        | none =>
          rw [hchild] at there
          exact (Option.not_isSome_iff_eq_none.1 fun isThere => nomatch there.2 isThere).symm
        | some child =>
          rw [hchild] at there
          obtain ⟨other, hother⟩ := Option.isSome_iff_exists.1 (there.1 rfl)
          have wholeBelow (keys : List String) := whole (key :: keys)
          have chosenBelow (keys : List String) := chosen (key :: keys)
          simp only [Selection.at?_cons, hchild, hother, Option.bind_some] at wholeBelow chosenBelow
          have mem := (SortedMap.get?_eq_some_iff (m := ⟨children, sorted⟩)).1 hchild
          have ordered := of_lookup (.nested sorted' below') hother
          rw [hother]
          exact congrArg some (ih (key, child) mem ordered wholeBelow chosenBelow)
      exact congrArg (fun map => Selection.nested map.entries)
        (SortedMap.eq_of_get?_eq (m := ⟨children, sorted⟩) (n := ⟨others, sorted'⟩) found)

end Selection.Ordered

namespace PathTree

/-- Adding a path to a tree in order leaves it in order. -/
theorem ordered_insertPath (path : List String) {children : List (String × Selection)}
    (ordered : (Selection.nested children).Ordered) :
    (Selection.nested (insertPath path children)).Ordered := by
  induction path generalizing children with
  | nil => exact ordered
  | cons key path ih =>
    cases path with
    | nil => exact ordered.insertEntry .whole key
    | cons next rest =>
      cases found : children.lookup key with
      | none =>
        rw [insertPath_of_none found]
        exact ordered.insertEntry (ih (.nested .nil nofun)) key
      | some selection =>
        cases selection with
        | whole =>
          rw [insertPath_of_whole found]
          exact ordered
        | nested below =>
          rw [insertPath_of_nested found]
          exact ordered.insertEntry (ih (ordered.of_lookup found)) key

/-- Every tree that is made of paths is in order. -/
theorem ordered_ofPaths (paths : List String) : (ofPaths paths).selection.Ordered :=
  List.foldlRecOn (motive := fun children => (Selection.nested children).Ordered) _ _
    (.nested .nil nofun) fun _ ordered path _ => ordered_insertPath path ordered

/-! ## Listed paths -/

variable {paths : List String} {keys : List String}

/-- A row of keys is one of the listed paths. A path with an empty segment does not count. -/
def Listed (paths keys : List String) : Prop :=
  ∃ path ∈ paths, Text.splitOn '.' path = keys ∧ "" ∉ keys

/-- A row of keys is listed, and no row that it goes on from is. -/
def Topmost (paths keys : List String) : Prop :=
  Listed paths keys ∧ ∀ shorter, shorter <+: keys → shorter ≠ keys → ¬ Listed paths shorter

/-- The listed rows of keys are the segments of the listed paths. -/
theorem listed_iff : Listed paths keys ↔ ∃ path ∈ paths, segments? path = some keys := by
  simp only [Listed, segments?_eq_some_iff]

/-- Everything is chosen from the listed paths on. -/
theorem at?_ofPaths_whole_iff :
    (ofPaths paths).selection.at? keys = some .whole
      ↔ ∃ shorter, shorter <+: keys ∧ Listed paths shorter := by
  rw [at?_ofPaths_eq_whole]
  constructor
  · rintro ⟨path, mem, segments, hsegments, before⟩
    exact ⟨segments, before, listed_iff.2 ⟨path, mem, hsegments⟩⟩
  · rintro ⟨segments, before, listed⟩
    obtain ⟨path, mem, hsegments⟩ := listed_iff.1 listed
    exact ⟨path, mem, segments, hsegments, before⟩

/-- Something is chosen on the listed paths, at them, and below them. -/
theorem isSome_at?_ofPaths_iff (hkeys : keys ≠ []) :
    ((ofPaths paths).selection.at? keys).isSome
      ↔ ∃ listed, Listed paths listed ∧ (listed <+: keys ∨ keys <+: listed) := by
  rw [isSome_at?_ofPaths hkeys]
  constructor
  · rintro ⟨path, mem, segments, hsegments, along⟩
    exact ⟨segments, listed_iff.2 ⟨path, mem, hsegments⟩, along⟩
  · rintro ⟨segments, listed, along⟩
    obtain ⟨path, mem, hsegments⟩ := listed_iff.1 listed
    exact ⟨path, mem, segments, hsegments, along⟩

/-- Every listed path begins with a topmost one. -/
theorem exists_topmost (listed : Listed paths keys) :
    ∃ top, Topmost paths top ∧ top <+: keys := by
  induction size : keys.length using Nat.strong_induction_on generalizing keys with
  | _ n ih =>
    by_cases top : Topmost paths keys
    · exact ⟨keys, top, List.prefix_rfl⟩
    · simp only [Topmost, listed, true_and, not_forall, not_not] at top
      obtain ⟨shorter, before, other, above⟩ := top
      have less : shorter.length < n := by
        refine size ▸ lt_of_le_of_ne before.length_le fun same => ?_
        exact other (before.eq_of_length same)
      obtain ⟨top, topmost, first⟩ := ih _ less above rfl
      exact ⟨top, topmost, first.trans before⟩

/-- Keys lead to a whole exactly if they are a topmost path. -/
theorem reach?_ofPaths_whole_iff :
    (ofPaths paths).selection.reach? keys = some .whole ↔ Topmost paths keys := by
  simp only [Selection.reach?_eq_whole_iff, Ne, at?_ofPaths_whole_iff]
  constructor
  · rintro ⟨⟨shorter, before, listed⟩, notBefore⟩
    -- What is listed on the way to the end can only be the end itself.
    have same : shorter = keys := by
      by_contra other
      exact notBefore shorter before other ⟨shorter, List.prefix_rfl, listed⟩
    subst same
    exact ⟨listed, fun first before other listed =>
      notBefore first before other ⟨first, List.prefix_rfl, listed⟩⟩
  · rintro ⟨listed, notBefore⟩
    refine ⟨⟨keys, List.prefix_rfl, listed⟩, ?_⟩
    rintro shorter before other ⟨first, earlier, above⟩
    refine notBefore first (earlier.trans before) (fun same => other ?_) above
    subst same
    exact before.eq_of_length (le_antisymm before.length_le earlier.length_le)

/--
Keys lead to a choice of parts exactly if a listed path goes on from them and neither they nor
anything on the way to them is listed.
-/
theorem reach?_ofPaths_nested_iff (hkeys : keys ≠ []) :
    (∃ below, (ofPaths paths).selection.reach? keys = some (.nested below))
      ↔ (∃ longer, Listed paths longer ∧ keys <+: longer ∧ keys ≠ longer)
        ∧ ∀ shorter, shorter <+: keys → ¬ Listed paths shorter := by
  simp only [Selection.reach?_eq_nested_iff]
  have parts : (∃ below, (ofPaths paths).selection.at? keys = some (.nested below))
      ↔ ((ofPaths paths).selection.at? keys).isSome
        ∧ ¬ (ofPaths paths).selection.at? keys = some .whole := by
    cases (ofPaths paths).selection.at? keys with
    | none => simp
    | some selection => cases selection <;> simp
  rw [parts, isSome_at?_ofPaths_iff hkeys, at?_ofPaths_whole_iff]
  constructor
  · rintro ⟨⟨longer, listed, along⟩, notAbove⟩
    have none : ∀ shorter, shorter <+: keys → ¬ Listed paths shorter := fun shorter before above =>
      notAbove ⟨shorter, before, above⟩
    refine ⟨⟨longer, listed, along.resolve_left fun before => none longer before listed, ?_⟩, none⟩
    rintro rfl
    exact none keys List.prefix_rfl listed
  · rintro ⟨⟨longer, listed, goesOn, _⟩, none⟩
    exact ⟨⟨longer, listed, Or.inr goesOn⟩, fun ⟨shorter, before, above⟩ =>
      none shorter before above⟩

/-- A listed path goes on from unlisted keys exactly if a topmost path does. -/
theorem exists_topmost_iff :
    (∃ longer, Topmost paths longer ∧ keys <+: longer ∧ keys ≠ longer)
      ↔ (∃ longer, Listed paths longer ∧ keys <+: longer ∧ keys ≠ longer)
        ∧ ∀ shorter, shorter <+: keys → ¬ Listed paths shorter := by
  constructor
  · rintro ⟨longer, ⟨listed, notBefore⟩, goesOn, other⟩
    refine ⟨⟨longer, listed, goesOn, other⟩, fun shorter before => ?_⟩
    refine notBefore shorter (before.trans goesOn) ?_
    rintro rfl
    exact other (goesOn.eq_of_length (le_antisymm goesOn.length_le before.length_le))
  · rintro ⟨⟨longer, listed, goesOn, _⟩, none⟩
    obtain ⟨top, topmost, first⟩ := exists_topmost listed
    have notAbove : ¬ top <+: keys := fun before => none top before topmost.1
    refine ⟨top, topmost, (List.prefix_or_prefix_of_prefix goesOn first).resolve_right notAbove, ?_⟩
    rintro rfl
    exact notAbove List.prefix_rfl

/-- Lists of the same paths make the same tree. -/
theorem ofPaths_eq_of_mem_iff {others : List String} (same : ∀ path, path ∈ paths ↔ path ∈ others) :
    ofPaths paths = ofPaths others := by
  have listed (keys : List String) : Listed paths keys ↔ Listed others keys := by
    simp only [Listed, same]
  have trees : (ofPaths paths).selection = (ofPaths others).selection := by
    refine (ordered_ofPaths paths).eq_of_at? (ordered_ofPaths others) (fun keys => ?_)
      fun keys => ?_
    · simp only [at?_ofPaths_whole_iff, listed]
    · by_cases start : keys = []
      · subst start
        exact iff_of_true rfl rfl
      · simp only [isSome_at?_ofPaths_iff start, listed]
  exact congrArg PathTree.mk (Selection.nested.inj trees)

/--
Lists of the same paths make the same tree, whatever their order and however often a path is listed.
In the tree keys lead to a whole exactly if they are a listed path, with no empty segment, and no
path that they go on from is listed. They lead to a choice of parts exactly if such a path goes on
from them and neither they nor a path that they go on from is listed.
-/
theorem ofPaths_absorbs (paths : List String) :
    (∀ others : List String, (∀ path, path ∈ paths ↔ path ∈ others) →
      ofPaths paths = ofPaths others)
    ∧ ∀ keys : List String, keys ≠ [] →
      ((ofPaths paths).selection.reach? keys = some .whole
        ↔ Listed paths keys
          ∧ ∀ shorter, shorter <+: keys → shorter ≠ keys → ¬ Listed paths shorter)
      ∧ ((∃ below, (ofPaths paths).selection.reach? keys = some (.nested below))
        ↔ (∃ longer, Listed paths longer ∧ keys <+: longer ∧ keys ≠ longer)
          ∧ ∀ shorter, shorter <+: keys → ¬ Listed paths shorter)
      ∧ ((∃ below, (ofPaths paths).selection.reach? keys = some (.nested below))
        ↔ ∃ longer, Topmost paths longer ∧ keys <+: longer ∧ keys ≠ longer) := by
  refine ⟨fun others same => ofPaths_eq_of_mem_iff same, fun keys hkeys => ?_⟩
  have parts := @reach?_ofPaths_nested_iff paths keys hkeys
  exact ⟨reach?_ofPaths_whole_iff, parts, parts.trans exists_topmost_iff.symm⟩

end PathTree

/-! ## Paths that take in others -/

namespace Sample

/-- Paths with one below another, one with an empty segment, and one that stands twice. -/
def overlappingPaths : List String :=
  ["a.b", "c.d.e", "a", "c..f", "c.d.e"]

/-- Another order makes the same tree; `a` takes in `a.b`, and `c.d` goes on to `c.d.e` alone. -/
theorem tree_of_overlappingPaths :
    PathTree.ofPaths overlappingPaths = PathTree.ofPaths ["c..f", "a", "c.d.e", "a.b"]
      ∧ PathTree.Topmost overlappingPaths ["a"]
      ∧ ∃ longer, PathTree.Topmost overlappingPaths longer ∧ ["c", "d"] <+: longer
        ∧ ["c", "d"] ≠ longer := by
  obtain ⟨sameTree, keys⟩ := PathTree.ofPaths_absorbs overlappingPaths
  refine ⟨sameTree _ fun path => ?_, (keys ["a"] (by decide)).1.1 rfl,
    (keys ["c", "d"] (by decide)).2.2.1 ⟨_, rfl⟩⟩
  simp only [overlappingPaths, List.mem_cons, List.not_mem_nil, or_false]
  tauto

end Sample

end CatalogSearch
