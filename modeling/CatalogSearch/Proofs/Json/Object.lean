import CatalogSearch.Json
import Mathlib.Data.List.Sort

/-!
# Members of objects

The members of an object are looked up by name, and what is found does not depend on the order of
the members as long as no name stands twice. Increasing members are determined by what is found.

* `SortedMap.eq_of_get?_eq`, `StringSet.eq_of_mem_iff` : maps and sets are what is found in them;
* `SortedMap.ofList_entries`, `Json.sortMembers_of_sorted` : sorting changes nothing that is sorted;
* `Json.get?_object` : what is found in an object of members;
* `Json.Distinct` : no object in a value has two members of one name.
-/

namespace CatalogSearch

variable {α : Type}

/-! ## Increasing entries -/

/-- An entry whose name is above all others is written at the end. -/
theorem insertEntry_of_forall_lt {name : String} {value : α} {entries : List (String × α)}
    (above : ∀ entry ∈ entries, entry.1 < name) :
    insertEntry name value entries = entries ++ [(name, value)] := by
  induction entries with
  | nil => rfl
  | cons head rest ih =>
    obtain ⟨n, v⟩ := head
    have lt : n < name := above (n, v) List.mem_cons_self
    have others := ih fun entry mem => above entry (List.mem_cons_of_mem _ mem)
    rw [insertEntry, if_neg (String.lt_asymm lt), if_neg (String.ne_of_lt lt).symm, others,
      List.cons_append]

/-- Increasing entries are written one after another as they stand. -/
theorem foldl_insertEntry_of_sorted {entries before : List (String × α)}
    (sorted : (before ++ entries).Pairwise (·.1 < ·.1)) :
    entries.foldl (fun sorted entry => insertEntry entry.1 entry.2 sorted) before
      = before ++ entries := by
  induction entries generalizing before with
  | nil => exact (List.append_nil before).symm
  | cons entry entries ih =>
    have above : ∀ earlier ∈ before, earlier.1 < entry.1 := fun earlier mem =>
      (List.pairwise_append.1 sorted).2.2 earlier mem entry List.mem_cons_self
    rw [List.append_cons] at sorted ⊢
    rw [List.foldl_cons, insertEntry_of_forall_lt above]
    exact ih sorted

namespace SortedMap

/-- Maps are the same if the same is found in them. -/
theorem eq_of_get?_eq {m n : SortedMap α} (same : ∀ name, m.get? name = n.get? name) : m = n := by
  have members : ∀ entry, entry ∈ m.entries ↔ entry ∈ n.entries := by
    rintro ⟨name, value⟩
    rw [← get?_eq_some_iff, same, get?_eq_some_iff]
  have : Std.Irrefl fun a b : String × α => a.1 < b.1 := ⟨fun a => String.lt_irrefl a.1⟩
  have : Std.Antisymm fun a b : String × α => a.1 < b.1 :=
    ⟨fun _ _ lt gt => absurd gt (String.lt_asymm lt)⟩
  have entries : m.entries = n.entries := m.sorted.eq_of_mem_iff n.sorted members
  obtain ⟨_, _⟩ := m
  obtain ⟨_, _⟩ := n
  cases entries
  rfl

/-- The entries of a map made from a list are those of the list, written one after another. -/
theorem entries_insertAll (m : SortedMap α) (entries : List (String × α)) :
    (m.insertAll entries).entries
      = entries.foldl (fun sorted entry => insertEntry entry.1 entry.2 sorted) m.entries := by
  induction entries generalizing m with
  | nil => rfl
  | cons entry entries ih => exact ih (m.insert entry.1 entry.2)

/-- A map is made from its own entries. -/
theorem ofList_entries (m : SortedMap α) : ofList m.entries = m := by
  have entries : (ofList m.entries).entries = m.entries := by
    rw [ofList, entries_insertAll]
    exact foldl_insertEntry_of_sorted m.sorted
  obtain ⟨_, _⟩ := m
  exact eq_of_get?_eq fun name => congrArg (List.lookup name) entries

end SortedMap

/-- Sets are the same if they have the same members. -/
theorem StringSet.eq_of_mem_iff {s t : StringSet} (same : ∀ name, name ∈ s ↔ name ∈ t) : s = t := by
  have names : s.toList = t.toList := s.sorted.eq_of_mem_iff t.sorted same
  obtain ⟨_, _⟩ := s
  obtain ⟨_, _⟩ := t
  cases names
  rfl

/-- A set is the set of its members. -/
theorem StringSet.insertAll_toList (s : StringSet) : empty.insertAll s.toList = s :=
  eq_of_mem_iff fun _ => mem_ofList

namespace Json

/-! ## Sorted members -/

/-- What is found in sorted members is the last value of the name. -/
theorem lookup_foldl_insertEntry (members sorted : List (String × Json)) (name : String) :
    (members.foldl (fun sorted member => insertEntry member.1 member.2 sorted) sorted).lookup name
      = (members.reverse.lookup name).or (sorted.lookup name) := by
  induction members generalizing sorted with
  | nil => rfl
  | cons member members ih =>
    obtain ⟨n, v⟩ := member
    have last : (members.reverse ++ [(n, v)]).lookup name
        = (members.reverse.lookup name).or (if name = n then some v else none) := by
      rw [List.lookup_append, lookup_cons]
      rfl
    rw [List.foldl_cons, ih, lookup_insertEntry, List.reverse_cons, last]
    cases members.reverse.lookup name with
    | some value => rfl
    | none => by_cases same : name = n <;> simp [same]

/-- What is found in sorted members is the last value of the name. -/
theorem lookup_sortMembers (members : List (String × Json)) (name : String) :
    (sortMembers members).lookup name = members.reverse.lookup name := by
  rw [sortMembers, lookup_foldl_insertEntry]
  exact Option.or_none

/-- The value of a name in an object is the last one that was given to it. -/
theorem get?_object (members : List (String × Json)) (name : String) :
    (object members).get? name = members.reverse.lookup name := by
  rw [object, get?, lookup_sortMembers]

/-- Sorted members are the entries of a map. -/
theorem entries_ofList (members : List (String × Json)) :
    (SortedMap.ofList members).entries = sortMembers members :=
  SortedMap.entries_insertAll .empty members

/-- Sorted members are increasing. -/
theorem pairwise_sortMembers (members : List (String × Json)) :
    (sortMembers members).Pairwise (·.1 < ·.1) := by
  rw [← entries_ofList]
  exact (SortedMap.ofList members).sorted

/-- Sorted members are some of those that were sorted. -/
theorem mem_of_mem_sortMembers {members : List (String × Json)} {member : String × Json}
    (mem : member ∈ sortMembers members) : member ∈ members := by
  rw [← entries_ofList] at mem
  exact SortedMap.mem_ofList mem

/-- Sorting changes nothing about increasing members. -/
theorem sortMembers_of_sorted {members : List (String × Json)}
    (sorted : members.Pairwise (·.1 < ·.1)) : sortMembers members = members := by
  rw [← entries_ofList]
  exact congrArg SortedMap.entries (SortedMap.ofList_entries ⟨members, sorted⟩)

/-- An entry of a new name is written somewhere among the others. -/
theorem insertEntry_perm {name : String} {value : α} {entries : List (String × α)}
    (isNew : name ∉ entries.map (·.1)) :
    (insertEntry name value entries).Perm ((name, value) :: entries) := by
  induction entries with
  | nil => exact .refl _
  | cons head rest ih =>
    obtain ⟨n, v⟩ := head
    rw [List.map_cons, List.mem_cons, not_or] at isNew
    rw [insertEntry]
    split
    · exact .refl _
    · rw [if_neg isNew.1]
      exact ((ih isNew.2).cons (n, v)).trans (.swap _ _ _)

/-- Entries of different names are only put into another order. -/
theorem foldl_insertEntry_perm {entries sorted : List (String × α)}
    (distinct : ((sorted ++ entries).map (·.1)).Nodup) :
    (entries.foldl (fun sorted entry => insertEntry entry.1 entry.2 sorted) sorted).Perm
      (sorted ++ entries) := by
  induction entries generalizing sorted with
  | nil =>
    rw [List.append_nil]
    exact .refl _
  | cons entry entries ih =>
    have isNew : entry.1 ∉ sorted.map (·.1) := by
      rw [List.map_append, List.nodup_append] at distinct
      exact fun mem => distinct.2.2 _ mem _ (List.mem_cons_self) rfl
    have written : (insertEntry entry.1 entry.2 sorted ++ entries).Perm
        (sorted ++ entry :: entries) :=
      ((insertEntry_perm isNew).append_right entries).trans List.perm_middle.symm
    exact (ih (((written.map (·.1)).nodup_iff).2 distinct)).trans written

/-- Members of different names are only put into another order. -/
theorem sortMembers_perm {members : List (String × Json)}
    (distinct : (members.map (·.1)).Nodup) : (sortMembers members).Perm members :=
  foldl_insertEntry_perm distinct

/-- Increasing members are the same if the same is found in them. -/
theorem members_eq_of_lookup_eq {members others : List (String × Json)}
    (hmembers : members.Pairwise (·.1 < ·.1)) (hothers : others.Pairwise (·.1 < ·.1))
    (same : ∀ name, members.lookup name = others.lookup name) : members = others :=
  congrArg SortedMap.entries
    (SortedMap.eq_of_get?_eq (m := ⟨members, hmembers⟩) (n := ⟨others, hothers⟩) same)

/-! ## Different names -/

mutual

/-- No object in a value has two members of one name. -/
def Distinct : Json → Prop
  | arr elements => ElementsDistinct elements
  | obj members => (members.map (·.1)).Nodup ∧ MembersDistinct members
  | _ => True

/-- No object in a list of values has two members of one name. -/
def ElementsDistinct : List Json → Prop
  | [] => True
  | value :: values => value.Distinct ∧ ElementsDistinct values

/-- No object in the values of a list of members has two members of one name. -/
def MembersDistinct : List (String × Json) → Prop
  | [] => True
  | (_, value) :: members => value.Distinct ∧ MembersDistinct members

end

/-- A member of distinct members is distinct. -/
theorem distinct_of_lookup {members : List (String × Json)} {name : String} {value : Json}
    (distinct : MembersDistinct members) (found : members.lookup name = some value) :
    value.Distinct := by
  induction members with
  | nil => cases found
  | cons member members ih =>
    obtain ⟨other, first⟩ := member
    rw [lookup_cons] at found
    split at found
    · cases found
      exact distinct.1
    · exact ih distinct.2 found

/-- Where names are different, what is found among some of the members is found among all. -/
theorem lookup_of_lookup_filter {members : List (String × Json)} {keep : String × Json → Bool}
    {name : String} {value : Json} (distinct : (members.map (·.1)).Nodup)
    (found : (members.filter keep).lookup name = some value) :
    members.lookup name = some value := by
  induction members with
  | nil => cases found
  | cons member members ih =>
    obtain ⟨other, first⟩ := member
    rw [List.map_cons, List.nodup_cons] at distinct
    rw [lookup_cons]
    by_cases same : name = other
    · subst same
      -- No later member has the name, so it is this one that was found.
      have notLater : (members.filter keep).lookup name = none :=
        List.lookup_eq_none_iff.2 fun later mem => bne_iff_ne.2 fun eq =>
          distinct.1 (List.mem_map.2 ⟨later, (List.mem_filter.1 mem).1, eq.symm⟩)
      rw [if_pos rfl]
      rw [List.filter_cons] at found
      split at found
      · rwa [lookup_cons, if_pos rfl] at found
      · rw [notLater] at found
        cases found
    · rw [if_neg same]
      refine ih distinct.2 ?_
      rw [List.filter_cons] at found
      split at found
      · rwa [lookup_cons, if_neg same] at found
      · exact found

end Json

end CatalogSearch
