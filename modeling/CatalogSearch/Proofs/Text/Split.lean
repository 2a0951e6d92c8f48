import CatalogSearch.Text
import Mathlib.Data.List.DropRight
import Mathlib.Data.List.TakeDrop
import Mathlib.Data.List.TakeWhile

/-!
# Parts of texts

A text is split at its first separator, and trimming leaves what stands between the blanks at its
two ends. A list that is written with a separator between its entries splits into the entries again,
if none of them holds the separator. A list with commas is read back if no entry starts or ends with
a blank either.

* `Text.splitChars_intercalate` : splitting undoes joining;
* `Text.splitFirst?_eq_some_iff` : the two parts of a text;
* `Text.isCore_iff` : what trimming leaves;
* `Text.listItems_intercalate` : the entries of a list with commas.
-/

namespace CatalogSearch.Text

/-! ## Splitting what was joined -/

/-- Splitting a text finds the pieces that were joined. -/
theorem splitChars_intercalate {sep : Char} {pieces : List (List Char)} (nonempty : pieces ≠ [])
    (apart : ∀ piece ∈ pieces, sep ∉ piece) :
    splitChars sep ([sep].intercalate pieces) = pieces := by
  induction pieces with
  | nil => exact absurd rfl nonempty
  | cons piece pieces ih =>
    have first := splitChars_of_notMem (apart piece List.mem_cons_self)
    cases pieces with
    | nil => rw [List.intercalate_singleton, first]
    | cons next pieces =>
      have others := ih (List.cons_ne_nil _ _) fun p mem => apart p (List.mem_cons_of_mem _ mem)
      rw [List.intercalate_cons_cons, List.append_assoc, List.singleton_append, splitChars_append,
        first, others, List.singleton_append]

/-- Splitting a text finds the texts that were joined. -/
theorem splitOn_intercalate {sep : Char} {glue : String} (single : glue.toList = [sep])
    {pieces : List String} (nonempty : pieces ≠ [])
    (apart : ∀ piece ∈ pieces, sep ∉ piece.toList) :
    splitOn sep (glue.intercalate pieces) = pieces := by
  have split : splitChars sep ([sep].intercalate (pieces.map String.toList))
      = pieces.map String.toList :=
    splitChars_intercalate (mt List.map_eq_nil_iff.1 nonempty) (List.forall_mem_map.2 apart)
  rw [splitOn, String.toList_intercalate, single, split, List.map_map]
  exact (List.map_congr_left fun s _ => String.ofList_toList).trans (List.map_id _)

/-- Joining adds no character but the separator. -/
theorem notMem_intercalate {sep c : Char} (other : c ≠ sep) {pieces : List (List Char)}
    (apart : ∀ piece ∈ pieces, c ∉ piece) : c ∉ [sep].intercalate pieces := by
  induction pieces with
  | nil => exact List.not_mem_nil
  | cons piece pieces ih =>
    have first := apart piece List.mem_cons_self
    cases pieces with
    | nil => rwa [List.intercalate_singleton]
    | cons next pieces =>
      have others := ih fun p mem => apart p (List.mem_cons_of_mem _ mem)
      rw [List.intercalate_cons_cons, List.mem_append, List.mem_append, List.mem_singleton, not_or,
        not_or]
      exact ⟨⟨first, other⟩, others⟩

/-- The characters in front of a separator and those behind it. -/
theorem span_append_cons {sep : Char} {cs ds : List Char} (apart : sep ∉ cs) :
    (cs ++ sep :: ds).span (· ≠ sep) = (cs, sep :: ds) := by
  have others : ∀ c ∈ cs, decide (c ≠ sep) = true := fun c mem =>
    decide_eq_true fun same => apart (same ▸ mem)
  have stops : decide (sep ≠ sep) = false := decide_eq_false fun differs => differs rfl
  rw [List.span_eq_takeWhile_dropWhile, List.takeWhile_append_of_pos others,
    List.dropWhile_append_of_pos others, List.takeWhile_cons_of_neg (by simp),
    List.dropWhile_cons_of_neg (by simp), List.append_nil]

/-- A text is split at its first separator. -/
theorem splitFirst?_of_append {sep : Char} {s : String} {cs ds : List Char}
    (whole : s.toList = cs ++ sep :: ds) (apart : sep ∉ cs) :
    splitFirst? sep s = some (.ofList cs, .ofList ds) := by
  rw [splitFirst?, whole, span_append_cons apart]

/-- A text without a separator is not split. -/
theorem splitFirst?_of_notMem {sep : Char} {s : String} (apart : sep ∉ s.toList) :
    splitFirst? sep s = none := by
  have all : ∀ c ∈ s.toList, decide (c ≠ sep) = true := fun c mem =>
    decide_eq_true fun same => apart (same ▸ mem)
  rw [splitFirst?, List.span_eq_takeWhile_dropWhile, List.dropWhile_eq_nil_iff.2 all]

/-- A text is not split exactly if it does not hold the separator. -/
theorem splitFirst?_eq_none_iff {sep : Char} {s : String} :
    splitFirst? sep s = none ↔ sep ∉ s.toList := by
  refine ⟨fun whole mem => ?_, splitFirst?_of_notMem⟩
  obtain ⟨cs, ds, parts, apart⟩ := List.eq_append_cons_of_mem mem
  rw [splitFirst?_of_append parts apart] at whole
  cases whole

/-- The parts of a text that is split are what stands around its first separator. -/
theorem splitFirst?_eq_some_iff {sep : Char} {s before after : String} :
    splitFirst? sep s = some (before, after)
      ↔ s.toList = before.toList ++ sep :: after.toList ∧ sep ∉ before.toList := by
  constructor
  · intro split
    have mem : sep ∈ s.toList := by
      refine Decidable.byContradiction fun apart => ?_
      rw [splitFirst?_of_notMem apart] at split
      cases split
    obtain ⟨cs, ds, parts, apart⟩ := List.eq_append_cons_of_mem mem
    rw [splitFirst?_of_append parts apart] at split
    cases split
    rw [String.toList_ofList, String.toList_ofList]
    exact ⟨parts, apart⟩
  · rintro ⟨parts, apart⟩
    rw [splitFirst?_of_append parts apart, String.ofList_toList, String.ofList_toList]

/-! ## Trimming -/

/-- A text that does not start with a blank loses nothing there. -/
theorem dropWhile_isBlank {cs : List Char} (plain : ∀ c ∈ cs.head?, isBlank c = false) :
    cs.dropWhile isBlank = cs := by
  cases cs with
  | nil => rfl
  | cons c cs => rw [List.dropWhile_cons_of_neg (by simp [plain c rfl])]

/-- A text that neither starts nor ends with a blank is trimmed already. -/
theorem trimChars_eq_self {cs : List Char} (start : ∀ c ∈ cs.head?, isBlank c = false)
    (stop : ∀ c ∈ cs.getLast?, isBlank c = false) : trimChars cs = cs := by
  have back : cs.reverse.dropWhile isBlank = cs.reverse := by
    refine dropWhile_isBlank fun c last => stop c ?_
    rwa [List.head?_reverse] at last
  rw [trimChars, dropWhile_isBlank start, back, List.reverse_reverse]

/-- Blanks in front are dropped up to what does not start with one. -/
theorem dropWhile_isBlank_append {lead cs : List Char} (blank : ∀ c ∈ lead, isBlank c = true)
    (plain : ∀ c ∈ cs.head?, isBlank c = false) : (lead ++ cs).dropWhile isBlank = cs := by
  rw [List.dropWhile_append_of_pos blank, dropWhile_isBlank plain]

/-- What is left behind blanks does not start with one. -/
theorem not_isBlank_of_head?_dropWhile {cs : List Char} {c : Char}
    (first : c ∈ (cs.dropWhile isBlank).head?) : isBlank c = false := by
  have plain := List.head?_dropWhile_not isBlank cs
  rw [Option.mem_def.1 first] at plain
  exact plain

/-- What stands between the blanks at the two ends of a text. -/
structure IsCore (core s : String) : Prop where
  surrounded : ∃ lead trail, s.toList = lead ++ (core.toList ++ trail)
    ∧ (∀ c ∈ lead, isBlank c = true) ∧ ∀ c ∈ trail, isBlank c = true
  start : ∀ c ∈ core.toList.head?, isBlank c = false
  stop : ∀ c ∈ core.toList.getLast?, isBlank c = false

/-- Trimming finds the core of a text. -/
theorem IsCore.trim_eq {core s : String} (h : IsCore core s) : trim s = core := by
  obtain ⟨lead, trail, whole, leadBlank, trailBlank⟩ := h.surrounded
  have found : trimChars s.toList = core.toList := by
    rw [trimChars, whole]
    cases chars : core.toList with
    | nil =>
      have blank : ∀ c ∈ lead ++ ([] ++ trail), isBlank c = true := fun c mem =>
        (List.mem_append.1 mem).elim (leadBlank c) (trailBlank c)
      rw [List.dropWhile_eq_nil_iff.2 blank]
      rfl
    | cons first others =>
      have start : ∀ c ∈ (first :: others ++ trail).head?, isBlank c = false := by
        intro c mem
        exact h.start c (chars ▸ mem)
      have stop : ∀ c ∈ (first :: others).reverse.head?, isBlank c = false := by
        intro c mem
        rw [List.head?_reverse, ← chars] at mem
        exact h.stop c mem
      have blank : ∀ c ∈ trail.reverse, isBlank c = true := fun c mem =>
        trailBlank c (List.mem_reverse.1 mem)
      rw [dropWhile_isBlank_append leadBlank start, List.reverse_append,
        dropWhile_isBlank_append blank stop, List.reverse_reverse]
  rw [trim, found, String.ofList_toList]

/-- What trimming leaves is the core of a text. -/
theorem isCore_trim (s : String) : IsCore (trim s) s := by
  have behind := List.takeWhile_append_dropWhile (p := isBlank) (l := s.toList)
  generalize chars : s.toList.dropWhile isBlank = cs at behind
  have front := List.takeWhile_append_dropWhile (p := isBlank) (l := cs.reverse)
  have parts : cs = trimChars s.toList ++ (cs.reverse.takeWhile isBlank).reverse := by
    rw [trimChars, chars, ← List.reverse_append, front, List.reverse_reverse]
  refine ⟨⟨s.toList.takeWhile isBlank, (cs.reverse.takeWhile isBlank).reverse, ?_, ?_, ?_⟩, ?_, ?_⟩
  · rw [trim, String.toList_ofList, ← parts, behind]
  · exact fun c mem => List.mem_takeWhile_imp mem
  · exact fun c mem => List.mem_takeWhile_imp (List.mem_reverse.1 mem)
  · intro c mem
    rw [trim, String.toList_ofList] at mem
    have first : c ∈ (s.toList.dropWhile isBlank).head? := by
      rw [chars, parts, List.head?_append, Option.mem_def.1 mem, Option.some_or]
      exact Option.mem_some_self c
    exact not_isBlank_of_head?_dropWhile first
  · intro c mem
    rw [trim, String.toList_ofList, trimChars, List.getLast?_reverse] at mem
    exact not_isBlank_of_head?_dropWhile mem

/-- The core of a text is what trimming leaves. -/
theorem isCore_iff {core s : String} : IsCore core s ↔ trim s = core :=
  ⟨IsCore.trim_eq, fun same => same ▸ isCore_trim s⟩

/-! ## Dropping at the end -/

/-- What is left of a text holds no other characters. -/
theorem mem_of_mem_dropTrailing {c d : Char} {s : String} (h : d ∈ (dropTrailing c s).toList) :
    d ∈ s.toList := by
  rw [dropTrailing, String.toList_ofList, List.mem_reverse] at h
  exact List.mem_reverse.1 ((List.dropWhile_suffix _).subset h)

/-- Dropping a character at the end a second time changes nothing. -/
theorem dropTrailing_dropTrailing (c : Char) (s : String) :
    dropTrailing c (dropTrailing c s) = dropTrailing c s := by
  rw [dropTrailing, dropTrailing, String.toList_ofList, List.reverse_reverse,
    List.dropWhile_idempotent]

/-! ## Lists with commas -/

/-- A text that can be an entry of a list with commas. -/
structure IsEntry (s : String) : Prop where
  nonempty : s ≠ ""
  noComma : ',' ∉ s.toList
  start : ∀ c ∈ s.toList.head?, isBlank c = false
  stop : ∀ c ∈ s.toList.getLast?, isBlank c = false

/-- What may be a character is no blank. -/
theorem all_not_isBlank_iff {found : Option Char} :
    found.all (!isBlank ·) = true ↔ ∀ c ∈ found, isBlank c = false := by
  cases found with
  | none => exact iff_of_true rfl nofun
  | some c => simp

instance (s : String) : Decidable (IsEntry s) :=
  decidable_of_iff (s ≠ "" ∧ ',' ∉ s.toList ∧ s.toList.head?.all (!isBlank ·) = true
      ∧ s.toList.getLast?.all (!isBlank ·) = true)
    ⟨fun ⟨nonempty, noComma, start, stop⟩ =>
      ⟨nonempty, noComma, all_not_isBlank_iff.1 start, all_not_isBlank_iff.1 stop⟩,
      fun entry => ⟨entry.nonempty, entry.noComma, all_not_isBlank_iff.2 entry.start,
        all_not_isBlank_iff.2 entry.stop⟩⟩

/-- An entry is not changed by trimming. -/
theorem IsEntry.trim_eq {s : String} (entry : IsEntry s) : trim s = s := by
  rw [trim, trimChars_eq_self entry.start entry.stop, String.ofList_toList]

/-- An entry with a sign in front of it is an entry. -/
theorem IsEntry.cons {s : String} (entry : IsEntry s) {c : Char} (noComma : c ≠ ',')
    (plain : isBlank c = false) : IsEntry (.ofList (c :: s.toList)) := by
  have chars : s.toList ≠ [] := fun none => entry.nonempty (String.toList_inj.1 none)
  refine ⟨fun none => ?_, ?_, ?_, ?_⟩
  · have := congrArg String.toList none
    simp at this
  · rw [String.toList_ofList, List.mem_cons, not_or]
    exact ⟨noComma.symm, entry.noComma⟩
  · rw [String.toList_ofList]
    rintro _ ⟨⟩
    exact plain
  · rw [String.toList_ofList, List.getLast?_cons_of_ne_nil chars]
    exact entry.stop

/-- A list of entries with commas between them is read back. -/
theorem listItems_intercalate {entries : List String} (plain : ∀ s ∈ entries, IsEntry s) :
    listItems (",".intercalate entries) = entries := by
  cases entries with
  | nil => rfl
  | cons first others =>
    have pieces : splitOn ',' (",".intercalate (first :: others)) = first :: others :=
      splitOn_intercalate rfl (List.cons_ne_nil _ _) fun s mem => (plain s mem).noComma
    have trimmed : (first :: others).map trim = first :: others :=
      (List.map_congr_left fun s mem => (plain s mem).trim_eq).trans (List.map_id _)
    rw [listItems, pieces, trimmed]
    exact List.filter_eq_self.2 fun s mem => decide_eq_true (plain s mem).nonempty

end CatalogSearch.Text
