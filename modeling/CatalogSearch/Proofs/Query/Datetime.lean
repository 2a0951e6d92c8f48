import CatalogSearch.Proofs.Outcome
import CatalogSearch.Proofs.Query.Comparison
import CatalogSearch.Proofs.Text.Split
import CatalogSearch.Query.Datetime

/-!
# What datetime filters say

A datetime filter is written as an instant, or as two ends with a slash between them. Blanks around
the whole and around each end do not count, an end that is empty or two dots is open, and the ends
are neither both open nor out of order. Any other text is refused. A filter that is accepted always
asks something of an item: that it is of the instant, or of an instant between the ends.

* `DatetimeFilter.ofText?_eq_ok_iff` : the texts that say a filter;
* `DatetimeFilter.matches_comparisons_iff` : the items that pass a filter;
* `DatetimeFilter.grammar_and_meaning` : both, and what happens to other texts.
-/

namespace CatalogSearch

/-! ## Grammar -/

namespace DatetimeFilter

/-- A text denotes an end of an interval, an open one if it is empty or two dots. -/
inductive DenotesEnd (s : String) : Option Timestamp → Prop
  | absent (core : Text.IsCore "" s) : DenotesEnd s none
  | dots (core : Text.IsCore ".." s) : DenotesEnd s none
  | moment {core : String} {t : Timestamp} (trimmed : Text.IsCore core s)
      (read : Timestamp.ofText core = .ok t) : DenotesEnd s (some t)

/-- A text denotes a filter. -/
inductive Denotes (s : String) : DatetimeFilter → Prop
  | instant {core : String} {t : Timestamp} (trimmed : Text.IsCore core s)
      (whole : '/' ∉ core.toList) (read : Timestamp.ofText core = .ok t) : Denotes s (.instant t)
  | interval {first last : String} {start stop : Option Timestamp}
      (trimmed : Text.IsCore (first ++ "/" ++ last) s) (apart : '/' ∉ first.toList)
      (hstart : DenotesEnd first start) (hstop : DenotesEnd last stop)
      (closed : start ≠ none ∨ stop ≠ none)
      (inOrder : ∀ t u, start = some t → stop = some u → t.rank ≤ u.rank) :
      Denotes s (.interval start stop)

/-- Neither nothing nor two dots are an instant. -/
theorem not_ofText_open {s : String} (isOpen : s = "" ∨ s = "..") (t : Timestamp) :
    Timestamp.ofText s ≠ .ok t := by
  rcases isOpen with rfl | rfl <;> exact nofun

/-- The ends of intervals that texts say. -/
theorem bound?_eq_ok_iff {s : String} {stop : Option Timestamp} :
    bound? s = .ok stop ↔ DenotesEnd s stop := by
  rw [bound?]
  split
  · next isOpen =>
    constructor
    · intro found
      cases found
      rcases isOpen with empty | dots
      · exact .absent (Text.isCore_iff.2 empty)
      · exact .dots (Text.isCore_iff.2 dots)
    · intro denotes
      cases denotes with
      | absent => rfl
      | dots => rfl
      | moment trimmed read =>
        rw [← trimmed.trim_eq] at read
        exact absurd read (not_ofText_open isOpen _)
  · next notOpen =>
    constructor
    · intro found
      obtain ⟨t, read, rfl⟩ := exists_of_map_eq_ok found
      exact .moment (Text.isCore_trim s) (mapError_eq_ok_iff.1 read)
    · intro denotes
      cases denotes with
      | absent core => exact absurd (Or.inl core.trim_eq) notOpen
      | dots core => exact absurd (Or.inr core.trim_eq) notOpen
      | moment trimmed read =>
        rw [← trimmed.trim_eq] at read
        rw [instant?, mapError_eq_ok_iff.2 read]
        rfl

/-- Two ends make an interval if they are neither both open nor out of order. -/
theorem between?_eq_ok_iff {start stop : Option Timestamp} {filter : DatetimeFilter} :
    between? start stop = .ok filter
      ↔ filter = .interval start stop ∧ (start ≠ none ∨ stop ≠ none)
        ∧ ∀ t u, start = some t → stop = some u → t.rank ≤ u.rank := by
  cases start with
  | none =>
    cases stop with
    | none => simp [between?]
    | some u => simp [between?, eq_comm]
  | some t =>
    cases stop with
    | none => simp [between?, eq_comm]
    | some u =>
      rw [between?]
      split
      · next after => simp [after]
      · next inOrder => simp [Int.not_lt.1 inOrder, eq_comm]

/-- The filters that texts say. -/
theorem ofText?_eq_ok_iff {s : String} {filter : DatetimeFilter} :
    ofText? s = .ok filter ↔ Denotes s filter := by
  rw [ofText?, mapError_eq_ok_iff, ofTrimmed?]
  constructor
  · intro found
    split at found
    · next whole =>
      obtain ⟨t, read, rfl⟩ := exists_of_map_eq_ok found
      exact .instant (Text.isCore_trim s) (Text.splitFirst?_eq_none_iff.1 whole)
        (mapError_eq_ok_iff.1 read)
    · next first last parts =>
      obtain ⟨start, hstart, found⟩ := exists_of_bind_eq_ok found
      obtain ⟨stop, hstop, found⟩ := exists_of_bind_eq_ok found
      obtain ⟨rfl, closed, inOrder⟩ := between?_eq_ok_iff.1 found
      obtain ⟨whole, apart⟩ := Text.splitFirst?_eq_some_iff.1 parts
      have trimmed : Text.trim s = first ++ "/" ++ last := by
        rw [← String.toList_inj, whole]
        simp
      exact .interval (Text.isCore_iff.2 trimmed) apart (bound?_eq_ok_iff.1 hstart)
        (bound?_eq_ok_iff.1 hstop) closed inOrder
  · intro denotes
    cases denotes with
    | instant trimmed whole read =>
      rw [trimmed.trim_eq, Text.splitFirst?_eq_none_iff.2 whole]
      show (instant? _).map DatetimeFilter.instant = _
      rw [instant?, mapError_eq_ok_iff.2 read]
      rfl
    | @interval first last start stop trimmed apart hstart hstop closed inOrder =>
      have parts : Text.splitFirst? '/' (first ++ "/" ++ last) = some (first, last) :=
        Text.splitFirst?_eq_some_iff.2 ⟨by simp, apart⟩
      rw [trimmed.trim_eq, parts]
      show (do
        let start ← bound? first
        let stop ← bound? last
        between? start stop) = _
      rw [bound?_eq_ok_iff.2 hstart, bound?_eq_ok_iff.2 hstop]
      exact between?_eq_ok_iff.2 ⟨rfl, closed, inOrder⟩

end DatetimeFilter

/-! ## Instants -/

/-- An item is of an instant if its property of that purpose is a text that reads as the instant. -/
def Item.Dated (item : Item) (t : Timestamp) : Prop :=
  ∃ s, item.properties.lookup "datetime" = some (.str s) ∧ Timestamp.ofText s = .ok t

/-- An item is of an instant exactly if it has it as a value of the temporal field. -/
theorem Item.has_temporalField_iff {item : Item} {value : FieldValue} :
    item.Has FieldRegistry.temporalField value ↔ ∃ t, value = .timestamp t ∧ item.Dated t := by
  rw [Item.Has, show FieldRegistry.temporalField.place = ["properties", "datetime"] from rfl,
    Item.at?_property]
  constructor
  · rintro ⟨json, found, read⟩
    cases json with
    | str s =>
      obtain ⟨t, ofText, rfl⟩ := Option.map_eq_some_iff.1 read
      cases parsed : Timestamp.ofText s with
      | error e =>
        rw [parsed] at ofText
        cases ofText
      | ok t' =>
        rw [parsed] at ofText
        cases ofText
        exact ⟨t, rfl, s, found, parsed⟩
    | _ => cases read
  · rintro ⟨t, rfl, s, found, parsed⟩
    refine ⟨.str s, found, ?_⟩
    show (Timestamp.ofText s).toOption.map FieldValue.timestamp = _
    rw [parsed]
    rfl

/-- An instant passes a datetime filter: it is the one, or it is in the closed interval. -/
def DatetimeFilter.Admits : DatetimeFilter → Timestamp → Prop
  | instant moment, t => t = moment
  | interval start stop, t =>
    (∀ first, start = some first → first.rank ≤ t.rank)
      ∧ ∀ last, stop = some last → t.rank ≤ last.rank

/-- Earlier instants are lesser values. -/
theorem Timestamp.rank_le_iff {s t : Timestamp} :
    s.rank ≤ t.rank ↔ s = t ∨ (FieldValue.timestamp s).order (.timestamp t) = .lt := by
  rw [FieldValue.order, Int.compare_eq_lt, Int.le_iff_eq_or_lt]
  exact or_congr_left ⟨Timestamp.rank_injective, congrArg Timestamp.rank⟩

/-- An item matches a comparison of instants if it is of an instant that is related to the other. -/
theorem DatetimeFilter.matchesItem_comparison_iff {operator : Operator} {moment : Timestamp}
    {item : Item} :
    (comparison operator moment).matchesItem item = true
      ↔ ∃ t, item.Dated t ∧ operator.Relates (.timestamp t) (.timestamp moment) := by
  have placed : (comparison operator moment).field.WellPlaced :=
    Field.wellPlaced_property "datetime" .timestamp
  rw [Comparison.matchesItem_iff placed]
  constructor
  · rintro ⟨value, has, related⟩
    obtain ⟨t, rfl, dated⟩ := Item.has_temporalField_iff.1 has
    exact ⟨t, dated, related⟩
  · rintro ⟨t, dated, related⟩
    exact ⟨.timestamp t, Item.has_temporalField_iff.2 ⟨t, rfl, dated⟩, related⟩

/-- An item is of one instant at most. -/
theorem Item.Dated.unique {item : Item} {s t : Timestamp} (hs : item.Dated s) (ht : item.Dated t) :
    s = t := by
  obtain ⟨text, found, read⟩ := hs
  obtain ⟨text', found', read'⟩ := ht
  cases found.symm.trans found'
  exact Except.ok.inj (read.symm.trans read')

/-- An interval that a text says has at least one end. -/
theorem DatetimeFilter.interval_ne_open_of_ofText? {s : String} {start stop : Option Timestamp}
    (h : ofText? s = .ok (interval start stop)) : start ≠ none ∨ stop ≠ none := by
  cases ofText?_eq_ok_iff.1 h with
  | interval _ _ _ _ closed _ => exact closed

/-- The comparisons of a datetime filter that a text says hold of an item of such an instant. -/
theorem DatetimeFilter.matches_comparisons_iff {s : String} {filter : DatetimeFilter} {item : Item}
    (h : ofText? s = .ok filter) :
    (∀ comparison ∈ filter.comparisons, comparison.matchesItem item = true)
      ↔ ∃ t, item.Dated t ∧ filter.Admits t := by
  have from_ : ∀ first, (comparison .ge first).matchesItem item = true
      ↔ ∃ t, item.Dated t ∧ first.rank ≤ t.rank := by
    intro first
    rw [matchesItem_comparison_iff]
    simp only [Operator.Relates, Timestamp.rank_le_iff, FieldValue.timestamp.injEq, eq_comm]
  have upTo : ∀ last, (comparison .le last).matchesItem item = true
      ↔ ∃ t, item.Dated t ∧ t.rank ≤ last.rank := by
    intro last
    rw [matchesItem_comparison_iff]
    simp only [Operator.Relates, Timestamp.rank_le_iff, FieldValue.timestamp.injEq]
  cases filter with
  | instant moment =>
    simp only [comparisons, List.mem_singleton, forall_eq, matchesItem_comparison_iff,
      Operator.Relates, FieldValue.timestamp.injEq, Admits]
  | interval start stop =>
    have someEnd := interval_ne_open_of_ofText? h
    cases start with
    | none =>
      cases stop with
      | none => exact absurd rfl (someEnd.resolve_left (not_not_intro rfl))
      | some last => simp [comparisons, Admits, upTo]
    | some first =>
      cases stop with
      | none => simp [comparisons, Admits, from_]
      | some last =>
        simp only [comparisons, Option.map_some, Option.toList_some, List.cons_append,
          List.nil_append, List.mem_cons, List.not_mem_nil, or_false, forall_eq_or_imp, forall_eq,
          from_, upTo, Admits, Option.some.injEq, forall_eq']
        constructor
        · rintro ⟨⟨t, dated, after⟩, t', dated', before⟩
          cases dated.unique dated'
          exact ⟨t, dated, after, before⟩
        · rintro ⟨t, dated, after, before⟩
          exact ⟨⟨t, dated, after⟩, t, dated, before⟩

/-- A filter that a text says has comparisons. -/
theorem DatetimeFilter.comparisons_ne_nil {s : String} {filter : DatetimeFilter}
    (h : ofText? s = .ok filter) : filter.comparisons ≠ [] := by
  cases filter with
  | instant moment => exact List.cons_ne_nil _ _
  | interval start stop =>
    rcases interval_ne_open_of_ofText? h with there | there
    · obtain ⟨first, rfl⟩ := Option.ne_none_iff_exists'.1 there
      exact List.cons_ne_nil _ _
    · obtain ⟨last, rfl⟩ := Option.ne_none_iff_exists'.1 there
      exact List.append_ne_nil_of_right_ne_nil _ (List.cons_ne_nil _ _)

/--
A text is accepted as a datetime filter exactly if it denotes one, which is then the filter that is
read, and every other text is refused as it was written. A filter that is accepted has comparisons,
and these hold of an item exactly if it is of an instant that passes the filter.
-/
theorem DatetimeFilter.grammar_and_meaning (raw : String) :
    (∀ filter, ofText? raw = .ok filter ↔ Denotes raw filter)
      ∧ ((¬ ∃ filter, Denotes raw filter)
        ↔ ∃ fault, ofText? raw = .error (.invalidTemporalRange raw fault))
      ∧ ∀ filter, ofText? raw = .ok filter → filter.comparisons ≠ []
        ∧ ∀ item, matchesAll (filter.comparisons.map .compare) item = true
          ↔ ∃ t, item.Dated t ∧ filter.Admits t := by
  refine ⟨fun filter => ofText?_eq_ok_iff, ?_, fun filter accepted => ?_⟩
  · simp only [← ofText?_eq_ok_iff]
    cases read : ofText? raw with
    | ok filter => exact iff_of_false (fun none => none ⟨filter, rfl⟩) nofun
    | error e =>
      obtain ⟨fault, _, rfl⟩ := exists_of_mapError_eq_error read
      exact iff_of_true nofun ⟨fault, rfl⟩
  · refine ⟨comparisons_ne_nil accepted, fun item => ?_⟩
    rw [matchesAll_compare_iff, matches_comparisons_iff accepted]

/-! ## An interval with blanks in it -/

namespace Sample

/-- From a leap second on, with blanks around the interval and around its ends. -/
def spacedInterval : String := "\t2016-12-31T23:59:60Z /\n.. "

/-- An item of the next half second, which is written in another zone. -/
def halfSecondLater : Item :=
  { Item.blank with properties := [("datetime", .str "2017-01-01T00:59:60.5+01:00")] }

/-- The interval is accepted and the item is in it; with two open ends it would be refused. -/
theorem halfSecondLater_in_spacedInterval :
    (∃ filter, DatetimeFilter.Denotes spacedInterval filter
        ∧ matchesAll (filter.comparisons.map .compare) halfSecondLater = true
        ∧ ∃ t, halfSecondLater.Dated t ∧ filter.Admits t)
      ∧ ¬ ∃ filter, DatetimeFilter.Denotes " ../" filter := by
  have found : (DatetimeFilter.ofText? spacedInterval).toOption.any (fun filter =>
      matchesAll (filter.comparisons.map .compare) halfSecondLater) = true := by decide +kernel
  obtain ⟨filter, accepted, satisfied⟩ := exists_of_toOption_any found
  obtain ⟨grammar, _, meaning⟩ := DatetimeFilter.grammar_and_meaning spacedInterval
  obtain ⟨_, items⟩ := meaning filter accepted
  refine ⟨⟨filter, (grammar filter).1 accepted, satisfied, (items _).1 satisfied⟩, ?_⟩
  exact (DatetimeFilter.grammar_and_meaning " ../").2.1.2 ⟨.bothEndsOpen, rfl⟩

end Sample

end CatalogSearch
