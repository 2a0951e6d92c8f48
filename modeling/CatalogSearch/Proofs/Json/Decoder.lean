import CatalogSearch.Proofs.Json.Readable

/-!
# What decoders yield

A decoder yields only values with a property if each of its parts does. So what is known of a record
that was read is what its members keep, whether it was written as an object or as an array.

* `Json.Decoder.Yields` : everything that a decoder takes out of a text has a property;
* `Json.Shape.yields_decode` : a record has what its start has and every member keeps.
-/

namespace CatalogSearch.Json

variable {α β : Type} {P : α → Prop} {Q : β → Prop}

/-- The readings in a list are sound one by one. -/
theorem Reading.elementsSound_iff {rs : List Reading} :
    Reading.ElementsSound rs ↔ ∀ r ∈ rs, r.Sound := by
  induction rs with
  | nil => exact iff_of_true trivial nofun
  | cons r rs ih => rw [ElementsSound, ih, List.forall_mem_cons]

namespace Decoder

/-- Everything that a decoder takes out of a reading of a text has a property. -/
def Yields (inner : Decoder α) (P : α → Prop) : Prop :=
  ∀ r, r.Sound → ∀ a, inner r = .ok a → P a

/-- There is a property that says nothing. -/
theorem yields_true (inner : Decoder α) : inner.Yields fun _ => True :=
  fun _ _ _ _ => trivial

/-- What is taken out of a whole text was taken out of its reading. -/
theorem Yields.document {inner : Decoder α} (h : inner.Yields P) {cs : List Char} {a : α}
    (taken : inner.document (.ofChars cs) = .ok a) : P a := by
  obtain ⟨b, decoded, taken⟩ := exists_of_bind_eq_ok taken
  split at taken
  · cases taken
  · cases taken
    exact h _ (sound_ofChars cs) _ decoded

/-- What is taken out of a whole text was taken out of its reading. -/
theorem Yields.text {inner : Decoder α} (h : inner.Yields P) {s : String} {a : α}
    (taken : inner.text s = .ok a) : P a :=
  h.document taken

/-- What may be null has the property if it is there. -/
theorem Yields.nullable {inner : Decoder α} (h : inner.Yields P) :
    (nullable inner).Yields fun found => ∀ a, found = some a → P a := by
  intro r sound found taken a there
  rw [Decoder.nullable.eq_def] at taken
  split at taken
  · cases taken
    cases there
  · obtain ⟨b, decoded, rfl⟩ := exists_of_map_eq_ok taken
    cases there
    exact h r sound a decoded

/-- Every element of an array has the property. -/
theorem Yields.list {inner : Decoder α} (h : inner.Yields P) :
    (list inner).Yields fun values => ∀ a ∈ values, P a := by
  intro r sound values taken a mem
  rw [Decoder.list.eq_def] at taken
  split at taken
  · obtain ⟨element, there, decoded⟩ := exists_of_mem_mapM taken mem
    exact h element (Reading.elementsSound_iff.1 sound element there) a decoded
  · cases taken

/-- The entries of an object have the property if those before them do. -/
theorem Yields.mapEntries {inner : Decoder α} (h : inner.Yields P)
    {members : List (Option String × Reading)} {before after : SortedMap α}
    (sound : Reading.MembersSound members) (kept : ∀ entry ∈ before.entries, P entry.2)
    (taken : mapEntries inner members before = .ok after) : ∀ entry ∈ after.entries, P entry.2 := by
  induction members generalizing before with
  | nil =>
    cases taken
    exact kept
  | cons member members ih =>
    obtain ⟨name, r⟩ := member
    cases name with
    | none => cases taken
    | some name =>
      obtain ⟨a, decoded, taken⟩ := exists_of_bind_eq_ok taken
      refine ih sound.2 (fun entry mem => ?_) taken
      rcases mem_insertEntry mem with rfl | mem
      · exact h r sound.1 a decoded
      · exact kept entry mem

/-- The entries of a map have the property. -/
theorem Yields.map {inner : Decoder α} (h : inner.Yields P) :
    (map inner).Yields fun m => ∀ entry ∈ m.entries, P entry.2 := by
  intro r sound m taken
  rw [Decoder.map.eq_def] at taken
  split at taken
  · exact h.mapEntries sound (fun _ mem => absurd mem List.not_mem_nil) taken
  · cases taken

/-- A value of any shape is readable with the levels of nesting that are left. -/
theorem yields_value (enclosing : ℕ) : (value enclosing).Yields (Readable (deepest - enclosing)) :=
  fun _ sound _ taken => readable_of_toJson sound taken

/-- So is an object. -/
theorem yields_members (enclosing : ℕ) :
    (members enclosing).Yields fun members => (obj members).Readable (deepest - enclosing) := by
  intro r sound taken h
  rw [Decoder.members.eq_def] at h
  split at h
  · obtain ⟨json, decoded, h⟩ := exists_of_bind_eq_ok h
    split at h
    · cases h
      exact yields_value enclosing _ sound _ decoded
    · cases h
  · cases h

/-- A natural number fits a word. -/
theorem yields_natural : natural.Yields (· ≤ maxWord) := by
  intro r sound n taken
  rw [natural.eq_def] at taken
  split at taken
  · split at taken
    · cases taken
      have fits : FitsWord _ := sound
      rw [maxWord]
      have := fits.2
      omega
    · cases taken
  · cases taken

end Decoder

/-! ## Records -/

/-- Reading a member keeps a property of the record. -/
def Member.Keeps (member : Member α) (P : α → Prop) : Prop :=
  ∀ r, r.Sound → ∀ f, member.read r = .ok f → ∀ a, P a → P (f a)

/-- A member keeps a property that setting it to any of its values keeps. -/
theorem Member.keeps_allow {name : String} {inner : Decoder β} {set : β → α → α}
    (h : inner.Yields Q) (sets : ∀ value, Q value → ∀ a, P a → P (set value a)) :
    (Member.allow name inner set).Keeps P := by
  intro r sound f taken a kept
  obtain ⟨value, decoded, rfl⟩ := exists_of_map_eq_ok taken
  exact sets value (h r sound value decoded) a kept

/-- So does a member that must be there. -/
theorem Member.keeps_need {name : String} {inner : Decoder β} {set : β → α → α}
    (h : inner.Yields Q) (sets : ∀ value, Q value → ∀ a, P a → P (set value a)) :
    (Member.need name inner set).Keeps P := by
  show (Member.allow name inner set).Keeps P
  exact keeps_allow h sets

/-- A member sets what its decoder takes out. -/
theorem Member.read_need {name : String} {inner : Decoder β} {set : β → α → α} {r : Reading}
    {value : β} (taken : inner r = .ok value) :
    (Member.need name inner set).read r = .ok (set value) := by
  show (inner r).map set = _
  rw [taken]
  rfl

/-- So does a member that may be left out. -/
theorem Member.read_allow {name : String} {inner : Decoder β} {set : β → α → α} {r : Reading}
    {value : β} (taken : inner r = .ok value) :
    (Member.allow name inner set).read r = .ok (set value) := by
  show (inner r).map set = _
  rw [taken]
  rfl

/-- So does one that may also be null. -/
theorem Member.read_nullable {name : String} {inner : Decoder β} {set : Option β → α → α}
    {out : β → Json} {value : Option β}
    (taken : ∀ b ∈ value, out b ≠ .null ∧ inner (.ofJson (out b)) = .ok b) :
    (Member.allow name (.nullable inner) set).read (.ofJson (orNull out value))
      = .ok (set value) :=
  read_allow (Decoder.nullable_ofJson out taken)

namespace Shape

variable {shape : Shape α}

/-- Members that are read keep the property of the record so far. -/
theorem readMembers_keeps (keeps : ∀ member ∈ shape.members, member.Keeps P)
    (noForeign : ∀ enclosing add, shape.foreign ≠ .kept enclosing add)
    {members : List (Option String × Reading)} {seen : List String} {before after : α}
    (sound : Reading.MembersSound members) (kept : P before)
    (taken : shape.readMembers members seen before = .ok after) : P after := by
  induction members generalizing seen before with
  | nil =>
    rw [readMembers] at taken
    split at taken
    · cases taken
      exact kept
    · cases taken
  | cons member members ih =>
    obtain ⟨name, r⟩ := member
    cases name with
    | none => cases taken
    | some name =>
      rw [readMembers] at taken
      split at taken
      · next member found =>
        split at taken
        · cases taken
        · obtain ⟨f, decoded, taken⟩ := exists_of_bind_eq_ok taken
          refine ih sound.2 ?_ taken
          exact keeps member (List.mem_of_find?_eq_some found) r sound.1 f decoded before kept
      · split at taken
        · exact ih sound.2 kept taken
        · cases taken
      · cases taken
      · next isKept => exact absurd isKept (noForeign _ _)

/-- Members that are read by their place keep the property of the record so far. -/
theorem readPlaces_keeps {members : List (Member α)} {rs : List Reading} {before after : α}
    (keeps : ∀ member ∈ members, member.Keeps P) (sound : Reading.ElementsSound rs)
    (kept : P before) (taken : readPlaces members rs before = .ok after) : P after := by
  induction members generalizing rs before with
  | nil =>
    cases rs with
    | nil =>
      cases taken
      exact kept
    | cons r rs => cases taken
  | cons member members ih =>
    cases rs with
    | nil =>
      rw [readPlaces] at taken
      split at taken
      · cases taken
      · cases taken
        exact kept
      · nofun
    | cons r rs =>
      obtain ⟨f, decoded, taken⟩ := exists_of_bind_eq_ok taken
      obtain ⟨first, others⟩ := List.forall_mem_cons.1 keeps
      exact ih others sound.2 (first r sound.1 f decoded before kept) taken

/-- A record has the property that its start has and every member keeps. -/
theorem yields_decode (start : P shape.start) (keeps : ∀ member ∈ shape.members, member.Keeps P)
    (noForeign : ∀ enclosing add, shape.foreign ≠ .kept enclosing add) : shape.decode.Yields P := by
  intro r sound a taken
  cases r with
  | list elements => exact readPlaces_keeps keeps sound start taken
  | record members => exact readMembers_keeps keeps noForeign sound start taken
  | _ => cases taken

/-! ## Objects, member by member -/

/--
A record is read from an object whose members stand in any order, if each of them brings the record
from what is read with the names so far to what is read with its own name as well.
-/
theorem readMembers_ofMembers (upTo : List String → α) {members : List (String × Json)}
    {seen : List String} (distinct : (members.map (·.1)).Nodup)
    (fresh : ∀ entry ∈ members, entry.1 ∉ seen)
    (reads : ∀ entry ∈ members, ∃ member, shape.members.find? (·.name = entry.1) = some member
      ∧ ∃ f, member.read (.ofJson entry.2) = .ok f ∧ ∀ seen, f (upTo seen) = upTo (entry.1 :: seen))
    (complete : ∀ member ∈ shape.members, member.required = true →
      member.name ∈ members.map (·.1) ∨ member.name ∈ seen) :
    shape.readMembers (Reading.ofMembers members) seen (upTo seen)
      = .ok (upTo ((members.map (·.1)).reverse ++ seen)) := by
  induction members generalizing seen with
  | nil =>
    have all : (shape.members.all fun m => !m.required || seen.contains m.name) = true := by
      refine List.all_eq_true.2 fun member mem => ?_
      cases required : member.required with
      | false => rfl
      | true =>
        have there := (complete member mem required).resolve_left List.not_mem_nil
        simp [there]
    rw [Reading.ofMembers, readMembers, if_pos all]
    rfl
  | cons entry members ih =>
    obtain ⟨name, value⟩ := entry
    obtain ⟨others, distinct⟩ := List.nodup_cons.1 distinct
    obtain ⟨isNew, fresh⟩ := List.forall_mem_cons.1 fresh
    obtain ⟨⟨member, found, f, taken, brings⟩, reads⟩ := List.forall_mem_cons.1 reads
    have notSeen : ¬ seen.contains name = true := by simpa using isNew
    have freshBehind : ∀ later ∈ members, later.1 ∉ name :: seen := by
      intro later mem
      rw [List.mem_cons, not_or]
      exact ⟨fun same => others (List.mem_map.2 ⟨later, mem, same⟩), fresh later mem⟩
    have completeBehind : ∀ member ∈ shape.members, member.required = true →
        member.name ∈ members.map (·.1) ∨ member.name ∈ name :: seen := by
      intro m mem required
      have there := complete m mem required
      rw [List.map_cons, List.mem_cons] at there
      rw [List.mem_cons]
      tauto
    have rest := ih distinct freshBehind reads completeBehind
    rw [Reading.ofMembers, readMembers, found]
    dsimp only
    rw [if_neg notSeen, taken]
    show shape.readMembers _ (name :: seen) (f (upTo seen)) = _
    rw [brings, rest, List.map_cons, List.reverse_cons, List.append_assoc, List.singleton_append]

/--
So a record is read back from the object of its members, in whatever order they stand, if it is what
is read with all their names.
-/
theorem decode_ofPerm (upTo : List String → α) {members written : List (String × Json)} {a : α}
    (order : written.Perm members) (distinct : (members.map (·.1)).Nodup)
    (reads : ∀ entry ∈ members, ∃ member, shape.members.find? (·.name = entry.1) = some member
      ∧ ∃ f, member.read (.ofJson entry.2) = .ok f ∧ ∀ seen, f (upTo seen) = upTo (entry.1 :: seen))
    (complete : ∀ member ∈ shape.members, member.required = true → member.name ∈ members.map (·.1))
    (start : upTo [] = shape.start)
    (whole : ∀ names, (∀ entry ∈ members, entry.1 ∈ names) → upTo names = a) :
    shape.decode (.ofJson (.obj written)) = .ok a := by
  have names (name : String) : name ∈ written.map (·.1) ↔ name ∈ members.map (·.1) :=
    (order.map (·.1)).mem_iff
  have read : shape.readMembers (Reading.ofMembers written) [] (upTo [])
      = .ok (upTo ((written.map (·.1)).reverse ++ [])) := by
    refine readMembers_ofMembers upTo (((order.map (·.1)).nodup_iff).2 distinct)
      (fun _ _ => List.not_mem_nil) (fun entry mem => reads entry (order.mem_iff.1 mem)) ?_
    exact fun member mem required => Or.inl ((names _).2 (complete member mem required))
  show shape.readMembers (Reading.ofMembers written) [] shape.start = .ok a
  rw [← start, read]
  refine congrArg Except.ok (whole _ fun entry mem => ?_)
  rw [List.append_nil, List.mem_reverse, names]
  exact List.mem_map_of_mem mem

end Shape

end CatalogSearch.Json
