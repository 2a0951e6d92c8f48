import CatalogSearch.Json.Decoder
import CatalogSearch.Proofs.Json.Object
import CatalogSearch.Proofs.Json.Reading
import CatalogSearch.Proofs.Outcome

/-!
# Values that can be read

A value that was taken out of a text has integers of words, members in increasing order, and no more
than so many arrays and objects around one another. These are the values that are taken out of their
own text as they are.

* `Json.Readable` : values with so many levels of nesting;
* `Json.Readable.toJson_ofJson` : such a value is taken out of its own text;
* `Json.readable_of_toJson` : every value that is taken out of a text is such a value.
-/

namespace CatalogSearch.Json

/-! ## Values with limited nesting -/

mutual

/-- A value that fits words, is sorted, and has at most `depth` levels of nesting. -/
def Readable (depth : ℕ) : Json → Prop
  | int n => FitsWord n
  | arr elements => 0 < depth ∧ ElementsReadable (depth - 1) elements
  | obj members =>
    0 < depth ∧ members.Pairwise (·.1 < ·.1) ∧ MembersReadable (depth - 1) members
  | _ => True

/-- Every value of a list is readable. -/
def ElementsReadable (depth : ℕ) : List Json → Prop
  | [] => True
  | value :: values => value.Readable depth ∧ ElementsReadable depth values

/-- The value of every member of a list is readable. -/
def MembersReadable (depth : ℕ) : List (String × Json) → Prop
  | [] => True
  | (_, value) :: members => value.Readable depth ∧ MembersReadable depth members

end

variable {depth : ℕ}

/-- The members of a list are readable one by one. -/
theorem membersReadable_iff {members : List (String × Json)} :
    MembersReadable depth members ↔ ∀ member ∈ members, member.2.Readable depth := by
  induction members with
  | nil => exact iff_of_true trivial nofun
  | cons member members ih => rw [MembersReadable, ih, List.forall_mem_cons]

/-- What is found among readable members is readable. -/
theorem readable_of_lookup {members : List (String × Json)} {name : String} {value : Json}
    (h : MembersReadable depth members) (found : members.lookup name = some value) :
    value.Readable depth := by
  obtain ⟨before, after, rfl, _⟩ := List.lookup_eq_some_iff.1 found
  exact membersReadable_iff.1 h (name, value) (List.mem_append_right _ List.mem_cons_self)

-- One case for each kind of value, as in the definition.
mutual

/-- With more levels of nesting no less is readable. -/
theorem Readable.mono : ∀ {value : Json} {depth deeper : ℕ}, value.Readable depth →
    depth ≤ deeper → value.Readable deeper
  | .null, _, _, _, _ => trivial
  | .bool _, _, _, _, _ => trivial
  | .int _, _, _, h, _ => h
  | .float _, _, _, _, _ => trivial
  | .str _, _, _, _, _ => trivial
  | .arr _, _, _, h, le => ⟨by have := h.1; omega, elementsReadable_mono h.2 (by omega)⟩
  | .obj _, _, _, h, le =>
    ⟨by have := h.1; omega, h.2.1, membersReadable_mono h.2.2 (by omega)⟩

/-- With more levels of nesting no less is readable. -/
theorem elementsReadable_mono : ∀ {values : List Json} {depth deeper : ℕ},
    ElementsReadable depth values → depth ≤ deeper → ElementsReadable deeper values
  | [], _, _, _, _ => trivial
  | _ :: _, _, _, h, le => ⟨h.1.mono le, elementsReadable_mono h.2 le⟩

/-- With more levels of nesting no less is readable. -/
theorem membersReadable_mono : ∀ {members : List (String × Json)} {depth deeper : ℕ},
    MembersReadable depth members → depth ≤ deeper → MembersReadable deeper members
  | [], _, _, _, _ => trivial
  | _ :: _, _, _, h, le => ⟨h.1.mono le, membersReadable_mono h.2 le⟩

end

mutual

/-- The integers of a readable value fit words. -/
theorem Readable.fitsWords : ∀ {value : Json} {depth : ℕ}, value.Readable depth → value.FitsWords
  | .null, _, _ => trivial
  | .bool _, _, _ => trivial
  | .int _, _, h => h
  | .float _, _, _ => trivial
  | .str _, _, _ => trivial
  | .arr _, _, h => elementsFit_of_readable h.2
  | .obj _, _, h => membersFit_of_readable h.2.2

/-- The integers of readable values fit words. -/
theorem elementsFit_of_readable : ∀ {values : List Json} {depth : ℕ},
    ElementsReadable depth values → ElementsFit values
  | [], _, _ => trivial
  | _ :: _, _, h => ⟨h.1.fitsWords, elementsFit_of_readable h.2⟩

/-- The integers of readable members fit words. -/
theorem membersFit_of_readable : ∀ {members : List (String × Json)} {depth : ℕ},
    MembersReadable depth members → MembersFit members
  | [], _, _ => trivial
  | _ :: _, _, h => ⟨h.1.fitsWords, membersFit_of_readable h.2⟩

end

/-! ## Taking a value out of its own text -/

mutual

/-- A readable value is taken out of its reading. -/
theorem Readable.toJson_ofJson : ∀ {value : Json} {depth : ℕ}, value.Readable depth →
    (Reading.ofJson value).toJson depth = .ok value
  | .null, _, _ => rfl
  | .bool _, _, _ => rfl
  | .int _, _, _ => rfl
  | .float _, _, _ => rfl
  | .str _, _, _ => rfl
  | .arr elements, depth, h => by
    rw [Reading.ofJson, Reading.toJson, if_neg (by have := h.1; omega),
      toElements_ofElements h.2]
    rfl
  | .obj members, depth, h => by
    rw [Reading.ofJson, Reading.toJson, if_neg (by have := h.1; omega), toMembers_ofMembers h.2.2]
    exact congrArg (Except.ok ∘ obj) (sortMembers_of_sorted h.2.1)

/-- Readable values are taken out of their readings. -/
theorem toElements_ofElements : ∀ {values : List Json} {depth : ℕ},
    ElementsReadable depth values →
    Reading.toElements depth (Reading.ofElements values) = .ok values
  | [], _, _ => rfl
  | _ :: _, _, h => by
    rw [Reading.ofElements, Reading.toElements, h.1.toJson_ofJson, toElements_ofElements h.2]
    rfl

/-- Readable members are taken out of their readings. -/
theorem toMembers_ofMembers : ∀ {members : List (String × Json)} {depth : ℕ},
    MembersReadable depth members →
    Reading.toMembers depth (Reading.ofMembers members) = .ok members
  | [], _, _ => rfl
  | _ :: _, _, h => by
    rw [Reading.ofMembers, Reading.toMembers, h.1.toJson_ofJson, toMembers_ofMembers h.2]
    rfl

end

/-- A list is taken out of the reading of its array if its elements are. -/
theorem Decoder.list_ofJson {α : Type} {inner : Decoder α} (out : α → Json) {xs : List α}
    (taken : ∀ x ∈ xs, inner (.ofJson (out x)) = .ok x) :
    Decoder.list inner (.ofJson (.arr (xs.map out))) = .ok xs := by
  show (Reading.ofElements (xs.map out)).mapM inner = .ok xs
  induction xs with
  | nil => rfl
  | cons x xs ih =>
    obtain ⟨first, others⟩ := List.forall_mem_cons.1 taken
    rw [List.map_cons, Reading.ofElements, List.mapM_cons, first, ih others]
    rfl

/-- What may be absent is taken out of the reading of null or of its value, which is not null. -/
theorem Decoder.nullable_ofJson {α : Type} {inner : Decoder α} (out : α → Json) {value : Option α}
    (taken : ∀ a ∈ value, out a ≠ .null ∧ inner (.ofJson (out a)) = .ok a) :
    Decoder.nullable inner (.ofJson (orNull out value)) = .ok value := by
  cases value with
  | none => rfl
  | some a =>
    obtain ⟨notNull, inside⟩ := taken a rfl
    have reading : Reading.ofJson (out a) ≠ .null := by
      cases json : out a with
      | null => exact absurd json notNull
      | _ => exact nofun
    rw [orNull, Option.map_some, Option.getD_some, nullable.eq_2 _ _ reading, inside]
    rfl

/-- A set is taken out of the reading of the array of its members. -/
theorem Decoder.stringSet_ofJson (set : StringSet) :
    Decoder.stringSet (.ofJson (.strings set.toList)) = .ok set := by
  have names : Decoder.list .string (.ofJson (.strings set.toList)) = .ok set.toList :=
    Decoder.list_ofJson .str fun _ _ => rfl
  rw [Decoder.stringSet, names]
  exact congrArg Except.ok set.insertAll_toList

/-- The members of a readable object are taken out of its reading. -/
theorem Decoder.members_ofJson {enclosing : ℕ} {members : List (String × Json)}
    (readable : (obj members).Readable (deepest - enclosing)) :
    Decoder.members enclosing (.ofJson (.obj members)) = .ok members := by
  have whole : Decoder.value enclosing (.ofJson (.obj members)) = .ok (.obj members) :=
    readable.toJson_ofJson
  show Decoder.value enclosing (.ofJson (.obj members)) >>= _ = _
  rw [whole]
  rfl

/-- A map is taken out of the reading of its object if its values are. -/
theorem Decoder.map_ofJson {α : Type} {inner : Decoder α} (out : α → Json) {m : SortedMap α}
    (taken : ∀ entry ∈ m.entries, inner (.ofJson (out entry.2)) = .ok entry.2) :
    Decoder.map inner (.ofJson (.obj (m.entries.map fun entry => (entry.1, out entry.2))))
      = .ok m := by
  -- The entries are inserted one after another, whatever is there already.
  have entries (entries : List (String × α)) (before : SortedMap α)
      (taken : ∀ entry ∈ entries, inner (.ofJson (out entry.2)) = .ok entry.2) :
      Decoder.mapEntries inner
        (Reading.ofMembers (entries.map fun entry => (entry.1, out entry.2))) before
        = .ok (before.insertAll entries) := by
    induction entries generalizing before with
    | nil => rfl
    | cons entry entries ih =>
      obtain ⟨first, others⟩ := List.forall_mem_cons.1 taken
      rw [List.map_cons, Reading.ofMembers, Decoder.mapEntries, first]
      exact ih (before.insert entry.1 entry.2) others
  rw [Reading.ofJson]
  refine (entries m.entries .empty taken).trans ?_
  exact congrArg Except.ok (SortedMap.ofList_entries m)

/-- A value is taken out of its own text by a decoder that takes it out of its reading. -/
theorem Decoder.text_render {α : Type} {inner : Decoder α} {value : Json} {a : α}
    (fits : value.FitsWords) (taken : inner (.ofJson value) = .ok a) :
    inner.text value.render = .ok a := by
  rw [Decoder.text, Document.ofText, render, String.toList_ofList, Document.ofChars_chars fits,
    Decoder.document, taken]
  rfl

/-! ## What a text says -/

mutual

/-- The numbers in a reading are scalars. -/
def Reading.Sound : Reading → Prop
  | .number (some value) => value.Readable 0
  | .list elements => Reading.ElementsSound elements
  | .record members => Reading.MembersSound members
  | _ => True

/-- The numbers in a list of readings are scalars. -/
def Reading.ElementsSound : List Reading → Prop
  | [] => True
  | r :: rs => r.Sound ∧ Reading.ElementsSound rs

/-- The numbers in the values of members are scalars. -/
def Reading.MembersSound : List (Option String × Reading) → Prop
  | [] => True
  | (_, r) :: members => r.Sound ∧ Reading.MembersSound members

end

/-- The value of a numeral is a scalar. -/
theorem readable_of_numeral {n : Numeral} {value : Json} (h : n.value? = some value) :
    value.Readable 0 := by
  simp only [Numeral.value?] at h
  split at h
  · next fits =>
    cases h
    have le := of_decide_eq_true (Bool.and_eq_true_iff.1 fits).2
    rw [maxWord] at le
    exact ⟨by omega, by omega⟩
  · split at h
    · next fits =>
      cases h
      simp only [Bool.and_eq_true, decide_eq_true_eq, fitsSigned_iff] at fits
      exact ⟨by omega, by omega⟩
    · obtain ⟨x, _, rfl⟩ := Option.map_eq_some_iff.1 h
      trivial

/-- A literal word is sound. -/
theorem sound_readWord {word : List Char} {value : Reading} (h : value.Sound) (cs : List Char) :
    (readWord word value cs).1.Sound := by
  rw [readWord]
  split
  · exact h
  · trivial

/-- What is read of a text is sound, whatever the text is. -/
theorem sound_read (fuel : ℕ) : ∀ cs : List Char, (readValue fuel cs).1.Sound
    ∧ Reading.ElementsSound (readElements fuel cs).1
    ∧ Reading.MembersSound (readMembers fuel cs).1 := by
  induction fuel with
  | zero => exact fun cs => ⟨trivial, ⟨trivial, trivial⟩, trivial, trivial⟩
  | succ fuel ih =>
    intro cs
    refine ⟨?_, ?_, ?_⟩
    · rw [readValue]
      split
      · trivial
      · split <;> trivial
      · split
        · trivial
        · exact (ih _).2.1
      · split
        · trivial
        · exact (ih _).2.2
      · exact sound_readWord (show Reading.Sound (.bool true) from trivial) _
      · exact sound_readWord (show Reading.Sound (.bool false) from trivial) _
      · exact sound_readWord (show Reading.Sound .null from trivial) _
      · split
        · trivial
        · next numeral _ _ =>
          show Reading.Sound (.number numeral.value?)
          cases value : numeral.value? with
          | none => trivial
          | some value => exact readable_of_numeral ‹_›
    · rw [readElements]
      have first := (ih cs).1
      split
      · next same =>
        rw [same] at first
        exact ⟨first, trivial⟩
      · next same =>
        rw [same] at first
        split
        · exact ⟨first, trivial⟩
        · exact ⟨first, (ih _).2.1⟩
        · exact ⟨first, trivial, trivial⟩
    · rw [readMembers]
      split
      · split
        · exact ⟨trivial, trivial⟩
        · dsimp only
          split
          · next behind _ =>
            have first := (ih behind).1
            split
            · next same =>
              rw [same] at first
              exact ⟨first, trivial⟩
            · next same =>
              rw [same] at first
              split
              · exact ⟨first, trivial⟩
              · exact ⟨first, (ih _).2.2⟩
              · exact ⟨first, trivial, trivial⟩
          · exact ⟨trivial, trivial⟩
      · exact ⟨trivial, trivial⟩

/-- The reading of a text is sound. -/
theorem sound_ofChars (cs : List Char) : (Document.ofChars cs).root.Sound := by
  have read := (sound_read (2 * cs.length + 2) cs).1
  rw [Document.ofChars]
  split
  · next same =>
    rw [same] at read
    exact read
  · next same =>
    rw [same] at read
    exact read

mutual

/-- A value that is taken out of a sound reading is readable. -/
theorem readable_of_toJson : ∀ {r : Reading} {depth : ℕ} {value : Json}, r.Sound →
    r.toJson depth = .ok value → value.Readable depth
  | .null, _, _, _, rfl => trivial
  | .bool _, _, _, _, rfl => trivial
  | .number (some _), _, _, sound, rfl => Readable.mono sound (Nat.zero_le _)
  | .text (some _), _, _, _, rfl => trivial
  | .list elements, depth, value, sound, h => by
    rw [Reading.toJson] at h
    split at h
    · cases h
    · obtain ⟨values, taken, rfl⟩ := exists_of_map_eq_ok h
      exact ⟨by omega, readable_of_toElements sound taken⟩
  | .record members, depth, value, sound, h => by
    rw [Reading.toJson] at h
    split at h
    · cases h
    · obtain ⟨values, taken, rfl⟩ := exists_of_map_eq_ok h
      refine ⟨by omega, pairwise_sortMembers _, membersReadable_iff.2 fun member mem => ?_⟩
      exact membersReadable_iff.1 (readable_of_toMembers sound taken) member
        (mem_of_mem_sortMembers mem)

/-- Values that are taken out of sound readings are readable. -/
theorem readable_of_toElements : ∀ {rs : List Reading} {depth : ℕ} {values : List Json},
    Reading.ElementsSound rs → Reading.toElements depth rs = .ok values →
    ElementsReadable depth values
  | [], _, _, _, rfl => trivial
  | r :: rs, depth, values, sound, h => by
    obtain ⟨value, taken, h⟩ := exists_of_bind_eq_ok h
    obtain ⟨others, rest, h⟩ := exists_of_bind_eq_ok h
    cases h
    exact ⟨readable_of_toJson sound.1 taken, readable_of_toElements sound.2 rest⟩

/-- Members that are taken out of sound readings are readable. -/
theorem readable_of_toMembers : ∀ {members : List (Option String × Reading)} {depth : ℕ}
    {values : List (String × Json)}, Reading.MembersSound members →
    Reading.toMembers depth members = .ok values → MembersReadable depth values
  | [], _, _, _, rfl => trivial
  | (some name, r) :: members, depth, values, sound, h => by
    obtain ⟨value, taken, h⟩ := exists_of_bind_eq_ok h
    obtain ⟨others, rest, h⟩ := exists_of_bind_eq_ok h
    cases h
    exact ⟨readable_of_toJson sound.1 taken, readable_of_toMembers sound.2 rest⟩

end

end CatalogSearch.Json
