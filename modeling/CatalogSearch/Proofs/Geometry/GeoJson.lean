import CatalogSearch.Geometry.GeoJson
import CatalogSearch.Proofs.Json.Decoder

/-!
# Geometries read back

A geometry keeps everything that its object says, so it is read back from the object that it is
written as. Written again it has no more levels of nesting than it was read with.

* `Geometry.Restores` : what was read is written as something that it is read from;
* `Geometry.restores_ofJson?` : geometries are restored;
* `Geometry.text_render` : a geometry of a text is read back from its own text.
-/

namespace CatalogSearch.Geometry

open Json (Readable)

variable {α β : Type} {depth : ℕ}

/-! ## Arrays of numbers -/

/-- What is read of a value is written as a value of no more nesting, of which it is read again. -/
def Restores (inner : Json → Option α) (out : α → Json) (depth : ℕ) : Prop :=
  ∀ value a, value.Readable depth → inner value = some a →
    (out a).Readable depth ∧ inner (out a) = some a

/-- A number is restored. -/
theorem restores_binary64 (depth : ℕ) : Restores Json.binary64? .float depth :=
  fun _ _ _ _ => ⟨trivial, rfl⟩

/-- An array is restored if its elements are. -/
theorem Restores.each {inner : Json → Option α} {out : α → Json}
    (h : Restores inner out (depth - 1)) : Restores (each? inner) (arrayOf out) depth := by
  intro value found readable taken
  cases value with
  | arr elements =>
    have elementwise : ∀ (elements : List Json) (found : List α),
        Json.ElementsReadable (depth - 1) elements → elements.mapM inner = some found →
        Json.ElementsReadable (depth - 1) (found.map out)
          ∧ (found.map out).mapM inner = some found := by
      intro elements
      induction elements with
      | nil =>
        rintro found _ ⟨⟩
        exact ⟨trivial, rfl⟩
      | cons element elements ih =>
        intro found readable taken
        rw [List.mapM_cons] at taken
        obtain ⟨a, first, taken⟩ := Option.bind_eq_some_iff.1 taken
        obtain ⟨others, rest, taken⟩ := Option.bind_eq_some_iff.1 taken
        cases taken
        obtain ⟨readableFirst, again⟩ := h element a readable.1 first
        obtain ⟨readableOthers, againOthers⟩ := ih others readable.2 rest
        refine ⟨⟨readableFirst, readableOthers⟩, ?_⟩
        rw [List.map_cons, List.mapM_cons, again, againOthers]
        rfl
    obtain ⟨readableOut, again⟩ := elementwise elements found readable.2 taken
    exact ⟨⟨readable.1, readableOut⟩, again⟩
  | _ => cases taken

/-- A position is restored. -/
theorem restores_position (depth : ℕ) : Restores position? positionJson depth := by
  intro value p readable taken
  obtain ⟨numbers, found, taken⟩ := Option.bind_eq_some_iff.1 taken
  have ⟨readableOut, again⟩ := (restores_binary64 (depth - 1)).each value numbers readable found
  split at taken
  · cases taken
    refine ⟨readableOut, ?_⟩
    rw [position?]
    exact congrArg (· >>= _) again
  · cases taken

/-- Coordinates of one kind are restored, and written with the name of the kind. -/
theorem Restores.coordinates {inner : Json → Option α} {out : α → Json}
    (h : Restores inner out depth) {make : α → Coordinates} {kind : String}
    (written : ∀ a, coordinatesJson (make a) = (kind, out a)) {value : Json}
    (readable : value.Readable depth) {c : Coordinates} (taken : (inner value).map make = some c) :
    (coordinatesJson c).1 = kind ∧ (coordinatesJson c).2.Readable depth
      ∧ (inner (coordinatesJson c).2).map make = some c := by
  obtain ⟨a, found, rfl⟩ := Option.map_eq_some_iff.1 taken
  obtain ⟨readableOut, again⟩ := h value a readable found
  rw [written, again]
  exact ⟨rfl, readableOut, rfl⟩

/-- The coordinates of a geometry are restored, and written with the name of their kind. -/
theorem restores_coordinates {kind : String} {value : Json} (readable : value.Readable depth)
    {c : Coordinates} (taken : coordinates? kind value = some c) :
    (coordinatesJson c).1 = kind ∧ (coordinatesJson c).2.Readable depth
      ∧ coordinates? kind (coordinatesJson c).2 = some c := by
  have places (depth : ℕ) : Restores (each? position?) (arrayOf positionJson) depth :=
    (restores_position _).each
  have rows (depth : ℕ) :
      Restores (each? (each? position?)) (arrayOf (arrayOf positionJson)) depth :=
    (places _).each
  rw [coordinates?.eq_def] at taken
  split at taken
  · exact (restores_position depth).coordinates (fun _ => rfl) readable taken
  · exact (places depth).coordinates (fun _ => rfl) readable taken
  · exact (places depth).coordinates (fun _ => rfl) readable taken
  · exact (rows depth).coordinates (fun _ => rfl) readable taken
  · exact (rows depth).coordinates (fun _ => rfl) readable taken
  · exact (rows (depth - 1)).each.coordinates (fun _ => rfl) readable taken
  · cases taken

/-! ## Members -/

/-- The members of other names are found under their names. -/
theorem lookup_membersExcept (names : List String) (members : List (String × Json))
    (name : String) :
    (membersExcept names members).lookup name
      = if name ∈ names then none else members.lookup name := by
  induction members with
  | nil => exact (ite_self _).symm
  | cons member members ih =>
    obtain ⟨other, value⟩ := member
    rw [membersExcept, List.filter_cons]
    by_cases mem : other ∈ names
    · rw [if_neg (by simp [mem]), lookup_cons]
      refine ih.trans ?_
      by_cases same : name = other
      · rw [if_pos (same ▸ mem), if_pos (same ▸ mem)]
      · rw [if_neg same]
    · rw [if_pos (by simp [mem]), lookup_cons, lookup_cons]
      by_cases same : name = other
      · rw [if_pos same, if_neg (same ▸ mem), if_pos same]
      · rw [if_neg same, if_neg same]
        exact ih

/-- The parts of a collection are an array of geometries under that name. -/
theorem geometriesIn?_eq (members : List (String × Json)) :
    geometriesIn? members = (members.lookup "geometries").bind (each? ofJson?) := by
  have elements (values : List Json) : geometryElements? values = values.mapM ofJson? := by
    induction values with
    | nil => rfl
    | cons value values ih => rw [geometryElements?, ih, List.mapM_cons]
  have array (value : Json) : geometryArray? value = each? ofJson? value := by
    cases value with
    | arr values => exact elements values
    | _ => rfl
  induction members with
  | nil => rfl
  | cons member members ih =>
    obtain ⟨name, value⟩ := member
    rw [geometriesIn?, lookup_cons]
    by_cases same : name = "geometries"
    · rw [if_pos same, if_pos same.symm, array]
      rfl
    · rw [if_neg same, if_neg (Ne.symm same), ih]

/-- Geometries are written one by one. -/
theorem geometriesJson_eq_map (geometries : List Geometry) :
    geometriesJson geometries = geometries.map toJson := by
  induction geometries with
  | nil => rfl
  | cons geometry geometries ih => rw [geometriesJson, ih, List.map_cons]

/-- The members of an object of a kind with its value, a bounding box and other members. -/
def written (kind key : String) (value : Json) (bbox : Option (List Binary64))
    (foreign : List (String × Json)) : List (String × Json) :=
  Json.sortMembers ([("type", .str kind), (key, value)]
    ++ Json.optional "bbox" (bbox.map numbers) ++ foreign)

/-- Members that can be written beside the type, the bounding box and the one named `key`. -/
structure Others (key : String) (foreign : List (String × Json)) : Prop where
  sorted : foreign.Pairwise (·.1 < ·.1)
  apart : ∀ name ∈ ["bbox", "type", key], foreign.lookup name = none

/-- The members of other names are such ones. -/
theorem others_membersExcept (key : String) {members : List (String × Json)}
    (sorted : members.Pairwise (·.1 < ·.1)) :
    Others key (membersExcept ["bbox", "type", key] members) :=
  ⟨sorted.filter _, fun name mem => by rw [lookup_membersExcept, if_pos mem]⟩

section Written

variable {foreign : List (String × Json)} {kind key : String} {value : Json}
  {bbox : Option (List Binary64)}

/-- What is found in an object of a kind. -/
theorem lookup_written (others : Others key foreign) (plain : key ≠ "type" ∧ key ≠ "bbox")
    (name : String) :
    (written kind key value bbox foreign).lookup name
      = if name = "type" then some (.str kind) else if name = key then some value
        else if name = "bbox" then bbox.map numbers else foreign.lookup name := by
  have last : foreign.reverse.lookup name = foreign.lookup name := by
    rw [← Json.lookup_sortMembers, Json.sortMembers_of_sorted others.sorted]
  have box : (Json.optional "bbox" (bbox.map numbers)).reverse.lookup name
      = if name = "bbox" then bbox.map numbers else none := by
    cases bbox with
    | none => exact (ite_self _).symm
    | some bounds => exact lookup_cons "bbox" name _ []
  have own : [("type", Json.str kind), (key, value)].reverse.lookup name
      = if name = key then some value else if name = "type" then some (.str kind) else none := by
    rw [List.reverse_cons, List.reverse_singleton, List.singleton_append, lookup_cons, lookup_cons,
      List.lookup_nil]
  rw [written, Json.lookup_sortMembers, List.reverse_append, List.reverse_append,
    List.lookup_append, List.lookup_append, last, box, own]
  by_cases isType : name = "type"
  · subst isType
    rw [others.apart "type" (by simp), if_neg (by decide), if_neg plain.1.symm, if_pos rfl,
      if_pos rfl]
    rfl
  · by_cases isKey : name = key
    · subst isKey
      rw [others.apart name (by simp), if_neg plain.2, if_pos rfl, if_neg plain.1, if_pos rfl]
      rfl
    · by_cases isBox : name = "bbox"
      · subst isBox
        rw [others.apart "bbox" (by simp), if_pos rfl, if_neg isKey, if_neg isType, if_neg isType,
          if_neg isKey]
        exact Option.or_none
      · rw [if_neg isBox, if_neg isKey, if_neg isType, if_neg isType, if_neg isKey, if_neg isBox]
        exact Option.or_none

/-- The members of other names are those that were written. -/
theorem membersExcept_written (others : Others key foreign)
    (plain : key ≠ "type" ∧ key ≠ "bbox") :
    membersExcept ["bbox", "type", key] (written kind key value bbox foreign) = foreign := by
  refine Json.members_eq_of_lookup_eq ((Json.pairwise_sortMembers _).filter _) others.sorted
    fun name => ?_
  rw [lookup_membersExcept]
  by_cases mem : name ∈ ["bbox", "type", key]
  · rw [if_pos mem, others.apart name mem]
  · rw [if_neg mem, lookup_written others plain]
    simp only [List.mem_cons, List.not_mem_nil, or_false, not_or] at mem
    rw [if_neg mem.2.1, if_neg mem.2.2, if_neg mem.1]

/-- The bounding box is the one that was written. -/
theorem bboxIn?_written (others : Others key foreign) (plain : key ≠ "type" ∧ key ≠ "bbox") :
    bboxIn? (written kind key value bbox foreign) = some bbox := by
  have there : (written kind key value bbox foreign).lookup "bbox" = bbox.map numbers := by
    rw [lookup_written others plain, if_neg (by decide), if_neg plain.2.symm, if_pos rfl]
  have again (bounds : List Binary64) : each? Json.binary64? (numbers bounds) = some bounds := by
    show (bounds.map Json.float).mapM Json.binary64? = some bounds
    induction bounds with
    | nil => rfl
    | cons x bounds ih =>
      rw [List.map_cons, List.mapM_cons, ih]
      rfl
  rw [bboxIn?, there]
  cases bbox with
  | none => rfl
  | some bounds => exact congrArg (Option.map some) (again bounds)

/-- An object of simple coordinates is read as such a geometry. -/
theorem ofJson?_written_simple (others : Others "coordinates" foreign)
    (isSimple : kind ≠ "GeometryCollection") {c : Coordinates}
    (taken : coordinates? kind value = some c) :
    ofJson? (.obj (written kind "coordinates" value bbox foreign))
      = some (simple c bbox foreign) := by
  have type : (written kind "coordinates" value bbox foreign).lookup "type" = some (.str kind) := by
    rw [lookup_written others (by decide), if_pos rfl]
  have places : (written kind "coordinates" value bbox foreign).lookup "coordinates"
      = some value := by
    rw [lookup_written others (by decide), if_neg (by decide), if_pos rfl]
  rw [ofJson?, bboxIn?_written others (by decide), type, places,
    membersExcept_written others (by decide)]
  show (if kind = "GeometryCollection" then _ else coordinates? kind value >>= _) = _
  rw [if_neg isSimple, taken]
  rfl

/-- An object of geometries is read as a collection of them. -/
theorem ofJson?_written_collection (others : Others "geometries" foreign)
    {geometries : List Geometry} (taken : each? ofJson? value = some geometries) :
    ofJson? (.obj (written "GeometryCollection" "geometries" value bbox foreign))
      = some (collection geometries bbox foreign) := by
  have type : (written "GeometryCollection" "geometries" value bbox foreign).lookup "type"
      = some (.str "GeometryCollection") := by
    rw [lookup_written others (by decide), if_pos rfl]
  have parts : geometriesIn? (written "GeometryCollection" "geometries" value bbox foreign)
      = some geometries := by
    rw [geometriesIn?_eq, lookup_written others (by decide), if_neg (by decide), if_pos rfl]
    exact taken
  rw [ofJson?, bboxIn?_written others (by decide), type, parts,
    membersExcept_written others (by decide)]
  rfl

/-- The object of a kind is readable if its parts are. -/
theorem readable_written (positive : 0 < depth) (readableValue : value.Readable (depth - 1))
    (readableBox : ∀ bounds, bbox = some bounds → (numbers bounds).Readable (depth - 1))
    (readableForeign : Json.MembersReadable (depth - 1) foreign) :
    (Json.obj (written kind key value bbox foreign)).Readable depth := by
  refine ⟨positive, Json.pairwise_sortMembers _, Json.membersReadable_iff.2 fun member mem => ?_⟩
  rcases List.mem_append.1 (Json.mem_of_mem_sortMembers mem) with mem | mem
  · rcases List.mem_append.1 mem with mem | mem
    · simp only [List.mem_cons, List.not_mem_nil, or_false] at mem
      rcases mem with rfl | rfl
      · trivial
      · exact readableValue
    · cases bbox with
      | none => cases mem
      | some bounds =>
        cases List.mem_singleton.1 mem
        exact readableBox bounds rfl
  · exact Json.membersReadable_iff.1 readableForeign member mem

end Written

/-- The bounding box among the members of a geometry is no deeper than these. -/
theorem readable_bbox {members : List (String × Json)} {bbox : Option (List Binary64)}
    (readable : Json.MembersReadable depth members) (taken : bboxIn? members = some bbox)
    {bounds : List Binary64} (there : bbox = some bounds) : (numbers bounds).Readable depth := by
  subst there
  rw [bboxIn?] at taken
  split at taken
  · cases taken
  · cases taken
  · next json _ there =>
    obtain ⟨_, found, same⟩ := Option.map_eq_some_iff.1 taken
    cases same
    exact ((restores_binary64 _).each json bounds (Json.readable_of_lookup readable there) found).1

/-! ## Geometries -/

/-- Geometries are restored. -/
theorem restores_ofJson? (depth : ℕ) : Restores ofJson? toJson depth := by
  induction depth using Nat.strong_induction_on with
  | _ depth ih =>
    intro json geometry readable taken
    cases json with
    | obj members =>
      obtain ⟨positive, sorted, readableMembers⟩ := readable
      rw [ofJson?] at taken
      obtain ⟨bbox, hbbox, taken⟩ := Option.bind_eq_some_iff.1 taken
      obtain ⟨type, _, taken⟩ := Option.bind_eq_some_iff.1 taken
      obtain ⟨kind, _, taken⟩ := Option.bind_eq_some_iff.1 taken
      have foreignReadable (names : List String) :
          Json.MembersReadable (depth - 1) (membersExcept names members) :=
        Json.membersReadable_iff.2 fun member mem =>
          Json.membersReadable_iff.1 readableMembers member (List.mem_filter.1 mem).1
      split at taken
      · obtain ⟨geometries, found, taken⟩ := Option.bind_eq_some_iff.1 taken
        cases taken
        rw [geometriesIn?_eq] at found
        obtain ⟨value, there, parts⟩ := Option.bind_eq_some_iff.1 found
        obtain ⟨readableOut, again⟩ := (ih (depth - 1 - 1) (by omega)).each value geometries
          (Json.readable_of_lookup readableMembers there) parts
        rw [toJson, geometriesJson_eq_map]
        exact ⟨readable_written positive readableOut (fun _ => readable_bbox readableMembers hbbox)
          (foreignReadable _), ofJson?_written_collection (others_membersExcept _ sorted) again⟩
      · next isSimple =>
        obtain ⟨value, there, taken⟩ := Option.bind_eq_some_iff.1 taken
        obtain ⟨c, found, taken⟩ := Option.bind_eq_some_iff.1 taken
        cases taken
        obtain ⟨named, readableOut, again⟩ :=
          restores_coordinates (Json.readable_of_lookup readableMembers there) found
        have out : (simple c bbox (membersExcept ["bbox", "type", "coordinates"] members)).toJson
            = .obj (written kind "coordinates" (coordinatesJson c).2 bbox
              (membersExcept ["bbox", "type", "coordinates"] members)) := by
          rw [← named]
          rfl
        rw [out]
        exact ⟨readable_written positive readableOut (fun _ => readable_bbox readableMembers hbbox)
          (foreignReadable _),
          ofJson?_written_simple (others_membersExcept _ sorted) isSimple again⟩
    | _ => cases taken

/-- Whatever geometry is taken out of a text is read back from its own object. -/
theorem yields_decoder (enclosing : ℕ) : (decoder enclosing).Yields fun geometry =>
    geometry.toJson.Readable (Json.deepest - enclosing)
      ∧ ofJson? geometry.toJson = some geometry := by
  intro r sound geometry taken
  obtain ⟨members, decoded, taken⟩ := exists_of_bind_eq_ok taken
  have readable := Json.Decoder.yields_members enclosing r sound members decoded
  split at taken
  · next found =>
    cases taken
    exact restores_ofJson? _ (.obj members) geometry readable found
  · cases taken

/-- A geometry that is read back from its object is taken out of the reading of that. -/
theorem decoder_ofJson {enclosing : ℕ} {geometry : Geometry}
    (readable : geometry.toJson.Readable (Json.deepest - enclosing))
    (again : ofJson? geometry.toJson = some geometry) :
    decoder enclosing (.ofJson geometry.toJson) = .ok geometry := by
  cases written : geometry.toJson with
  | obj members =>
    rw [written] at readable again
    simp only [decoder, Json.Decoder.members_ofJson readable, bind, Except.bind, again]
    rfl
  | _ =>
    rw [written] at again
    cases again

/-- A geometry that is read back from its object is read back from the text of that. -/
theorem text_render {geometry : Geometry} (readable : geometry.toJson.Readable Json.deepest)
    (again : ofJson? geometry.toJson = some geometry) :
    (decoder 0).text geometry.toJson.render = .ok geometry :=
  Json.Decoder.text_render readable.fitsWords (decoder_ofJson readable again)

end CatalogSearch.Geometry
