import CatalogSearch.Proofs.Geometry.GeoJson
import CatalogSearch.Request

/-!
# Requests in bodies

A body says a request, and the requests that a body can say are known: their bounds are finite, and
their values leave room for the levels of nesting that a body has around them. Each of them is
written as an object that is read as the request again.

* `SearchRequest.yields_decoder` : what is known of a request that was taken out of a text;
* `SearchRequest.exists_text_iff` : which requests a body can say;
* `SearchRequest.text_render` : such a request is read back from its own text.
-/

namespace CatalogSearch

namespace SearchRequest

variable {r : SearchRequest}

/-! ## Requests that were read -/

/--
A request whose values can stand in a body: its bounds are finite, and its geometry and its property
filter have no more levels of nesting than are left below those of the body.
-/
structure Postable (r : SearchRequest) : Prop where
  bbox : ∀ bounds ∈ r.bbox, ∀ bound ∈ bounds, ∃ x, bound = .finite x
  intersects : ∀ geometry ∈ r.intersects, geometry.toJson.Readable (Json.deepest - 1)
  query : ∀ query ∈ r.query, ∀ entry ∈ query.entries, ∀ operand ∈ entry.2.entries,
    operand.2.Readable (Json.deepest - 3)

/-- What is known of a request that was taken out of a text: it can stand in a body, its geometry is
read back from its own object, and its limit fits a word. -/
structure WellRead (r : SearchRequest) : Prop extends Postable r where
  again : ∀ geometry ∈ r.intersects, Geometry.ofJson? geometry.toJson = some geometry
  limit : ∀ n ∈ r.limit, n ≤ maxWord

/-- Every request that is taken out of a text is well read. -/
theorem yields_decoder : decoder.Yields WellRead := by
  -- Most members say nothing about the parts in question.
  have other {β : Type} {name : String} {inner : Json.Decoder β}
      {set : β → SearchRequest → SearchRequest}
      (sets : ∀ value r, WellRead r → WellRead (set value r)) :
      (Json.Member.allow name inner set).Keeps WellRead :=
    Json.Member.keeps_allow inner.yields_true fun v _ => sets v
  have bound : boundDecoder.Yields fun bound => ∃ x, bound = .finite x := by
    intro r _ bound taken
    obtain ⟨x, _, rfl⟩ := exists_of_map_eq_ok taken
    exact ⟨x, rfl⟩
  refine Json.Shape.yields_decode ⟨⟨nofun, nofun, nofun⟩, nofun, nofun⟩ ?_ fun _ _ => nofun
  simp only [jsonShape, List.forall_mem_cons]
  refine ⟨?collections, ?ids, ?bbox, ?intersects, ?datetime, ?query, ?sortby, ?limit, ?token,
    ?fields, fun _ mem => absurd mem List.not_mem_nil⟩
  case bbox =>
    exact Json.Member.keeps_allow bound.list.nullable fun _ finite _ h =>
      { h with bbox := finite }
  case intersects =>
    exact Json.Member.keeps_allow (Geometry.yields_decoder 1).nullable fun _ restored _ h =>
      { h with
        intersects := fun geometry there => (restored geometry there).1
        again := fun geometry there => (restored geometry there).2 }
  case query =>
    exact Json.Member.keeps_allow (Json.Decoder.yields_value 3).map.map.nullable
      fun _ readable _ h => { h with query := readable }
  case limit =>
    exact Json.Member.keeps_allow Json.Decoder.yields_natural.nullable fun _ fits _ h =>
      { h with limit := fits }
  all_goals exact other fun _ _ h => { h with }

end SearchRequest

/-! ## Parts of a request read back -/

/-- An entry of a sort order of which only the members of some names are known. -/
def SortBy.upTo (entry : SortBy) (names : List String) : SortBy where
  field := if "field" ∈ names then entry.field else ""
  direction := if "direction" ∈ names then entry.direction else .ascending

/-- An entry of a sort order is read back. -/
theorem SortBy.decode_ofJson (entry : SortBy) :
    jsonShape.decode (.ofJson entry.toJson) = .ok entry := by
  have distinct : (["field", "direction"] : List String).Nodup := by decide
  have required : ∀ member ∈ jsonShape.members, member.required = true →
      member.name ∈ ["field", "direction"] := by decide
  have direction : Json.Decoder.word SortDirection.byName (.text (some entry.direction.name))
      = .ok entry.direction := by
    cases entry.direction <;> rfl
  refine Json.Shape.decode_ofPerm entry.upTo (Json.sortMembers_perm distinct) distinct ?_ required
    (by simp [upTo, jsonShape]) fun names all => ?_
  · simp only [List.forall_mem_cons]
    exact ⟨⟨_, rfl, _, rfl, fun seen => by simp [upTo]⟩,
      ⟨_, rfl, _, Json.Member.read_need direction, fun seen => by simp [upTo]⟩, nofun⟩
  · simp only [List.forall_mem_cons] at all
    simp [upTo, all.1, all.2.1]

/-- Fields to return of which only the members of some names are known. -/
def FieldsRequest.upTo (fields : FieldsRequest) (names : List String) : FieldsRequest where
  included := if "include" ∈ names then fields.included else .empty
  excluded := if "exclude" ∈ names then fields.excluded else .empty

/-- The fields to return are read back. -/
theorem FieldsRequest.decode_ofJson (fields : FieldsRequest) :
    jsonShape.decode (.ofJson fields.toJson) = .ok fields := by
  have distinct : (["include", "exclude"] : List String).Nodup := by decide
  have required : ∀ member ∈ jsonShape.members, member.required = true →
      member.name ∈ ["include", "exclude"] := by decide
  refine Json.Shape.decode_ofPerm fields.upTo (Json.sortMembers_perm distinct) distinct ?_ required
    (by simp [upTo, FieldsRequest.jsonShape, FieldsRequest.none]) fun names all => ?_
  · simp only [List.forall_mem_cons]
    have sets := Json.Decoder.stringSet_ofJson
    exact ⟨⟨_, rfl, _, Json.Member.read_allow (sets _), fun seen => by simp [upTo]⟩,
      ⟨_, rfl, _, Json.Member.read_allow (sets _), fun seen => by simp [upTo]⟩, nofun⟩
  · simp only [List.forall_mem_cons] at all
    simp [upTo, all.1, all.2.1]

/-- The operands for the fields of a property filter are read back. -/
theorem QueryFilter.decoder_ofJson {query : QueryFilter} {enclosing : ℕ}
    (readable : ∀ entry ∈ query.entries, ∀ operand ∈ entry.2.entries,
      operand.2.Readable (Json.deepest - (enclosing + 2))) :
    decoder enclosing (.ofJson query.toJson) = .ok query := by
  have values : ∀ entry ∈ query.entries,
      Json.Decoder.map (.value (enclosing + 2)) (.ofJson (.obj entry.2.entries)) = .ok entry.2 := by
    intro entry mem
    have taken := Json.Decoder.map_ofJson id fun operand given =>
      (readable entry mem operand given).toJson_ofJson
    rwa [show entry.2.entries.map (fun operand => (operand.1, id operand.2)) = entry.2.entries from
      List.map_id _] at taken
  exact Json.Decoder.map_ofJson (fun operands : SortedMap Json => .obj operands.entries) values

/-- A property filter is readable with two more levels of nesting than its operands. -/
theorem QueryFilter.readable_toJson {query : QueryFilter} {depth : ℕ}
    (readable : ∀ entry ∈ query.entries, ∀ operand ∈ entry.2.entries, operand.2.Readable depth) :
    query.toJson.Readable (depth + 2) := by
  refine ⟨by omega, List.pairwise_map.2 query.sorted, Json.membersReadable_iff.2 ?_⟩
  intro member mem
  obtain ⟨entry, given, rfl⟩ := List.mem_map.1 mem
  exact ⟨by omega, entry.2.sorted, Json.membersReadable_iff.2 (readable entry given)⟩

/-! ## Requests read back -/

namespace SearchRequest

variable {r : SearchRequest}

-- Elaboration would sort the ten members wherever a type is brought to its normal form, and no proof
-- here needs their order.
attribute [local irreducible] Json.sortMembers

/-- The members of a request have different names. -/
theorem nodup_members (r : SearchRequest) : (r.members.map (·.1)).Nodup := by
  show ["collections", "ids", "bbox", "intersects", "datetime", "query", "sortby", "limit", "token",
    "fields"].Nodup
  decide

/-- The members of a request one by one. -/
theorem forall_mem_members {p : String × Json → Prop} :
    (∀ entry ∈ r.members, p entry)
      ↔ p ("collections", .orNull (fun ids : StringSet => .strings ids.toList) r.collections)
        ∧ p ("ids", .orNull .strings r.ids)
        ∧ p ("bbox", .orNull (fun bounds => .arr (bounds.map boundJson)) r.bbox)
        ∧ p ("intersects", .orNull Geometry.toJson r.intersects)
        ∧ p ("datetime", .orNull .str r.datetime)
        ∧ p ("query", .orNull QueryFilter.toJson r.query)
        ∧ p ("sortby", .orNull (fun entries => .arr (entries.map SortBy.toJson)) r.sortby)
        ∧ p ("limit", .orNull (fun n : ℕ => .int n) r.limit)
        ∧ p ("token", .orNull .str r.token)
        ∧ p ("fields", .orNull FieldsRequest.toJson r.fields) := by
  unfold members
  simp only [List.forall_mem_cons, List.not_mem_nil, false_implies, implies_true, and_true]

/-- A request of which only the members of some names are known. -/
def upTo (r : SearchRequest) (names : List String) : SearchRequest where
  collections := if "collections" ∈ names then r.collections else none
  ids := if "ids" ∈ names then r.ids else none
  bbox := if "bbox" ∈ names then r.bbox else none
  intersects := if "intersects" ∈ names then r.intersects else none
  datetime := if "datetime" ∈ names then r.datetime else none
  query := if "query" ∈ names then r.query else none
  sortby := if "sortby" ∈ names then r.sortby else none
  limit := if "limit" ∈ names then r.limit else none
  token := if "token" ∈ names then r.token else none
  fields := if "fields" ∈ names then r.fields else none

/-- With all its members the request is known. -/
theorem upTo_eq_self {names : List String} (all : ∀ entry ∈ r.members, entry.1 ∈ names) :
    r.upTo names = r := by
  rw [forall_mem_members] at all
  simp [upTo, all]

/-- Each member brings a request from what is known to what its name adds. -/
theorem reads_members (read : r.WellRead) :
    ∀ entry ∈ r.members, ∃ member, jsonShape.members.find? (·.name = entry.1) = some member
      ∧ ∃ f, member.read (.ofJson entry.2) = .ok f
        ∧ ∀ seen, f (r.upTo seen) = r.upTo (entry.1 :: seen) := by
  have string (s : String) : Json.Decoder.string (.ofJson (.str s)) = .ok s := rfl
  have number (n : ℕ) : Json.Decoder.natural (.ofJson (.int n)) = .ok n := by
    rw [Json.Reading.ofJson, Json.Decoder.natural, if_pos (Int.natCast_nonneg n), Int.toNat_natCast]
  have bounds : ∀ bounds ∈ r.bbox,
      Json.Decoder.list boundDecoder (.ofJson (.arr (bounds.map boundJson))) = .ok bounds := by
    refine fun bounds there => Json.Decoder.list_ofJson boundJson fun bound mem => ?_
    obtain ⟨x, rfl⟩ := read.bbox bounds there bound mem
    rfl
  have geometry : ∀ geometry ∈ r.intersects, geometry.toJson ≠ .null := by
    intro geometry there null
    have again := read.again geometry there
    rw [null] at again
    cases again
  rw [forall_mem_members]
  -- One case for each member; the name is found in the shape, and its value is taken out.
  refine ⟨?collections, ?ids, ?bbox, ?intersects, ?datetime, ?query, ?sortby, ?limit, ?token,
    ?fields⟩
  case collections =>
    exact ⟨_, rfl, _, Json.Member.read_nullable fun ids _ =>
      ⟨nofun, Json.Decoder.stringSet_ofJson ids⟩, fun seen => by simp [upTo]⟩
  case ids =>
    exact ⟨_, rfl, _, Json.Member.read_nullable fun ids _ =>
      ⟨nofun, Json.Decoder.list_ofJson .str fun id _ => string id⟩, fun seen => by simp [upTo]⟩
  case bbox =>
    exact ⟨_, rfl, _, Json.Member.read_nullable fun row there =>
      ⟨nofun, bounds row there⟩, fun seen => by simp [upTo]⟩
  case intersects =>
    exact ⟨_, rfl, _, Json.Member.read_nullable fun shape there =>
      ⟨geometry shape there, Geometry.decoder_ofJson (read.intersects shape there)
        (read.again shape there)⟩, fun seen => by simp [upTo]⟩
  case query =>
    exact ⟨_, rfl, _, Json.Member.read_nullable fun query there =>
      ⟨nofun, QueryFilter.decoder_ofJson (read.query query there)⟩, fun seen => by simp [upTo]⟩
  case sortby =>
    exact ⟨_, rfl, _, Json.Member.read_nullable fun entries _ =>
      ⟨nofun, Json.Decoder.list_ofJson SortBy.toJson fun entry _ => entry.decode_ofJson⟩,
      fun seen => by simp [upTo]⟩
  case limit =>
    exact ⟨_, rfl, _, Json.Member.read_nullable fun n _ => ⟨nofun, number n⟩,
      fun seen => by simp [upTo]⟩
  case fields =>
    exact ⟨_, rfl, _, Json.Member.read_nullable fun fields _ => ⟨nofun, fields.decode_ofJson⟩,
      fun seen => by simp [upTo]⟩
  all_goals
    exact ⟨_, rfl, _, Json.Member.read_nullable fun s _ => ⟨nofun, string s⟩,
      fun seen => by simp [upTo]⟩

/-- A request that was read is taken out of its own object. -/
theorem decoder_ofJson (read : r.WellRead) : decoder (.ofJson r.toJson) = .ok r := by
  have optional : ∀ member ∈ jsonShape.members, member.required = false := by decide
  have start : r.upTo [] = jsonShape.start := by simp [upTo, jsonShape, SearchRequest.all]
  refine Json.Shape.decode_ofPerm r.upTo (Json.sortMembers_perm r.nodup_members) r.nodup_members
    (reads_members read) ?_ start fun _ all => upTo_eq_self all
  intro member mem required
  rw [optional member mem] at required
  cases required

/-- The integers in a request that was read fit words. -/
theorem fitsWords_toJson (read : r.WellRead) : r.toJson.FitsWords := by
  have orNull {α : Type} {out : α → Json} {value : Option α}
      (fits : ∀ a ∈ value, (out a).FitsWords) : (Json.orNull out value).FitsWords := by
    cases value with
    | none => trivial
    | some a => exact fits a rfl
  have array {α : Type} (out : α → Json) (row : List α) (fits : ∀ a ∈ row, (out a).FitsWords) :
      (Json.arr (row.map out)).FitsWords :=
    Json.elementsFit_of_forall (List.forall_mem_map.2 fits)
  have strings (names : List String) : (Json.strings names).FitsWords :=
    array .str names fun _ _ => trivial
  have object {members : List (String × Json)} (fits : ∀ entry ∈ members, entry.2.FitsWords) :
      (Json.object members).FitsWords :=
    Json.membersFit_of_forall fun entry mem => fits entry (Json.mem_of_mem_sortMembers mem)
  refine object (forall_mem_members.2 ⟨?collections, ?ids, ?bbox, ?intersects, ?datetime, ?query,
    ?sortby, ?limit, ?token, ?fields⟩)
  case collections => exact orNull fun ids _ => strings ids.toList
  case ids => exact orNull fun ids _ => strings ids
  case bbox =>
    refine orNull fun bounds there => array boundJson bounds fun bound mem => ?_
    obtain ⟨x, rfl⟩ := read.bbox bounds there bound mem
    trivial
  case intersects =>
    exact orNull fun geometry there => (read.intersects geometry there).fitsWords
  case query =>
    exact orNull fun query there => (QueryFilter.readable_toJson (read.query query there)).fitsWords
  case sortby =>
    refine orNull fun entries _ => array SortBy.toJson entries fun entry _ => object ?_
    simp [Json.FitsWords]
  case limit =>
    refine orNull fun n there => ?_
    have fits := read.limit n there
    rw [maxWord] at fits
    exact ⟨by omega, by omega⟩
  case fields =>
    refine orNull fun fields _ => object ?_
    simp [strings]
  all_goals exact orNull fun _ _ => trivial

/-- A request that was read is read back from its own text. -/
theorem text_render (read : r.WellRead) : decoder.text r.toJson.render = .ok r :=
  Json.Decoder.text_render (fitsWords_toJson read) (decoder_ofJson read)

/-- The requests that a body can say are those of which this is known. -/
theorem exists_text_iff : (∃ body, decoder.text body = .ok r) ↔ r.WellRead :=
  ⟨fun ⟨_, decoded⟩ => yields_decoder.text decoded, fun read => ⟨_, text_render read⟩⟩

end SearchRequest

end CatalogSearch
