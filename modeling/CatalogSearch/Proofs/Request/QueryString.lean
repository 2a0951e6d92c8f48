import CatalogSearch.Proofs.Binary64.Extended
import CatalogSearch.Proofs.Request.Body
import CatalogSearch.Request.QueryString

/-!
# Requests as query strings

Whatever a body can ask for, a query string can ask for as well: a request that was taken out of a
body is written as parameters, and these say the request again.

* `SearchRequest.toParams` : a request as parameters;
* `SearchRequest.toRequest_toParams` : the parameters of a request say the request.
-/

namespace CatalogSearch

/-! ## Writing parameters -/

/-- A name with a plus or a minus sign in front of it. -/
def signed (negative : Bool) (name : String) : String :=
  .ofList ((if negative then '-' else '+') :: name.toList)

/-- An entry of a sort order with the sign of its direction. -/
def SortBy.text (entry : SortBy) : String :=
  signed (entry.direction = .descending) entry.field

/-- The fields to return and those to leave out, with their signs. -/
def FieldsRequest.texts (fields : FieldsRequest) : List String :=
  fields.included.toList.map (signed false) ++ fields.excluded.toList.map (signed true)

namespace SearchRequest

/-- A request as parameters, in which `number` gives the texts of numbers. -/
def toParams (number : ExtendedNumber → String) (r : SearchRequest) : SearchParams where
  collections := r.collections.map fun ids => ",".intercalate ids.toList
  ids := r.ids.map fun ids => ",".intercalate ids
  bbox := r.bbox.map fun bounds => ",".intercalate (bounds.map number)
  intersects := r.intersects.map fun geometry => geometry.toJson.render
  datetime := r.datetime
  limit := r.limit.map toString
  query := r.query.map fun query => query.toJson.render
  sortby := r.sortby.map fun entries => ",".intercalate (entries.map SortBy.text)
  fields := r.fields.map fun fields => ",".intercalate fields.texts
  token := r.token

/-- A request whose names can be entries of lists with commas, with no empty list of records or of
collections, which a parameter cannot tell from none. -/
structure Listable (r : SearchRequest) : Prop where
  collections : ∀ ids ∈ r.collections, ids.toList ≠ [] ∧ ∀ id ∈ ids.toList, Text.IsEntry id
  ids : ∀ ids ∈ r.ids, ids ≠ [] ∧ ∀ id ∈ ids, Text.IsEntry id
  sortby : ∀ entries ∈ r.sortby, ∀ entry ∈ entries, Text.IsEntry entry.field
  fields : ∀ fields ∈ r.fields,
    (∀ path ∈ fields.included.toList, Text.IsEntry path)
      ∧ ∀ path ∈ fields.excluded.toList, Text.IsEntry path

instance (r : SearchRequest) : Decidable r.Listable :=
  decidable_of_iff
    ((∀ ids ∈ r.collections, ids.toList ≠ [] ∧ ∀ id ∈ ids.toList, Text.IsEntry id)
      ∧ (∀ ids ∈ r.ids, ids ≠ [] ∧ ∀ id ∈ ids, Text.IsEntry id)
      ∧ (∀ entries ∈ r.sortby, ∀ entry ∈ entries, Text.IsEntry entry.field)
      ∧ ∀ fields ∈ r.fields, (∀ path ∈ fields.included.toList, Text.IsEntry path)
        ∧ ∀ path ∈ fields.excluded.toList, Text.IsEntry path)
    ⟨fun ⟨collections, ids, sortby, fields⟩ => ⟨collections, ids, sortby, fields⟩,
      fun listable =>
        ⟨listable.collections, listable.ids, listable.sortby, listable.fields⟩⟩

end SearchRequest

/-! ## Parameters read back -/

section Parameters

variable {α : Type} {value : Option α}

/-- A parameter whose text is read as what was written says that. -/
theorem parameter_map {fault : String → ParameterFault} {read : String → Option α}
    {text : α → String} (again : ∀ a ∈ value, read (text a) = some a) :
    parameter fault read (value.map text) = .ok value := by
  cases value with
  | none => rfl
  | some a => simp only [Option.map_some, parameter, again a rfl]

/-- What is taken out of a parameter is what some text says. -/
theorem exists_of_parameter {fault : String → ParameterFault} {read : String → Option α}
    {raw : Option String} (h : parameter fault read raw = .ok value) :
    ∀ a ∈ value, ∃ text, read text = some a := by
  cases raw with
  | none =>
    cases h
    exact nofun
  | some text =>
    rw [parameter] at h
    split at h
    · next found =>
      cases h
      rintro _ ⟨⟩
      exact ⟨text, found⟩
    · cases h

/-- So does one that is taken apart by a computation with faults of its own. -/
theorem mapM_map {ε : Type} {read : String → Except ε α} {text : α → String}
    (again : ∀ a ∈ value, read (text a) = .ok a) : (value.map text).mapM read = .ok value := by
  cases value with
  | none => rfl
  | some a => exact congrArg (Except.map some) (again a rfl)

end Parameters

/-! ### Lists -/

/-- A list that is there is read back, since it is not empty. -/
theorem listItems_map {α : Type} {value : Option α} (names : α → List String)
    (plain : ∀ a ∈ value, names a ≠ [] ∧ ∀ name ∈ names a, Text.IsEntry name) :
    ((value.map fun a => ",".intercalate (names a)).map Text.listItems).filter (!·.isEmpty)
      = value.map names := by
  cases value with
  | none => rfl
  | some a =>
    obtain ⟨nonempty, entries⟩ := plain a rfl
    rw [Option.map_some, Option.map_some, Text.listItems_intercalate entries]
    exact Option.filter_some_pos (by simp [nonempty])

/-- A set is read back from the list of its members. -/
theorem StringSet.ofList_listItems_map {value : Option StringSet}
    (plain : ∀ set ∈ value, set.toList ≠ [] ∧ ∀ name ∈ set.toList, Text.IsEntry name) :
    (((value.map fun set => ",".intercalate set.toList).map Text.listItems).filter
      (!·.isEmpty)).map ofList = value := by
  have sets : ofList ∘ toList = id := funext insertAll_toList
  rw [listItems_map toList plain, Option.map_map, sets, Option.map_id, id]

/-- Finite numbers are read back from texts that say them. -/
theorem mapM_ofText?_intercalate {number : ExtendedNumber → String}
    (restored : ∀ x, ExtendedNumber.ofText? (number (.finite x)) = some (.finite x))
    {bounds : List ExtendedNumber} (finite : ∀ bound ∈ bounds, ∃ x, bound = .finite x) :
    (Text.listItems (",".intercalate (bounds.map number))).mapM ExtendedNumber.ofText?
      = some bounds := by
  have texts : ∀ text ∈ bounds.map number, Text.IsEntry text := by
    intro text mem
    obtain ⟨bound, given, rfl⟩ := List.mem_map.1 mem
    obtain ⟨x, rfl⟩ := finite bound given
    exact ExtendedNumber.isEntry_of_finite (restored x)
  have again : ∀ bound ∈ bounds, (ExtendedNumber.ofText? ∘ number) bound = some (id bound) := by
    intro bound given
    obtain ⟨x, rfl⟩ := finite bound given
    exact restored x
  rw [Text.listItems_intercalate texts, List.mapM_map, mapM_eq_some_map again, List.map_id]

/-! ### Signed names -/

/-- A name with a sign is an entry of a list if the name is. -/
theorem isEntry_signed {name : String} (entry : Text.IsEntry name) (negative : Bool) :
    Text.IsEntry (signed negative name) := by
  cases negative with
  | true => exact entry.cons (by decide) (by decide)
  | false => exact entry.cons (by decide) (by decide)

/-- The sign is taken off again, so that a name may have one of its own. -/
theorem signedField_signed {name : String} (nonempty : name ≠ "") (parameter : String)
    (negative : Bool) : signedField parameter (signed negative name) = .ok (negative, name) := by
  have split : Text.splitSign (signed negative name).toList = (negative, name.toList) := by
    rw [signed, String.toList_ofList]
    cases negative <;> rfl
  simp only [signedField, split, String.ofList_toList, if_neg nonempty]

/-- A sort order is read back. -/
theorem sortbyOfText_intercalate {entries : List SortBy}
    (plain : ∀ entry ∈ entries, Text.IsEntry entry.field) :
    sortbyOfText (",".intercalate (entries.map SortBy.text)) = .ok entries := by
  have texts : ∀ text ∈ entries.map SortBy.text, Text.IsEntry text := by
    intro text mem
    obtain ⟨entry, given, rfl⟩ := List.mem_map.1 mem
    exact isEntry_signed (plain entry given) _
  rw [sortbyOfText, Text.listItems_intercalate texts]
  clear texts
  induction entries with
  | nil => rfl
  | cons entry entries ih =>
    obtain ⟨first, others⟩ := List.forall_mem_cons.1 plain
    obtain ⟨field, direction⟩ := entry
    rw [List.map_cons, List.mapM_cons, ih others, SortBy.text, signedField_signed first.nonempty]
    cases direction <;> rfl

/-- Names with one sign go to one of the two sets. -/
theorem foldlM_signed {names : List String} (nonempty : ∀ name ∈ names, name ≠ "")
    (negative : Bool) (fields : FieldsRequest) :
    (names.map (signed negative)).foldlM (fun fields entry => do
        let (negative, name) ← signedField "fields" entry
        return FieldsRequest.add fields negative name) fields
      = .ok (names.foldl (fun fields name => fields.add negative name) fields) := by
  induction names generalizing fields with
  | nil => rfl
  | cons name names ih =>
    obtain ⟨first, others⟩ := List.forall_mem_cons.1 nonempty
    rw [List.map_cons, List.foldlM_cons, signedField_signed first]
    exact ih others _

/-- The fields to return and to leave out are read back. -/
theorem fieldsOfText_intercalate {fields : FieldsRequest}
    (included : ∀ path ∈ fields.included.toList, Text.IsEntry path)
    (excluded : ∀ path ∈ fields.excluded.toList, Text.IsEntry path) :
    fieldsOfText (",".intercalate fields.texts) = .ok fields := by
  have texts : ∀ text ∈ fields.texts, Text.IsEntry text := by
    intro text mem
    rcases List.mem_append.1 mem with mem | mem
    · obtain ⟨path, given, rfl⟩ := List.mem_map.1 mem
      exact isEntry_signed (included path given) _
    · obtain ⟨path, given, rfl⟩ := List.mem_map.1 mem
      exact isEntry_signed (excluded path given) _
  have adds (names : List String) (i e : StringSet) :
      names.foldl (fun fields name => fields.add false name) (FieldsRequest.mk i e)
          = ⟨i.insertAll names, e⟩
        ∧ names.foldl (fun fields name => fields.add true name) (FieldsRequest.mk i e)
          = ⟨i, e.insertAll names⟩ := by
    induction names generalizing i e with
    | nil => exact ⟨rfl, rfl⟩
    | cons name names ih => exact ⟨(ih (i.insert name) e).1, (ih i (e.insert name)).2⟩
  rw [fieldsOfText, Text.listItems_intercalate texts, FieldsRequest.texts, List.foldlM_append,
    foldlM_signed fun path mem => (included path mem).nonempty]
  show List.foldlM _ _ _ = _
  rw [foldlM_signed fun path mem => (excluded path mem).nonempty, FieldsRequest.none,
    (adds _ _ _).1, (adds _ _ _).2, StringSet.insertAll_toList, StringSet.insertAll_toList]

/-! ### Property filters -/

/-- A property filter whose operands can be read is read back from its own text. -/
theorem QueryFilter.text_render {query : QueryFilter} (readable : ∀ entry ∈ query.entries,
      ∀ operand ∈ entry.2.entries, operand.2.Readable (Json.deepest - 2)) :
    (decoder 0).text query.toJson.render = .ok query :=
  Json.Decoder.text_render (readable_toJson readable).fitsWords (decoder_ofJson readable)

/-! ## Parameters of requests of bodies -/

namespace SearchRequest

section Parts

variable {r : SearchRequest} {number : ExtendedNumber → String}

/-- The collections are read back. -/
theorem Listable.collections_toParams (listable : r.Listable) :
    (((r.toParams number).collections.map Text.listItems).filter (!·.isEmpty)).map .ofList
      = r.collections :=
  StringSet.ofList_listItems_map listable.collections

/-- The identifiers are read back. -/
theorem Listable.ids_toParams (listable : r.Listable) :
    ((r.toParams number).ids.map Text.listItems).filter (!·.isEmpty) = r.ids := by
  have listed := listItems_map id listable.ids
  rwa [Option.map_id, id] at listed

/-- The sort order is read back. -/
theorem Listable.sortby_toParams (listable : r.Listable) :
    (r.toParams number).sortby.mapM sortbyOfText = .ok r.sortby :=
  mapM_map fun entries there => sortbyOfText_intercalate (listable.sortby entries there)

/-- The fields are read back. -/
theorem Listable.fields_toParams (listable : r.Listable) :
    (r.toParams number).fields.mapM fieldsOfText = .ok r.fields := by
  refine mapM_map fun fields there => ?_
  obtain ⟨included, excluded⟩ := listable.fields fields there
  exact fieldsOfText_intercalate included excluded

/-- The box is read back. -/
theorem WellRead.bbox_toParams (read : r.WellRead)
    (restored : ∀ x, ExtendedNumber.ofText? (number (.finite x)) = some (.finite x)) :
    parameter (fun _ => .bbox) (fun raw => (Text.listItems raw).mapM ExtendedNumber.ofText?)
      (r.toParams number).bbox = .ok r.bbox :=
  parameter_map fun bounds there => mapM_ofText?_intercalate restored (read.bbox bounds there)

-- A value that is a parameter by itself has fewer levels around it than it had in the body.

/-- The geometry is read back. -/
theorem WellRead.intersects_toParams (read : r.WellRead) :
    parameter (fun _ => .intersects) (fun raw => ((Geometry.decoder 0).text raw).toOption)
      (r.toParams number).intersects = .ok r.intersects := by
  refine parameter_map fun geometry there => ?_
  have readable : geometry.toJson.Readable Json.deepest :=
    (read.intersects geometry there).mono (by decide)
  rw [Geometry.text_render readable (read.again geometry there)]
  rfl

/-- The property filter is read back. -/
theorem WellRead.query_toParams (read : r.WellRead) :
    parameter (fun _ => .query) (fun raw => ((QueryFilter.decoder 0).text raw).toOption)
      (r.toParams number).query = .ok r.query := by
  refine parameter_map fun query there => ?_
  have readable := read.query query there
  rw [QueryFilter.text_render fun entry mem operand given =>
    (readable entry mem operand given).mono (by decide)]
  rfl

/-- The size of a page is read back. -/
theorem WellRead.limit_toParams (read : r.WellRead) :
    parameter .limit (fun raw => Text.naturalOfText? (Text.trim raw)) (r.toParams number).limit
      = .ok r.limit := by
  refine parameter_map fun n there => ?_
  rw [(Text.isEntry_toString n).trim_eq, Text.naturalOfText?_toString (read.limit n there)]

end Parts

/-- A request of a body is written as parameters that say it, if its lists can be written with
commas and its numbers have texts that say them. -/
theorem toRequest_toParams {body : String} {request : SearchRequest}
    (decoded : decoder.text body = .ok request) (listable : request.Listable)
    {number : ExtendedNumber → String}
    (restored : ∀ x, ExtendedNumber.ofText? (number (.finite x)) = some (.finite x)) :
    (request.toParams number).toRequest = .ok request := by
  have read : request.WellRead := yields_decoder.text decoded
  simp only [SearchParams.toRequest, read.bbox_toParams restored, read.intersects_toParams,
    read.limit_toParams, read.query_toParams, listable.sortby_toParams, listable.fields_toParams,
    listable.collections_toParams, listable.ids_toParams]
  rfl

end SearchRequest

/-! ## Requests of parameters -/

/-- What parameters say can be said in a body if its values can stand in one. -/
theorem SearchParams.wellRead_of_toRequest {params : SearchParams} {request : SearchRequest}
    (said : params.toRequest = .ok request) (postable : request.Postable) : request.WellRead := by
  rw [toRequest] at said
  obtain ⟨_, _, said⟩ := exists_of_bind_eq_ok said
  obtain ⟨_, intersects, said⟩ := exists_of_bind_eq_ok said
  obtain ⟨_, limit, said⟩ := exists_of_bind_eq_ok said
  obtain ⟨_, _, said⟩ := exists_of_bind_eq_ok said
  obtain ⟨_, _, said⟩ := exists_of_bind_eq_ok said
  obtain ⟨_, _, said⟩ := exists_of_bind_eq_ok said
  cases said
  refine { postable with again := fun geometry there => ?_, limit := fun n there => ?_ }
  · obtain ⟨text, taken⟩ := exists_of_parameter intersects geometry there
    exact ((Geometry.yields_decoder 0).text (eq_ok_of_toOption_eq_some taken)).2
  · obtain ⟨text, taken⟩ := exists_of_parameter limit n there
    exact Text.le_maxWord_of_naturalOfText? taken

/-! ## A request with every part -/

namespace Sample

/-- Numbers as JSON writes them. -/
def numberText : ExtendedNumber → String
  | .finite x => .ofList (Binary64.Layout.json.render x)
  | other => other.text

/-- A body with every part, in which names start with signs and the members of sets are mixed up. -/
def fullBody : String :=
  "\x7b\"collections\":[\"s2\",\"s1\"],\"ids\":[\"b\",\"-a c\"],"
    ++ "\"bbox\":[-1.5,0,1e-7,2],\"datetime\":\"../2020\","
    ++ "\"intersects\":\x7b\"type\":\"Point\",\"coordinates\":[1,2.50]\x7d,"
    ++ "\"query\":\x7b\"gsd\":\x7b\"lt\":9\x7d\x7d,\"limit\":10,\"token\":\"t\","
    ++ "\"sortby\":[\x7b\"field\":\"+gsd\",\"direction\":\"desc\"\x7d],"
    ++ "\"fields\":\x7b\"include\":[\"-id\"],\"exclude\":[\"bbox\"]\x7d\x7d"

/-- The parameters that say the same. -/
def fullParams : SearchParams where
  collections := some "s1,s2"
  ids := some "b,-a c"
  bbox := some "-1.5,0.0,1e-7,2.0"
  intersects := some "\x7b\"coordinates\":[1.0,2.5],\"type\":\"Point\"\x7d"
  datetime := some "../2020"
  limit := some "10"
  query := some "\x7b\"gsd\":\x7b\"lt\":9\x7d\x7d"
  sortby := some "-+gsd"
  fields := some "+-id,-bbox"
  token := some "t"

/-- The request of the body is written as the parameters, which say it. -/
theorem toRequest_fullParams : ∃ request, SearchRequest.decoder.text fullBody = .ok request
    ∧ request.toParams numberText = fullParams ∧ fullParams.toRequest = .ok request := by
  have found : (SearchRequest.decoder.text fullBody).toOption.any (fun request =>
      decide request.Listable && decide (request.toParams numberText = fullParams)) = true := by
    -- The characters of several short texts are found faster than those of a long one.
    unfold Json.Decoder.text Json.Document.ofText fullBody
    simp only [String.toList_append]
    decide +kernel
  obtain ⟨request, decoded, known⟩ := exists_of_toOption_any found
  simp only [Bool.and_eq_true, decide_eq_true_eq] at known
  obtain ⟨listable, written⟩ := known
  have restored : ∀ x, ExtendedNumber.ofText? (numberText (.finite x)) = some (.finite x) :=
    ExtendedNumber.ofText?_json
  have again := SearchRequest.toRequest_toParams decoded listable restored
  rw [written] at again
  exact ⟨request, decoded, written, again⟩

end Sample

end CatalogSearch
