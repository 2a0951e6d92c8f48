import CatalogSearch.Proofs.Paging.Page
import CatalogSearch.Proofs.Projection.Tree
import CatalogSearch.Proofs.Query.Meaning

/-!
# Queried fields in what is returned

A filter reads one key below the properties, whatever characters it has. A projection reads the path
of the field as a row of keys with points between them. The two readings agree where the name is not
empty and has no point in it. Such a field is always returned as it was filtered on. Other fields
are returned only with all properties.

* `Field.segments?_path` : where the two readings agree;
* `Projection.at?_apply_of_returned`, `Projection.at?_apply_of_lost` : what a projection leaves at
  the place of a field that was filtered on;
* `SearchService.returns_queried_iff` : which queried fields the features of a page carry.
-/

namespace CatalogSearch

/-! ## Two readings of a path -/

namespace PathTree

variable {path : String} {segments : List String}

/-- The segments of a path are not empty and have no points in them. -/
theorem plain_of_mem_segments (h : segments? path = some segments) {segment : String}
    (mem : segment ∈ segments) : segment ≠ "" ∧ '.' ∉ segment.toList := by
  obtain ⟨rfl, noEmpty⟩ := segments?_eq_some_iff.1 h
  obtain ⟨piece, hpiece, rfl⟩ := List.mem_map.1 mem
  refine ⟨fun empty => noEmpty (empty ▸ mem), ?_⟩
  rw [String.toList_ofList]
  exact Text.notMem_of_mem_splitChars hpiece

/-- A text that is not empty and has no point in it is a path of one segment. -/
theorem segments?_of_plain (h : path ≠ "" ∧ '.' ∉ path.toList) : segments? path = some [path] := by
  rw [segments?_eq_some_iff, Text.splitOn, Text.splitChars_of_notMem h.2, List.map_singleton,
    String.ofList_toList, List.mem_singleton]
  exact ⟨rfl, h.1.symm⟩

/-- The only segment of a path is the path. -/
theorem eq_of_segments?_singleton {segment : String} (h : segments? path = some [segment]) :
    path = segment := by
  obtain ⟨pieces, _⟩ := segments?_eq_some_iff.1 h
  have chars : Text.splitChars '.' path.toList = [segment.toList] := by
    have back := congrArg (List.map String.toList) pieces
    rwa [Text.splitOn, List.map_map, List.map_id''] at back
    exact fun _ => String.toList_ofList
  rw [← String.toList_inj, ← Text.intercalate_splitChars '.' path.toList, chars,
    List.intercalate_singleton]

end PathTree

namespace Field

variable {field : Field} {name path : String} {segments : List String}

/-- If a field stands below the properties, its name is not empty and has no point in it. -/
def Plain (field : Field) : Prop :=
  ∀ name, field.path = propertyLead ++ name → name ≠ "" ∧ '.' ∉ name.toList

/-- A field below the properties is plain if its name is. -/
theorem plain_iff_of_path (h : field.path = propertyLead ++ name) :
    field.Plain ↔ name ≠ "" ∧ '.' ∉ name.toList := by
  refine ⟨fun plain => plain name h, fun plain name' h' => ?_⟩
  have same : name = name' := (String.append_right_inj _).1 (h.symm.trans h')
  exact same ▸ plain

/-- A field that is not plain stands below the properties. -/
theorem exists_path_of_not_plain (h : ¬ field.Plain) :
    ∃ name, field.path = propertyLead ++ name := by
  by_contra none
  exact h fun name path => absurd ⟨name, path⟩ none

/-- No field stands for all properties. -/
theorem WellPlaced.path_ne_properties (placed : field.WellPlaced) : field.path ≠ "properties" := by
  rcases placed with rfl | rfl | ⟨name, path⟩
  · decide
  · decide
  · intro same
    have length := congrArg String.length (path.symm.trans same)
    rw [String.length_append] at length
    have longer : "properties".length < propertyLead.length := by decide
    omega

/-- The pieces of the path of a property. -/
theorem splitOn_propertyLead_append (name : String) :
    Text.splitOn '.' (propertyLead ++ name) = "properties" :: Text.splitOn '.' name := by
  have chars : (propertyLead ++ name).toList = "properties".toList ++ '.' :: name.toList := by
    rw [String.toList_append]
    rfl
  rw [Text.splitOn, chars, Text.splitChars_append, Text.splitChars_of_notMem (by decide)]
  rfl

/-- The path of a plain field leads to its place. -/
theorem segments?_path (placed : field.WellPlaced) (plain : field.Plain) :
    PathTree.segments? field.path = some field.place := by
  rcases placed with rfl | rfl | ⟨name, path⟩
  · decide
  · decide
  · obtain ⟨pieces, noEmpty⟩ :=
      PathTree.segments?_eq_some_iff.1 (PathTree.segments?_of_plain (plain name path))
    rw [place_of_path path, PathTree.segments?_eq_some_iff, path, splitOn_propertyLead_append,
      pieces]
    exact ⟨rfl, List.mem_cons.not.2 (not_or.2 ⟨by decide, noEmpty⟩)⟩

/-- Of the paths only that of all properties leads near the place of a field that is not plain. -/
theorem eq_properties_of_prefix (notPlain : ¬ field.Plain)
    (h : PathTree.segments? path = some segments)
    (near : segments <+: field.place ∨ field.place <+: segments) : path = "properties" := by
  obtain ⟨name, hpath⟩ := exists_path_of_not_plain notPlain
  have notSegment : name ∉ segments := fun mem =>
    notPlain ((plain_iff_of_path hpath).2 (PathTree.plain_of_mem_segments h mem))
  rw [place_of_path hpath] at near
  match segments, near with
  | [], _ => exact absurd rfl (PathTree.segments_ne_nil h)
  | [key], near =>
    rw [PathTree.eq_of_segments?_singleton h]
    rcases near with ⟨_, row⟩ | ⟨_, row⟩
    · exact (List.cons.inj row).1
    · cases row
  | key :: next :: rest, near =>
    have there : next = name := by
      rcases near with ⟨_, row⟩ | ⟨_, row⟩
      · exact (List.cons.inj (List.cons.inj row).2).1
      · exact (List.cons.inj (List.cons.inj row).2).1.symm
    rw [there] at notSegment
    exact absurd (List.mem_cons_of_mem _ List.mem_cons_self) notSegment

/-- A path that leads near the place of a field overlaps the path of the field. -/
theorem pathsOverlap_of_prefix (placed : field.WellPlaced)
    (h : PathTree.segments? path = some segments)
    (near : segments <+: field.place ∨ field.place <+: segments) :
    pathsOverlap path field.path = true := by
  rw [pathsOverlap_iff, (PathTree.segments?_eq_some_iff.1 h).1]
  by_cases plain : field.Plain
  · rw [(PathTree.segments?_eq_some_iff.1 (segments?_path placed plain)).1]
    exact near
  · obtain ⟨name, hpath⟩ := exists_path_of_not_plain plain
    cases eq_properties_of_prefix plain h near
    obtain ⟨rfl, _⟩ := PathTree.segments?_eq_some_iff.1 h
    rw [hpath, splitOn_propertyLead_append]
    exact Or.inl ⟨_, rfl⟩

end Field

/-! ## Projections -/

namespace Projection

variable {field : Field} {defaults filtered : StringSet} {fields : FieldsRequest} {record json : Json}

/-- A projection removes nothing at the place of a field that was filtered on. -/
theorem at?_apply (placed : field.WellPlaced) (mem : field.path ∈ filtered) :
    ((resolve defaults fields filtered).apply record).at? field.place
      = ((PathTree.ofPaths (resolve defaults fields filtered).included.toList).keep record).at?
          field.place := by
  apply PathTree.at?_removeIn_of_none
  by_contra some
  obtain ⟨path, excluded, segments, hsegments, near⟩ :=
    (PathTree.isSome_at?_ofPaths field.place_ne_nil).1 (Option.isSome_iff_ne_none.2 some)
  have overlap := Field.pathsOverlap_of_prefix placed hsegments near
  have apart := (StringSet.mem_filter.1 excluded).2
  rw [Bool.not_eq_true', List.any_eq_false] at apart
  exact apart _ (List.mem_append_right _ mem) overlap

/-- What was filtered on is included. -/
theorem mem_included_of_filtered {path : String} (mem : path ∈ filtered) :
    path ∈ (resolve defaults fields filtered).included :=
  StringSet.mem_union.2 (Or.inl mem)

/-- A field that was filtered on stays if it is plain, or with all properties. -/
theorem at?_apply_of_returned (placed : field.WellPlaced) (mem : field.path ∈ filtered)
    (h : field.Plain ∨ "properties" ∈ (resolve defaults fields filtered).included)
    (found : record.at? field.place = some json) :
    ((resolve defaults fields filtered).apply record).at? field.place = some json := by
  rw [at?_apply placed mem]
  refine PathTree.at?_keepIn_of_whole (PathTree.at?_ofPaths_eq_whole.2 ?_) found
  by_cases plain : field.Plain
  · exact ⟨field.path, mem_included_of_filtered mem, _, Field.segments?_path placed plain,
      List.prefix_rfl⟩
  · obtain ⟨name, path⟩ := Field.exists_path_of_not_plain plain
    refine ⟨"properties", h.resolve_left plain, ["properties"], by decide, ?_⟩
    rw [Field.place_of_path path]
    exact ⟨_, rfl⟩

/-- A field that is not plain is lost without all properties. -/
theorem at?_apply_of_lost (placed : field.WellPlaced) (mem : field.path ∈ filtered)
    (h : ¬ (field.Plain ∨ "properties" ∈ (resolve defaults fields filtered).included)) :
    ((resolve defaults fields filtered).apply record).at? field.place = none := by
  rw [at?_apply placed mem]
  apply PathTree.at?_keepIn_of_none
  by_contra some
  obtain ⟨path, included, segments, hsegments, near⟩ :=
    (PathTree.isSome_at?_ofPaths field.place_ne_nil).1 (Option.isSome_iff_ne_none.2 some)
  rw [Field.eq_properties_of_prefix (not_or.1 h).1 hsegments near] at included
  exact (not_or.1 h).2 included

end Projection

/-! ## Requests -/

namespace SearchRequest

variable {registry : FieldRegistry} {settings : Settings} {request : SearchRequest}
  {field : Field} {item : Item}

/-- A request puts a condition on a field. -/
def Queries (registry : FieldRegistry) (request : SearchRequest) (field : Field) : Prop :=
  ∃ query name operands, request.query = some query ∧ (name, operands) ∈ query.entries
    ∧ operands.entries ≠ [] ∧ registry.resolve? name = some field

/-- All properties are returned: by default, or because a request includes them. -/
def ReturnsProperties (settings : Settings) (request : SearchRequest) : Prop :=
  "properties" ∈ settings.defaultIncludes
    ∨ ∃ fields, request.fields = some fields
      ∧ "properties" ∈ fields.included ∧ "properties" ∉ fields.excluded

/-- The paths that a request filters on are those of its comparisons with operands. -/
theorem mem_paths_iff (unnamed : ¬ request.NamesItems) {filters : Filters}
    (h : requestFilters registry request = .ok filters) {path : String} :
    path ∈ filters.paths ↔ ∃ field, request.Queries registry field ∧ field.path = path := by
  rw [requestFilters_of_unnamed unnamed] at h
  obtain ⟨_, _, comparisons, _, _, _, hquery, _, rfl⟩ := exists_of_compileFilters h
  rw [StringSet.mem_ofList, List.mem_map]
  constructor
  · rintro ⟨comparison, mem, rfl⟩
    obtain ⟨query, name, operands, _, _, given, hentry, hoperand, found, _, _⟩ :=
      exists_query_of_mem hquery mem
    exact ⟨comparison.field, ⟨query, name, operands, given, hentry, List.ne_nil_of_mem hoperand,
      found⟩, rfl⟩
  · rintro ⟨field, ⟨query, name, operands, given, hentry, someOperand, found⟩, rfl⟩
    rw [given] at hquery
    obtain ⟨_, hoperand⟩ := List.exists_mem_of_ne_nil _ someOperand
    obtain ⟨field', operator, expected, found', _, _, mem⟩ :=
      exists_mem_of_compileQuery hquery hentry hoperand
    cases found.symm.trans found'
    exact ⟨_, mem, rfl⟩

/-- An item that a request wants has a value of each queried field. -/
theorem Queries.exists_has (queries : request.Queries registry field)
    (unnamed : ¬ request.NamesItems) (wants : request.Wants registry item) :
    ∃ value, item.Has field value := by
  obtain ⟨query, name, operands, given, mem, someOperand, found⟩ := queries
  obtain ⟨⟨operatorName, operand⟩, mem'⟩ := List.exists_mem_of_ne_nil _ someOperand
  obtain ⟨field', _, _, value, found', _, _, has, _⟩ :=
    wants.query unnamed query given name operands mem operatorName operand mem'
  cases found.symm.trans found'
  exact ⟨value, has⟩

/-- A queried field is well placed if all fields of the registry are. -/
theorem Queries.wellPlaced (queries : request.Queries registry field)
    (placed : registry.WellPlaced) : field.WellPlaced := by
  obtain ⟨_, _, _, _, _, _, found⟩ := queries
  exact placed field (FieldRegistry.mem_of_resolve? found)

/-- A projection includes all properties if they are returned. -/
theorem properties_mem_included_iff {filtered : StringSet} (apart : "properties" ∉ filtered) :
    "properties" ∈ (Projection.resolve settings.defaultIncludes
        ((nonEmpty FieldsRequest.isEmpty request.fields).getD .none) filtered).included
      ↔ request.ReturnsProperties settings := by
  have included : ∀ fields : FieldsRequest,
      "properties" ∈ (Projection.resolve settings.defaultIncludes fields filtered).included
        ↔ "properties" ∈ settings.defaultIncludes
          ∨ "properties" ∈ fields.included ∧ "properties" ∉ fields.excluded := by
    intro fields
    simp only [Projection.resolve, StringSet.mem_union, apart, false_or, StringSet.mem_filter,
      Bool.not_eq_true', decide_eq_false_iff_not]
    tauto
  rw [included, ReturnsProperties]
  refine or_congr_right ?_
  cases given : nonEmpty FieldsRequest.isEmpty request.fields with
  | some fields =>
    have there : request.fields = some fields := (nonEmpty_eq_some_iff.1 given).1
    simp [there]
  | none =>
    refine iff_of_false (fun h => absurd h.1 List.not_mem_nil) ?_
    rintro ⟨fields, there, mem, _⟩
    have notEmpty : fields.isEmpty = false := by
      rw [FieldsRequest.isEmpty, StringSet.isEmpty,
        List.isEmpty_eq_false_iff.2 (List.ne_nil_of_mem mem), Bool.false_and]
    rw [nonEmpty_eq_some_iff.2 ⟨there, notEmpty⟩] at given
    cases given

end SearchRequest

/-! ## Features -/

/-- What is returned for an item carries the very JSON that its value of a field was read from. -/
def Item.ReturnedIn (item : Item) (field : Field) (feature : Json) : Prop :=
  ∃ json, item.toJson.at? field.place = some json
    ∧ FieldValue.ofJson? field.type json = item.value? field
    ∧ feature.at? field.place = some json

namespace SearchService

variable {service : SearchService} {request : SearchRequest} {plan : SearchPlan} {field : Field}

/--
A queried field of an item is returned as it was filtered on exactly if it is plain or all
properties are returned.
-/
theorem returnedIn_feature_iff (placed : service.registry.WellPlaced)
    (projects : service.settings.capabilities.fields = true) (unnamed : ¬ request.NamesItems)
    (accepted : service.plan request = .ok plan)
    (queries : request.Queries service.registry field) {item : Item} {value : FieldValue}
    (has : item.Has field value) :
    item.ReturnedIn field (plan.feature item)
      ↔ field.Plain ∨ request.ReturnsProperties service.settings := by
  obtain ⟨filters, hfilters, made⟩ := exists_filters_of_planSearch accepted
  have placedField := queries.wellPlaced placed
  have mem : field.path ∈ filters.paths :=
    (SearchRequest.mem_paths_iff unnamed hfilters).2 ⟨field, queries, rfl⟩
  have apart : "properties" ∉ filters.paths := by
    intro properties
    obtain ⟨_, queries', path⟩ := (SearchRequest.mem_paths_iff unnamed hfilters).1 properties
    exact (queries'.wellPlaced placed).path_ne_properties path
  have projection := made.projection
  rw [if_pos projects] at projection
  rw [SearchPlan.feature, projection, Option.elim_some,
    ← SearchRequest.properties_mem_included_iff apart]
  obtain ⟨json, found, read⟩ := has
  constructor
  · rintro ⟨json', _, _, returned⟩
    by_contra lost
    rw [Projection.at?_apply_of_lost placedField mem lost] at returned
    cases returned
  · intro returned
    have read' : FieldValue.ofJson? field.type json = item.value? field :=
      read.trans ((Item.value?_eq_some_iff placedField).2 ⟨json, found, read⟩).symm
    exact ⟨json, found, read', Projection.at?_apply_of_returned placedField mem returned found⟩

/--
A request that names no items is answered by the features of a page, whatever links are made. Of
the fields that it queries, each feature carries the JSON that the filter has read if the name of
the field is not empty and has no point in it, or else if all properties are returned.
-/
theorem returns_queried_iff {config : Config} (configured : config.registry = .ok service.registry)
    (projects : service.settings.capabilities.fields = true) (unnamed : ¬ request.NamesItems)
    (accepted : service.plan request = .ok plan) (store : MemoryStore)
    (link : LinkRel → String → Link) :
    ∃ response, service.run store.toStore (service.plan request) link = .ok response
      ∧ response.features = (store.page plan).items.map plan.feature
      ∧ ∀ item ∈ (store.page plan).items, ∀ field, request.Queries service.registry field →
        (item.ReturnedIn field (plan.feature item)
          ↔ field.Plain ∨ request.ReturnsProperties service.settings) := by
  have placed := Config.registry_wellPlaced configured
  obtain ⟨context, answered⟩ := run_of_plan accepted link
  refine ⟨_, answered, rfl, fun item mem field queries => ?_⟩
  have satisfied := MemoryStore.matches_of_mem_page (resolved_of_planSearch accepted) mem
  have wants := (SearchRequest.matchesAll_plan_iff placed accepted).1 satisfied
  obtain ⟨value, has⟩ := queries.exists_has unnamed wants
  exact returnedIn_feature_iff placed projects unnamed accepted queries has

end SearchService

/-! ## A field with a point in its name -/

namespace Sample

/-- A configuration with a field whose name has a point in it. -/
def angleConfig : Config :=
  { Config.unset with queryables := [⟨"view.angle", none, .float⟩] }

/-- A service for that configuration. -/
def angleService : SearchService where
  registry := angleConfig.registry.toOption.getD .builtin
  settings := openSettings

/-- A built-in field and the one with a point in its name. -/
def queriedFields : List Field :=
  [.property "gsd" .float, .property "view.angle" .float]

/-- A request for values of both. -/
def angleRequest : SearchRequest :=
  { SearchRequest.all with
    query := some (.ofList [("gsd", .ofList [("lt", .int 1)]),
      ("view.angle", .ofList [("ge", .int 5)])]) }

/-- An item that has such values. -/
def angleItem : Item :=
  { Item.blank with id := "a", properties := [("gsd", .int 0), ("view.angle", .int 5)] }

/-- The page for the request holds the item. -/
theorem page_of_angleRequest {plan : SearchPlan}
    (accepted : angleService.plan angleRequest = .ok plan)
    (satisfied : matchesAll plan.predicates angleItem = true) :
    ((MemoryStore.ofItems [angleItem]).page plan).items = [angleItem] := by
  obtain ⟨_, _, made⟩ := exists_filters_of_planSearch accepted
  have first : plan.cursor = none := (Except.ok.inj made.cursor).symm
  have limit : plan.limit = 2 := (Except.ok.inj made.limit).symm
  have resolved := resolved_of_planSearch accepted
  have hits : (MemoryStore.ofItems [angleItem]).hits plan = [angleItem] := by
    refine MemoryStore.hits_eq resolved.exists_id (List.pairwise_singleton _ _) ?_
    rw [show (MemoryStore.ofItems [angleItem]).items.values = [angleItem] from rfl,
      List.filter_cons_of_pos satisfied]
    rfl
  rw [MemoryStore.page_eq resolved (Or.inr (by decide)), MemoryStore.rows_first first, hits, first,
    Page.ofRows_first, limit]
  rfl

/-- Both fields are queried. -/
theorem queries_of_angleRequest :
    ∀ field ∈ queriedFields, angleRequest.Queries angleService.registry field := by
  refine List.forall_mem_cons.2 ⟨⟨_, "gsd", _, rfl, List.mem_cons_self, nofun, rfl⟩, ?_⟩
  exact List.forall_mem_singleton.2 ⟨_, "view.angle", _, rfl,
    List.mem_cons_of_mem _ List.mem_cons_self, nofun, rfl⟩

/-- The item is returned with the built-in field alone. -/
theorem returns_gsd_without_angle :
    ∃ response feature,
      angleService.search (MemoryStore.ofItems [angleItem]).toStore angleRequest = .ok response
        ∧ response.features = [feature]
        ∧ (∀ field ∈ queriedFields, angleRequest.Queries angleService.registry field)
        ∧ ∀ field ∈ queriedFields, angleItem.ReturnedIn field feature ↔ field.name = "gsd" := by
  have configured : angleConfig.registry = .ok angleService.registry := rfl
  have unnamed : ¬ angleRequest.NamesItems := fun ⟨_, named, _⟩ => nomatch named
  have found : (angleService.plan angleRequest).toOption.any (matchesAll ·.predicates angleItem)
      = true := by decide +kernel
  obtain ⟨plan, accepted, satisfied⟩ := exists_of_toOption_any found
  obtain ⟨response, answered, features, returned⟩ := SearchService.returns_queried_iff configured
    rfl unnamed accepted (MemoryStore.ofItems [angleItem])
    fun rel token => .post rel openSettings.baseUrl token
  rw [page_of_angleRequest accepted satisfied] at features returned
  refine ⟨response, plan.feature angleItem, answered, features, queries_of_angleRequest, ?_⟩
  have notAll : ¬ angleRequest.ReturnsProperties angleService.settings := by
    rintro (none | ⟨_, none, _⟩)
    · cases none
    · cases none
  have plain : ∀ field ∈ queriedFields, field.Plain ↔ field.name = "gsd" :=
    List.forall_mem_cons.2 ⟨iff_of_true ((Field.plain_iff_of_path rfl).2 (by decide)) rfl,
      List.forall_mem_singleton.2 (iff_of_false
        (mt (Field.plain_iff_of_path rfl).1 (by decide)) (by decide))⟩
  intro field mem
  rw [returned angleItem List.mem_cons_self field (queries_of_angleRequest field mem),
    or_iff_left notAll, plain field mem]

end Sample

end CatalogSearch
