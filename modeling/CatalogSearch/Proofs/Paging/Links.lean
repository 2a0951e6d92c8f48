import CatalogSearch.Http
import CatalogSearch.Proofs.Encoding.Form
import CatalogSearch.Proofs.Request.QueryString
import CatalogSearch.Proofs.Store.Stages

/-!
# Links to neighbouring pages

A link to a neighbour of a page says the very search that the page was asked for, with another
token. Its query string has the parameters of the search, and a body that is merged into a request
changes the token alone.

* `Http.searchParams?_encodeForm` : parameters are read back from a query string;
* `SearchRequest.merge_token` : a merged body changes the token of a request;
* `SearchService.links_resume` : what the links of an answer lead to.
-/

namespace CatalogSearch

/-! ## Query parts -/

/-- What stands behind the question mark of a URL, up to a number sign. -/
def queryPart (href : String) : String :=
  .ofList (((href.toList.takeWhile (· ≠ '#')).dropWhile (· ≠ '?')).drop 1)

/-- The query part of a URL is what stands behind its only question mark. -/
theorem queryPart_append {before query : String} (plain : '?' ∉ before.toList ∧ '#' ∉ before.toList)
    (unbroken : '#' ∉ query.toList) : queryPart (before ++ "?" ++ query) = query := by
  have noEnd : ∀ c ∈ before.toList ++ '?' :: query.toList, decide (c ≠ '#') = true := by
    intro c mem
    refine decide_eq_true ?_
    rintro rfl
    rcases List.mem_append.1 mem with mem | mem
    · exact plain.2 mem
    · rcases List.mem_cons.1 mem with same | mem
      · cases same
      · exact unbroken mem
  have path : ∀ c ∈ before.toList, decide (c ≠ '?') = true := fun c mem =>
    decide_eq_true fun same => plain.1 (same ▸ mem)
  have chars : (before ++ "?" ++ query).toList = before.toList ++ '?' :: query.toList := by
    simp [String.toList_append]
  rw [queryPart, chars, List.takeWhile_eq_self_iff.2 noEnd, List.dropWhile_append_of_pos path,
    List.dropWhile_cons_of_neg (by simp), List.drop_one, List.tail_cons, String.ofList_toList]

/-- The query part of a link that is followed by a query string. -/
theorem Link.queryPart_get {base path : String} (plain : '?' ∉ base.toList ∧ '#' ∉ base.toList)
    (plainPath : '?' ∉ path.toList ∧ '#' ∉ path.toList) (rel : LinkRel)
    (entries : List (String × String)) (token : String) :
    queryPart (get rel base path entries token).href
      = Percent.encodeForm (withToken entries token) := by
  have before {c : Char} (slash : c ≠ '/') (inBase : c ∉ base.toList) (inPath : c ∉ path.toList) :
      c ∉ (Text.dropTrailing '/' base ++ "/" ++ dropSlashes path).toList := by
    rw [String.toList_append, String.toList_append, dropSlashes, List.mem_append, List.mem_append,
      not_or, not_or]
    refine ⟨⟨mt Text.mem_of_mem_dropTrailing inBase, by simpa using slash⟩, fun mem => inPath ?_⟩
    rw [String.toList_ofList] at mem
    exact (List.dropWhile_suffix _).subset mem
  exact queryPart_append ⟨before (by decide) plain.1 plainPath.1,
    before (by decide) plain.2 plainPath.2⟩ (Percent.notMem_encodeForm _)

/-! ## Rows of parameters -/

section Rows

variable {row : List (String × Option String)}

/-- The entries of a row in which some values may be missing. -/
def present (row : List (String × Option String)) : List (String × String) :=
  row.filterMap fun (name, value) => value.map (name, ·)

/-- The names of what is there are among the names of the row, in the same order. -/
theorem sublist_present (row : List (String × Option String)) :
    ((present row).map (·.1)).Sublist (row.map (·.1)) := by
  induction row with
  | nil => exact .slnil
  | cons head row ih =>
    obtain ⟨name, value⟩ := head
    cases value with
    | none => exact ih.cons name
    | some value => exact ih.cons_cons name

/-- What is there is found under its name. -/
theorem lookup_present (distinct : (row.map (·.1)).Nodup) (name : String) :
    (present row).lookup name = (row.lookup name).join := by
  induction row with
  | nil => rfl
  | cons head row ih =>
    obtain ⟨other, value⟩ := head
    rw [List.map_cons, List.nodup_cons] at distinct
    have others := ih distinct.2
    rw [lookup_cons]
    cases value with
    | none =>
      show (present row).lookup name = _
      by_cases same : name = other
      · subst same
        have absent : row.lookup name = none := List.lookup_eq_none_iff.2 fun entry mem =>
          bne_iff_ne.2 fun eq => distinct.1 (List.mem_map.2 ⟨entry, mem, eq.symm⟩)
        rw [others, absent, if_pos rfl]
        rfl
      · rw [others, if_neg same]
    | some value =>
      show ((other, value) :: present row).lookup name = _
      rw [lookup_cons, others]
      split <;> rfl

/-- Values under different names that are asked for are unique. -/
theorem uniqueValues?_eq_self {names : List String} {entries : List (String × String)}
    (distinct : (entries.map (·.1)).Nodup) (known : ∀ entry ∈ entries, entry.1 ∈ names) :
    Http.uniqueValues? names entries = some entries := by
  have all : entries.filter (fun entry => names.contains entry.1) = entries :=
    List.filter_eq_self.2 fun entry mem => List.contains_iff_mem.2 (known entry mem)
  have once : (names.all fun name => (entries.filter (·.1 = name)).length ≤ 1) = true := by
    refine List.all_eq_true.2 fun name _ => decide_eq_true ?_
    have count := List.nodup_iff_count_le_one.1 distinct name
    rw [List.count_eq_countP, List.countP_map, List.countP_eq_length_filter] at count
    exact count
  rw [Http.uniqueValues?, all, once, if_pos rfl]

end Rows

/-! ## Parameters -/

namespace SearchParams

variable {p : SearchParams} {request : SearchRequest}

/-- All parameters with their names. -/
def row (p : SearchParams) : List (String × Option String) :=
  [("collections", p.collections), ("ids", p.ids), ("bbox", p.bbox), ("intersects", p.intersects),
    ("datetime", p.datetime), ("limit", p.limit), ("query", p.query), ("sortby", p.sortby),
    ("fields", p.fields), ("token", p.token)]

/-- The parameters have different names. -/
theorem nodup_row (p : SearchParams) : (p.row.map (·.1)).Nodup := by
  show ["collections", "ids", "bbox", "intersects", "datetime", "limit", "query", "sortby",
    "fields", "token"].Nodup
  decide

/-- A parameter is found under its name. -/
theorem lookup_entries {name : String} {value : Option String}
    (h : p.row.lookup name = some value) : p.entries.lookup name = value := by
  show (present p.row).lookup name = value
  rw [lookup_present p.nodup_row, h]
  rfl

/-- The entries with another token in the place of the one they had. -/
theorem entries_token (p : SearchParams) (token : String) :
    ({ p with token := some token } : SearchParams).entries = Link.withToken p.entries token := by
  have others : ∀ entry ∈ present (p.row.take 9), decide (entry.1 ≠ "token") = true := by
    intro entry mem
    refine decide_eq_true fun same => ?_
    have name : entry.1 ∈ SearchParams.names.take 9 :=
      (sublist_present (p.row.take 9)).subset (List.mem_map_of_mem mem)
    rw [same] at name
    exact absurd name (by decide)
  have last : (present [("token", p.token)]).filter (fun entry => decide (entry.1 ≠ "token"))
      = [] := by
    cases p.token <;> rfl
  have split : p.entries = present (p.row.take 9) ++ present [("token", p.token)] :=
    List.filterMap_append (l := p.row.take 9)
  rw [Link.withToken, split, List.filter_append, List.filter_eq_self.2 others, last,
    List.append_nil]
  show present (p.row.take 9 ++ [("token", some token)]) = _
  rw [present, List.filterMap_append]
  rfl

/-- Parameters are read back from a query string. -/
theorem searchParams?_encodeForm (p : SearchParams) :
    Http.searchParams? (Percent.encodeForm p.entries) = some p := by
  have names : (p.entries.map (·.1)).Sublist SearchParams.names := sublist_present p.row
  have unique : Http.uniqueValues? SearchParams.names p.entries = some p.entries :=
    uniqueValues?_eq_self (names.nodup p.nodup_row) fun entry mem =>
      names.subset (List.mem_map_of_mem mem)
  have found := @lookup_entries p
  rw [Http.searchParams?, Percent.decodeForm_encodeForm, unique]
  show some (SearchParams.mk (p.entries.lookup "collections") (p.entries.lookup "ids")
    (p.entries.lookup "bbox") (p.entries.lookup "intersects") (p.entries.lookup "datetime")
    (p.entries.lookup "limit") (p.entries.lookup "query") (p.entries.lookup "sortby")
    (p.entries.lookup "fields") (p.entries.lookup "token")) = some p
  rw [found (show p.row.lookup "collections" = some p.collections from rfl),
    found (show p.row.lookup "ids" = some p.ids from rfl),
    found (show p.row.lookup "bbox" = some p.bbox from rfl),
    found (show p.row.lookup "intersects" = some p.intersects from rfl),
    found (show p.row.lookup "datetime" = some p.datetime from rfl),
    found (show p.row.lookup "limit" = some p.limit from rfl),
    found (show p.row.lookup "query" = some p.query from rfl),
    found (show p.row.lookup "sortby" = some p.sortby from rfl),
    found (show p.row.lookup "fields" = some p.fields from rfl),
    found (show p.row.lookup "token" = some p.token from rfl)]

/-- The request that parameters say has their token. -/
theorem toRequest_token (h : p.toRequest = .ok request) (token : Option String) :
    ({ p with token } : SearchParams).toRequest = .ok { request with token } := by
  rw [toRequest] at h
  obtain ⟨bbox, hbbox, h⟩ := exists_of_bind_eq_ok h
  obtain ⟨intersects, hintersects, h⟩ := exists_of_bind_eq_ok h
  obtain ⟨limit, hlimit, h⟩ := exists_of_bind_eq_ok h
  obtain ⟨query, hquery, h⟩ := exists_of_bind_eq_ok h
  obtain ⟨sortby, hsortby, h⟩ := exists_of_bind_eq_ok h
  obtain ⟨fields, hfields, h⟩ := exists_of_bind_eq_ok h
  cases h
  rw [toRequest]
  simp only [hbbox, hintersects, hlimit, hquery, hsortby, hfields]
  rfl

end SearchParams

/-! ## Merged bodies -/

/-- An object whose members give way to those of another one that have the same names. -/
def Json.merge : Json → Json → Json
  | .obj members, .obj others => .object (members ++ others)
  | value, _ => value

/-- What is found in an object after one more member was merged into it. -/
theorem Json.lookup_sortMembers_append {members : List (String × Json)}
    (sorted : members.Pairwise (·.1 < ·.1)) (name other : String) (value : Json) :
    (sortMembers (members ++ [(name, value)])).lookup other
      = if other = name then some value else members.lookup other := by
  have written : sortMembers (members ++ [(name, value)]) = insertEntry name value members := by
    rw [sortMembers, List.foldl_append]
    exact congrArg (insertEntry name value) (sortMembers_of_sorted sorted)
  rw [written, lookup_insertEntry]

/-- A body that has a token, merged into a request, changes the token alone. -/
theorem SearchRequest.merge_token (request : SearchRequest) (token : String) :
    request.toJson.merge (.obj [("token", .str token)])
      = ({ request with token := some token } : SearchRequest).toJson := by
  refine congrArg Json.obj (Json.members_eq_of_lookup_eq (Json.pairwise_sortMembers _)
    (Json.pairwise_sortMembers _) fun name => ?_)
  rw [Json.lookup_sortMembers_append (Json.pairwise_sortMembers _), Json.lookup_sortMembers,
    Json.lookup_sortMembers]
  by_cases same : name = "token"
  · rw [if_pos same, same]
    rfl
  · rw [if_neg same]
    simp only [members, List.reverse_cons, List.reverse_nil, List.nil_append, List.cons_append,
      lookup_cons, if_neg same]

/-- What a body has been merged into is read as the request with its token. -/
theorem SearchRequest.text_merge_token {request : SearchRequest} (read : request.WellRead)
    (token : String) :
    decoder.text (request.toJson.merge (.obj [("token", .str token)])).render
      = .ok { request with token := some token } := by
  have again : ({ request with token := some token } : SearchRequest).WellRead := { read with }
  rw [merge_token]
  exact text_render again

/-! ## Links of an answer -/

namespace SearchService

variable {service : SearchService} {params : SearchParams} {trace : List Exchange}
  {response : SearchResponse}

/-- The links of an answer lead to the neighbours whose tokens it has. -/
theorem exists_of_mem_links {plan : Except SearchError SearchPlan}
    {link : LinkRel → String → Link}
    (answered : (service.run .asked plan link).Run trace (.ok response))
    {l : Link} (mem : l ∈ response.links) :
    ∃ rel token, l = link rel token
      ∧ (rel = .next ∧ response.nextToken = some token
        ∨ rel = .previous ∧ response.previousToken = some token) := by
  cases plan with
  | error e => cases (run_refused answered).2
  | ok accepted =>
    have made : ∃ rows counted, response = answer accepted rows link counted := by
      rcases run_cases answered with ⟨_, _, same⟩ | ⟨rows, _, _, same⟩ | ⟨rows, counted, _, _, same⟩
      · cases same
      · exact ⟨rows, none, Except.ok.inj same⟩
      · exact ⟨rows, some counted, Except.ok.inj same⟩
    obtain ⟨rows, counted, rfl⟩ := made
    rcases List.mem_append.1 mem with mem | mem
    · obtain ⟨token, there, rfl⟩ := Option.map_eq_some_iff.1 (Option.mem_toList.1 mem)
      exact ⟨.next, token, rfl, Or.inl ⟨rfl, there⟩⟩
    · obtain ⟨token, there, rfl⟩ := Option.map_eq_some_iff.1 (Option.mem_toList.1 mem)
      exact ⟨.previous, token, rfl, Or.inr ⟨rfl, there⟩⟩

/--
Whatever the store answers, the links of an answer to a query string say the same search with the
token of the neighbour: their query strings are read back as the parameters with that token, these
say the request with that token, and so does the request into which the body of a posted search's
link is merged. If the request can stand in a body, the merged body is read as it.
-/
theorem links_resume
    (plain : '?' ∉ service.settings.baseUrl.toList ∧ '#' ∉ service.settings.baseUrl.toList)
    (answered : (service.getSearch .asked params).Run trace (.ok response)) :
    ∃ request, params.toRequest = .ok request ∧ ∀ link ∈ response.links, ∃ token,
      (link.rel = .next ∧ response.nextToken = some token
        ∨ link.rel = .previous ∧ response.previousToken = some token)
      ∧ Percent.decodeForm (queryPart link.href)
        = ({ params with token := some token } : SearchParams).entries
      ∧ Http.searchParams? (queryPart link.href) = some { params with token := some token }
      ∧ ({ params with token := some token } : SearchParams).toRequest
        = .ok { request with token := some token }
      ∧ (Link.post link.rel service.settings.baseUrl token).body.map request.toJson.merge
        = some ({ request with token := some token } : SearchRequest).toJson
      ∧ (request.Postable → (Link.post link.rel service.settings.baseUrl token).body.map
          (fun body => SearchRequest.decoder.text (request.toJson.merge body).render)
        = some (.ok { request with token := some token })) := by
  cases said : params.toRequest with
  | error e =>
    rw [getSearch, said] at answered
    cases (run_refused answered).2
  | ok request =>
    refine ⟨request, rfl, fun link mem => ?_⟩
    obtain ⟨rel, token, rfl, neighbour⟩ := exists_of_mem_links answered mem
    have query :
        queryPart (Link.get rel service.settings.baseUrl "search" params.entries token).href
        = Percent.encodeForm ({ params with token := some token } : SearchParams).entries := by
      rw [Link.queryPart_get plain (by decide), SearchParams.entries_token]
    refine ⟨token, neighbour, ?_, ?_, SearchParams.toRequest_token said (some token), ?_, ?_⟩
    · rw [query, Percent.decodeForm_encodeForm]
    · rw [query, SearchParams.searchParams?_encodeForm]
    · exact congrArg some (SearchRequest.merge_token request token)
    · intro postable
      have read := SearchParams.wellRead_of_toRequest said postable
      exact congrArg some (SearchRequest.text_merge_token read token)

end SearchService

/-! ## Parameters with separators in them -/

namespace Sample

/-- Parameters whose values hold separators, signs, blanks, quotes and a letter of two bytes. -/
def awkwardParams : SearchParams :=
  { SearchParams.none with
    collections := some "a&b=c+d, 50% \u00e9#?"
    limit := some "1"
    query := some "\x7b\"gsd\": \x7b\"ge\": 1\x7d\x7d" }

/-- Two items, one more than a page of one has. -/
def twoItems : List Item :=
  [{ Item.blank with id := "a" }, { Item.blank with id := "b" }]

/-- From the start a page of one item with another one behind it has a link to the next page. -/
theorem exists_next_link {plan : SearchPlan} (size : plan.limit = 1) (start : plan.cursor = none)
    (link : LinkRel → String → Link) :
    ∃ trace response, (countingService.run .asked (.ok plan) link).Run trace (.ok response)
      ∧ ∃ token, link .next token ∈ response.links := by
  have run : (countingService.run .asked (.ok plan) link).Run
      [⟨.scan plan.scanRequest, .ok twoItems⟩, ⟨.count plan.predicates, .ok 2⟩]
      (.ok (SearchService.answer plan twoItems link (some (.ok 2)))) := by
    rw [SearchService.run_asked]
    exact .ask _ (.ask _ (.done _))
  have next :
      ∃ token, (Page.ofRows twoItems plan.limit plan.order plan.cursor).next = some token := by
    rw [size, start]
    exact ⟨_, rfl⟩
  obtain ⟨token, next⟩ := next
  refine ⟨_, _, run, token, List.mem_append_left _ ?_⟩
  exact Option.mem_toList.2 (Option.map_eq_some_iff.2 ⟨token, next, rfl⟩)

/-- Whether a value is an integer of a signed word. -/
def isSignedInt : Json → Bool
  | .int n => fitsSigned n
  | _ => false

/-- An integer of a signed word is readable anywhere. -/
theorem readable_of_isSignedInt {value : Json} (h : isSignedInt value = true) (depth : ℕ) :
    value.Readable depth := by
  cases value with
  | int n =>
    have range := fitsSigned_iff.1 h
    exact ⟨by omega, by omega⟩
  | _ => cases h

/-- What the parameters ask for can stand in a body. -/
theorem postable_of_awkwardParams {request : SearchRequest}
    (said : awkwardParams.toRequest = .ok request) : request.Postable := by
  have found : awkwardParams.toRequest.toOption.any (fun request =>
      request.bbox.isNone && request.intersects.isNone && request.query.all (·.entries.all
        (·.2.entries.all (isSignedInt ·.2)))) = true := by decide +kernel
  rw [said] at found
  simp only [Except.toOption, Option.any_some, Bool.and_eq_true, Option.isNone_iff_eq_none,
    Option.all_eq_true, List.all_eq_true] at found
  obtain ⟨⟨noBox, noGeometry⟩, operands⟩ := found
  exact ⟨by simp [noBox], by simp [noGeometry], fun query there entry mem operand given =>
    readable_of_isSignedInt (operands query there entry mem operand given) _⟩

/-- A page with more behind it has a link that says the parameters again, and a body that is merged
with the link's token is read as the request again. -/
theorem resume_of_awkwardParams :
    ∃ trace response, (countingService.getSearch .asked awkwardParams).Run trace (.ok response)
      ∧ ∃ link ∈ response.links, ∃ token, response.nextToken = some token
        ∧ Http.searchParams? (queryPart link.href)
          = some { awkwardParams with token := some token }
        ∧ ∃ request, awkwardParams.toRequest = .ok request
          ∧ (Link.post link.rel countingService.settings.baseUrl token).body.map
              (fun body => SearchRequest.decoder.text (request.toJson.merge body).render)
            = some (.ok { request with token := some token }) := by
  have found : (awkwardParams.toRequest >>= countingService.plan).toOption.any
      (fun plan => plan.limit = 1 && plan.cursor.isNone) = true := by decide +kernel
  obtain ⟨plan, accepted, first⟩ := exists_of_toOption_any found
  simp only [Bool.and_eq_true, decide_eq_true_eq, Option.isNone_iff_eq_none] at first
  obtain ⟨trace, response, run, _, linked⟩ := exists_next_link first.1 first.2 fun rel token =>
    Link.get rel countingService.settings.baseUrl "search" awkwardParams.entries token
  rw [← accepted] at run
  obtain ⟨request, said, resume⟩ := SearchService.links_resume (by decide) run
  refine ⟨trace, response, run, _, linked, ?_⟩
  obtain ⟨token, ⟨_, there⟩ | ⟨previous, _⟩, _, params, _, _, posted⟩ := resume _ linked
  · exact ⟨token, there, params, request, said, posted (postable_of_awkwardParams said)⟩
  · cases previous

end Sample

end CatalogSearch
