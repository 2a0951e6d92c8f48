import CatalogSearch.Catalog
import CatalogSearch.Proofs.Encoding.Segment
import CatalogSearch.Proofs.Paging.Links

/-!
# Paths of collections

The links that are made for a collection lead to its record, to its items, and to further pages of
these. Behind the base of the catalog the path of each of them has one segment that names the
collection, whatever characters its identifier has, so links for different collections never lead to
the same place.

* `pathBehind?_intercalate` : the path of a URL is read back as its segments;
* `MadeFor.leadsTo` : what the path of each link says;
* `LeadsTo.eq_of_path_eq` : the path says which collection it is;
* `collection_paths_identify` : all of it together.
-/

namespace CatalogSearch

/-! ## Paths of URLs -/

/-- Whether a character ends the path of a URL. -/
def endsPath (c : Char) : Bool :=
  c = '?' || c = '#'

/-- The segments of the path of a URL behind the given start. -/
def pathBehind? (start href : String) : Option (List String) :=
  (Text.after? start href).map fun rest =>
    Text.splitOn '/' (.ofList (rest.toList.takeWhile (!endsPath ·)))

/-- The segments of a path are read back, whatever follows behind the path. -/
theorem pathBehind?_intercalate (start : String) {segments : List String} (nonempty : segments ≠ [])
    (plain : ∀ segment ∈ segments, ∀ c ∈ ['/', '?', '#'], c ∉ segment.toList) {rest : String}
    (ends : rest.toList.takeWhile (!endsPath ·) = []) :
    pathBehind? start (start ++ ("/".intercalate segments ++ rest)) = some segments := by
  have inPath : ∀ c ∈ ("/".intercalate segments).toList, (!endsPath c) = true := by
    intro c mem
    rw [Bool.not_eq_true', Bool.eq_false_iff]
    intro isEnd
    have among : c ∈ ['?', '#'] := by simpa [endsPath] using isEnd
    have other : c ≠ '/' := by
      rintro rfl
      exact absurd among (by decide)
    rw [String.toList_intercalate] at mem
    refine Text.notMem_intercalate other (List.forall_mem_map.2 fun segment hsegment => ?_) mem
    exact plain segment hsegment c (List.mem_cons_of_mem _ among)
  have path : ("/".intercalate segments ++ rest).toList.takeWhile (!endsPath ·)
      = ("/".intercalate segments).toList := by
    rw [String.toList_append, List.takeWhile_append_of_pos inPath, ends, List.append_nil]
  rw [pathBehind?, Text.after?_eq_some_iff.2 rfl, Option.map_some, path, String.ofList_toList,
    Text.splitOn_intercalate rfl nonempty fun segment mem => plain segment mem '/' (by simp)]

/-! ## Links for a collection -/

/-- What a link for a collection leads to. -/
inductive CollectionPlace where
  /-- Its record. -/
  | record
  /-- Its items. -/
  | items
  /-- A further page of its items. -/
  | page

namespace CollectionPlace

/-- What links to a place start with; a link to a page leaves out slashes at the end of the base. -/
def start (base : String) : CollectionPlace → String
  | record | items => base
  | page => Text.dropTrailing '/' base

/-- What stands in a path behind the segment that names the collection. -/
def tail : CollectionPlace → List String
  | record => []
  | items | page => ["items"]

end CollectionPlace

/-- The URLs that are made for a collection, at a given base. -/
inductive MadeFor (base id : String) : CollectionPlace → String → Prop
  /-- Where the collection is found. -/
  | record : MadeFor base id .record (collectionHref base id)
  /-- The link to itself that its record gets. -/
  | itself {link : Link} (mem : link ∈ collectionLinks base id) (rel : link.rel = .itself) :
      MadeFor base id .record link.href
  /-- The link to its items that its record gets. -/
  | items {link : Link} (mem : link ∈ collectionLinks base id) (rel : link.rel = .items) :
      MadeFor base id .items link.href
  /-- A link of a page of its items, whatever a store answers when it is asked for them. -/
  | page {service : SearchService} (atBase : service.settings.baseUrl = base) {limit : Option ℕ}
      {token : Option String} {trace : List Exchange} {response : SearchResponse}
      (answered : (service.itemCollection .asked id limit token).Run trace (.ok response))
      {link : Link} (mem : link ∈ response.links) : MadeFor base id .page link.href

/--
The path of a URL says a collection: behind its start it has a segment for the collections, one
segment in which the collection is named, and the given tail.
-/
def LeadsTo (start href id : String) (tail : List String) : Prop :=
  ∃ segment, pathBehind? start href = some ("" :: "collections" :: segment :: tail)
    ∧ Percent.decodeSegment? segment = some id

section Paths

variable {base start href href' id other : String} {tail tail' : List String}
  {place : CollectionPlace}

/-- URLs with the same path say the same collection. -/
theorem LeadsTo.eq_of_path_eq (leads : LeadsTo start href id tail)
    (leads' : LeadsTo start href' other tail')
    (same : pathBehind? start href = pathBehind? start href') : id = other := by
  obtain ⟨segment, path, decoded⟩ := leads
  obtain ⟨segment', path', decoded'⟩ := leads'
  rw [path, path', Option.some.injEq] at same
  simp only [List.cons.injEq, true_and] at same
  rw [same.1, decoded'] at decoded
  exact (Option.some.inj decoded).symm

/-- A URL with the segment of a collection in its path leads to the collection. -/
theorem leadsTo_of_eq (rest : String) (ends : rest.toList.takeWhile (!endsPath ·) = [])
    (plain : ∀ segment ∈ tail, ∀ c ∈ ['/', '?', '#'], c ∉ segment.toList)
    (url : href = start
      ++ ("/".intercalate ("" :: "collections" :: Percent.encodeSegment id :: tail) ++ rest)) :
    LeadsTo start href id tail := by
  refine ⟨_, url ▸ pathBehind?_intercalate start (List.cons_ne_nil _ _) ?_ ends,
    Percent.decodeSegment?_encodeSegment id⟩
  refine List.forall_mem_cons.2 ⟨by simp, List.forall_mem_cons.2 ⟨by simp,
    List.forall_mem_cons.2 ⟨fun c mem => Percent.notMem_encodeSegment ?_ id, plain⟩⟩⟩
  exact List.mem_append_left [' '] mem

/-- The path of the record of a collection. -/
theorem leadsTo_collectionHref (base id : String) :
    LeadsTo base (collectionHref base id) id [] := by
  refine leadsTo_of_eq "" rfl nofun ?_
  rw [← String.toList_inj]
  simp [collectionHref]

/-- The path of the items of a collection, whatever follows behind it. -/
theorem leadsTo_items (start id rest : String) (ends : rest.toList.takeWhile (!endsPath ·) = []) :
    LeadsTo start (collectionHref start id ++ "/items" ++ rest) id ["items"] := by
  refine leadsTo_of_eq rest ends (List.forall_mem_singleton.2 (by simp)) ?_
  rw [← String.toList_inj]
  simp [collectionHref]

/-- Where the links that a record gets lead to. -/
theorem href_of_mem_collectionLinks {link : Link} (mem : link ∈ collectionLinks base id) :
    (link.rel = .itself → link.href = collectionHref base id)
      ∧ (link.rel = .items → link.href = collectionHref base id ++ "/items") := by
  simp only [collectionLinks, List.mem_cons, List.not_mem_nil, or_false] at mem
  rcases mem with rfl | rfl | rfl | rfl <;> simp [Link.nav]

/-- Where a link between pages of the items of a collection leads to. -/
theorem href_get_items (base id : String) (rel : LinkRel) (entries : List (String × String))
    (token : String) :
    (Link.get rel base ("collections/" ++ Percent.encodeSegment id ++ "/items") entries token).href
      = collectionHref (Text.dropTrailing '/' base) id ++ "/items"
        ++ ("?" ++ Percent.encodeForm (Link.withToken entries token)) := by
  have noSlash : Link.dropSlashes ("collections/" ++ Percent.encodeSegment id ++ "/items")
      = "collections/" ++ Percent.encodeSegment id ++ "/items" := by
    rw [← String.toList_inj]
    simp [Link.dropSlashes]
  rw [Link.get, noSlash, ← String.toList_inj]
  simp [collectionHref]

/-- The path of each URL that is made for a collection says the collection. -/
theorem MadeFor.leadsTo (made : MadeFor base id place href) :
    LeadsTo (place.start base) href id place.tail := by
  cases made with
  | record => exact leadsTo_collectionHref base id
  | itself mem rel =>
    rw [(href_of_mem_collectionLinks mem).1 rel]
    exact leadsTo_collectionHref base id
  | items mem rel =>
    rw [(href_of_mem_collectionLinks mem).2 rel, ← String.append_empty (s := _ ++ "/items")]
    exact leadsTo_items base id "" rfl
  | page atBase answered mem =>
    subst atBase
    obtain ⟨rel, token, rfl, _⟩ := SearchService.exists_of_mem_links answered mem
    rw [href_get_items]
    refine leadsTo_items _ id _ ?_
    rw [String.toList_append]
    exact List.takeWhile_cons_of_neg (by decide)

/-- URLs that are made for different collections have different paths. -/
theorem MadeFor.path_ne (different : id ≠ other) (made : MadeFor base id place href)
    (made' : MadeFor base other place href') :
    pathBehind? (place.start base) href ≠ pathBehind? (place.start base) href' :=
  fun same => different (made.leadsTo.eq_of_path_eq made'.leadsTo same)

end Paths

/--
A segment that is written for an identifier has unreserved characters and escapes only, nothing that
ends a segment or a path, and it is read back as the identifier. In each URL that is made for a
collection that is the one segment behind the base and `collections`, so for different collections
the URLs differ, and so do their paths. The base of a configured catalog has no slash at its end, so
that links to pages start with it as well.
-/
theorem collection_paths_identify (base : String) :
    (∀ id, Percent.Escaped (Percent.encodeSegment id).toList
      ∧ (∀ c ∈ ['/', '?', '#', ' '], c ∉ (Percent.encodeSegment id).toList)
      ∧ Percent.decodeSegment? (Percent.encodeSegment id) = some id)
    ∧ (∀ id place href, MadeFor base id place href →
        LeadsTo (place.start base) href id place.tail)
    ∧ (∀ id other place href href', id ≠ other → MadeFor base id place href →
        MadeFor base other place href' →
        href ≠ href'
          ∧ pathBehind? (place.start base) href ≠ pathBehind? (place.start base) href')
    ∧ ∀ (config : Config) (settings : Settings) (place : CollectionPlace),
        config.settings = .ok settings → place.start settings.baseUrl = settings.baseUrl := by
  refine ⟨fun id => ⟨Percent.escaped_encodeSegment id, fun c ends =>
      Percent.notMem_encodeSegment ends id, Percent.decodeSegment?_encodeSegment id⟩,
    fun id place href made => made.leadsTo, ?_, ?_⟩
  · intro id other place href href' different made made'
    have paths := made.path_ne different made'
    exact ⟨fun same => paths (congrArg _ same), paths⟩
  · intro config settings place configured
    rw [Config.settings] at configured
    split at configured
    · cases configured
    · cases configured
      cases place with
      | record | items => rfl
      | page => exact Text.dropTrailing_dropTrailing '/' _

/-! ## Identifiers that look alike -/

namespace Sample

/-- An identifier with characters that end segments and paths, and one of two bytes. -/
def awkwardId : String := "a/b? 50%\u00e9"

/-- The text of a segment, as an identifier of its own. -/
def escapedId : String := Percent.encodeSegment awkwardId

/-- A configuration whose base ends with slashes. -/
def slashedConfig : Config :=
  { Config.unset with search := { SearchConfig.unset with baseUrl := "http://localhost//" } }

/-- What a listing of a collection in pages of one item asks for. -/
def onePerPage (id : String) : SearchPlan :=
  { predicates := [.collections (.ofList [id])], order := .newestFirst, cursor := none, limit := 1,
    projection := none }

/-- A listing of two items in pages of one has a link to another page. -/
theorem exists_page_href (id : String) :
    ∃ href, MadeFor countingService.settings.baseUrl id .page href := by
  obtain ⟨trace, response, run, token, linked⟩ :=
    @exists_next_link (onePerPage id) rfl rfl fun rel token =>
      Link.get rel countingService.settings.baseUrl
        ("collections/" ++ Percent.encodeSegment id ++ "/items") [("limit", toString 1)] token
  have listed : (countingService.itemCollection .asked id (some 1) none).Run trace (.ok response) :=
    run
  exact ⟨_, .page rfl listed linked⟩

/-- The links between pages of the two collections differ, and each says its own collection. -/
theorem paths_of_lookalikes :
    ∃ href href', MadeFor "http://localhost" awkwardId .page href
      ∧ MadeFor "http://localhost" escapedId .page href' ∧ href ≠ href'
      ∧ LeadsTo "http://localhost" href awkwardId ["items"]
      ∧ LeadsTo "http://localhost" href' escapedId ["items"] := by
  obtain ⟨href, made⟩ := exists_page_href awkwardId
  obtain ⟨href', made'⟩ := exists_page_href escapedId
  obtain ⟨_, leads, apart, start⟩ := collection_paths_identify "http://localhost"
  have different : awkwardId ≠ escapedId := by decide +kernel
  have configured : CollectionPlace.page.start "http://localhost" = "http://localhost" := by
    have base := start slashedConfig _ .page rfl
    rwa [show Text.dropTrailing '/' slashedConfig.search.baseUrl = "http://localhost" by decide]
      at base
  have path := leads awkwardId .page href made
  have path' := leads escapedId .page href' made'
  rw [configured] at path path'
  exact ⟨href, href', made, made', (apart _ _ _ _ _ different made made').1, path, path'⟩

end Sample

end CatalogSearch
