import CatalogSearch.Service

/-!
# Documents of a catalog

The landing page, the list of what the catalog conforms to, and its collections. Each collection
leaves with links to itself, its items and the catalog in place of the ones it had for these.
-/

namespace CatalogSearch

/-! ## Links of collections -/

/-- Where a collection is found. -/
def collectionHref (base id : String) : String :=
  base ++ "/collections/" ++ Percent.encodeSegment id

/-- The links that every collection gets. -/
def collectionLinks (base id : String) : List Link :=
  let href := collectionHref base id
  [ .nav .itself jsonType href none,
    .nav .parent jsonType (base ++ "/") none,
    .nav .root jsonType (base ++ "/") none,
    .nav .items geoJsonType (href ++ "/items") none ]

/-- Whether a link is one of those that every collection gets. -/
def isGeneratedLink (link : Json) : Bool :=
  match (link.get? "rel").bind Json.str? with
  | some rel => ["self", "parent", "root", "items"].contains rel
  | none => false

/-- A collection with its generated links behind all others. -/
def withLinks (base : String) (c : Collection) : Collection :=
  let generated := (collectionLinks base c.id).map fun link => Json.object link.members
  { c with links := c.links.filter (!isGeneratedLink ·) ++ generated }

/-! ## Documents -/

/-- The document at the root of the catalog. -/
structure LandingPage where
  title : String
  description : String
  links : List Link

/-- The landing page as an object. -/
def LandingPage.toJson (page : LandingPage) : Json :=
  .object [("title", .str page.title), ("description", .str page.description),
    ("links", .arr (page.links.map (·.toJson)))]

/-- All collections with links of their own. -/
structure CollectionList where
  collections : List Collection
  links : List Link

/-- A list of collections as an object. -/
def CollectionList.toJson (list : CollectionList) : Json :=
  .object [("collections", .arr (list.collections.map (·.toJson))),
    ("links", .arr (list.links.map (·.toJson)))]

/-- What every catalog conforms to. -/
def coreConformance : List String :=
  ["https://stacspec.org/STAC-api.html",
    "http://docs.opengeospatial.org/is/17-069r3/17-069r3.html#ats_geojson"]

/-- What a catalog conforms to: the core, and a class for each capability that is switched on. -/
def conformanceClasses (capabilities : Capabilities) : List String :=
  let enabled := [Capability.context, .fields, .sort, .query].filter capabilities.allows
  coreConformance
    ++ enabled.map fun c => "https://api.stacspec.org/v1.0.0/item-search#" ++ c.name

/-- The list of what a catalog conforms to as an object. -/
def conformanceJson (capabilities : Capabilities) : Json :=
  .object [("conformsTo", .strings (conformanceClasses capabilities))]

namespace SearchService

variable {m : Type → Type} [Monad m]

/-- The landing page with a link to each collection. -/
def landingPage (service : SearchService) (store : Store m) :
    m (Except SearchError LandingPage) := do
  let settings := service.settings
  let base := settings.baseUrl
  let fixed : List Link :=
    [ .nav .itself jsonType (base ++ "/") none,
      .nav .conformance jsonType (base ++ "/conformance")
        (some "conformance classes implemented by this server"),
      .nav .search geoJsonType (base ++ "/search") (some "search") ]
  match ← store.collections with
  | .error e => return .error (.ofStore e)
  | .ok collections =>
    let children := collections.map fun c =>
      Link.nav .child jsonType (collectionHref base c.id) c.title
    return .ok
      { title := settings.title, description := settings.description, links := fixed ++ children }

/-- All collections. -/
def allCollections (service : SearchService) (store : Store m) :
    m (Except SearchError CollectionList) := do
  let base := service.settings.baseUrl
  match ← store.collections with
  | .error e => return .error (.ofStore e)
  | .ok collections =>
    return .ok
      { collections := collections.map (withLinks base)
        links := [.nav .itself jsonType (base ++ "/collections") none,
          .nav .root jsonType (base ++ "/") none] }

/-- The collection of an identifier. -/
def getCollection (service : SearchService) (store : Store m) (id : String) :
    m (Except SearchError Collection) := do
  let result := found (.collectionNotFound id) (← store.getCollection id)
  return result.map (withLinks service.settings.baseUrl)

end SearchService

end CatalogSearch
