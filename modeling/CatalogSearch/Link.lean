import CatalogSearch.Encoding.Percent
import CatalogSearch.Json

/-!
# Links

The documents of a catalog link to one another, and pages link to their neighbours. A page that was
asked for by a body is left by sending the body again with a new token; one that was asked for by a
query string is left by the same query string with a new token.
-/

namespace CatalogSearch

/-- What a link leads to. -/
inductive LinkRel where
  | next
  | previous
  | itself
  | root
  | parent
  | child
  | items
  | conformance
  | search
deriving DecidableEq

/-- The name of a relation. -/
def LinkRel.name : LinkRel → String
  | next => "next"
  | previous => "previous"
  | itself => "self"
  | root => "root"
  | parent => "parent"
  | child => "child"
  | items => "items"
  | conformance => "conformance"
  | search => "search"

/-- How a link is followed. -/
inductive LinkMethod where
  | get
  | post
deriving DecidableEq

/-- The name of a method. -/
def LinkMethod.name : LinkMethod → String
  | get => "GET"
  | post => "POST"

/-- The media type of features. -/
def geoJsonType : String := "application/geo+json"

/-- The media type of other documents. -/
def jsonType : String := "application/json"

/-- A link. -/
structure Link where
  rel : LinkRel
  mediaType : String
  method : LinkMethod
  href : String
  title : Option String
  body : Option Json
  /-- Whether the body is to be merged into the one that was sent. -/
  merge : Bool

namespace Link

/-- A link that is followed as it is. -/
def nav (rel : LinkRel) (mediaType href : String) (title : Option String) : Link :=
  { rel, mediaType, method := .get, href, title, body := none, merge := false }

/-- A link to a neighbouring page of a search that was sent as a body. -/
def post (rel : LinkRel) (base token : String) : Link :=
  { rel, mediaType := geoJsonType, method := .post, href := Text.dropTrailing '/' base ++ "/search",
    title := none, body := some (.obj [("token", .str token)]), merge := true }

/-- The entries of a query string with the given token in the place of the one they had. -/
def withToken (entries : List (String × String)) (token : String) : List (String × String) :=
  entries.filter (·.1 ≠ "token") ++ [("token", token)]

/-- A text without the slashes that it starts with. -/
def dropSlashes (path : String) : String :=
  .ofList (path.toList.dropWhile (· = '/'))

/-- A link to a neighbouring page of a search that was sent as a query string. -/
def get (rel : LinkRel) (base path : String) (entries : List (String × String)) (token : String) :
    Link :=
  { rel, mediaType := geoJsonType, method := .get,
    href := Text.dropTrailing '/' base ++ "/" ++ dropSlashes path ++ "?"
      ++ Percent.encodeForm (withToken entries token),
    title := none, body := none, merge := false }

/-- The members of a link in the order in which they are written. -/
def members (link : Link) : List (String × Json) :=
  [("rel", .str link.rel.name), ("type", .str link.mediaType),
    ("method", .str link.method.name), ("href", .str link.href)]
    ++ Json.optional "title" (link.title.map .str) ++ Json.optional "body" link.body
    ++ if link.merge then [("merge", .bool true)] else []

/-- A link as an object. -/
def toJson (link : Link) : Json :=
  .obj link.members

end Link

end CatalogSearch
