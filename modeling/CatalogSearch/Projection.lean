import CatalogSearch.Json
import CatalogSearch.SortedMap
import CatalogSearch.Text

/-!
# Choosing the fields of records

Fields are named by dotted paths into a record. A path that names an object stands for all of it; a
longer path reaches into it. What is asked for is added to what is always returned, and what is to
be left out is left out unless that would touch something that is always returned.
-/

namespace CatalogSearch

/-! ## Path trees -/

/-- What is chosen below a key. -/
inductive Selection where
  /-- Everything. -/
  | whole
  /-- Only what is chosen below these keys, which are in increasing order. -/
  | nested (children : List (String × Selection))

/-- Paths by their first segments. -/
structure PathTree where
  children : List (String × Selection)

namespace PathTree

/-- Adds a path to the keys of a tree. A key chosen as a whole takes in every path below it. -/
def insertPath : List String → List (String × Selection) → List (String × Selection)
  | [], children => children
  | [key], children => insertEntry key .whole children
  | key :: rest, children =>
    match children.lookup key with
    | some .whole => children
    | some (.nested below) => insertEntry key (.nested (insertPath rest below)) children
    | none => insertEntry key (.nested (insertPath rest [])) children

/-- The segments of a path, unless one of them is empty. -/
def segments? (path : String) : Option (List String) :=
  let segments := Text.splitOn '.' path
  if segments.contains "" then none else some segments

/-- The tree of a list of paths. Paths with an empty segment do not count. -/
def ofPaths (paths : List String) : PathTree :=
  ⟨(paths.filterMap segments?).foldl (fun children path => insertPath path children) []⟩

/-- Whether nothing is chosen. -/
def isEmpty (tree : PathTree) : Bool :=
  tree.children.isEmpty

/-! ## Keeping and removing -/

mutual

/-- The chosen part of a value; what is not an object is kept as it is. -/
def keepIn (children : List (String × Selection)) : Json → Json
  | .obj members => .obj (keepMembers children members)
  | value => value

/-- The chosen members of an object. A choice below a key needs an object there. -/
def keepMembers (children : List (String × Selection)) :
    List (String × Json) → List (String × Json)
  | [] => []
  | (name, value) :: members =>
    match children.lookup name with
    | none => keepMembers children members
    | some .whole => (name, value) :: keepMembers children members
    | some (.nested below) =>
      if value.isObject then (name, keepIn below value) :: keepMembers children members
      else keepMembers children members

end

mutual

/-- A value without the chosen part. -/
def removeIn (children : List (String × Selection)) : Json → Json
  | .obj members => .obj (removeMembers children members)
  | value => value

/-- The members of an object that are not chosen as a whole, without what is chosen below them. -/
def removeMembers (children : List (String × Selection)) :
    List (String × Json) → List (String × Json)
  | [] => []
  | (name, value) :: members =>
    match children.lookup name with
    | none => (name, value) :: removeMembers children members
    | some .whole => removeMembers children members
    | some (.nested below) => (name, removeIn below value) :: removeMembers children members

end

/-- The chosen part of a record. -/
def keep (tree : PathTree) (record : Json) : Json :=
  keepIn tree.children record

/-- A record without the chosen part. -/
def remove (tree : PathTree) (record : Json) : Json :=
  removeIn tree.children record

end PathTree

/-! ## Projections -/

/-- The paths to keep in a record and the paths to remove from what is kept. -/
structure Projection where
  included : StringSet
  excluded : StringSet
deriving DecidableEq

/-- Keeps, then removes. -/
def Projection.apply (p : Projection) (record : Json) : Json :=
  (PathTree.ofPaths p.excluded.toList).remove ((PathTree.ofPaths p.included.toList).keep record)

/-- The fields that a request asks for and the ones it does not want. -/
structure FieldsRequest where
  included : StringSet
  excluded : StringSet
deriving DecidableEq

namespace FieldsRequest

/-- The request that asks for nothing. -/
def none : FieldsRequest := ⟨.empty, .empty⟩

/-- Whether a request asks for nothing. -/
def isEmpty (fields : FieldsRequest) : Bool :=
  fields.included.isEmpty && fields.excluded.isEmpty

end FieldsRequest

/-- Whether `path` lies below `parent`. -/
def liesBelow (path parent : String) : Bool :=
  ((Text.after? parent path).bind fun rest => Text.after? "." rest).isSome

/-- Whether removing one of two paths would take away something of the other. -/
def pathsOverlap (a b : String) : Bool :=
  a = b || liesBelow b a || liesBelow a b

/--
The projection for a request. Kept are the defaults, what the request includes and does not exclude,
and the paths that its filters look at. Removed is what the request excludes, where it touches
neither a default nor such a path.
-/
def Projection.resolve (defaults : StringSet) (fields : FieldsRequest) (filtered : StringSet) :
    Projection :=
  let unwanted := fun path => path ∈ fields.excluded ∧ path ∉ defaults
  let wanted := (defaults.union fields.included).filter fun path => !decide (unwanted path)
  let kept := defaults.toList ++ filtered.toList
  { included := wanted.union filtered
    excluded := fields.excluded.filter fun path => !kept.any (pathsOverlap path) }

end CatalogSearch
