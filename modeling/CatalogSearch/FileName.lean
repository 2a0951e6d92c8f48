import CatalogSearch.Text

/-!
# Names of files

Paths are texts whose components are separated by slashes.
-/

namespace CatalogSearch.FileName

/-- The last component of a path. -/
def last (path : String) : String :=
  (Text.splitOn '/' path).getLastD path

/-- The characters behind the last point, unless no character comes before that point. -/
def extensionChars? (name : List Char) : Option (List Char) :=
  match name.reverse.span (· ≠ '.') with
  | (behind, _ :: _ :: _) => some behind.reverse
  | _ => none

/-- The part of a file's name behind the last point that is not its first character. -/
def extension? (path : String) : Option String :=
  (extensionChars? (last path).toList).map .ofList

/-- A row of characters, last one first, without the slashes and single points that end a path. -/
def dropPathEnd : List Char → List Char
  | '/' :: cs => dropPathEnd cs
  | '.' :: '/' :: cs => dropPathEnd cs
  | cs => cs

/-- A path whose file has one more extension, unless the path ends with a directory by its form. -/
def addExtension? (extension path : String) : Option String :=
  let trimmed := String.ofList (dropPathEnd path.toList.reverse).reverse
  if last trimmed ∈ ["", ".", ".."] then none else some (trimmed ++ "." ++ extension)

/-- A path below a directory. -/
def below (directory path : String) : String :=
  if directory = "" ∨ directory.toList.getLast? = some '/' then directory ++ path
  else directory ++ "/" ++ path

end CatalogSearch.FileName
