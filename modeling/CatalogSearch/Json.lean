import CatalogSearch.Binary64
import CatalogSearch.SortedMap

/-!
# JSON values

A number keeps the kind that its text had: an integer in the range of 64-bit words, or a binary64
number. The members of an object are a list; values that were read have them in increasing order of
name, without repetition, which is what `Json.object` arranges.
-/

namespace CatalogSearch

/-- A JSON value. -/
inductive Json where
  | null
  | bool (value : Bool)
  | int (value : Int)
  | float (value : Binary64)
  | str (value : String)
  | arr (elements : List Json)
  | obj (members : List (String × Json))

namespace Json

instance : Inhabited Json := ⟨null⟩

/-! ## Building -/

/-- Members in increasing order of name, the last one of each name. -/
def sortMembers (members : List (String × Json)) : List (String × Json) :=
  members.foldl (fun sorted member => insertEntry member.1 member.2 sorted) []

/-- The object with the given members. -/
def object (members : List (String × Json)) : Json :=
  obj (sortMembers members)

/-- The array of a list of texts. -/
def strings (texts : List String) : Json :=
  arr (texts.map str)

/-- A member that is there only if its value is. -/
def optional (name : String) : Option Json → List (String × Json)
  | none => []
  | some value => [(name, value)]

/-- A value, with null for one that is absent. -/
def orNull {α : Type} (out : α → Json) (value : Option α) : Json :=
  (value.map out).getD null

/-! ## Reading back -/

/-- The value of a member of an object. -/
def get? (name : String) : Json → Option Json
  | obj members => members.lookup name
  | _ => none

/-- The text of a string value. -/
def str? : Json → Option String
  | str s => some s
  | _ => none

/-- Whether a value is an object. -/
def isObject : Json → Bool
  | obj _ => true
  | _ => false

/-- A number as a binary64 number. -/
def binary64? : Json → Option Binary64
  | int n => Binary64.ofInt? n
  | float x => some x
  | _ => none

end Json

end CatalogSearch
