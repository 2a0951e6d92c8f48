import CatalogSearch.Json.Reading

/-!
# Taking readings apart

A decoder turns a reading into a value of a type, or says what is wrong with it: the text is
`malformed` as JSON, or it is JSON of the wrong shape. Decoders go through a reading in the order of
the text, so the fault they report is the first one there is.
-/

namespace CatalogSearch.Json

/-- What can be wrong with a text. -/
inductive Fault where
  /-- The text is not JSON, or holds a value that no reader can use. -/
  | malformed
  /-- The text is JSON of the wrong shape. -/
  | mistyped
deriving DecidableEq

/-- A way to take a value out of a reading. -/
abbrev Decoder (α : Type) := Reading → Except Fault α

variable {α β : Type}

/-! ## Values that nobody uses -/

mutual

/-- Whether a reading is JSON to its end. -/
def Reading.intact : Reading → Bool
  | .broken => false
  | .list elements => Reading.intactElements elements
  | .record members => Reading.intactMembers members
  | _ => true

/-- Whether every element is JSON. -/
def Reading.intactElements : List Reading → Bool
  | [] => true
  | value :: values => value.intact && Reading.intactElements values

/-- Whether every member's value is JSON. -/
def Reading.intactMembers : List (Option String × Reading) → Bool
  | [] => true
  | (_, value) :: members => value.intact && Reading.intactMembers members

end

/-- The fault of a reading that is of the wrong kind: a scalar is read before it is refused. -/
def Reading.wrongKind : Reading → Fault
  | .broken | .number none | .text none => .malformed
  | _ => .mistyped

/-! ## Values of any shape -/

/-- How many arrays and objects may enclose one another. -/
def deepest : Nat := 127

mutual

/-- The value that a reading says, with `depth` levels of nesting left. -/
def Reading.toJson (depth : Nat) : Reading → Except Fault Json
  | .null => .ok .null
  | .bool b => .ok (.bool b)
  | .number (some value) => .ok value
  | .text (some s) => .ok (.str s)
  | .number none | .text none | .broken => .error .malformed
  | .list elements =>
    if depth = 0 then .error .malformed
    else (Reading.toElements (depth - 1) elements).map .arr
  | .record members =>
    if depth = 0 then .error .malformed
    else (Reading.toMembers (depth - 1) members).map .object

/-- The values of a list of readings. -/
def Reading.toElements (depth : Nat) : List Reading → Except Fault (List Json)
  | [] => .ok []
  | value :: values => do
    let value ← value.toJson depth
    return value :: (← Reading.toElements depth values)

/-- The members of an object as they are written. -/
def Reading.toMembers (depth : Nat) :
    List (Option String × Reading) → Except Fault (List (String × Json))
  | [] => .ok []
  | (none, _) :: _ => .error .malformed
  | (some name, value) :: members => do
    let value ← value.toJson depth
    return (name, value) :: (← Reading.toMembers depth members)

end

namespace Decoder

/-- Any value, below `enclosing` levels of nesting. -/
def value (enclosing : Nat) : Decoder Json :=
  fun r => r.toJson (deepest - enclosing)

/-- Any object, its members in increasing order of name. -/
def members (enclosing : Nat) : Decoder (List (String × Json)) := fun r =>
  match r with
  | .record _ => do
    match ← value enclosing r with
    | .obj members => return members
    | _ => throw .mistyped
  | r => .error r.wrongKind

/-! ## Scalars -/

/-- A string. -/
def string : Decoder String
  | .text (some s) => .ok s
  | r => .error r.wrongKind

/-- A truth value. -/
def boolean : Decoder Bool
  | .bool b => .ok b
  | r => .error r.wrongKind

/-- An integer that is not negative. -/
def natural : Decoder Nat
  | .number (some (.int n)) => if 0 ≤ n then .ok n.toNat else .error .mistyped
  | r => .error r.wrongKind

/-- A number as a binary64 number. -/
def binary64 : Decoder Binary64
  | .number (some value) => match value.binary64? with
    | some x => .ok x
    | none => .error .mistyped
  | r => .error r.wrongKind

/-- A word of a fixed list, as a string or as an object with that one name and the value null. -/
def word (words : List (String × α)) : Decoder α
  | .text (some s) => match words.lookup s with
    | some a => .ok a
    | none => .error .mistyped
  | .record ((some s, value) :: rest) =>
    match words.lookup s, value with
    | none, _ => .error .mistyped
    | some a, .null => if rest.isEmpty then .ok a else .error .malformed
    | some _, value => .error value.wrongKind
  | _ => .error .malformed

/-! ## Containers -/

/-- A value, or null for none. -/
def nullable (inner : Decoder α) : Decoder (Option α)
  | .null => .ok none
  | r => (inner r).map some

/-- An array. -/
def list (inner : Decoder α) : Decoder (List α)
  | .list elements => elements.mapM inner
  | r => .error r.wrongKind

/-- The entries of an object, the last one of each name. -/
def mapEntries (inner : Decoder α) :
    List (Option String × Reading) → SortedMap α → Except Fault (SortedMap α)
  | [], m => .ok m
  | (none, _) :: _, _ => .error .malformed
  | (some name, value) :: rest, m => do mapEntries inner rest (m.insert name (← inner value))

/-- An object as a map. -/
def map (inner : Decoder α) : Decoder (SortedMap α)
  | .record members => mapEntries inner members .empty
  | r => .error r.wrongKind

/-- An array of strings as a set. -/
def stringSet : Decoder StringSet :=
  fun r => (list string r).map .ofList

/-- Decodes a whole text. Text behind the value is malformed, but only once the value is decoded. -/
def document (inner : Decoder α) (doc : Document) : Except Fault α := do
  let a ← inner doc.root
  if doc.trailing then throw .malformed
  return a

/-- Decodes a whole text. -/
def text (inner : Decoder α) (s : String) : Except Fault α :=
  document inner (.ofText s)

/-- Decodes a value. -/
def json (inner : Decoder α) (value : Json) : Except Fault α :=
  inner (.ofJson value)

end Decoder

/-! ## Records -/

/-- A member of a record: what reading it does to the record so far. -/
structure Member (α : Type) where
  name : String
  required : Bool
  read : Decoder (α → α)

/-- A member that must be there. -/
def Member.need (name : String) (inner : Decoder β) (set : β → α → α) : Member α :=
  ⟨name, true, fun r => (inner r).map set⟩

/-- A member that may be left out. -/
def Member.allow (name : String) (inner : Decoder β) (set : β → α → α) : Member α :=
  ⟨name, false, fun r => (inner r).map set⟩

/-- What becomes of a member whose name the record does not know. -/
inductive Foreign (α : Type) where
  | ignored
  | refused
  /-- Its value, below so many levels of nesting, goes into the record. -/
  | kept (enclosing : Nat) (add : String → Json → α → α)

/--
The shape of a record. It is written as an object, each known name at most once, or as an array of
its members in order, from whose end members that need not be there may be missing.
-/
structure Shape (α : Type) where
  /-- The record before anything is read. -/
  start : α
  members : List (Member α)
  foreign : Foreign α

namespace Shape

/-- Reads the members of an object in their order; `seen` are the known names so far. -/
def readMembers (shape : Shape α) :
    List (Option String × Reading) → List String → α → Except Fault α
  | [], seen, a =>
    if shape.members.all fun m => !m.required || seen.contains m.name then .ok a
    else .error .mistyped
  | (none, _) :: _, _, _ => .error .malformed
  | (some name, value) :: rest, seen, a =>
    match shape.members.find? (·.name = name), shape.foreign with
    | some member, _ =>
      if seen.contains name then .error .mistyped
      else do readMembers shape rest (name :: seen) ((← member.read value) a)
    | none, .ignored =>
      if value.intact then readMembers shape rest seen a else .error .malformed
    | none, .refused => .error .mistyped
    | none, .kept enclosing add => do
      readMembers shape rest seen (add name (← Decoder.value enclosing value) a)

/-- Reads members by their place. -/
def readPlaces : List (Member α) → List Reading → α → Except Fault α
  | [], [], a => .ok a
  | [], _ :: _, _ => .error .malformed
  | members, [], a => if members.any (·.required) then .error .mistyped else .ok a
  | member :: members, r :: rs, a => do readPlaces members rs ((← member.read r) a)

/-- Reads a record written as an object. -/
def decodeObject (shape : Shape α) : Decoder α
  | .record members => shape.readMembers members [] shape.start
  | r => .error r.wrongKind

/-- Reads a record written either way. -/
def decode (shape : Shape α) : Decoder α
  | .list elements => readPlaces shape.members elements shape.start
  | r => shape.decodeObject r

end Shape

end CatalogSearch.Json
