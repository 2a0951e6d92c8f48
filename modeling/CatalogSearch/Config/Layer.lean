import CatalogSearch.Config.Value
import CatalogSearch.Json.Decoder
import CatalogSearch.Text
import CatalogSearch.Toml.Document

/-!
# Layers of a configuration

A layer is what one source says: values under names that are paths, such as `search.title`. Layers
come from files and from the environment.
-/

namespace CatalogSearch

/-- What one source of a configuration says. -/
abbrev ConfigLayer := List (String × ConfigValue)

namespace ConfigLayer

open ConfigValue (Step)

/-! ## Paths -/

/-- The characters of the names in a path. -/
def isNameChar (c : Char) : Bool :=
  c.isAlphanum || c = '_' || c = '-'

/-- A name of a path and what follows it. -/
def scanName (cs : List Char) : Option (Step × List Char) :=
  match cs.span isNameChar with
  | ([], _) => none
  | (name, rest) => some (.entry (.ofList name), rest)

/--
A number in brackets from behind the opening one; blanks may stand around it. It has to fit a signed
64-bit word.
-/
def scanIndex (cs : List Char) : Option (Step × List Char) := do
  let skip := fun (cs : List Char) => cs.dropWhile fun c => c = ' ' ∨ c = '\t'
  let cs := skip cs
  let (negative, cs) := match cs with
    | '-' :: cs => (true, cs)
    | cs => (false, cs)
  let (digits, rest) ← Text.scanDigits cs
  match skip rest with
  | ']' :: rest =>
    let n : Int := Text.natOfDigits digits
    let index := if negative then -n else n
    if fitsSigned index then some (.element index, rest) else none
  | _ => none

/-- The steps behind the first name of a path. The fuel counts steps. -/
def scanSteps : Nat → List Char → Option (List Step)
  | _, [] => some []
  | 0, _ => none
  | fuel + 1, c :: cs => do
    let (step, rest) ← if c = '.' then scanName cs else if c = '[' then scanIndex cs else none
    return step :: (← scanSteps fuel rest)

/-- The steps of a path: a name, and behind it names with a point and numbers in brackets. -/
def stepsOf? (path : String) : Option (List Step) := do
  let (step, rest) ← scanName path.toList
  return step :: (← scanSteps rest.length rest)

/-- The steps of the name of a value; a name that is no path is a single step. -/
def steps (name : String) : List Step :=
  (stepsOf? name).getD [.entry name]

/-- Lays a layer over a value. -/
def layOver (value : ConfigValue) (layer : ConfigLayer) : ConfigValue :=
  layer.foldl (fun value (name, upper) => value.changeAt (·.under upper) (steps name)) value

/-- Layers laid over one another, the lowest one first. -/
def stack (layers : List ConfigLayer) : ConfigValue :=
  layers.foldl layOver (.table [])

/-! ## Files -/

/-- A format of configuration files. -/
inductive Format where
  | toml
  | json
deriving DecidableEq

/-- The formats by the extension of the file. -/
def Format.byExtension : List (String × Format) :=
  [("toml", .toml), ("json", .json)]

/-- The layer of a text. -/
def ofText? : Format → String → Option ConfigLayer
  | .toml, s => (Toml.ofText? s).map ConfigValue.ofTomlEntries
  | .json, s => match (Json.Decoder.value 0).text s with
    | .ok (.obj members) => some (ConfigValue.ofJsonMembers members)
    | _ => none

/-- The bytes behind a mark of their order, if there is one. -/
def withoutMark : List UInt8 → List UInt8
  | 0xEF :: 0xBB :: 0xBF :: bytes => bytes
  | bytes => bytes

/-- The layer of a file. -/
def ofBytes? (format : Format) (bytes : List UInt8) : Option ConfigLayer :=
  ofText? format (Utf8.decodeLossy (withoutMark bytes))

/-! ## The environment -/

/-- What the names of the variables for the configuration start with, in small letters. -/
def variableLead : String := "geocat__"

/-- The only path under which a variable can hold a list. -/
def listPath : String := "search.default_includes"

/-- A row of characters with a point for every two underscores. -/
def pointed : List Char → List Char
  | [] => []
  | '_' :: '_' :: cs => '.' :: pointed cs
  | c :: cs => c :: pointed cs

/-- The path that the name of a variable stands for, whatever the case of its letters. -/
def pathOfVariable? (name : String) : Option String :=
  (Text.after? variableLead (Text.lowerAscii name)).map fun rest => .ofList (pointed rest.toList)

/-- The value that the text of a variable stands for: a truth value, a number, a list or a text. -/
def valueOfVariable (path value : String) : ConfigValue :=
  let word := Text.lowerAscii value
  if word = "true" then .boolean true
  else if word = "false" then .boolean false
  else match Text.integerOfText? value, ExtendedNumber.ofText? value with
    | some n, _ => .integer n
    | none, some x => .number x
    | none, none =>
      if path = listPath then .list ((Text.splitOn ',' value).map .text) else .text value

/-- The layer of the variables of the environment, in increasing order of path. -/
def ofVariables (environment : List (String × String)) : ConfigLayer :=
  (SortedMap.ofList (environment.filterMap fun (name, value) =>
    (pathOfVariable? name).map fun path => (path, valueOfVariable path value))).entries

end ConfigLayer

end CatalogSearch
