import CatalogSearch.CatalogFile
import CatalogSearch.CommandLine
import CatalogSearch.Config.Load
import CatalogSearch.Service
import CatalogSearch.Store.Memory

/-!
# Running commands

A command loads the configuration and the catalog before it looks at any request. It prints only if
everything goes well.
-/

namespace CatalogSearch.CommandLine

/-- Why a command fails. -/
inductive Failure where
  | configuration (fault : ConfigFault)
  | settings (error : ConfigError)
  | catalog (error : LoadError)
  | collections (error : LoadError)
  /-- The request is missing or no text. -/
  | unreadable
  /-- The text is no request. -/
  | notARequest
  | search (error : SearchError)
  /-- The address cannot be listened on. -/
  | address (text : String)

/-- How a command ends: with its exit code, what it prints, and what it complains of. -/
structure Outcome where
  exitCode : Nat
  output : String
  complaint : Option Failure

namespace Outcome

/-- All went well. -/
def printed (output : String) : Outcome := ⟨0, output, none⟩

/-- The command failed. -/
def failed (failure : Failure) : Outcome := ⟨1, "", some failure⟩

/-- Nothing was done. -/
def refused : Refusal → Outcome
  | .help => printed usage
  | .misuse => ⟨2, "", none⟩

end Outcome

/-- The words for a failure. -/
def Failure.message : Failure → String
  | configuration fault => "loading configuration: " ++ fault.message
  | settings error => error.message
  | catalog error => "loading catalog: " ++ error.message
  | collections error => "loading collections: " ++ error.message
  | unreadable => "reading search request"
  | notARequest => "parsing search request"
  | search error => error.message
  | address text => "binding " ++ text

/-! ## Loading -/

/-- A catalog with what it is searched with. -/
structure Deployment where
  service : SearchService
  store : MemoryStore

/-- What commands need of the world outside. -/
structure Host (m : Type → Type) extends Surroundings m where
  /-- The bytes of the standard input. -/
  input : m (List UInt8)
  /-- Answers requests at an address until it is told to stop, or says that it cannot. -/
  listen : Deployment → String → m Bool

variable {m : Type → Type} [Monad m]

/-- The collections of a file, if one is named. -/
def declaredCollections (world : Surroundings m) :
    Option String → m (Except LoadError (Option (List Collection)))
  | none => return .ok none
  | some path => do return (collectionsOfFile (← world.contents path)).map some

/-- Loads a catalog and its collections. -/
def deploy (world : Surroundings m) (config : Config) (catalog : String)
    (collections : Option String) : m (Except Failure Deployment) := ExceptT.run do
  let registry ← (config.registry.mapError .settings : Except Failure FieldRegistry)
  let settings ← (config.settings.mapError .settings : Except Failure Settings)
  let file ← ExceptT.lift (world.contents catalog)
  let items ← ((itemsOfFile catalog file).mapError .catalog : Except Failure (List Item))
  let declared ← ExceptT.lift (declaredCollections world collections)
  let declared ← (declared.mapError .collections : Except Failure (Option (List Collection)))
  let store := MemoryStore.ofItems items
  return ⟨⟨registry, settings⟩, declared.elim store store.withCollections⟩

/-! ## Commands -/

/-- The request in a row of bytes. -/
def requestOf : Option (List UInt8) → Except Failure SearchRequest
  | none => .error .unreadable
  | some bytes =>
    match Utf8.decode? bytes with
    | none => .error .unreadable
    | some text => (SearchRequest.decoder.text text).mapError fun _ => .notARequest

/-- What is printed for an answer. -/
def printedResponse (response : SearchResponse) : String :=
  response.toJson.renderIndented ++ "\n"

/-- Answers one request. -/
def answer (d : Deployment) (bytes : Option (List UInt8)) : Except Failure String := do
  let request ← requestOf bytes
  let response ← (d.service.search d.store.toStore request).run.mapError .search
  return printedResponse response

/-- Runs a command. -/
def execute (host : Host m) (invocation : Invocation) : m (Except Failure String) := ExceptT.run do
  let options := invocation.options
  let world := host.toSurroundings
  let config ← ExceptT.lift (Config.load world options.config)
  let config ← (config.mapError .configuration : Except Failure Config)
  match invocation.command with
  | .search catalog request =>
    let d ← ExceptT.mk (deploy world config catalog options.collections)
    let bytes ← ExceptT.lift <| match request with
      | some path => world.contents path
      | none => some <$> host.input
    (answer d bytes : Except Failure String)
  | .serve catalog =>
    let d ← ExceptT.mk (deploy world config catalog options.collections)
    let address := options.bind.getD config.bind
    if ← ExceptT.lift (host.listen d address) then return "" else throw (.address address)

/-- Does what a command line says. -/
def run (host : Host m) (args : List String) : m Outcome := do
  match parse args with
  | .error refusal => return .refused refusal
  | .ok invocation =>
    match ← execute host invocation with
    | .ok output => return .printed output
    | .error failure => return .failed failure

end CatalogSearch.CommandLine
