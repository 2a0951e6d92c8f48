import CatalogSearch.Config.Layer
import CatalogSearch.Config.Lenient
import CatalogSearch.FileName

/-!
# Loading a configuration

The defaults lie below the configuration file, and the environment lies above it. A file that is
asked for has to be there; the one at the usual place need not be.
-/

namespace CatalogSearch

/-- What is known of the world outside: files, and the variables of the environment. -/
structure Surroundings (m : Type → Type) where
  /-- The bytes of the file at a path, if there is one. -/
  contents : String → m (Option (List UInt8))
  environment : List (String × String)

/-- Why a configuration cannot be loaded. -/
inductive ConfigFault where
  | noFile
  /-- The name of the file tells no format. -/
  | unknownFormat
  /-- The file does not follow its format. -/
  | malformed
  /-- A value cannot be taken for what it stands for. -/
  | unfit
deriving DecidableEq

/-- The words for a fault. -/
def ConfigFault.message : ConfigFault → String
  | noFile => "there is no such file"
  | unknownFormat => "the name of the file tells no format"
  | malformed => "the file does not follow its format"
  | unfit => "a value does not fit its place"

namespace Config

/-! ## The file -/

/-- The usual place of the configuration file. -/
def usualPath (environment : List (String × String)) : String :=
  let directory := match environment.lookup "XDG_CONFIG_HOME" with
    | some directory => directory
    | none => FileName.below ((environment.lookup "HOME").getD ".") ".config"
  FileName.below directory "geocat/config.toml"

/-- The paths at which a file is looked for: its own, then those with an extension added. -/
def candidates (path : String) : List String :=
  path :: ConfigLayer.Format.byExtension.filterMap fun (extension, _) =>
    FileName.addExtension? extension path

variable {m : Type → Type} [Monad m]

/-- The first of a list of paths at which there is a file, and the bytes of that. -/
def firstFile (world : Surroundings m) : List String → m (Option (String × List UInt8))
  | [] => return none
  | path :: paths => do
    match ← world.contents path with
    | some bytes => return some (path, bytes)
    | none => firstFile world paths

/-- The layer of a file, if there is one. -/
def layerOfFile : Option (String × List UInt8) → Except ConfigFault ConfigLayer
  | none => .error .noFile
  | some (path, bytes) =>
    match (FileName.extension? path).bind (ConfigLayer.Format.byExtension.lookup ·) with
    | none => .error .unknownFormat
    | some format => (ConfigLayer.ofBytes? format bytes).elim (.error .malformed) .ok

/-- The layer of the file that is asked for, or of the one at the usual place if there is one. -/
def fileLayer (world : Surroundings m) (path : Option String) :
    m (Except ConfigFault ConfigLayer) := do
  let file ← firstFile world (candidates (path.getD (usualPath world.environment)))
  if path.isNone && file.isNone then return .ok [] else return layerOfFile file

/-! ## All layers -/

/-- The configuration of the layers between the defaults and the top. -/
def ofLayers (layers : List ConfigLayer) : Except ConfigFault Config :=
  (ofValue? (ConfigLayer.stack (defaults.toLayer :: layers))).elim (.error .unfit) .ok

/-- Loads the configuration. -/
def load (world : Surroundings m) (path : Option String) : m (Except ConfigFault Config) := do
  let file ← fileLayer world path
  return do ofLayers [← file, ConfigLayer.ofVariables world.environment]

end Config

end CatalogSearch
