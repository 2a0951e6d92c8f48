import CatalogSearch.CommandLine.Run

/-!
# The command

Reads files, the environment and the standard input for `CommandLine.run`, and prints what comes of
it. Variables of the environment are looked up under the names of the entries that have a default.
-/

namespace CatalogSearch.CommandLine

/-- The variable for an entry: its path in capitals, with two underscores for a point. -/
def variableOf (path : String) : String :=
  "GEOCAT__" ++ "__".intercalate ((Text.splitOn '.' path).map String.toUpper)

/-- The variables that can matter. -/
def variableNames : List String :=
  ["XDG_CONFIG_HOME", "HOME"] ++ Config.defaults.toLayer.map fun (path, _) => variableOf path

/-- The bytes of a file, if it can be read. -/
def readBytes (path : String) : IO (Option (List UInt8)) := do
  try
    return some (← IO.FS.readBinFile path).toList
  catch _ =>
    return none

/-- The process that the command runs in, which has no means to listen. -/
def host (environment : List (String × String)) : Host IO where
  contents := readBytes
  environment
  input := do return (← (← IO.getStdin).readBinToEnd).toList
  listen _ _ := return false

end CatalogSearch.CommandLine

open CatalogSearch CommandLine

/-- Runs the command line. -/
def main (args : List String) : IO UInt32 := do
  let environment ← variableNames.filterMapM fun name => do
    return (← IO.getEnv name).map (name, ·)
  let outcome ← run (host environment) args
  IO.print outcome.output
  if let some failure := outcome.complaint then IO.eprintln s!"Error: {failure.message}"
  return outcome.exitCode.toUInt32
