import CatalogSearch.Text

/-!
# The command line

A command line names a command, its files and some options. Options that do not belong to one
command may stand before the command or behind it; the ones behind it count.
-/

namespace CatalogSearch.CommandLine

/-! ## Invocations -/

/-- What the options say. -/
structure Options where
  /-- The configuration file. -/
  config : Option String
  /-- The file of collections. -/
  collections : Option String
  /-- The address to listen on. -/
  bind : Option String
  debug : Bool
deriving DecidableEq

/-- Nothing is said. -/
def Options.unset : Options := ⟨none, none, none, false⟩

/-- What options say that stand behind others. -/
def Options.after (inner outer : Options) : Options :=
  { config := inner.config <|> outer.config
    collections := inner.collections <|> outer.collections
    bind := inner.bind
    debug := inner.debug || outer.debug }

/-- What is to be done. -/
inductive Command where
  /-- Answers one request, which stands in a file or else in the standard input. -/
  | search (catalog : String) (request : Option String)
  /-- Answers requests over HTTP. -/
  | serve (catalog : String)
deriving DecidableEq

/-- A command with its options. -/
structure Invocation where
  options : Options
  command : Command
deriving DecidableEq

/-- Why nothing is done. -/
inductive Refusal where
  | help
  | misuse
deriving DecidableEq

/-! ## Tokens -/

/-- A part of a command line. -/
inductive Token where
  /-- An option with two dashes and its value, if it has one. -/
  | option (name : String) (value : Option String)
  | word (text : String)
  /-- The two dashes behind which there are no options. -/
  | dashes
  /-- A word behind two dashes. -/
  | operand (text : String)
  /-- Something that is neither a word nor an option. -/
  | unknown
deriving DecidableEq

/-- The options that need a value. -/
def valued : List String := ["config", "collections", "bind"]

/-- Whether a text can be an option rather than a word; a dash alone is a word. -/
def isOption (s : String) : Bool :=
  s ≠ "-" && s.toList.head? = some '-'

/-- An option with two dashes: its name, and the value behind an equals sign if there is one. -/
def splitOption (s : String) : String × Option String :=
  match Text.splitFirst? '=' s with
  | some (name, value) => (name, some value)
  | none => (s, none)

/-- The parts of a command line. Nothing is read behind an option that lacks its value. -/
def tokens : List String → List Token
  | [] => []
  | arg :: args =>
    if arg = "--" then .dashes :: args.map .operand
    else if !isOption arg then .word arg :: tokens args
    else match Text.after? "--" arg with
      | none =>
        let short := if (Text.after? "-h" arg).isSome then .option "help" none else .unknown
        short :: tokens args
      | some text =>
        match splitOption text with
        | (name, some value) => .option name (some value) :: tokens args
        | (name, none) =>
          if name ∈ valued then
            match args with
            | [] => [.unknown]
            | value :: args =>
              if isOption value then [.unknown] else .option name (some value) :: tokens args
          else .option name none :: tokens args

/-! ## Options -/

/-- Writes down the value of an option that must not have one yet. -/
def once (old : Option String) (value : String) : Except Refusal (Option String) :=
  if old.isSome then .error .misuse else .ok (some value)

/-- The name of a file in an option, which must not be empty. -/
def fileOption (old : Option String) (value : String) : Except Refusal (Option String) :=
  if value = "" then .error .misuse else once old value

/-- Takes notice of an option. An address is of use only to a command that is `serving`. -/
def Options.add (o : Options) (serving : Bool) (name : String) (value : Option String) :
    Except Refusal Options :=
  match value with
  | none =>
    if name = "help" then .error .help
    else if name = "debug" ∧ !o.debug then .ok { o with debug := true }
    else .error .misuse
  | some value =>
    if name = "config" then return { o with config := ← fileOption o.config value }
    else if name = "collections" then
      return { o with collections := ← fileOption o.collections value }
    else if name = "bind" ∧ serving then return { o with bind := ← once o.bind value }
    else .error .misuse

/-! ## Commands -/

/-- Puts a file behind the others, of which there may be `room` more. -/
def addFile (room : Nat) (files : List String) (file : String) : Except Refusal (List String) :=
  if file = "" ∨ room ≤ files.length then .error .misuse else .ok (files ++ [file])

/-- The options and files behind the name of a command that takes up to `room` files. -/
def readArguments (serving : Bool) (room : Nat) :
    List Token → Options → List String → Except Refusal (Options × List String)
  | [], o, files => .ok (o, files)
  | token :: rest, o, files =>
    match token with
    | .option name value => do readArguments serving room rest (← o.add serving name value) files
    | .word file | .operand file => do
      readArguments serving room rest o (← addFile room files file)
    | .dashes => readArguments serving room rest o files
    | .unknown => .error .misuse

/-- The invocation of the parts behind the name of `search`. -/
def readSearch (outer : Options) (rest : List Token) : Except Refusal Invocation := do
  match ← readArguments false 2 rest .unset [] with
  | (inner, [catalog]) => return ⟨inner.after outer, .search catalog none⟩
  | (inner, [catalog, request]) => return ⟨inner.after outer, .search catalog (some request)⟩
  | _ => throw .misuse

/-- The invocation of the parts behind the name of `serve`. -/
def readServe (outer : Options) (rest : List Token) : Except Refusal Invocation := do
  match ← readArguments true 1 rest .unset [] with
  | (inner, [catalog]) => return ⟨inner.after outer, .serve catalog⟩
  | _ => throw .misuse

/-- The answer to a request for help, on everything or on one command. -/
def readHelp : List Token → Refusal
  | [] => .help
  | [.word topic] => if topic ∈ ["search", "serve", "help"] then .help else .misuse
  | _ => .misuse

/-- The invocation of the parts of a command line, options coming first. -/
def readCommand : List Token → Options → Except Refusal Invocation
  | [], _ => .error .misuse
  | token :: rest, outer =>
    match token with
    | .option name value => do readCommand rest (← outer.add false name value)
    | .word name =>
      if name = "search" then readSearch outer rest
      else if name = "serve" then readServe outer rest
      else if name = "help" then .error (readHelp rest)
      else .error .misuse
    | _ => .error .misuse

/-- What a command line says. -/
def parse (args : List String) : Except Refusal Invocation :=
  readCommand (tokens args) .unset

/-- How the command line is to be used. -/
def usage : String :=
  "Catalog search with keyset pagination

Usage: geocat [OPTIONS] <COMMAND>

Commands:
  serve   Serve the search API over HTTP
  search  Run one POST-style search request and print the response
  help    Print this message or the help of the given subcommand(s)

Options:
      --config <CONFIG>            Config file (default: $XDG_CONFIG_HOME/geocat/config.toml)
      --debug                      Log at debug level
      --collections <COLLECTIONS>  Collection records: a JSON array or \x7b\"collections\": [...]\x7d
  -h, --help                       Print help
"

end CatalogSearch.CommandLine
