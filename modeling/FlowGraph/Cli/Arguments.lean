/-
The arguments of the command line.

There are two commands, and each has options that take a value and flags that take none.  An
option is written `--name value` or `--name=value`, once at most.  A value that is a word of
its own may not begin with a minus sign.  A plea for help is answered where it stands, before
anything that follows it is looked at, even anything in the same word.  Two minus signs alone
may end the options.
-/
import FlowGraph.Entries

namespace FlowGraph.Cli

/-- What to run, and with what. -/
structure RunArgs where
  graph : String
  vars : Option String := none
  params : Option String := none
  request : Option String := none
  seed : Option String := none
  start : Option String := none
  validate : Bool := true

/-- What the arguments ask for. -/
inductive Order where
  | run (args : RunArgs)
  | validate (graph : String)
  /-- Only to show a text. -/
  | show (text : String)
  /-- The arguments make no sense. -/
  | misused

/-! ### Texts -/

def version : String := "blockflow 0.1.0\n"

/-- Lines as a text. -/
def lines (ls : List String) : String := String.join (ls.map (· ++ "\n"))

def help : String :=
  lines
    ["Build and run block graphs from JSON definitions", "",
     "Usage: blockflow <COMMAND>", "",
     "Commands:",
     "  run       Run a graph and print its result, response and logs as JSON",
     "  validate  Build a graph without running it",
     "  help      Print this message or the help of the given subcommand(s)", "",
     "Options:",
     "  -h, --help     Print help",
     "  -V, --version  Print version"]

def runHelp : String :=
  lines
    ["Run a graph and print its result, response and logs as JSON", "",
     "Usage: blockflow run [OPTIONS] --graph <GRAPH>", "",
     "Options:",
     "      --graph <GRAPH>      Graph definition file",
     "      --vars <VARS>        JSON object file with the initial variables",
     "      --params <PARAMS>    Inline JSON passed to the first block",
     "      --request <REQUEST>  JSON file with the inbound request (headers, cookies, params, query, body)",
     "      --db-seed <DB_SEED>  JSON file with the in-memory database tables",
     "      --start <START>      Start block id. Defaults to the graph's entrypoint",
     "      --no-validate        Skip block configuration validation",
     "  -h, --help               Print help"]

def validateHelp : String :=
  lines
    ["Build a graph without running it", "",
     "Usage: blockflow validate --graph <GRAPH>", "",
     "Options:",
     "      --graph <GRAPH>  Graph definition file",
     "  -h, --help           Print help"]

def helpHelp : String :=
  lines
    ["Print this message or the help of the given subcommand(s)", "",
     "Usage: blockflow help [COMMAND]...", "",
     "Arguments:",
     "  [COMMAND]...  Print help for the subcommand(s)"]

/-! ### Options -/

/-- The options of a command: those that name a file, those with any value, and flags. -/
structure Options where
  files : List String
  values : List String
  flags : List String
  help : String

def runOptions : Options :=
  ⟨["graph", "vars", "request", "db-seed"], ["params", "start"], ["no-validate"], runHelp⟩

def validateOptions : Options := ⟨["graph"], [], [], validateHelp⟩

/-- The values of options under their names; a flag has an empty value. -/
abbrev Given := Entries String

/-- Split `name=value`. -/
def splitEquals (cs : List Char) : List Char × Option (List Char) :=
  match cs.span (· ≠ '=') with
  | (name, _ :: value) => (name, some value)
  | (name, []) => (name, none)

/-- A word that can stand for a value. -/
def isValue (word : String) : Bool :=
  match word.toList with
  | '-' :: _ :: _ => false
  | _ => true

/-- Take in an option with its value.  A file needs a name. -/
def Options.take (o : Options) (name value : String) (given : Given) : Option Given :=
  if Entries.contains name given then none
  else if o.files.contains name && value.isEmpty then none
  else some (Entries.insert name value given)

/-- The options in a list of words, or a text that they ask for.  Nothing means that they
make no sense. -/
def Options.read (o : Options) (given : Given) : List String → Option (Given ⊕ String)
  | [] => some (.inl given)
  | word :: rest =>
    match word.toList with
    | '-' :: 'h' :: _ => some (.inr o.help)
    | ['-', '-'] => if rest.isEmpty then some (.inl given) else none
    | '-' :: '-' :: option =>
      let (cs, value) := splitEquals option
      let name := String.ofList cs
      if o.files.contains name || o.values.contains name then
        match value, rest with
        | some v, rest => (o.take name (String.ofList v) given).bind fun g => o.read g rest
        | none, v :: rest =>
          if isValue v then (o.take name v given).bind fun g => o.read g rest else none
        | none, [] => none
      else if value.isSome then none
      else if o.flags.contains name then (o.take name "" given).bind fun g => o.read g rest
      else if name = "help" then some (.inr o.help)
      else none
    | _ => none

/-! ### Commands -/

/-- The order that the options of `run` amount to. -/
def runOrder (given : Given) : Order :=
  match Entries.find? "graph" given with
  | none => .misused
  | some graph =>
    .run
      { graph := graph
        vars := Entries.find? "vars" given
        params := Entries.find? "params" given
        request := Entries.find? "request" given
        seed := Entries.find? "db-seed" given
        start := Entries.find? "start" given
        validate := !Entries.contains "no-validate" given }

/-- The order that the options of `validate` amount to. -/
def validateOrder (given : Given) : Order :=
  match Entries.find? "graph" given with
  | none => .misused
  | some graph => .validate graph

/-- The order of a command. -/
def command (o : Options) (order : Given → Order) (words : List String) : Order :=
  match o.read [] words with
  | some (.inl given) => order given
  | some (.inr text) => .show text
  | none => .misused

/-- The help on a command. -/
def helpOn : List String → Order
  | [] => .show help
  | ["run"] => .show runHelp
  | ["validate"] => .show validateHelp
  | ["help"] => .show helpHelp
  | _ => .misused

/-- What the words of a command line ask for. -/
def Order.ofWords : List String → Order
  | "run" :: rest => command runOptions runOrder rest
  | "validate" :: rest => command validateOptions validateOrder rest
  | "help" :: rest => helpOn rest
  | "--help" :: _ => .show help
  | "--version" :: _ => .show version
  | word :: _ =>
    match word.toList with
    | '-' :: 'h' :: _ => .show help
    | '-' :: 'V' :: _ => .show version
    | _ => .misused
  | [] => .misused

end FlowGraph.Cli
