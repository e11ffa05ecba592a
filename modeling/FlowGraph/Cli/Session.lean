/-
What the commands do.

`run` compiles a graph, runs it with a database in memory and reports how it ended; a run
that fails is reported too, but the exit is 1.  `validate` compiles a graph and reports its
size.  What keeps a command from its report is a failure, with one line about it.

Files are given by a function from their names.  In the order of the command, each file is
read when it is its turn, so the first thing wrong is the one that is reported.
-/
import FlowGraph.Cli.Arguments
import FlowGraph.Cli.Environment
import FlowGraph.Run.Execute
import FlowGraph.Store.Memory
import FlowGraph.Web.Offline

namespace FlowGraph.Cli

/-- The text of a file, or why there is none. -/
abbrev Files := String → Except String String

/-- Why a command has no report. -/
inductive Failure where
  | unreadable (path reason : String)
  | invalidFile (path : String) (m : Json.Mismatch)
  | invalidParams (m : Json.Mismatch)
  | build (e : BuildError)
  | seed (f : Store.Fault)

/-- How a command ends. -/
structure Outcome where
  exit : Nat
  report : Option Json := none
  text : Option String := none
  failure : Option Failure := none
  journal : Array Journal.Entry := #[]

/-! ### Failures in one line -/

/-- The name of a kind with a capital. -/
def kindLabel : Kind → String
  | .entrypoint => "Entrypoint"
  | .code => "Code"
  | .branch => "If"
  | .count => "For"
  | .each => "ForEach"
  | .transaction => "Transaction"
  | .setVar => "SetVar"
  | .getVar => "GetVar"
  | .transformer => "Transformer"
  | .arrayOps => "ArrayOps"
  | .dbGetAll => "DbGetAll"
  | .dbGetSingle => "DbGetSingle"
  | .dbInsert => "DbInsert"
  | .dbInsertBulk => "DbInsertBulk"
  | .dbUpdate => "DbUpdate"
  | .dbDelete => "DbDelete"
  | .dbRaw => "DbRaw"
  | .httpRequest => "HttpRequest"
  | .getHeader => "HttpGetHeader"
  | .setHeader => "HttpSetHeader"
  | .getCookie => "HttpGetCookie"
  | .setCookie => "HttpSetCookie"
  | .getParam => "HttpGetParam"
  | .getBody => "HttpGetBody"
  | .response => "Response"
  | .logger => "ConsoleLogger"
  | .interceptor => "Interceptor"

/-- A name with one text. -/
def named (name text : String) : String := name ++ "(" ++ Text.quoted text ++ ")"

def buildText : BuildError → String
  | .parse m => named "Parse" m.message
  | .missingEntrypoint => "MissingEntrypoint"
  | .multipleEntrypoints ids => "MultipleEntrypoints(" ++ Text.quotedList ids ++ ")"
  | .duplicateBlock id => named "DuplicateBlock" id
  | .invalidConfig id kind text =>
    "InvalidConfig \x7b block_id: " ++ Text.quoted id ++ ", kind: " ++ kindLabel kind ++ ", message: " ++
      Text.quoted text ++ " \x7d"
  | .unknownStart id => named "UnknownStart" id
  | .recursiveBody entry => named "RecursiveSubgraph" entry

def faultText : Store.Fault → String
  | .tableNotFound table => named "TableNotFound" table
  | .invalidQuery text => named "InvalidQuery" text
  | .transaction text => named "Transaction" text
  | .other text => named "Other" text

/-- A failure in one line.  Where a text is at fault, the place in it is not given. -/
def Failure.line (f : Failure) : String :=
  "Error: " ++
    match f with
    | unreadable path reason => Text.quoted ("failed to read " ++ path ++ ": " ++ reason)
    | invalidFile path m => Text.quoted ("invalid JSON in " ++ path ++ ": " ++ m.message)
    | invalidParams m => Text.quoted ("invalid --params: " ++ m.message)
    | build e => buildText e
    | seed f => faultText f

/-- The failure lies at some place in a text. -/
def Failure.isInText : Failure → Bool
  | invalidFile _ _ | invalidParams _ | build (.parse _) => true
  | _ => false

/-! ### Commands -/

/-- The files that an order may read. -/
def Order.paths : Order → List String
  | .run a => a.graph :: (a.vars.toList ++ a.request.toList ++ a.seed.toList)
  | .validate graph => [graph]
  | .show _ | .misused => []

/-- A step of a command: it may fail, and it writes a journal. -/
abbrev Step (α : Type) := ExceptT Failure (StateM (Array Journal.Entry)) α

/-- Write down events that belong to no run. -/
def note (events : List Event) : Step Unit := modify fun j => j ++ (events.map fun e => ⟨e, none⟩).toArray

def readFile (files : Files) (path : String) : Step String :=
  match files path with
  | .ok text => pure text
  | .error reason => throw (.unreadable path reason)

/-- Read a file as JSON. -/
def readAs {α : Type} (files : Files) (r : Json.Reader α) (path : String) : Step α := do
  match Json.readText r (← readFile files path) with
  | .ok a => return a
  | .error m => throw (.invalidFile path m)

def readGraph (files : Files) (path : String) : Step Graph := do
  match Graph.ofText (← readFile files path) with
  | .ok g => return g
  | .error m => throw (.build (.parse m))

def compile (g : Graph) (validate : Bool) (start : Option String) : Step Program := do
  let (r, log) := (Program.compileGraph g validate start).run {}
  note log.events.toList
  match r with
  | .ok p => return p
  | .error e => throw (.build e)

/-- Read what an option names, if it is given. -/
def optionally {α : Type} (path : Option String) (default : α) (read : String → Step α) : Step α :=
  match path with
  | some path => read path
  | none => pure default

/-- The name of a file without its folder and its ending. -/
def stem (path : String) : String :=
  let name := ((path.splitOn "/").filter fun p => !p.isEmpty && p ≠ ".").getLast?.getD ""
  match name.splitOn "." with
  | [] | [_] | ["", _] => name
  | parts => ".".intercalate parts.dropLast

/-- The route that a graph file is run on. -/
def routeOf (path : String) : Route := { id := stem path, method := "POST", path := "/" ++ stem path }

/-- The report of a run. -/
def report (runId : String) (r : Except RunError Output) (ctx : Context Store.Memory Offline) : Json :=
  let result := match r with
    | .ok o => [("successful", .bool o.successful), ("output", o.output.getD .null)]
    | .error e =>
      [("successful", .bool false),
       ("error", Json.object [("blockId", .str e.blockId), ("message", .str e.message)])]
  Json.object <|
    [("runId", Json.str runId)] ++ result ++
      [("response", ctx.response.toJson), ("logs", .arr (ctx.logs.toList.map LogEntry.toJson)),
       ("vars", .obj ctx.vars)]

/-- The report of a command and its exit; none where a run uses up its budget. -/
def runCommand (fuel : Nat) (files : Files) (env : Entries String) (runId : String) (a : RunArgs) :
    Step (Option (Json × Nat)) := do
  let g ← readGraph files a.graph
  let (settings, events) := Settings.ofEnvironment env
  note events
  let p ← compile g a.validate a.start
  let vars ← optionally a.vars [] (readAs files (Json.Reader.table Json.Reader.json))
  let request ← optionally a.request {} (readAs files Request.reader)
  let db ← optionally a.seed {} fun path => do
    match Store.Memory.ofSeed (← readAs files Json.Reader.json path) with
    | .ok m => return m
    | .error f => throw (.seed f)
  let params ← optionally a.params .null fun text =>
    match Json.readText Json.Reader.json text with
    | .ok v => pure v
    | .error m => throw (.invalidParams m)
  let ctx : Context Store.Memory Offline :=
    { vars := vars, request := request, route := routeOf a.graph, database := some db, client := some ⟨⟩
      scripts := Script.Engine.standard settings.limits }
  match p.run fuel params ctx with
  | none => return none
  | some (r, ctx) =>
    modify fun j => j ++ ctx.journal
    let exit := match r with
      | .ok _ => 0
      | .error _ => 1
    return some (report runId r ctx, exit)

/-- The report of a graph that compiles. -/
def validateCommand (files : Files) (env : Entries String) (graph : String) : Step (Option (Json × Nat)) := do
  let g ← readGraph files graph
  note (Settings.ofEnvironment env).2
  let p ← compile g true none
  return some
    (Json.object
      [("valid", .bool true), ("entrypoint", .str p.entrypoint), ("blocks", Json.nat p.blocks.length)], 0)

/-- How a command ends, from how its steps do. -/
def outcome (x : Step (Option (Json × Nat))) : Option Outcome :=
  match x #[] with
  | (.ok none, _) => none
  | (.ok (some (j, exit)), journal) => some { exit := exit, report := some j, journal := journal }
  | (.error f, journal) => some { exit := 1, failure := some f, journal := journal }

/-- Carry out an order.  No outcome means that a run used up its budget. -/
def perform (fuel : Nat) (files : Files) (env : Entries String) (runId : String) : Order → Option Outcome
  | .run args => outcome (runCommand fuel files env runId args)
  | .validate graph => outcome (validateCommand files env graph)
  | .show text => some { exit := 0, text := some text }
  | .misused => some { exit := 2 }

end FlowGraph.Cli
