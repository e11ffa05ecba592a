/-
The state of a run.

Everything that blocks share is in the context: the variables, the request and the answer to
it, what was logged, and what stands for the outside world.  A database and a client for
calls have states of their own and may be missing; an interceptor collects what blocks show
it.

Scripts do not get at the context.  They see a copy of the variables, and what they ask for
is answered by the host of this module: texts go to the journal, and a query goes to the
database if the script was granted that.
-/
import FlowGraph.Run.Output
import FlowGraph.Journal

namespace FlowGraph

/-- A message that a block logged. -/
structure LogEntry where
  level : Level
  message : String
  blockId : String

/-- What a block showed to the interceptor. -/
structure Interception where
  blockId : String
  label : Option String
  params : Json

/-- The state of a run, with a database of type `δ` and a client of type `χ`. -/
structure Context (δ χ : Type) where
  vars : Entries Json := []
  request : Request := {}
  route : Route := {}
  response : Response := {}
  logs : Array LogEntry := #[]
  database : Option δ := none
  client : Option χ := none
  /-- What the interceptor has seen, if one is there. -/
  intercepted : Option (Array Interception) := none
  scripts : Script.Engine
  journal : Array Journal.Entry := #[]
  /-- The route of the run that is under way. -/
  span : Option Route := none

open Json Reader Record

def LogEntry.reader : Reader LogEntry :=
  Record.reader "LogEntry" <|
    LogEntry.mk <$> required "level" Level.reader <*> required "message" string
      <*> required "block_id" string

def LogEntry.toJson (e : LogEntry) : Json :=
  Json.object [("level", .str e.level.name), ("message", .str e.message), ("block_id", .str e.blockId)]

def Interception.toJson (i : Interception) : Json :=
  Json.object [("block_id", .str i.blockId), ("label", Json.ofOption i.label), ("params", i.params)]

/-- What was shown under a label, or everything. -/
def paramsUnder (label : Option String) (seen : Array Interception) : List Json :=
  (seen.toList.filter fun i => label.isNone || i.label == label).map Interception.params

/-- A step that uses the state of a run. -/
abbrev Act (δ χ : Type) := StateM (Context δ χ)

namespace Context

variable {δ χ : Type}

/-- Write down an event of the run that is under way. -/
def note (e : Event) (c : Context δ χ) : Context δ χ := { c with journal := c.journal.push ⟨e, c.span⟩ }

/-- The events that a database writes down with an answer. -/
def queryEvents : Store.Query → List Event
  | .insert table _ => [.rowInserted table]
  | .insertBulk table rows => [.rowsInserted table rows.length]
  | .rollback => [.storeRolledBack]
  | _ => []

/-- Ask a database, which is there. -/
def query [Store.Database δ] (db : δ) (q : Store.Query) (c : Context δ χ) :
    Except Store.Fault Json × Context δ χ :=
  match Store.Database.answer q db with
  | (.ok v, db) => (.ok v, (queryEvents q).foldl (fun c e => c.note e) { c with database := some db })
  | (.error f, db) => (.error f, { c with database := some db })

/-! ### Scripts -/

/-- The function that sends a statement to the database. -/
def queryFunction : String := "dbQuery"

/-- Answer a question of a script. -/
def host [Store.Database δ] (q : Script.Request) (c : Context δ χ) : Script.Reply × Context δ χ :=
  match q with
  | .print text => (.ok .null, c.note (.scriptPrinted text))
  | .debug text => (.ok .null, c.note (.scriptDebugged text))
  | .call _ argument =>
    match argument, c.database with
    | .str statement, some db =>
      match (c.note (.codeQueried statement)).query db (.raw statement) with
      | (.ok v, c) => (.ok v, c)
      | (.error f, c) => (.error f.message, c)
    | .str _, none => (.error "no database", c)
    | _, _ => (.error (queryFunction ++ " expects a query string"), c)

/-- The variables that a script of a block sees: those of the run, and the input. -/
def scope (c : Context δ χ) (params : Json) : Entries Json := Entries.insert "params" params c.vars

/-- Evaluate a script with the input of a block. -/
def evaluate [Store.Database δ] (granted : List String) (params : Json) (code : String)
    (c : Context δ χ) : Except Script.Failure Json × Context δ χ :=
  (c.scripts.run granted (c.scope params) code).run host c

/-- Evaluate a script apart from the run: what it writes down belongs to no run. -/
def evaluateApart [Store.Database δ] (granted : List String) (params : Json) (code : String)
    (c : Context δ χ) : Except Script.Failure Json × Context δ χ :=
  let span := c.span
  let (r, c) := ({ c with span := none } : Context δ χ).evaluate granted params code
  (r, { c with span := span })

/-! ### Calls -/

/-- Call another server, where a client is there. -/
def call [Client χ] (client : χ) (request : Call) (c : Context δ χ) :
    Except CallFault Reply × Context δ χ :=
  let (r, client) := Client.answer request client
  (r, { c with client := some client })

end Context

/-! ### Steps -/

namespace Act

variable {δ χ : Type}

def note (e : Event) : Act δ χ Unit := modify fun c => c.note e

/-- Evaluate a script where it stands. -/
def script [Store.Database δ] (params : Json) (code : String) : ExceptT Script.Failure (Act δ χ) Json :=
  fun c => c.evaluate [] params code

/-- Evaluate a script apart from the run. -/
def scriptApart [Store.Database δ] (granted : List String) (params : Json) (code : String) :
    Act δ χ (Except Script.Failure Json) :=
  fun c => c.evaluateApart granted params code

/-- The value that a setting stands for. -/
def resolve [Store.Database δ] (params setting : Json) : ExceptT Script.Failure (Act δ χ) Json :=
  Template.resolve (script params) setting

/-- The value that a setting stands for, and so for everything inside. -/
def resolveDeep [Store.Database δ] (params setting : Json) : ExceptT Script.Failure (Act δ χ) Json :=
  Template.resolveDeep (script params) setting

end Act

end FlowGraph
