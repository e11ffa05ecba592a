/-
The journal: what is written down while graphs are compiled and run.

An event is a fact with its particulars; its level, its name and its fields are read off
it.  An entry of the journal is an event together with the route of the run it belongs to,
if it belongs to one.
-/
import FlowGraph.Graph.Kind
import FlowGraph.Web.Request
import FlowGraph.Web.Exchange

namespace FlowGraph

/-- How important a message is. -/
inductive Level where
  | debug
  | info
  | warn
  | error
  deriving DecidableEq, Repr

namespace Level

def name : Level → String
  | debug => "debug"
  | info => "info"
  | warn => "warn"
  | error => "error"

/-- The name in capitals. -/
def label : Level → String
  | debug => "DEBUG"
  | info => "INFO"
  | warn => "WARN"
  | error => "ERROR"

def all : List Level := [debug, info, warn, error]

def reader : Json.Reader Level := Json.Reader.variant (all.map fun l => (l.name, l)) none

end Level

/-- What a block does to a list. -/
inductive ListOperation where
  | push
  | pop
  | shift
  | unshift
  deriving DecidableEq, Repr

namespace ListOperation

def name : ListOperation → String
  | push => "push"
  | pop => "pop"
  | shift => "shift"
  | unshift => "unshift"

/-- The name with a capital. -/
def label : ListOperation → String
  | push => "Push"
  | pop => "Pop"
  | shift => "Shift"
  | unshift => "Unshift"

def all : List ListOperation := [push, pop, shift, unshift]

def reader : Json.Reader ListOperation := Json.Reader.variant (all.map fun o => (o.name, o)) none

/-- The operation puts a value in. -/
def takesValue : ListOperation → Bool
  | push | unshift => true
  | pop | shift => false

end ListOperation

/-- Something that happened. -/
inductive Event where
  | blockBuilt (id : String) (kind : Kind)
  | blockUndefined (id : String)
  | programCompiled (entrypoint : String) (blocks : Nat)
  | runStarted (entrypoint : String)
  | runFinished (successful : Bool)
  | runAborted (error : String)
  | blockExecuted (id : String) (kind : Kind) (successful : Bool) (next : Option String)
  | blockFailed (id error : String)
  | branchEvaluated (id : String) (passed : Bool)
  | countCompleted (id : String) (iterations : Nat)
  | eachCompleted (id : String) (iterations : Nat)
  | varSet (id key : String)
  | listChanged (id var : String) (operation : ListOperation)
  | codeFailed (id error : String)
  | codeQueried (query : String)
  | scriptPrinted (text : String)
  | scriptDebugged (text : String)
  | databaseUsed (id : String) (kind : Kind) (table : String) (ok : Bool)
  | rowInserted (table : String)
  | rowsInserted (table : String) (count : Nat)
  | storeRolledBack
  | transactionCommitted (id : String)
  | transactionRolledBack (id error : String)
  | rollbackFailed (id error : String)
  | resetFailed (id error : String)
  | callAttempted (id : String) (method : Method) (host : Option String)
  | callSucceeded (id : String) (status : Nat)
  | callFailed (id error : String)
  | messageLogged (level : Level) (id message : String)
  | intercepted (id : String) (label : Option String)
  | settingIgnored (key value : String)

namespace Event

def level : Event → Level
  | programCompiled _ _ | runStarted _ | runFinished _ | scriptPrinted _ => .info
  | runAborted _ | blockFailed _ _ | rollbackFailed _ _ | resetFailed _ _ | settingIgnored _ _ => .warn
  | messageLogged level _ _ => level
  | _ => .debug

def name : Event → String
  | blockBuilt _ _ => "builder.block_built"
  | blockUndefined _ => "builder.block_undefined"
  | programCompiled _ _ => "program.compiled"
  | runStarted _ => "run.started"
  | runFinished _ => "run.finished"
  | runAborted _ => "run.aborted"
  | blockExecuted _ _ _ _ => "engine.block_executed"
  | blockFailed _ _ => "engine.block_failed"
  | branchEvaluated _ _ => "if.evaluated"
  | countCompleted _ _ => "for.completed"
  | eachCompleted _ _ => "for_each.completed"
  | varSet _ _ => "vars.set"
  | listChanged _ _ _ => "vars.array_op"
  | codeFailed _ _ => "code.failed"
  | codeQueried _ => "code.db_query"
  | scriptPrinted _ => "script.print"
  | scriptDebugged _ => "script.debug"
  | databaseUsed _ _ _ _ => "db.operation"
  | rowInserted _ => "db.row_inserted"
  | rowsInserted _ _ => "db.rows_inserted"
  | storeRolledBack => "db.rolled_back"
  | transactionCommitted _ => "transaction.committed"
  | transactionRolledBack _ _ => "transaction.rolled_back"
  | rollbackFailed _ _ => "transaction.rollback_failed"
  | resetFailed _ _ => "transaction.reset_failed"
  | callAttempted _ _ _ => "http.request_attempt"
  | callSucceeded _ _ => "http.request_succeeded"
  | callFailed _ _ => "http.request_failed"
  | messageLogged _ _ _ => "block.log"
  | intercepted _ _ => "block.intercepted"
  | settingIgnored _ _ => "config.invalid_env"

/-- The part of the program that an event comes from. -/
def domain? : Event → Option String
  | blockBuilt _ _ | blockUndefined _ | programCompiled _ _ => some "builder"
  | runStarted _ | runFinished _ | runAborted _ | blockExecuted _ _ _ _ | blockFailed _ _ => some "engine"
  | branchEvaluated _ _ | countCompleted _ _ | eachCompleted _ _ => some "control"
  | varSet _ _ | listChanged _ _ _ => some "vars"
  | codeFailed _ _ | codeQueried _ | scriptPrinted _ | scriptDebugged _ => some "script"
  | databaseUsed _ _ _ _ | rowInserted _ | rowsInserted _ _ | storeRolledBack
  | transactionCommitted _ | transactionRolledBack _ _ | rollbackFailed _ _ | resetFailed _ _ => some "db"
  | callAttempted _ _ _ | callSucceeded _ _ | callFailed _ _ => some "http"
  | intercepted _ _ => some "interceptor"
  | messageLogged _ _ _ | settingIgnored _ _ => none

/-- The particulars of an event. -/
def particulars : Event → List (String × Json)
  | blockBuilt id kind => [("block_id", .str id), ("block_type", .str kind.name)]
  | blockUndefined id => [("block_id", .str id)]
  | programCompiled entrypoint blocks => [("entrypoint", .str entrypoint), ("blocks", Json.nat blocks)]
  | runStarted entrypoint => [("entrypoint", .str entrypoint)]
  | runFinished successful => [("successful", .bool successful)]
  | runAborted error => [("error", .str error)]
  | blockExecuted id kind successful next =>
    [("block_id", .str id), ("block_type", .str kind.name), ("successful", .bool successful),
     ("next", .str (next.getD ""))]
  | blockFailed id error => [("block_id", .str id), ("error", .str error)]
  | branchEvaluated id passed => [("block_id", .str id), ("passed", .bool passed)]
  | countCompleted id n | eachCompleted id n => [("block_id", .str id), ("iterations", Json.nat n)]
  | varSet id key => [("block_id", .str id), ("key", .str key)]
  | listChanged id var op =>
    [("block_id", .str id), ("datasource", .str var), ("operation", .str op.label)]
  | codeFailed id error => [("block_id", .str id), ("error", .str error)]
  | codeQueried query => [("query", .str query)]
  | scriptPrinted text => [("text", .str text)]
  | scriptDebugged text => [("text", .str text), ("source", .str "inline")]
  | databaseUsed id kind table ok =>
    [("block_id", .str id), ("block_type", .str kind.name), ("table", .str table), ("ok", .bool ok)]
  | rowInserted table => [("table", .str table)]
  | rowsInserted table count => [("table", .str table), ("count", Json.nat count)]
  | storeRolledBack => []
  | transactionCommitted id => [("block_id", .str id)]
  | transactionRolledBack id error | rollbackFailed id error | resetFailed id error =>
    [("block_id", .str id), ("error", .str error)]
  | callAttempted id method host =>
    [("block_id", .str id), ("method", .str method.name), ("url_host", .str (host.getD "unknown"))]
  | callSucceeded id status => [("block_id", .str id), ("status", Json.nat status)]
  | callFailed id error => [("block_id", .str id), ("error", .str error)]
  | messageLogged _ id message => [("block_id", .str id), ("message", .str message)]
  | intercepted id label => [("block_id", .str id), ("label", .str (label.getD ""))]
  | settingIgnored key value => [("key", .str key), ("value", .str value)]

/-- All fields of an event. -/
def fields (e : Event) : List (String × Json) :=
  ("event", .str e.name) ::
    (match e.domain? with
      | some d => ("domain", Json.str d) :: e.particulars
      | none => e.particulars)

end Event

namespace Journal

/-- An event, and the route of the run it belongs to. -/
structure Entry where
  event : Event
  route : Option Route

/-- The run that an entry names. -/
def routeJson (r : Route) : Json :=
  Json.object
    [("name", .str "graph_run"), ("route_id", .str r.id), ("method", .str r.method), ("path", .str r.path)]

def Entry.toJson (e : Entry) : Json :=
  Json.object
    [("level", .str e.event.level.label), ("fields", Json.object e.event.fields),
     ("span", (e.route.map routeJson).getD .null)]

end Journal

end FlowGraph
