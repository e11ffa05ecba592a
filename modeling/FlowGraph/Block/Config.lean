/-
What the blocks of each kind can be told.

Every kind of block that can be told something has a record for it, which is read from the
`data` of the block.  `check` looks for what reading alone does not find: a name that is
blank, a value of the wrong kind, a setting that another one needs.
-/
import FlowGraph.Journal
import FlowGraph.Condition.Basic
import FlowGraph.Store.Query

namespace FlowGraph

open Json Reader Record

/-- The outcome of a check: nothing, or what is wrong. -/
abbrev Check := Except String Unit

/-- The text has something besides blanks. -/
def isBlankText (s : String) : Bool := (Text.trim s).isEmpty

/-- Something has to stand in a setting. -/
def requireText (what text : String) : Check :=
  if isBlankText text then .error (what ++ " must not be empty") else .ok ()

/-! ### Scripts and choices -/

structure CodeConfig where
  code : String

namespace CodeConfig

def reader : Reader CodeConfig :=
  Record.reader "CodeConfig" <| CodeConfig.mk <$> required "code" string

def check (c : CodeConfig) : Check := requireText "code" (Template.unmarked c.code)

end CodeConfig

structure BranchConfig where
  conditions : List Condition

namespace BranchConfig

def reader : Reader BranchConfig :=
  Record.reader "IfConfig" <| BranchConfig.mk <$> withDefault "conditions" (list Condition.reader) []

/-- Check conditions that are counted from `index`. -/
def checkFrom (index : Nat) : List Condition → Check
  | [] => .ok ()
  | c :: rest =>
    let here := "condition " ++ intText index ++ ": "
    match c.operator with
    | .unknown => .error (here ++ "unknown operator")
    | .script =>
      if isBlankText (c.script.getD "") then .error (here ++ "js operator requires a script")
      else checkFrom (index + 1) rest
    | _ => checkFrom (index + 1) rest

def check (c : BranchConfig) : Check := checkFrom 0 c.conditions

end BranchConfig

/-- How a block makes one value of another: by a script, or by renaming fields. -/
structure TransformerConfig where
  useScript : Bool
  script : Option String
  fieldMap : Entries String

namespace TransformerConfig

def reader : Reader TransformerConfig :=
  Record.reader "TransformerConfig" <|
    TransformerConfig.mk <$> withDefault "useJs" boolean false <*> withDefault "js" string.option none
      <*> withDefault "fieldMap" (table string) []

def check (c : TransformerConfig) : Check :=
  if c.useScript && isBlankText (Template.unmarked (c.script.getD "")) then
    .error "useJs requires a js script"
  else .ok ()

end TransformerConfig

/-! ### Loops -/

/-- The bounds of a counting loop: numbers, or scripts that compute them. -/
structure CountConfig where
  start : Json
  stop : Json
  step : Json

namespace CountConfig

def reader : Reader CountConfig :=
  Record.reader "ForConfig" <|
    CountConfig.mk <$> withDefault "start" json (Json.nat 0) <*> required "end" json
      <*> withDefault "step" json (Json.nat 1)

def checkBound (name : String) (bound : Json) : Check :=
  let wrong : Check := .error (name ++ " must be a number or script, got " ++ bound.kind)
  match bound with
  | .number _ => .ok ()
  | .str s => if isBlankText (Template.unmarked s) then wrong else .ok ()
  | _ => wrong

def check (c : CountConfig) : Check := do
  checkBound "start" c.start
  checkBound "end" c.stop
  checkBound "step" c.step

end CountConfig

/-- The values of a loop: a list, a script that computes one, or the input. -/
structure EachConfig where
  values : Json
  useParam : Bool

namespace EachConfig

def reader : Reader EachConfig :=
  Record.reader "ForEachConfig" <|
    EachConfig.mk <$> withDefault "values" json .null <*> withDefault "useParam" boolean false

def check (c : EachConfig) : Check :=
  if c.useParam then .ok ()
  else
    match c.values with
    | .arr _ | .str _ => .ok ()
    | other => .error ("values must be an array or script, got " ++ other.kind)

end EachConfig

/-! ### Variables -/

structure SetVarConfig where
  key : String
  value : Json
  /-- Store the input instead of the value. -/
  useParam : Bool

namespace SetVarConfig

def reader : Reader SetVarConfig :=
  Record.reader "SetVarConfig" <|
    SetVarConfig.mk <$> required "key" string <*> withDefault "value" json .null
      <*> withDefault "useParam" boolean false

def check (c : SetVarConfig) : Check := requireText "key" c.key

end SetVarConfig

structure GetVarConfig where
  key : String

namespace GetVarConfig

def reader : Reader GetVarConfig :=
  Record.reader "GetVarConfig" <| GetVarConfig.mk <$> required "key" string

def check (c : GetVarConfig) : Check := requireText "key" c.key

end GetVarConfig

/-- A change of a list in a variable. -/
structure ListConfig where
  var : String
  operation : ListOperation
  value : Option Json
  /-- Put in the input instead of the value. -/
  useParam : Bool

namespace ListConfig

def reader : Reader ListConfig :=
  Record.reader "ArrayOpsConfig" <|
    ListConfig.mk <$> required "datasource" string <*> required "operation" ListOperation.reader
      <*> withDefault "value" json.option none <*> withDefault "useParam" boolean false

def check (c : ListConfig) : Check := do
  requireText "datasource" c.var
  if c.operation.takesValue && !c.useParam && c.value.isNone then
    .error (c.operation.name ++ " requires a value")

end ListConfig

/-! ### Databases -/

/-- What a block asks of the database. -/
inductive StoreAction where
  | getAll
  | getSingle
  | insert
  | insertBulk
  | update
  | delete
  | raw
  deriving DecidableEq, Repr

/-- The kind of the block that takes the action. -/
def StoreAction.kind : StoreAction → Kind
  | getAll => .dbGetAll
  | getSingle => .dbGetSingle
  | insert => .dbInsert
  | insertBulk => .dbInsertBulk
  | update => .dbUpdate
  | delete => .dbDelete
  | raw => .dbRaw

structure StoreConfig where
  table : String
  filters : List Store.Filter
  limit : Option Json
  offset : Option Json
  sort : Option Store.SortBy
  /-- A row, or a list of rows. -/
  data : Json
  /-- Take the rows from the input. -/
  useParam : Bool
  statement : String

namespace StoreConfig

def reader : Reader StoreConfig :=
  Record.reader "DbBlockConfig" <|
    StoreConfig.mk <$> withDefault "table" string ""
      <*> withDefault "conditions" (list Store.Filter.reader) []
      <*> withDefault "limit" json.option none <*> withDefault "offset" json.option none
      <*> withDefault "sort" Store.SortBy.reader.option none <*> withDefault "data" json .null
      <*> withDefault "useParam" boolean false <*> withDefault "query" string ""

/-- The check of what an action needs. -/
def check (action : StoreAction) (c : StoreConfig) : Check :=
  match action with
  | .raw => requireText "query" c.statement
  | action => do
    requireText "table" c.table
    if c.useParam then .ok ()
    else
      match action, c.data with
      | .insert, .obj _ | .insert, .str _ | .update, .obj _ | .update, .str _ => .ok ()
      | .insertBulk, .arr _ | .insertBulk, .str _ => .ok ()
      | .insert, other | .update, other => .error ("data must be an object, got " ++ other.kind)
      | .insertBulk, other => .error ("data must be an array, got " ++ other.kind)
      | _, _ => .ok ()

end StoreConfig

/-! ### Requests and answers -/

/-- Where a parameter is looked up. -/
inductive ParamSource where
  | path
  | query
  deriving DecidableEq, Repr

/-- A part of the request. -/
inductive RequestPart where
  | header
  | cookie
  | param
  | body
  deriving DecidableEq, Repr

/-- The kind of the block that reads the part. -/
def RequestPart.kind : RequestPart → Kind
  | header => .getHeader
  | cookie => .getCookie
  | param => .getParam
  | body => .getBody

structure ReadConfig where
  name : String
  source : ParamSource

namespace ReadConfig

def reader : Reader ReadConfig :=
  Record.reader "RequestReadConfig" <|
    ReadConfig.mk <$> withDefault "name" string ""
      <*> withDefault "source" (variant [("path", .path), ("query", .query)] none) .path

/-- Every part but the body needs a name. -/
def check (part : RequestPart) (c : ReadConfig) : Check :=
  match part with
  | .body => .ok ()
  | _ => requireText "name" c.name

end ReadConfig

structure HeaderConfig where
  name : String
  value : Json

namespace HeaderConfig

def reader : Reader HeaderConfig :=
  Record.reader "HeaderConfig" <|
    HeaderConfig.mk <$> required "name" string <*> required "value" json

def check (c : HeaderConfig) : Check := requireText "name" c.name

end HeaderConfig

structure CookieConfig where
  name : String
  value : Json
  options : Json

namespace CookieConfig

def reader : Reader CookieConfig :=
  Record.reader "CookieConfig" <|
    CookieConfig.mk <$> required "name" string <*> required "value" json
      <*> withDefault "options" json .null

def check (c : CookieConfig) : Check := requireText "name" c.name

end CookieConfig

structure ResponseConfig where
  /-- A number or a script.  Without it the status stays as it is. -/
  status : Option Json
  body : Json
  /-- Answer with the input instead of the body. -/
  useParam : Bool

namespace ResponseConfig

def reader : Reader ResponseConfig :=
  Record.reader "ResponseConfig" <|
    ResponseConfig.mk <$> withDefault "status" json.option none <*> withDefault "body" json .null
      <*> withDefault "useParam" boolean false

def check (c : ResponseConfig) : Check :=
  match c.status with
  | none | some (.str _) => .ok ()
  | some (.number (.int i)) =>
    if 100 ≤ i ∧ i ≤ 599 then .ok () else .error ("invalid status " ++ intText i)
  | some other => .error ("invalid status " ++ other.compact)

end ResponseConfig

structure CallConfig where
  url : String
  method : Method
  headers : Entries Json
  body : Json
  /-- Send the input as the body. -/
  useParam : Bool

namespace CallConfig

def reader : Reader CallConfig :=
  Record.reader "HttpRequestConfig" <|
    CallConfig.mk <$> withDefault "url" string "" <*> withDefault "method" Method.reader .get
      <*> withDefault "headers" (table json) [] <*> withDefault "body" json .null
      <*> withDefault "useParam" boolean false

def check (c : CallConfig) : Check := requireText "url" c.url

end CallConfig

/-! ### Messages -/

structure LoggerConfig where
  /-- A value or a script.  Without it the input is the message. -/
  message : Option Json
  level : Level

def LoggerConfig.reader : Reader LoggerConfig :=
  Record.reader "ConsoleLoggerConfig" <|
    LoggerConfig.mk <$> withDefault "message" json.option none <*> withDefault "level" Level.reader .info

structure InterceptorConfig where
  label : Option String

def InterceptorConfig.reader : Reader InterceptorConfig :=
  Record.reader "InterceptorConfig" <| InterceptorConfig.mk <$> withDefault "label" string.option none

end FlowGraph
