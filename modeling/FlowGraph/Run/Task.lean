/-
What blocks without a body do.

Every task first computes all it needs and then changes the state in one last step.  So a
task that fails has changed nothing.  Whatever goes wrong is an output, not an error: only a
choice raises an error, where a script in its conditions fails.
-/
import FlowGraph.Run.Context
import FlowGraph.Block.Basic

namespace FlowGraph

variable {δ χ : Type} [Store.Database δ] [Client χ]

/-- A text as it is, any other value as compact JSON. -/
def Json.text : Json → String
  | .str s => s
  | j => j.compact

namespace Task

/-- Go on with the result of a step, or fail with the wording of what went wrong. -/
def orFail {ε α : Type} (message : ε → String) (x : ExceptT ε (Act δ χ) α) (next : α → Act δ χ Output) :
    Act δ χ Output := do
  match ← x.run with
  | .ok a => next a
  | .error e => return .failure (message e)

/-! ### Variables -/

def runSetVar (c : SetVarConfig) (id : String) (next : Option String) (params : Json) : Act δ χ Output :=
  orFail Script.Failure.message (Act.resolve params (if c.useParam then params else c.value)) fun v => do
    Act.note (.varSet id c.key)
    modify fun ctx => { ctx with vars := Entries.insert c.key v ctx.vars }
    return .success next v

def runGetVar (c : GetVarConfig) (next : Option String) : Act δ χ Output := do
  return .success next ((Entries.find? c.key (← get).vars).getD .null)

/-- The list after an operation, and the output of the block. -/
def changeList (items : List Json) : ListOperation → Option Json → Option (List Json × Json)
  | .push, some v => some (items ++ [v], .arr (items ++ [v]))
  | .unshift, some v => some (v :: items, .arr (v :: items))
  | .pop, _ => some (items.dropLast, items.getLast?.getD .null)
  | .shift, _ => some (items.drop 1, items.head?.getD .null)
  | .push, none | .unshift, none => none

/-- The value that is put in, if one is. -/
def operand (c : ListConfig) (params : Json) : ExceptT String (Act δ χ) (Option Json) :=
  if !c.operation.takesValue then pure none
  else
    let setting := if c.useParam then some params else c.value
    match setting with
    | none => throw ("arrayOps " ++ c.operation.label ++ " requires a value")
    | some setting =>
      ((Act.resolve params setting).adapt Script.Failure.message).map some

/-- The value that a list becomes by an operation, and the output of the block. -/
def changeValue (operation : ListOperation) (operand : Option Json) : Json → Option (Json × Json)
  | .arr items =>
    (changeList items operation operand).map fun (items, output) => (.arr items, output)
  | _ => none

/-- Look a variable up and change it, if there is a change of what it holds. -/
def updateVar {α : Type} (key : String) (change : Json → Option (Json × α)) : Act δ χ (Option α) := do
  match (Entries.find? key (← get).vars).bind change with
  | none => return none
  | some (v, a) =>
    modify fun ctx => { ctx with vars := Entries.insert key v ctx.vars }
    return some a

/-- Change a list in a variable.  The variable is looked up twice: to see that it holds a list, and
to change it. -/
def runList (c : ListConfig) (id : String) (next : Option String) (params : Json) : Act δ χ Output :=
  orFail (fun text => text) (operand c params) fun v => do
    match Entries.find? c.var (← get).vars with
    | none => return .failure ("datasource " ++ c.var ++ " not found")
    | some (.arr _) =>
      match ← updateVar c.var (changeValue c.operation v) with
      | none => return .failure ("datasource " ++ c.var ++ " changed during arrayOps")
      | some output =>
        Act.note (.listChanged id c.var c.operation)
        return .success next output
    | some other => return .failure ("datasource " ++ c.var ++ " is not an array, got " ++ other.kind)

/-! ### Scripts -/

/-- Run a script, which may query the database if there is one. -/
def runCode (c : CodeConfig) (id : String) (next : Option String) (params : Json) : Act δ χ Output := do
  let granted := if (← get).database.isSome then [Context.queryFunction] else []
  match ← Act.scriptApart granted params (Template.unmarked c.code) with
  | .ok v => return .success next v
  | .error f =>
    Act.note (.codeFailed id f.message)
    return .failure f.message

/-- Rename the fields of an object.  Fields without a new name are left out; of two fields
with one new name the later one counts. -/
def renameFields (fieldMap : Entries String) (params : Json) : Except String Json :=
  match params with
  | .obj fields => do
    let renamed ← fieldMap.foldlM (fun out e =>
      match Entries.find? e.1 fields with
      | some v => .ok (Entries.insert e.2 v out)
      | none => .error ("Key " ++ e.1 ++ " not found in params")) []
    return .obj renamed
  | other => .error ("transformer expects an object input, got " ++ other.kind)

def runTransformer (c : TransformerConfig) (next : Option String) (params : Json) : Act δ χ Output := do
  if c.useScript then
    match ← Act.scriptApart [] params (Template.unmarked (c.script.getD "")) with
    | .ok v => return .success next v
    | .error f => return .failure f.message
  else
    match renameFields c.fieldMap params with
    | .ok v => return .success next v
    | .error text => return .failure text

/-! ### Databases -/

/-- A value of an expected kind, or the complaint about it. -/
def shapeError (what expected : String) (got : Json) : BlockError :=
  .other (what ++ " must be " ++ expected ++ ", got " ++ got.kind)

/-- A step of a block that may raise an error. -/
abbrev Try (δ χ α : Type) := ExceptT BlockError (Act δ χ) α

/-- The filters with their values computed. -/
def resolveFilters (params : Json) : List Store.Filter → Try δ χ (List Store.Filter)
  | [] => pure []
  | f :: rest => do
    let v ← (Act.resolveDeep params f.value).adapt BlockError.script
    return { f with value := v } :: (← resolveFilters params rest)

/-- A number of rows. -/
def resolveCount (params : Json) (name : String) : Option Json → Try δ χ (Option Nat)
  | none => pure none
  | some setting => do
    match ← (Act.resolve params setting).adapt BlockError.script with
    | .null => return none
    | v =>
      match v.natural? with
      | some n => return some n
      | none => throw (.other (name ++ " must be a non-negative integer"))

/-- The value that holds rows. -/
def resolveData (c : StoreConfig) (params : Json) : Try δ χ Json :=
  (Act.resolveDeep params (if c.useParam then params else c.data)).adapt BlockError.script

def asRow : Json → Except BlockError Store.Row
  | .obj row => .ok row
  | other => .error (shapeError "row" "an object" other)

def asRows : List Json → Except BlockError (List Store.Row)
  | [] => .ok []
  | j :: rest =>
    match asRow j with
    | .error e => .error e
    | .ok row => (asRows rest).map (row :: ·)

/-- The question that a block asks. -/
def storeQuery (action : StoreAction) (c : StoreConfig) (params : Json) : Try δ χ Store.Query := do
  match action with
  | .getAll =>
    let filters ← resolveFilters params c.filters
    let limit ← resolveCount params "limit" c.limit
    let offset ← resolveCount params "offset" c.offset
    return .getAll c.table filters limit offset c.sort
  | .getSingle => return .getSingle c.table (← resolveFilters params c.filters)
  | .insert =>
    let row ← asRow (← resolveData c params)
    return .insert c.table row
  | .insertBulk =>
    match ← resolveData c params with
    | .arr items =>
      let rows ← asRows items
      return .insertBulk c.table rows
    | other => throw (shapeError "rows" "an array" other)
  | .update =>
    let filters ← resolveFilters params c.filters
    let row ← asRow (← resolveData c params)
    return .update c.table filters row
  | .delete => return .delete c.table (← resolveFilters params c.filters)
  | .raw =>
    match ← (Act.resolve params (.str c.statement)).adapt BlockError.script with
    | .str statement => return .raw statement
    | other => throw (.other ("query must resolve to a string, got " ++ other.kind))

/-- Ask the database. -/
def askStore (db : δ) (q : Store.Query) : Try δ χ Json :=
  ExceptT.adapt BlockError.store fun ctx => ctx.query db q

def runStore (action : StoreAction) (c : StoreConfig) (id : String) (next : Option String) (params : Json) :
    Act δ χ Output := do
  match (← get).database with
  | none => return .failure (action.kind.name ++ " requires a database adapter")
  | some db =>
    let asked : Try δ χ Json := do askStore db (← storeQuery action c params)
    match ← asked.run with
    | .ok v =>
      Act.note (.databaseUsed id action.kind c.table true)
      return .success next v
    | .error e =>
      Act.note (.databaseUsed id action.kind c.table false)
      return .failure e.message

/-! ### Calls of other servers -/

/-- The headers of a call with their values computed, in the order of their names. -/
def resolveHeaders (params : Json) : List (String × Json) →
    ExceptT Script.Failure (Act δ χ) (List (String × String))
  | [] => pure []
  | (name, setting) :: rest => do
    let v ← Act.resolve params setting
    return (name, v.text) :: (← resolveHeaders params rest)

/-- The call that a block makes.  A body of `null` is none. -/
def callOf (c : CallConfig) (params : Json) : ExceptT Script.Failure (Act δ χ) Call := do
  let url ← Act.resolve params (.str c.url)
  let headers ← resolveHeaders params c.headers
  let body ← if c.useParam then pure params else Act.resolveDeep params c.body
  return ⟨c.method, url.text, headers, if body.isNull then none else some body⟩

def runCall (c : CallConfig) (id : String) (next : Option String) (params : Json) : Act δ χ Output := do
  match (← get).client with
  | none => return .failure "httpRequest requires an http client"
  | some client =>
    match ← (callOf c params).run with
    | .error f =>
      Act.note (.callFailed id f.message)
      return .failure f.message
    | .ok request =>
      Act.note (.callAttempted id c.method (urlHost? request.url))
      match ← (fun ctx => ctx.call client request : Act δ χ (Except CallFault Reply)) with
      | .ok reply =>
        Act.note (.callSucceeded id reply.status)
        return .success next reply.toJson
      | .error f =>
        Act.note (.callFailed id f.message)
        return .failure f.message

/-! ### Requests and answers -/

/-- A part of the request, or `null`. -/
def readPart (r : Request) (part : RequestPart) (c : ReadConfig) : Json :=
  match part, c.source with
  | .header, _ => Json.ofOption (r.header c.name)
  | .cookie, _ => Json.ofOption (Entries.find? c.name r.cookies)
  | .param, .path => Json.ofOption (Entries.find? c.name r.params)
  | .param, .query => Json.ofOption (Entries.find? c.name r.query)
  | .body, _ => if c.name.isEmpty then r.body else r.body.getD c.name

def runRead (part : RequestPart) (c : ReadConfig) (next : Option String) : Act δ χ Output := do
  return .success next (readPart (← get).request part c)

/-- Change the answer. -/
def respond (f : Response → Response) : Act δ χ Unit :=
  modify fun ctx => { ctx with response := f ctx.response }

def runSetHeader (c : HeaderConfig) (next : Option String) (params : Json) : Act δ χ Output :=
  orFail Script.Failure.message (Act.resolve params c.value) fun v => do
    respond fun r => { r with headers := Entries.insert c.name v.text r.headers }
    return .success next params

/-- A cookie with its parts computed. -/
def cookieOf (c : CookieConfig) (params : Json) : ExceptT Script.Failure (Act δ χ) Cookie := do
  let value ← Act.resolve params c.value
  let options ← Act.resolveDeep params c.options
  return ⟨value.text, options⟩

def runSetCookie (c : CookieConfig) (next : Option String) (params : Json) : Act δ χ Output :=
  orFail Script.Failure.message (cookieOf c params) fun cookie => do
    respond fun r => { r with cookies := Entries.insert c.name cookie r.cookies }
    return .success next params

/-- The status that a value stands for. -/
def statusOf (v : Json) : Except String Nat :=
  match v with
  | .number n =>
    match v.natural? with
    | some s => if s ≤ Response.maxStatus then .ok s else .error ("invalid status " ++ v.compact)
    | none => .error ("invalid status " ++ Json.numberText n)
  | other => .error ("status must resolve to a number, got " ++ other.kind)

/-- The status, if one is set, and the body of an answer. -/
def answerOf (c : ResponseConfig) (params : Json) : ExceptT String (Act δ χ) (Option Nat × Json) := do
  let status ← match c.status with
    | none => pure none
    | some setting =>
      let v ← (Act.resolve params setting).adapt Script.Failure.message
      pure (some (← statusOf v))
  let body ←
    if c.useParam then pure params
    else (Act.resolveDeep params c.body).adapt Script.Failure.message
  return (status, body)

def runResponse (c : ResponseConfig) (next : Option String) (params : Json) : Act δ χ Output :=
  orFail (fun text => text) (answerOf c params) fun (status, body) => do
    respond fun r => { r with status := status.orElse fun _ => r.status, body := some body }
    return .success next body

/-! ### Messages -/

def runLogger (c : LoggerConfig) (id : String) (next : Option String) (params : Json) : Act δ χ Output :=
  let message := match c.message with
    | none => pure params
    | some setting => Act.resolve params setting
  orFail Script.Failure.message message fun v => do
    Act.note (.messageLogged c.level id v.text)
    modify fun ctx => { ctx with logs := ctx.logs.push ⟨c.level, v.text, id⟩ }
    return .success next params

def runInterceptor (c : InterceptorConfig) (id : String) (next : Option String) (params : Json) :
    Act δ χ Output := do
  Act.note (.intercepted id c.label)
  modify fun ctx => { ctx with intercepted := ctx.intercepted.map fun seen => seen.push ⟨id, c.label, params⟩ }
  return .success next params

/-- Do a task. -/
def run (t : Task) (id : String) (next : Option String) (params : Json) : Act δ χ Output :=
  match t with
  | .entrypoint => return .success next params
  | .code c => runCode c id next params
  | .setVar c => runSetVar c id next params
  | .getVar c => runGetVar c next
  | .transformer c => runTransformer c next params
  | .list c => runList c id next params
  | .store action c => runStore action c id next params
  | .call c => runCall c id next params
  | .read part c => runRead part c next
  | .setHeader c => runSetHeader c next params
  | .setCookie c => runSetCookie c next params
  | .response c => runResponse c next params
  | .logger c => runLogger c id next params
  | .interceptor c => runInterceptor c id next params

/-- Decide a choice. -/
def runBranch (c : BranchConfig) (id : String) (onSuccess onFailure : Option String) (params : Json) :
    Act δ χ (Except BlockError Output) := do
  match ← (Condition.evaluateAll (Act.script params) c.conditions).run with
  | .error f => return .error (.script f)
  | .ok passed =>
    Act.note (.branchEvaluated id passed)
    return .ok (.success (if passed then onSuccess else onFailure) (.bool passed))

end Task

end FlowGraph
