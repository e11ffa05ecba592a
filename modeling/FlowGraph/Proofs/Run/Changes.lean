/-
What blocks may change.

A task evaluates scripts, writes to the journal, asks the database or a client, and changes
one thing that blocks share.  `Changes` tells for every task what that may be, and `Asks`
what it may ask.  That is the footprint of the task: a script can do much, but it changes
none of these things.

The steps that open and close a transaction ask about transactions only and change nothing
else.
-/
import FlowGraph.Proofs.Run.Composed

namespace FlowGraph

variable {δ χ : Type}

/-! ### Tasks -/

/-- A change of something that blocks share. -/
inductive Change where
  | assign (key : String) (v : Json)
  | header (name text : String)
  | cookie (name : String) (c : Cookie)
  | answer (status : Option Nat) (body : Json)
  | log (e : LogEntry)
  | shown (i : Interception)

def Change.apply : Change → Context δ χ → Context δ χ
  | assign key v, ctx => { ctx with vars := Entries.insert key v ctx.vars }
  | header name text, ctx =>
    { ctx with response.headers := Entries.insert name text ctx.response.headers }
  | cookie name c, ctx =>
    { ctx with response.cookies := Entries.insert name c ctx.response.cookies }
  | answer status body, ctx =>
    { ctx with
      response.status := status.orElse fun _ => ctx.response.status
      response.body := some body }
  | log e, ctx => { ctx with logs := ctx.logs.push e }
  | shown i, ctx => { ctx with intercepted := ctx.intercepted.map fun seen => seen.push i }

namespace Act

variable [Store.Database δ] [Client χ]

/-- The steps that tasks are put together from, with some changes and some questions. -/
inductive Basic (changes : Change → Prop) (asks : Store.Query → Prop) :
    (α : Type) → Act δ χ α → Prop
  | note (e : Event) : Basic changes asks Unit (Act.note e)
  | script (params : Json) (code : String) :
      Basic changes asks (Except Script.Failure Json) (Act.script params code).run
  | scriptApart (granted : List String) (params : Json) (code : String) :
      Basic changes asks (Except Script.Failure Json) (Act.scriptApart granted params code)
  | call (client : χ) (request : Call) :
      Basic changes asks (Except CallFault Reply) fun ctx => ctx.call client request
  | ask (db : δ) (q : Store.Query) (h : asks q) :
      Basic changes asks (Except Store.Fault Json) fun ctx => ctx.query db q
  | change (c : Change) (h : changes c) : Basic changes asks Unit (modify c.apply)

end Act

/-- What a task may change. -/
def Task.Changes (id : String) : Task → Change → Prop
  | .setVar c, .assign key _ => key = c.key
  | .list c, .assign key _ => key = c.var
  | .setHeader c, .header name _ => name = c.name
  | .setCookie c, .cookie name _ => name = c.name
  | .response _, .answer _ _ => True
  | .logger c, .log e => e.level = c.level ∧ e.blockId = id
  | .interceptor c, .shown i => i.blockId = id ∧ i.label = c.label
  | _, _ => False

/-- What a task may ask the database. -/
def Task.Asks : Task → Store.Query → Prop
  | .store action _, q => action.Asks q
  | _, _ => False

/-- If an output names a successor, it is the one that the block has. -/
def Output.LeadsTo (next : Option String) (o : Output) : Prop :=
  ∀ id, o.next = some id → next = some id

theorem Output.success_leadsTo (next : Option String) (v : Json) : (success next v).LeadsTo next :=
  fun _ h => h

theorem Output.failure_leadsTo (next : Option String) (text : String) :
    (failure text).LeadsTo next :=
  fun _ h => nomatch h

/-- The output of a block that has done its work and names the successor, or that has failed. -/
inductive Output.Settled (next : Option String) : Output → Prop
  | success (v : Json) : Settled next (.success next v)
  | failure (text : String) : Settled next (.failure text)

theorem Output.Settled.leadsTo {next : Option String} {o : Output} (h : o.Settled next) :
    o.LeadsTo next := by
  cases h with
  | success v => exact success_leadsTo next v
  | failure text => exact failure_leadsTo next text

namespace Task

open Act

variable [Store.Database δ] [Client χ]

/-- A step of a block with one successor is put together from basic ones, and gives an output that
names the successor or none. -/
inductive Made (changes : Change → Prop) (asks : Store.Query → Prop) :
    (Option String → Act δ χ Output) → Prop
  | success (v : Json) : Made changes asks fun next => Pure.pure (.success next v)
  | failure (text : String) : Made changes asks fun _ => Pure.pure (.failure text)
  /-- Go on in a way that depends on the state, but not on its journal. -/
  | look {f : Option String → Context δ χ → Act δ χ Output}
      (hblind : ∀ next ctx journal, f next { ctx with journal := journal } = f next ctx)
      (h : ∀ ctx, Made changes asks fun next => f next ctx) :
      Made changes asks fun next => MonadState.get >>= f next
  | bind {α : Type} {gives : α → Prop} {x : Act δ χ α} {f : Option String → α → Act δ χ Output}
      (hx : Composed (Basic changes asks) gives x)
      (hf : ∀ a, gives a → Made changes asks fun next => f next a) :
      Made changes asks fun next => x >>= f next

section Kinds

variable {changes : Change → Prop} {asks : Store.Query → Prop}

theorem Made.settled {x : Option String → Act δ χ Output} (h : Made changes asks x)
    (next : Option String) : Composed (Basic changes asks) (Output.Settled next) (x next) := by
  induction h with
  | success v => exact .pure (.success v)
  | failure text => exact .pure (.failure text)
  | look hblind _ ih => exact .look (hblind next) ih
  | bind hx _ ih => exact .bind hx ih

theorem Made.composed {x : Option String → Act δ χ Output} (h : Made changes asks x)
    (next : Option String) : Composed (Basic changes asks) (Output.LeadsTo next) (x next) :=
  (h.settled next).mono (fun _ _ hx => hx) fun _ ho => ho.leadsTo

theorem basic_of_scripts {params : Json} (α : Type) (x : Act δ χ α) (h : Scripts params α x) :
    Basic changes asks α x := by
  cases h with
  | mk code => exact .script params code

theorem note_composed (e : Event) :
    Composed (Basic changes asks) (fun _ => True) (Act.note e : Act δ χ Unit) :=
  .step (.note e) fun _ => trivial

theorem Made.noted (e : Event) {x : Option String → Act δ χ Output} (hx : Made changes asks x) :
    Made changes asks fun next => (do Act.note e; x next) :=
  .bind (note_composed e) fun _ _ => hx

theorem Made.change (c : Change) (h : changes c) {x : Option String → Act δ χ Output}
    (hx : Made changes asks x) : Made changes asks fun next => (do modify c.apply; x next) :=
  .bind (.step (.change c h) fun _ => trivial) fun _ _ => hx

theorem orFail_made {ε α : Type} {params : Json} {gives : α → Prop} {fails : ε → Prop}
    {message : ε → String} {x : ExceptT ε (Act δ χ) α} {f : Option String → α → Act δ χ Output}
    (hx : Tried (Scripts params) gives fails x)
    (hf : ∀ a, gives a → Made changes asks fun next => f next a) :
    Made changes asks fun next => orFail message x (f next) := by
  refine .bind (hx.mono basic_of_scripts fun _ he => he) fun r hr => ?_
  cases r with
  | ok a => exact hf a hr
  | error e => exact .failure _

variable (id : String) (params : Json)

theorem runSetVar_made (c : SetVarConfig) :
    Made (δ := δ) (χ := χ) ((setVar c).Changes id) asks fun next => runSetVar c id next params :=
  orFail_made (resolve_evaluates params _) fun v _ =>
    .noted _ (.change (.assign c.key v) (by trivial) (.success v))

theorem runGetVar_made (c : GetVarConfig) :
    Made (δ := δ) (χ := χ) changes asks (runGetVar c) :=
  .look (fun _ _ _ => rfl) fun _ => .success _

theorem updateVar_composed {α : Type} {key : String} {change : Json → Option (Json × α)}
    (h : ∀ v, changes (.assign key v)) :
    Composed (Basic (δ := δ) (χ := χ) changes asks) (fun _ => True) (updateVar key change) := by
  refine .look (fun _ _ => rfl) fun ctx => ?_
  cases (Entries.find? key ctx.vars).bind change with
  | none => exact .pure trivial
  | some changed =>
      exact .bind (.step (.change (.assign key changed.1) (h _)) fun _ => trivial) fun _ _ =>
        .pure trivial

theorem runList_made (c : ListConfig) :
    Made (δ := δ) (χ := χ) ((list c).Changes id) asks fun next => runList c id next params := by
  refine orFail_made (operand_evaluates params c) fun v _ => .look (fun _ _ _ => rfl) fun ctx => ?_
  cases Entries.find? c.var ctx.vars with
  | none => exact .failure _
  | some held =>
      cases held with
      | arr items =>
          refine .bind (updateVar_composed fun _ => by trivial) fun r _ => ?_
          cases r with
          | none => exact .failure _
          | some output => exact .noted _ (.success output)
      | _ => exact .failure _

theorem runCode_made (c : CodeConfig) :
    Made (δ := δ) (χ := χ) changes asks fun next => runCode c id next params := by
  refine .look (fun _ _ _ => rfl) fun ctx =>
    .bind (.step (.scriptApart _ params _) fun _ => trivial) fun r _ => ?_
  cases r with
  | ok v => exact .success v
  | error f => exact .noted _ (.failure _)

theorem runTransformer_made (c : TransformerConfig) :
    Made (δ := δ) (χ := χ) changes asks fun next => runTransformer c next params := by
  unfold runTransformer
  cases c.useScript with
  | true =>
      refine .bind (.step (.scriptApart [] params _) fun _ => trivial) fun r _ => ?_
      cases r with
      | ok v => exact .success v
      | error f => exact .failure _
  | false =>
      cases renameFields c.fieldMap params with
      | ok v => exact .success v
      | error text => exact .failure text

theorem runStore_made (action : StoreAction) (c : StoreConfig) :
    Made (δ := δ) (χ := χ) changes action.Asks fun next => runStore action c id next params := by
  refine .look (fun _ _ _ => rfl) fun ctx => ?_
  cases ctx.database with
  | none => exact .failure _
  | some db =>
    have hquery : Tried (Basic changes action.Asks) action.Asks (fun _ => True)
        (storeQuery action c params : Try δ χ _) :=
      (storeQuery_tried params action c).mono basic_of_scripts fun _ _ => trivial
    have hask : ∀ q, action.Asks q → Tried (Basic changes action.Asks) (fun _ => True)
        (fun _ => True) (askStore db q : Try δ χ Json) := by
      intro q hq
      have hanswer : Tried (Basic changes action.Asks) (fun _ => True) (fun _ => True)
          ((fun ctx => ctx.query db q : Act δ χ _) : ExceptT Store.Fault (Act δ χ) Json) :=
        .step (.ask db q hq) fun r => by cases r <;> exact trivial
      exact hanswer.adapt fun _ _ => trivial
    refine .bind (hquery.bind hask) fun r _ => ?_
    cases r with
    | ok v => exact .noted _ (.success v)
    | error e => exact .noted _ (.failure _)

theorem runCall_made (c : CallConfig) :
    Made (δ := δ) (χ := χ) changes asks fun next => runCall c id next params := by
  refine .look (fun _ _ _ => rfl) fun ctx => ?_
  cases ctx.client with
  | none => exact .failure _
  | some client =>
    refine .bind ((callOf_evaluates params c).mono basic_of_scripts fun _ he => he) fun r _ => ?_
    cases r with
    | error f => exact .noted _ (.failure _)
    | ok request =>
        refine .noted _ (.bind (.step (.call client request) fun _ => trivial) fun r _ => ?_)
        cases r with
        | ok reply => exact .noted _ (.success _)
        | error f => exact .noted _ (.failure _)

theorem runRead_made (part : RequestPart) (c : ReadConfig) :
    Made (δ := δ) (χ := χ) changes asks (runRead part c) :=
  .look (fun _ _ _ => rfl) fun _ => .success _

theorem runSetHeader_made (c : HeaderConfig) :
    Made (δ := δ) (χ := χ) ((setHeader c).Changes id) asks fun next =>
      runSetHeader c next params :=
  orFail_made (resolve_evaluates params _) fun v _ =>
    .change (.header c.name v.text) (by trivial) (.success params)

theorem runSetCookie_made (c : CookieConfig) :
    Made (δ := δ) (χ := χ) ((setCookie c).Changes id) asks fun next =>
      runSetCookie c next params :=
  orFail_made (cookieOf_evaluates params c) fun cookie _ =>
    .change (.cookie c.name cookie) (by trivial) (.success params)

theorem runResponse_made (c : ResponseConfig) :
    Made (δ := δ) (χ := χ) ((response c).Changes id) asks fun next => runResponse c next params :=
  orFail_made (answerOf_evaluates params c) fun answer _ =>
    .change (.answer answer.1 answer.2) trivial (.success answer.2)

theorem runLogger_made (c : LoggerConfig) :
    Made (δ := δ) (χ := χ) ((logger c).Changes id) asks fun next => runLogger c id next params := by
  refine orFail_made (show Evaluates params _ from ?_) fun v _ =>
    .noted _ (.change (.log ⟨c.level, v.text, id⟩) ⟨rfl, rfl⟩ (.success params))
  split
  · exact .pure trivial
  · exact resolve_evaluates params _

theorem runInterceptor_made (c : InterceptorConfig) :
    Made (δ := δ) (χ := χ) ((interceptor c).Changes id) asks fun next =>
      runInterceptor c id next params :=
  .noted _ (.change (.shown ⟨id, c.label, params⟩) ⟨rfl, rfl⟩ (.success params))

/-- **What a task does**: it changes what it may change, asks what it may ask, and leads to the
successor of its block. -/
theorem run_made (t : Task) :
    Made (δ := δ) (χ := χ) (t.Changes id) t.Asks fun next => t.run id next params := by
  cases t with
  | entrypoint => exact .success params
  | code c => exact runCode_made id params c
  | setVar c => exact runSetVar_made id params c
  | getVar c => exact runGetVar_made c
  | transformer c => exact runTransformer_made params c
  | list c => exact runList_made id params c
  | store action c => exact runStore_made id params action c
  | call c => exact runCall_made id params c
  | read part c => exact runRead_made part c
  | setHeader c => exact runSetHeader_made id params c
  | setCookie c => exact runSetCookie_made id params c
  | response c => exact runResponse_made id params c
  | logger c => exact runLogger_made id params c
  | interceptor c => exact runInterceptor_made id params c

/-- A choice changes nothing and gives an output for one of its two successors. -/
theorem runBranch_settled (c : BranchConfig) (onSuccess onFailure : Option String) :
    Composed (Basic (δ := δ) (χ := χ) (fun _ => False) fun _ => False)
      (fun r => ∀ o, r = .ok o → o.Settled onSuccess ∨ o.Settled onFailure)
      (runBranch c id onSuccess onFailure params) := by
  refine Composed.bind ((conditions_evaluate params c.conditions).mono basic_of_scripts
    fun _ he => he) fun r _ => ?_
  cases r with
  | error f => exact .pure fun _ h => nomatch h
  | ok passed =>
      refine (note_composed _).bind fun _ _ => .pure fun o ho => ?_
      obtain rfl := Except.ok.inj ho
      cases passed with
      | true => exact Or.inl (.success _)
      | false => exact Or.inr (.success _)

theorem runBranch_made (c : BranchConfig) (onSuccess onFailure : Option String) :
    Composed (Basic (δ := δ) (χ := χ) (fun _ => False) fun _ => False)
      (fun r => ∀ o, r = .ok o → o.LeadsTo onSuccess ∨ o.LeadsTo onFailure)
      (runBranch c id onSuccess onFailure params) :=
  (runBranch_settled id params c onSuccess onFailure).mono (fun _ _ hx => hx) fun _ hr o ho =>
    (hr o ho).imp Output.Settled.leadsTo Output.Settled.leadsTo

end Kinds

end Task

/-! ### Transactions -/

section Transactions

open Act

variable [Store.Database δ] [Client χ]

/-- The steps of a transaction: they change nothing but the database, and there no tables. -/
abbrev Act.Transacting : (α : Type) → Act δ χ α → Prop :=
  Basic (fun _ => False) fun q => ¬ q.OnTables

theorem ask_composed {q : Store.Query} (hq : ¬ q.OnTables) :
    Composed Transacting (fun _ => True) (ask q : Act δ χ _) := by
  have hlook : (ask q : Act δ χ (Except Store.Fault Json))
      = MonadState.get >>= fun ctx =>
          ctx.database.elim (pure (.ok .null)) fun db ctx => ctx.query db q := by
    funext ctx
    rw [ask, bind_apply]
    simp only [get_apply]
    cases ctx.database <;> rfl
  rw [hlook]
  refine .look (fun _ _ => rfl) fun ctx => ?_
  cases ctx.database with
  | none => exact .pure trivial
  | some db => exact .step (.ask db q hq) fun _ => trivial

theorem undo_composed (id : String) :
    Composed Transacting (fun _ => True) (undo id : Act δ χ Unit) := by
  refine (ask_composed (q := .rollback) fun h => h).bind fun r _ => ?_
  cases r with
  | ok v => exact .pure trivial
  | error f => exact Task.note_composed _

/-- Closed in whatever way, a transaction leads to its successor or nowhere. -/
theorem close_made (id : String) (r : Except RunError Output) :
    Task.Made (δ := δ) (χ := χ) (fun _ => False) (fun q => ¬ q.OnTables) fun next =>
      close id next r := by
  cases r with
  | ok o =>
      refine .bind (ask_composed (q := .commit) fun h => h) fun r _ => ?_
      cases r with
      | ok v => exact .noted _ (.success _)
      | error f => exact .bind (undo_composed id) fun _ _ => .failure _
  | error e => exact .bind (undo_composed id) fun _ _ => .noted _ (.failure _)

theorem leaveTransaction_composed (id : String) :
    Composed Transacting (fun _ => True) (leaveTransaction id : Act δ χ Unit) := by
  refine (ask_composed (q := .setMode .normal) fun h => h).bind fun r _ => ?_
  cases r with
  | ok v => exact .pure trivial
  | error f => exact Task.note_composed _

end Transactions

end FlowGraph
