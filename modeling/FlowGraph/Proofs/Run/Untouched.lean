/-
Blocks that fail leave everything as it was.

A block without a body first computes what it needs, then looks whether it can go on, and
writes in the end, in one step after which it cannot fail any more.  So a property that
computing keeps is still there when the block fails: `Lasting` says what such a property
must bear, and `Task.run_guards` goes through the tasks.

The property to put in is `Untouched`: everything that blocks share is as it was, and only
the journal and the client of calls have moved on.  Over a database in memory this is
lasting, since a question that is refused there changes nothing, and a script that may
query can send statements only, which are all refused.

Other databases may change with every question.  For them it matters whether they are asked
at all, and there the tasks that use the database go further: a block that fails before it
has its question has not asked.  Here scripts must be kept from asking behind the back of
the block, which they are where they call only what was granted.
-/
import FlowGraph.Proofs.Run.Tasks
import FlowGraph.Proofs.Script.Budgets
import FlowGraph.Run.Execute
import FlowGraph.Store.Memory
import FlowGraph.Web.Offline

namespace FlowGraph

variable {δ χ α : Type}

/-- Everything that blocks share is as it was. -/
structure Context.Untouched (before after : Context δ χ) : Prop where
  vars : after.vars = before.vars
  request : after.request = before.request
  route : after.route = before.route
  response : after.response = before.response
  logs : after.logs = before.logs
  database : after.database = before.database
  intercepted : after.intercepted = before.intercepted
  scripts : after.scripts = before.scripts
  span : after.span = before.span

/-! ### Steps before the last one -/

namespace Act

variable {P : Context δ χ → Prop} {gives : α → Prop}

/-- The property is still there if the output is fatal. -/
def Guards (P : Context δ χ → Prop) (x : Act δ χ Output) : Prop :=
  ∀ ctx, P ctx → (x ctx).1.isFatal = true → P (x ctx).2

/-- The output is not fatal. -/
def Succeeds (x : Act δ χ Output) : Prop := ∀ ctx, (x ctx).1.isFatal = false

theorem Succeeds.success (next : Option String) (v : Json) :
    Succeeds (δ := δ) (χ := χ) (pure (.success next v)) := fun _ => rfl

theorem Succeeds.bind {x : Act δ χ α} {f : α → Act δ χ Output} (hf : ∀ a, Succeeds (f a)) :
    Succeeds (x >>= f) := fun _ => hf _ _

theorem Succeeds.guards {x : Act δ χ Output} (hx : Succeeds x) : Guards P x := by
  intro ctx _ hfatal
  rw [hx ctx] at hfatal
  exact nomatch hfatal

theorem Guards.failure (text : String) : Guards P (pure (.failure text)) := fun _ hctx _ => hctx

theorem Guards.bind {x : Act δ χ α} {f : α → Act δ χ Output} (hx : Preserves P gives x)
    (hf : ∀ a, gives a → Guards P (f a)) : Guards P (x >>= f) := by
  intro ctx hctx
  obtain ⟨hkept, hgives⟩ := hx ctx hctx
  exact hf _ hgives _ hkept

end Act

namespace Task

open Act

/-- A property of the state that a block takes away in its last step at most. -/
structure Lasting [Store.Database δ] [Client χ] (P : Context δ χ → Prop) : Prop where
  note : ∀ e ctx, P ctx → P (ctx.note e)
  scripts : ∀ params, KeptByScripts P params
  apart : ∀ granted params code, Preserves P (fun _ => True) (scriptApart granted params code)
  call : ∀ client request ctx, P ctx → P (ctx.call client request).2
  /-- A question that the database refuses. -/
  refused : ∀ first, P first → ∀ db, first.database = some db → ∀ q ctx, P ctx →
    ∀ f, (ctx.query db q).1 = .error f → P (ctx.query db q).2

theorem orFail_guards {ε : Type} {P : Context δ χ → Prop} {message : ε → String}
    {x : ExceptT ε (Act δ χ) α} {f : α → Act δ χ Output} (hx : Computes P x)
    (hf : ∀ a, Guards P (f a)) : Guards P (orFail message x f) := by
  refine Guards.bind hx fun r _ => ?_
  cases r with
  | ok a => exact hf a
  | error e => exact .failure _

/-- Where a variable is not changed, nothing is. -/
theorem updateVar_guards {P : Context δ χ → Prop} {key : String} {change : Json → Option (Json × α)}
    {f : Option α → Act δ χ Output} (hkept : Guards P (f none))
    (hdone : ∀ a, Succeeds (f (some a))) : Guards P (updateVar key change >>= f) := by
  intro ctx hctx hfatal
  rw [bind_apply, updateVar, bind_apply, get_apply] at hfatal ⊢
  cases hchange : (Entries.find? key ctx.vars).bind change with
  | none =>
      simp only [hchange] at hfatal ⊢
      exact hkept ctx hctx hfatal
  | some changed =>
      simp only [hchange] at hfatal
      exact nomatch (hdone changed.2 _).symm.trans hfatal

section Kinds

variable [Store.Database δ] [Client χ] {P : Context δ χ → Prop} (hP : Lasting P) (id : String)
  (next : Option String) (params : Json)
include hP

theorem note_preserves (e : Event) : Preserves P (fun _ => True) (Act.note e) :=
  .change (hP.note e)

theorem runSetVar_guards (c : SetVarConfig) : Guards P (runSetVar c id next params) :=
  orFail_guards ((resolve_evaluates params _).attempts (hP.scripts params)) fun v =>
    (Succeeds.bind fun _ => .bind fun _ => .success next v).guards

theorem runList_guards (c : ListConfig) : Guards P (runList c id next params) := by
  refine orFail_guards ((operand_evaluates params c).attempts (hP.scripts params)) fun v =>
    Guards.bind .look fun ctx _ => ?_
  split
  · exact .failure _
  · exact updateVar_guards (.failure _) fun output => .bind fun _ => .success next output
  · exact .failure _

theorem runCode_guards (c : CodeConfig) : Guards P (runCode c id next params) := by
  refine Guards.bind .look fun ctx _ => Guards.bind (hP.apart _ params _) fun r _ => ?_
  cases r with
  | ok v => exact (Succeeds.success next v).guards
  | error f => exact Guards.bind (note_preserves hP _) fun _ _ => .failure _

theorem runTransformer_guards (c : TransformerConfig) :
    Guards P (runTransformer c next params) := by
  unfold runTransformer
  split
  · refine Guards.bind (hP.apart [] params _) fun r _ => ?_
    cases r with
    | ok v => exact (Succeeds.success next v).guards
    | error f => exact .failure _
  · split
    · exact (Succeeds.success next _).guards
    · exact .failure _

theorem runStore_guards (action : StoreAction) (c : StoreConfig) :
    Guards P (runStore action c id next params) := by
  intro ctx hctx
  have hends := runStore_ends action c id next params ctx
  generalize runStore action c id next params ctx = out at hends ⊢
  intro hfatal
  cases hends with
  | absent hdb => exact hctx
  | unasked hdb hquery =>
      have hkept := ((storeQuery_tried params action c).attempts (hP.scripts params) ctx hctx).1
      rw [hquery] at hkept
      exact hP.note _ _ hkept
  | refused hdb hquery hanswer =>
      have hkept := ((storeQuery_tried params action c).attempts (hP.scripts params) ctx hctx).1
      rw [hquery] at hkept
      have hleft := hP.refused ctx hctx _ hdb _ _ hkept _ (congrArg Prod.fst hanswer)
      rw [hanswer] at hleft
      exact hP.note _ _ hleft
  | answered => exact nomatch hfatal

theorem runCall_guards (c : CallConfig) : Guards P (runCall c id next params) := by
  refine Guards.bind .look fun ctx _ => ?_
  split
  · exact .failure _
  · rename_i client _
    refine Guards.bind ((callOf_evaluates params c).attempts (hP.scripts params)) fun r _ => ?_
    cases r with
    | error f => exact Guards.bind (note_preserves hP _) fun _ _ => .failure _
    | ok request =>
        have hcall : Preserves P (fun _ => True)
            (fun ctx => ctx.call client request : Act δ χ (Except CallFault Reply)) :=
          fun ctx hctx => ⟨hP.call client request ctx hctx, trivial⟩
        refine Guards.bind (note_preserves hP _) fun _ _ => Guards.bind hcall fun r _ => ?_
        cases r with
        | ok reply => exact (Succeeds.bind fun _ => .success next _).guards
        | error f => exact Guards.bind (note_preserves hP _) fun _ _ => .failure _

theorem runLogger_guards (c : LoggerConfig) : Guards P (runLogger c id next params) := by
  refine orFail_guards (Tried.attempts ?_ (hP.scripts params)) fun v =>
    (Succeeds.bind fun _ => .bind fun _ => .success next params).guards
  split
  · exact .pure trivial
  · exact resolve_evaluates params _

/-- **A task that fails has not changed anything.** -/
theorem run_guards (t : Task) : Guards P (t.run id next params) := by
  have hscripts := hP.scripts params
  cases t with
  | entrypoint => exact (Succeeds.success next params).guards
  | code c => exact runCode_guards hP id next params c
  | setVar c => exact runSetVar_guards hP id next params c
  | getVar c => exact (Succeeds.bind fun _ => .success next _).guards
  | transformer c => exact runTransformer_guards hP next params c
  | list c => exact runList_guards hP id next params c
  | store action c => exact runStore_guards hP id next params action c
  | call c => exact runCall_guards hP id next params c
  | read part c => exact (Succeeds.bind fun _ => .success next _).guards
  | setHeader c =>
      exact orFail_guards ((resolve_evaluates params c.value).attempts hscripts) fun _ =>
        (Succeeds.bind fun _ => .success next params).guards
  | setCookie c =>
      exact orFail_guards ((cookieOf_evaluates params c).attempts hscripts) fun _ =>
        (Succeeds.bind fun _ => .success next params).guards
  | response c =>
      exact orFail_guards ((answerOf_evaluates params c).attempts hscripts) fun _ =>
        (Succeeds.bind fun _ => .success next _).guards
  | logger c => exact runLogger_guards hP id next params c
  | interceptor c =>
      exact (Succeeds.bind fun _ => .bind fun _ => .success next params).guards

/-- A choice writes nothing at all. -/
theorem runBranch_preserves (c : BranchConfig) (onSuccess onFailure : Option String) :
    Preserves P (fun _ => True) (runBranch c id onSuccess onFailure params) := by
  have hconditions := (conditions_evaluate params c.conditions).attempts (hP.scripts params)
  refine Preserves.bind hconditions fun r _ => ?_
  cases r with
  | error f => exact .pure trivial
  | ok passed => exact (note_preserves hP _).bind fun _ _ => .pure trivial

end Kinds

end Task

/-! ### Nothing but the journal -/

namespace Context.Untouched

variable {base ctx : Context δ χ}

theorem refl (ctx : Context δ χ) : Untouched ctx ctx :=
  ⟨rfl, rfl, rfl, rfl, rfl, rfl, rfl, rfl, rfl⟩

theorem trans {last : Context δ χ} (h : Untouched base ctx) (h' : Untouched ctx last) :
    Untouched base last where
  vars := h'.vars.trans h.vars
  request := h'.request.trans h.request
  route := h'.route.trans h.route
  response := h'.response.trans h.response
  logs := h'.logs.trans h.logs
  database := h'.database.trans h.database
  intercepted := h'.intercepted.trans h.intercepted
  scripts := h'.scripts.trans h.scripts
  span := h'.span.trans h.span

theorem note (h : Untouched base ctx) (e : Event) : Untouched base (ctx.note e) :=
  ⟨h.vars, h.request, h.route, h.response, h.logs, h.database, h.intercepted, h.scripts, h.span⟩

/-- A script that calls no function leaves everything as it was, whatever the database. -/
theorem host [Store.Database δ] (h : Untouched base ctx) {q : Script.Request}
    (hq : q.Within []) : Untouched base (Context.host q ctx).2 := by
  cases q with
  | print text => exact h.note _
  | debug text => exact h.note _
  | call name argument => exact absurd hq List.not_mem_nil

theorem keptByScripts [Store.Database δ] (hscripts : base.scripts.AsksGranted) (params : Json) :
    Act.KeptByScripts (Untouched base) params :=
  fun code => .intro fun ctx h =>
    have hasks := (h.scripts ▸ hscripts : ctx.scripts.AsksGranted) [] (ctx.scope params) code
    hasks.run_keeps (fun _ _ hq hs => hs.host hq) h

end Context.Untouched

/-! ### A database in memory -/

namespace Store.Memory

variable {base ctx : Context Memory χ} {m : Memory}

theorem query_refused (h : base.Untouched ctx) (hdb : base.database = some m) {q : Query}
    {f : Fault} (hf : (ctx.query m q).1 = .error f) : base.Untouched (ctx.query m q).2 := by
  rw [Context.query] at hf ⊢
  cases hanswer : Database.answer q m with
  | mk r m' =>
      rw [hanswer] at hf
      cases r with
      | ok v => cases hf
      | error f' =>
          have hsame : m' = m := by
            have hrefused : (m.answer q).1 = .error f' := congrArg Prod.fst hanswer
            exact (congrArg Prod.snd hanswer).symm.trans (answer_refused hrefused)
          exact { h with database := by rw [hsame, hdb] }

/-- Whatever a script asks for, it changes nothing: there are no statements for this database. -/
theorem host_untouched (h : base.Untouched ctx) (q : Script.Request) :
    base.Untouched (Context.host q ctx).2 := by
  rw [Context.host.eq_def]
  split
  · exact h.note _
  · exact h.note _
  · split
    · rename_i statement m hdb
      have hrefused := query_refused (h.note (.codeQueried statement)) (h.database ▸ hdb)
        (q := .raw statement) rfl
      split <;> rename_i heq <;> rw [heq] at hrefused <;> exact hrefused
    · exact h
    · exact h

theorem evaluate_untouched (granted : List String) (params : Json) (code : String)
    (ctx : Context Memory χ) : ctx.Untouched (ctx.evaluate granted params code).2 :=
  Script.Session.run_keeps ctx.Untouched (fun q _ h => host_untouched h q) _ ctx (.refl ctx)

theorem evaluateApart_untouched (granted : List String) (params : Json) (code : String)
    (ctx : Context Memory χ) : ctx.Untouched (ctx.evaluateApart granted params code).2 :=
  have h := evaluate_untouched granted params code { ctx with span := none }
  ⟨h.vars, h.request, h.route, h.response, h.logs, h.database, h.intercepted, h.scripts, rfl⟩

theorem lasting [Client χ] (base : Context Memory χ) : Task.Lasting base.Untouched where
  note e _ h := h.note e
  scripts params code := .intro fun ctx h => h.trans (evaluate_untouched [] params code ctx)
  apart granted params code ctx h :=
    ⟨h.trans (evaluateApart_untouched granted params code ctx), trivial⟩
  call _ _ _ h := { h with }
  refused _ hfirst _ hdb _ _ h _ hf := query_refused h (hfirst.database ▸ hdb) hf

end Store.Memory

/-! ### Blocks -/

/-- The block raised an error, or its output is fatal. -/
def Faults : Except BlockError Output → Prop
  | .error _ => True
  | .ok o => o.isFatal = true

/-- A task that uses the database and does not come to its question leaves everything as it was. -/
theorem Task.runStore_untouched [Store.Database δ] {ctx : Context δ χ}
    (hscripts : ctx.scripts.AsksGranted) (action : StoreAction) (c : StoreConfig) (id : String)
    (next : Option String) (params : Json) {e : BlockError} {mid : Context δ χ}
    (hquery : (storeQuery action c params).run ctx = (.error e, mid)) :
    e.OfQuestion ∧ ctx.Untouched (runStore action c id next params ctx).2 := by
  have hkept : Act.KeptByScripts ctx.Untouched params :=
    Context.Untouched.keptByScripts hscripts params
  have hfailed := (storeQuery_tried params action c).attempts hkept ctx (.refl ctx)
  rw [hquery] at hfailed
  refine ⟨hfailed.2, ?_⟩
  have hends := runStore_ends action c id next params ctx
  generalize runStore action c id next params ctx = out at hends ⊢
  cases hends with
  | absent => exact .refl ctx
  | unasked _ hquery' =>
      obtain rfl : mid = _ := congrArg Prod.snd (hquery.symm.trans hquery')
      exact hfailed.1.note _
  | refused _ hquery' => exact nomatch hquery.symm.trans hquery'
  | answered _ hquery' => exact nomatch hquery.symm.trans hquery'

/-- **A block that fails leaves everything as it was.**  Over a database in memory this is so for
every block without a body, whatever its scripts do.  Over any database, which may change with
every question, a block that does not come to its question leaves the database as it was: it has
not asked, and what kept it from asking is a script that failed or a value of a wrong shape.
Scripts do not ask behind its back, since they call only what was granted to them. -/
theorem Block.execute_untouched :
    (∀ {χ : Type} [Client χ] (b : Block) (params : Json) (ctx : Context Store.Memory χ),
      b.kind.hasBody = false →
      ∃ r ctx', (∀ fuel, b.execute (fuel + 1) params ctx = some (r, ctx')) ∧
        (Faults r → ctx.Untouched ctx')) ∧
    (∀ {δ χ : Type} [Store.Database δ] [Client χ] (id : String) (next : Option String)
      (action : StoreAction) (c : StoreConfig) (params : Json) (ctx : Context δ χ),
      ctx.scripts.AsksGranted →
      ∃ o ctx', (∀ fuel, (Block.task id next (.store action c)).execute (fuel + 1) params ctx
          = some (.ok o, ctx')) ∧
        Task.StoreEnds action c id next params ctx (o, ctx') ∧
        ∀ e mid, (Task.storeQuery action c params).run ctx = (.error e, mid) →
          e.OfQuestion ∧ ctx.Untouched ctx') ∧
    ∀ limits, (Script.Engine.standard limits).AsksGranted := by
  refine ⟨?_, ?_, Script.Engine.standard_asksGranted⟩
  · intro χ _ b params ctx hkind
    have hlasting := Store.Memory.lasting ctx
    cases b with
    | task id next t =>
        exact ⟨_, _, fun _ => rfl, Task.run_guards hlasting id next params t ctx (.refl ctx)⟩
    | branch id c onSuccess onFailure =>
        exact ⟨_, _, fun _ => rfl, fun _ =>
          (Task.runBranch_preserves hlasting id params c onSuccess onFailure ctx (.refl ctx)).1⟩
    | nested id next frame body => cases frame <;> exact nomatch hkind
  · intro δ χ _ _ id next action c params ctx hscripts
    exact ⟨_, _, fun _ => rfl, Task.runStore_ends action c id next params ctx, fun _ _ hquery =>
      Task.runStore_untouched hscripts action c id next params hquery⟩

/-- Settings of a block that puts its input in as a row. -/
def StoreConfig.inserting : StoreConfig := ⟨"rows", [], none, none, none, .null, true, ""⟩

/-- A block that puts its input in as a row. -/
def Block.inserting : Block := .task "put" none (.store .insert .inserting)

/-- A context with an empty database and the scripts of this language. -/
def Context.inserting : Context Store.Memory Offline :=
  { database := some {}, scripts := .standard {} }

theorem Block.execute_untouched_misshaped :
    Block.inserting.kind.hasBody = false ∧ Context.inserting.scripts.AsksGranted ∧
      (∃ o ctx', (∀ fuel, Block.inserting.execute (fuel + 1) (.bool true) Context.inserting
          = some (.ok o, ctx')) ∧
        o.isFatal = true ∧ Context.inserting.Untouched ctx') ∧
      ∃ e mid, (Task.storeQuery .insert .inserting (.bool true)).run Context.inserting
          = (.error e, mid) ∧ e.OfQuestion := by
  obtain ⟨hblocks, hstores, hscripts⟩ := Block.execute_untouched
  refine ⟨rfl, hscripts {}, ?_, ?_⟩
  · obtain ⟨r, ctx', hrun, huntouched⟩ := hblocks .inserting (.bool true) Context.inserting rfl
    obtain ⟨rfl, rfl⟩ := Prod.mk.inj (Option.some.inj (hrun 0))
    exact ⟨_, _, hrun, rfl, huntouched rfl⟩
  · obtain ⟨o, ctx', -, -, hunasked⟩ := hstores "put" none .insert .inserting (.bool true)
      Context.inserting (hscripts {})
    exact ⟨_, _, rfl, (hunasked _ _ rfl).1⟩

end FlowGraph
