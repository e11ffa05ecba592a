/-
A builder after a build.

Only one thing in a builder changes while it builds: the entries of the bodies under
construction.  `Work.Mirrors` says that work leaves the builder as it was and does for the rest
what compiling does on what was loaded.  It is closed under every way in which the steps of a
build are put together, and the one step that is not such, to put an entry on the others, comes
with the step that takes it off.  Between the two the body mirrors compiling on the builder with
its entry put on, and it does so when it fails, too.  So the rule holds for bodies within bodies
by induction on their depth, whatever bodies are open around them.

A builder that is at rest has no body under construction.  Then a build is what compiling is for
what was loaded, and no call before it plays a part but the loads.
-/
import FlowGraph.Compile.Builder
import FlowGraph.Proofs.Compile.Alike

namespace FlowGraph

namespace Work

variable {α β : Type} {b : Builder}

theorem outcome_bind (x : Work α) (f : α → Work β) (b : Builder) (log : BuildLog) :
    outcome (x >>= f) b log
      = match outcome x b log with
        | ((.ok a, b'), log') => outcome (f a) b' log'
        | ((.error e, b'), log') => ((.error e, b'), log') := by
  rw [outcome, ExceptT.run_bind, StateT.run_bind, StateT.run_bind, outcome]
  generalize StateT.run (StateT.run (ExceptT.run x) b) log = r
  obtain ⟨⟨out, b'⟩, log'⟩ := r
  cases out <;> rfl

theorem outcome_read (f : Builder → Work α) (b : Builder) (log : BuildLog) :
    outcome (getThe Builder >>= f) b log = outcome (f b) b log := by
  rw [outcome_bind]
  rfl

/-- An error that is held stops nothing. -/
theorem outcome_attempt (x : Work α) (b : Builder) (log : BuildLog) :
    outcome x.attempt b log
      = match outcome x b log with
        | ((r, b'), log') => ((.ok r, b'), log') := rfl

/-- Begun on the builder, work ends as compiling does and leaves the builder as it was. -/
def Mirrors (b : Builder) (x : Work α) (y : Build α) : Prop :=
  ∀ log, x.outcome b log = (((Build.outcome y log).1, b), (Build.outcome y log).2)

theorem Mirrors.pure (a : α) : Mirrors b (Pure.pure a) (Pure.pure a) := fun _ => rfl

theorem Mirrors.throw (e : BuildError) :
    Mirrors b (MonadExcept.throw e : Work α) (MonadExcept.throw e) := fun _ => rfl

theorem Mirrors.lift (x : Except BuildError α) : Mirrors b (liftM x) (liftM x) := by
  intro log
  cases x <;> rfl

theorem Mirrors.noted (f : BuildLog → BuildLog) :
    Mirrors b (modifyThe BuildLog f) (modify f) := fun _ => rfl

theorem Mirrors.bind {x : Work α} {y : Build α} {f : α → Work β} {g : α → Build β}
    (hx : Mirrors b x y) (hf : ∀ a, Mirrors b (f a) (g a)) : Mirrors b (x >>= f) (y >>= g) := by
  intro log
  rw [outcome_bind, Build.outcome_bind, hx log]
  generalize Build.outcome y log = r
  obtain ⟨out, log'⟩ := r
  cases out with
  | ok a => exact hf a log'
  | error e => rfl

/-- The builder is read as it is. -/
theorem Mirrors.read {f : Builder → Work α} {y : Build α} (h : Mirrors b (f b) y) :
    Mirrors b (getThe Builder >>= f) y := by
  intro log
  rw [outcome_read, h log]

/-- A body leaves no trace of its entry, whether it is built or fails. -/
theorem Mirrors.within {entry : String} {x : Work α} {y : Build α}
    (h : Mirrors { b with building := entry :: b.building } x y) :
    Mirrors b (do
      Builder.push entry
      let r ← x.attempt
      Builder.pop
      r) y := by
  intro log
  rw [outcome_bind]
  show outcome _ { b with building := entry :: b.building } log = _
  rw [outcome_bind, outcome_attempt, h log]
  generalize Build.outcome y log = r
  obtain ⟨out, log'⟩ := r
  cases out <;> rfl

end Work

namespace Builder

open Work

variable {b : Builder} {child : BodyWork} {child' : Compiler.BodyBuilder}

@[simp] theorem compiler_wiring (b : Builder) : b.compiler.wiring = b.wiring := rfl

/-! ### One build -/

theorem body_mirrors (hchild : ∀ entry, Mirrors b (child entry) (child' entry)) (d : BlockDef) :
    Mirrors b (body child d) (b.compiler.body child' d) := by
  rw [body, Compiler.body]
  by_cases hbody : d.kind.hasBody = true
  · rw [if_pos hbody, if_pos hbody]
    refine .read ?_
    rw [compiler_wiring]
    cases b.wiring.successor d.id Slot.executor with
    | none => exact .pure none
    | some entry =>
        exact .bind (.noted _) fun _ => .bind (hchild entry) fun blocks => .pure _
  · rw [if_neg hbody, if_neg hbody]
    exact .pure none

theorem build_mirrors (hchild : ∀ entry, Mirrors b (child entry) (child' entry)) (d : BlockDef) :
    Mirrors b (build child d) (b.compiler.build child' d) :=
  .bind (body_mirrors hchild d) fun inner => .read (.lift (b.compiler.block d inner))

theorem buildPending_mirrors (hchild : ∀ entry, Mirrors b (child entry) (child' entry)) :
    ∀ (fuel : Nat) (blocks : BlockMap) (pending : List String),
      Mirrors b (buildPending child fuel blocks pending)
        (b.compiler.buildPending child' fuel blocks pending) := by
  intro fuel
  induction fuel with
  | zero => exact fun blocks _ => .pure blocks
  | succ fuel ih =>
      intro blocks pending
      cases pending with
      | nil => exact .pure blocks
      | cons id pending =>
          rw [buildPending, Compiler.buildPending]
          by_cases hbuilt : Entries.contains id blocks = true
          · rw [if_pos hbuilt, if_pos hbuilt]
            exact ih blocks pending
          · rw [if_neg hbuilt, if_neg hbuilt]
            refine .read ?_
            rw [compiler_wiring]
            cases Entries.find? id b.wiring.definitions with
            | none => exact .bind (.noted _) fun _ => ih blocks pending
            | some d =>
                refine .bind (build_mirrors hchild d) fun built => .bind (.noted _) fun _ => ?_
                exact .read (ih _ _)

theorem buildFrom_mirrors (hchild : ∀ entry, Mirrors b (child entry) (child' entry))
    (start : String) : Mirrors b (buildFrom child start) (b.compiler.buildFrom child' start) :=
  .read (buildPending_mirrors hchild _ _ _)

/-- **A body leaves the builder as it was**, whatever bodies are open around it. -/
theorem buildBody_mirrors (depth : Nat) (b : Builder) (entry : String) :
    Mirrors b (buildBody depth entry) (b.compiler.buildBody depth b.building entry) := by
  induction depth generalizing b entry with
  | zero => exact .throw _
  | succ depth ih =>
      rw [buildBody, Compiler.buildBody]
      refine .read ?_
      by_cases hopen : b.building.contains entry = true
      · rw [if_pos hopen, if_pos hopen]
        exact .throw _
      · rw [if_neg hopen, if_neg hopen]
        exact .within (buildFrom_mirrors (fun next => ih _ next) entry)

theorem buildChild_mirrors (b : Builder) (entry : String) :
    Mirrors b (buildChild entry) (b.compiler.buildBody b.compiler.bodyDepth b.building entry) :=
  .read (buildBody_mirrors _ b entry)

theorem buildGraph_mirrors (b : Builder) (start : String) :
    Mirrors b (buildGraph start)
      (b.compiler.buildFrom (b.compiler.buildBody b.compiler.bodyDepth b.building) start) :=
  buildFrom_mirrors (buildChild_mirrors b) start

/-! ### One call -/

variable {b' : Builder} {c : Call} {calls : List Call}

/-- No call is under way: no body is under construction. -/
structure Resting (b : Builder) : Prop where
  loaded : b.wiring.Loaded
  building : b.building = []

theorem perform_buildGraph (b : Builder) (start : String) :
    let y := b.compiler.buildFrom (b.compiler.buildBody b.compiler.bodyDepth b.building) start
    b.perform (.buildGraph start)
      = (.built (Build.outcome y {}).1 (Build.outcome y {}).2, b) := by
  rw [perform, buildGraph_mirrors b start {}]

theorem perform_buildChild (b : Builder) (entry : String) :
    let y := b.compiler.buildBody b.compiler.bodyDepth b.building entry
    b.perform (.buildChild entry)
      = (.built (Build.outcome y {}).1 (Build.outcome y {}).2, b) := by
  rw [perform, buildChild_mirrors b entry {}]

/-- What a load of blocks ends with. -/
def loadResult : Option BuildError → Except BuildError Unit
  | some e => .error e
  | none => .ok ()

theorem outcome_loadBlocks (b : Builder) (ds : List BlockDef) (log : BuildLog) :
    (loadBlocks ds).outcome b log
      = ((loadResult (b.wiring.addBlocks ds).1, { b with wiring := (b.wiring.addBlocks ds).2 }),
        log) := by
  rw [loadBlocks, outcome_read]
  obtain ⟨failed, w⟩ := b.wiring.addBlocks ds
  cases failed <;> rfl

/-- A load takes in what it is given and begins no body. -/
theorem perform_loadBlocks (b : Builder) (ds : List BlockDef) :
    (b.perform (.loadBlocks ds)).2 = { b with wiring := (b.wiring.addBlocks ds).2 } := by
  rw [perform, outcome_loadBlocks]

theorem perform_loadEdges (b : Builder) (es : List EdgeDef) :
    (b.perform (.loadEdges es)).2 = { b with wiring := b.wiring.addEdges es } := rfl

/-- A build leaves the builder as it was. -/
theorem perform_eq_self (b : Builder) (hc : c.loads = false) : (b.perform c).2 = b := by
  cases c with
  | loadBlocks ds => cases hc
  | loadEdges es => cases hc
  | buildGraph start => rw [perform_buildGraph]
  | buildChild entry => rw [perform_buildChild]

theorem Resting.perform (h : b.Resting) (c : Call) : (b.perform c).2.Resting := by
  cases c with
  | loadBlocks ds =>
      rw [perform_loadBlocks]
      exact ⟨.blocks h.loaded ds, h.building⟩
  | loadEdges es =>
      rw [perform_loadEdges]
      exact ⟨.edges h.loaded es, h.building⟩
  | buildGraph start => rwa [perform_eq_self b rfl]
  | buildChild entry => rwa [perform_eq_self b rfl]

/-- At rest, a graph is built as it is compiled. -/
theorem Resting.perform_buildGraph (h : b.Resting) (start : String) :
    b.perform (.buildGraph start)
      = (.built (Build.outcome (b.compiler.buildGraph start) {}).1
          (Build.outcome (b.compiler.buildGraph start) {}).2, b) := by
  rw [Builder.perform_buildGraph, h.building]
  rfl

/-- At rest, a body is built as it is compiled on its own. -/
theorem Resting.perform_buildChild (h : b.Resting) (entry : String) :
    b.perform (.buildChild entry)
      = (.built (Build.outcome (b.compiler.buildChild entry) {}).1
          (Build.outcome (b.compiler.buildChild entry) {}).2, b) := by
  rw [Builder.perform_buildChild, h.building]
  rfl

/-- At rest, what a build answers depends on what was loaded. -/
theorem Resting.answer_eq (h : b.Resting) (h' : b'.Resting)
    (hdefs : b'.wiring.definitions = b.wiring.definitions)
    (hedges : b'.wiring.edges = b.wiring.edges) (hval : b'.validate = b.validate)
    (hc : c.loads = false) : (b'.perform c).1 = (b.perform c).1 := by
  have halike : ∀ start, b.wiring.Alike b'.wiring start := fun start =>
    ⟨hedges.symm, fun id _ => by rw [Wiring.net, Wiring.net, hdefs]⟩
  cases c with
  | loadBlocks ds => cases hc
  | loadEdges es => cases hc
  | buildGraph start =>
      have hgraph : b'.compiler.buildGraph start = b.compiler.buildGraph start := by
        rw [compiler, compiler, hval]
        exact (Compiler.buildGraph_alike h.loaded.sound (halike start)).symm
      rw [h.perform_buildGraph, h'.perform_buildGraph, hgraph]
  | buildChild entry =>
      have hbody : b'.compiler.buildChild entry = b.compiler.buildChild entry := by
        rw [compiler, compiler, hval]
        exact (Compiler.buildChild_alike h.loaded.sound (halike entry)).symm
      rw [h.perform_buildChild, h'.perform_buildChild, hbody]

/-! ### Builders that are used again and again -/

theorem after_cons (b : Builder) (c : Call) (calls : List Call) :
    b.after (c :: calls) = (b.perform c).2.after calls := rfl

theorem Resting.after (h : b.Resting) (calls : List Call) : (b.after calls).Resting := by
  induction calls generalizing b with
  | nil => exact h
  | cons c calls ih => exact ih (h.perform c)

/-- Builds may be left out. -/
theorem after_filter_loads (b : Builder) (calls : List Call) :
    b.after (calls.filter Call.loads) = b.after calls := by
  induction calls generalizing b with
  | nil => rfl
  | cons c calls ih =>
      rw [after_cons]
      cases hc : c.loads with
      | true => rw [List.filter_cons_of_pos hc, after_cons, ih]
      | false => rw [List.filter_cons_of_neg (by simp [hc]), ih, perform_eq_self b hc]

/-- A builder that was made and is not used yet. -/
inductive Made : Builder → Prop
  | new (validate : Bool) : Made { validate := validate }
  | graph {g : Graph} {validate : Bool} {b : Builder} (h : ofGraph g validate = .ok b) : Made b

theorem Made.resting (h : b.Made) : b.Resting := by
  cases h with
  | new validate => exact ⟨.empty, rfl⟩
  | @graph g validate _ h =>
      rw [ofGraph] at h
      cases hw : Wiring.ofGraph g with
      | error e =>
          rw [hw] at h
          exact nomatch h
      | ok w =>
          rw [hw] at h
          cases h
          exact ⟨(Wiring.ofGraph_ok hw).1, rfl⟩

/-- **A build leaves no trace in the builder.**  However a build ends, and whatever bodies are under
construction around it, it leaves the builder as it was.  So in a builder that was made, whatever
was called since, no body is under construction, and it is as the loads alone would have made it.
It answers a build as every other builder does, used or not, that holds the same definitions and
edges. -/
theorem build_leaves_no_trace {c : Call} (hc : c.loads = false) :
    (∀ b : Builder, (b.perform c).2 = b) ∧
      ∀ b : Builder, b.Made → ∀ calls : List Call,
        (b.after calls).building = [] ∧ b.after calls = b.after (calls.filter Call.loads) ∧
          ∀ fresh : Builder, fresh.Made → ∀ loads : List Call,
            (fresh.after loads).wiring.definitions = (b.after calls).wiring.definitions →
            (fresh.after loads).wiring.edges = (b.after calls).wiring.edges →
            (fresh.after loads).validate = (b.after calls).validate →
            ((fresh.after loads).perform c).1 = ((b.after calls).perform c).1 := by
  refine ⟨fun b => perform_eq_self b hc, fun b hb calls => ?_⟩
  have hrest : (b.after calls).Resting := hb.resting.after calls
  refine ⟨hrest.building, (after_filter_loads b calls).symm, ?_⟩
  intro fresh hfresh loads hdefs hedges hval
  exact hrest.answer_eq (hfresh.resting.after loads) hdefs hedges hval hc

/-- The block whose settings a build failed on. -/
def Answer.invalid? : Answer → Option String
  | .built (.error (.invalidConfig id _ _)) _ => some id
  | _ => none

/-- Loads of a transaction around a block with settings that cannot be read, and a build that fails
inside of the body. -/
def failingCalls : List Call :=
  [.loadBlocks [⟨"tx", .transaction, .null, none⟩, ⟨"leaf", .setVar, .null, none⟩],
    .buildGraph "tx", .loadEdges [⟨"", "tx", "leaf", none, Slot.executor⟩], .buildGraph "tx"]

theorem build_leaves_no_trace_failing :
    let b : Builder := { validate := true }
    ((b.after failingCalls).perform (.buildGraph "tx")).1.invalid? = some "leaf" ∧
      ((b.after failingCalls).perform (.buildChild "leaf")).1.invalid? = some "leaf" ∧
      ((b.after failingCalls).perform (.buildChild "leaf")).2.building = [] ∧
      ((b.after (failingCalls.filter Call.loads)).perform (.buildChild "leaf")).1
        = ((b.after failingCalls).perform (.buildChild "leaf")).1 := by
  intro b
  obtain ⟨hsame, hmade⟩ := build_leaves_no_trace (c := .buildChild "leaf") rfl
  obtain ⟨hbuilding, hloads, hfresh⟩ := hmade b (.new true) failingCalls
  refine ⟨by decide +kernel, by decide +kernel, ?_, ?_⟩
  · rw [hsame, hbuilding]
  · exact hfresh b (.new true) _ (by rw [← hloads]) (by rw [← hloads]) (by rw [← hloads])

end Builder

end FlowGraph
