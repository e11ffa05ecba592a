/-
How blocks and runs succeed.

The fields of an output could say many things: that a block failed and the walk may go on all the
same, or that it did its work and has no value.  `Output.Settled` has two cases only, a success
that is whole and a failure that nothing follows, and no block of any kind gives anything else.
It is proved of a kind by how the kind is put together.  A loop and a transaction look at what
their bodies give, but hand on an output of their own.

So a walk goes from a block only with the value of a success.  A walk that ends with an output
has ended at a block that succeeded and names no successor, which says all of its output but the
value.
-/
import FlowGraph.Proofs.Run.Visits
import FlowGraph.Proofs.Run.Execution
import FlowGraph.Proofs.Run.Changes
import FlowGraph.Cli.Session

namespace FlowGraph

variable {δ χ : Type} [Store.Database δ] [Client χ] {ctx ctx' : Context δ χ} {params : Json}
  {o : Output} {next : Option String}

/-! ### Blocks -/

/-- A failure ends the run. -/
theorem Output.Settled.isFatal (h : o.Settled next) (hfailed : o.successful = false) :
    o.isFatal = true := by
  cases h with
  | success v => exact nomatch hfailed
  | failure text => rfl

/-- **A block succeeds or fails, and there is nothing between.** -/
theorem Block.execute_settled {b : Block} {fuel : Nat}
    (h : b.execute fuel params ctx = some (.ok o, ctx')) : ∃ next, o.Settled next := by
  cases fuel with
  | zero => simp [execute_zero] at h
  | succ fuel =>
      rw [execute_succ_iff] at h
      generalize hr : Except.ok o = r at h
      cases h with
      | @task id next t =>
          obtain rfl := Except.ok.inj hr
          exact ⟨next, ((Task.run_made id params t).settled next).result ctx⟩
      | @branch id c onSuccess onFailure =>
          have hsettled := (Task.runBranch_settled id params c onSuccess onFailure).result ctx
          rcases hsettled o hr.symm with hs | hf
          · exact ⟨onSuccess, hs⟩
          · exact ⟨onFailure, hf⟩
      | countUnset | eachUnset | transactionUnserved =>
          obtain rfl := Except.ok.inj hr
          exact ⟨none, .failure _⟩
      | countDone | eachIdle | eachDone | transactionIdle =>
          obtain rfl := Except.ok.inj hr
          exact ⟨_, .success _⟩
      | countFailed | eachFailed | transactionRefused => exact nomatch hr
      | transactionClosed =>
          obtain rfl := Except.ok.inj hr
          exact ⟨_, ((close_made _ _).settled _).result _⟩

theorem Visit.Ends.settled {v : Visit δ χ} (h : v.Ends (.ok o) ctx) : ∃ next, o.Settled next := by
  obtain ⟨fuel, h⟩ := h
  exact Block.execute_settled h

/-! ### Walks -/

/-- A walk ends with the output of a block that succeeded. -/
theorem Walk.after_settled {id : String} {o' : Output} (h : o.Settled next)
    (hafter : Walk.after id (.ok o) = .finished o') : ∃ v, o' = .success none v := by
  rw [Walk.after, Walk.afterOutput] at hafter
  cases h with
  | failure text => cases hafter
  | success v =>
      cases next with
      | some id' => cases hafter
      | none => exact ⟨v, (Walk.Step.finished.inj hafter).symm⟩

/-- A walk goes on from a block that succeeded, with its value. -/
theorem Walk.onward_settled {id id' : String} {params' : Json} (h : o.Settled next)
    (hafter : Walk.after id (.ok o) = .onward id' params') : o = .success (some id') params' := by
  rw [Walk.after, Walk.afterOutput] at hafter
  cases h with
  | failure text => cases hafter
  | success v =>
      cases next with
      | none => cases hafter
      | some id'' =>
          obtain ⟨rfl, rfl⟩ := Walk.Step.onward.inj hafter
          rfl

/-- A walk that ends with an output ends with a success. -/
theorem BlockMap.walk_settled {blocks : BlockMap} {budget fuel : Nat} {id : String}
    (h : blocks.walk (Block.execute budget) fuel id params ctx = some (.ok o, ctx')) :
    ∃ v, o = .success none v := by
  induction fuel generalizing id params ctx with
  | zero => simp [walk_zero] at h
  | succ fuel ih =>
      rw [walk_succ_iff] at h
      generalize hresult : Except.ok o = result at h
      cases h with
      | missing | aborted => exact nomatch hresult
      | onward _ _ _ h =>
          subst hresult
          exact ih h
      | @finished b r mid o' hb hr hafter =>
          obtain rfl := Except.ok.inj hresult
          cases r with
          | error e => exact nomatch hafter
          | ok o' =>
              obtain ⟨next, hsettled⟩ := Block.execute_settled hr
              exact Walk.after_settled hsettled hafter

theorem Outset.Ends.settled {s : Outset δ χ} (h : s.Ends (.ok o) ctx) :
    ∃ v, o = .success none v := by
  obtain ⟨fuel, h⟩ := h
  exact BlockMap.walk_settled h

/-! ### Runs -/

theorem Program.run_success {p : Program} {fuel : Nat}
    (h : p.run fuel params ctx = some (.ok o, ctx')) : ∃ v, o = .success none v := by
  obtain ⟨last, hwalk, -⟩ := run_iff.mp h
  exact BlockMap.walk_settled hwalk

/-- **A run that has an output has succeeded.**  The output is successful and may go on, it has a
value, no error and no successor, and the last event says that the run succeeded.  For of all blocks
that the run comes to, in bodies at any depth too, one that does not succeed fails in a way that
ends its walk, and a walk goes on with the value of a success only. -/
theorem Program.run_settled (p : Program) (params : Json) (ctx : Context δ χ) :
    (∀ fuel o ctx', p.run fuel params ctx = some (.ok o, ctx') →
      o.successful = true ∧ o.continueIfFail = true ∧ (∃ v, o.output = some v) ∧ o.error = none ∧
        o.next = none ∧ ∃ (journal : Array Journal.Entry) (route : Option Route),
          ctx'.journal = journal.push ⟨.runFinished true, route⟩) ∧
      ∀ outer s v o ctx', Starts (p.outset params ctx) outer s → s.Visits v → v.Ends (.ok o) ctx' →
        (o.successful = false → o.isFatal = true) ∧
          ∀ id params', Walk.after v.block.id (.ok o) = .onward id params' →
            o = .success (some id) params' := by
  constructor
  · intro fuel o ctx' h
    obtain ⟨v, rfl⟩ := run_success h
    obtain ⟨last, -, rfl⟩ := run_iff.mp h
    exact ⟨rfl, rfl, ⟨v, rfl⟩, rfl, rfl, last.journal, last.span, rfl⟩
  · intro outer s v o ctx' _ _ hends
    obtain ⟨next, hsettled⟩ := hends.settled
    exact ⟨hsettled.isFatal, fun id params' => Walk.onward_settled hsettled⟩

/-- A graph with a transaction around one block. -/
def Graph.wrapped : Graph :=
  ((((Graph.empty.addBlock "in" .entrypoint .null).addBlock "tx" .transaction .null).addBlock
    "leaf" .getVar (.obj [("key", .str "n")])).link "in" "tx").addEdge "tx" "leaf" Slot.executor

/-- The program that it compiles to. -/
def Program.wrapped : Program :=
  ⟨[("in", .task "in" (some "tx") .entrypoint),
    ("leaf", .task "leaf" none (.getVar ⟨"n"⟩)),
    ("tx", .nested "tx" none .transaction
      (some ("leaf", [("leaf", .task "leaf" none (.getVar ⟨"n"⟩))])))],
    "in"⟩

/-- A context with a variable and an empty database. -/
def Context.wrapped : Context Store.Memory Offline :=
  { vars := [("n", Json.nat 1)], database := some {}, scripts := ⟨fun _ _ _ => .done (.ok .null)⟩ }

theorem Program.run_settled_wrapped :
    Build.result (Program.compileGraph .wrapped true none) {} = .ok .wrapped ∧
      ∃ o ctx', Program.wrapped.run 5 .null .wrapped = some (.ok o, ctx') ∧ o.successful = true ∧
        o.output = some (Json.nat 1) ∧ o.next = none := by
  have hcompiled : Build.result (Program.compileGraph .wrapped true none) {} = .ok .wrapped := rfl
  obtain ⟨hrun, -⟩ := Program.run_settled .wrapped .null Context.wrapped
  obtain ⟨hsuccess, -, -, -, hnext, -⟩ := hrun 5 _ _ rfl
  exact ⟨hcompiled, _, _, rfl, hsuccess, rfl, hnext⟩

end FlowGraph

namespace FlowGraph.Cli

/-- What is reported of a run as successful is what has an output. -/
theorem report_successful {p : Program} {fuel : Nat} {params : Json}
    {ctx ctx' : Context Store.Memory Offline} {r : Except RunError Output}
    (h : p.run fuel params ctx = some (r, ctx')) (runId : String) :
    (report runId r ctx').get? "successful"
      = some (.bool (match r with | .ok _ => true | .error _ => false)) := by
  cases r with
  | error e =>
      simp [report, Json.object, Json.get?, Entries.ofList, Entries.find?_insert]
  | ok o =>
      obtain ⟨v, rfl⟩ := Program.run_success h
      simp [report, Json.object, Json.get?, Entries.ofList, Entries.find?_insert, Output.success]

end FlowGraph.Cli
