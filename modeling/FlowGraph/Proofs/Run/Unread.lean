/-
Nothing reads the journal.

What a step of a block does it does whatever was written down before, and it writes the same
entries behind them.  `Act.Appends` says that of a step, and every step that is put together from
basic ones is of that kind.  `Bounded.Appends` says it of what may use up its budget: turns and
walks, and so blocks and programs, by induction on the budget.

So to start from a longer journal, or from an empty one, makes no difference but the entries that
were there.
-/
import FlowGraph.Proofs.Run.Changes
import FlowGraph.Proofs.Run.Execution

namespace FlowGraph

variable {δ χ α β : Type}

/-! ### Other journals -/

namespace Context

/-- The state with another journal. -/
def withJournal (ctx : Context δ χ) (journal : Array Journal.Entry) : Context δ χ :=
  { ctx with journal := journal }

theorem note_withJournal (e : Event) (ctx : Context δ χ) (journal : Array Journal.Entry) :
    (ctx.withJournal journal).note e = (ctx.note e).withJournal (journal ++ #[⟨e, ctx.span⟩]) := rfl

/-- Events as they are written down here. -/
def entries (ctx : Context δ χ) (es : List Event) : Array Journal.Entry :=
  (es.map fun e => ⟨e, ctx.span⟩).toArray

/-- Notes are written behind each other. -/
theorem notes_withJournal (es : List Event) (ctx : Context δ χ) (journal : Array Journal.Entry) :
    es.foldl (fun c e => c.note e) (ctx.withJournal journal)
      = (es.foldl (fun c e => c.note e) ctx).withJournal (journal ++ ctx.entries es) := by
  induction es generalizing ctx journal with
  | nil => rw [entries, List.map_nil, Array.append_empty]; rfl
  | cons e rest ih =>
      rw [List.foldl_cons, note_withJournal, ih, List.foldl_cons]
      simp [note, entries]

end Context

/-! ### Steps -/

/-- A step does not read the journal, and writes behind what is there. -/
def Act.Appends (x : Act δ χ α) : Prop :=
  ∀ ctx : Context δ χ, ∃ entries : Array Journal.Entry, ∀ journal,
    x (ctx.withJournal journal) = ((x ctx).1, (x ctx).2.withJournal (journal ++ entries))

namespace Act

theorem Appends.run {x : Act δ χ α} (h : Appends x) {ctx mid : Context δ χ} {a : α}
    (hx : x ctx = (a, mid)) : ∃ entries : Array Journal.Entry, ∀ journal,
      x (ctx.withJournal journal) = (a, mid.withJournal (journal ++ entries)) := by
  obtain ⟨entries, hentries⟩ := h ctx
  rw [hx] at hentries
  exact ⟨entries, hentries⟩

/-- A step that does not write either. -/
theorem Appends.quiet {x : Act δ χ α}
    (h : ∀ (ctx : Context δ χ) journal,
      x (ctx.withJournal journal) = ((x ctx).1, (x ctx).2.withJournal journal)) : Appends x :=
  fun ctx => ⟨#[], fun journal => by rw [h, Array.append_empty]⟩

theorem Appends.pure (a : α) : Appends (Pure.pure a : Act δ χ α) := .quiet fun _ _ => rfl

theorem Appends.bind {x : Act δ χ α} {f : α → Act δ χ β} (hx : Appends x)
    (hf : ∀ ctx, Appends (f (x ctx).1)) : Appends (x >>= f) := by
  intro ctx
  obtain ⟨first, hfirst⟩ := hx ctx
  obtain ⟨second, hsecond⟩ := hf ctx (x ctx).2
  refine ⟨first ++ second, fun journal => ?_⟩
  rw [bind_apply, bind_apply, hfirst, hsecond, Array.append_assoc]

theorem note_appends (e : Event) : Appends (note e : Act δ χ Unit) :=
  fun ctx => ⟨#[⟨e, ctx.span⟩], fun _ => rfl⟩

variable [Store.Database δ]

theorem query_appends (db : δ) (q : Store.Query) :
    Appends (fun ctx => ctx.query db q : Act δ χ (Except Store.Fault Json)) := by
  intro ctx
  simp only [Context.query]
  rcases Store.Database.answer q db with ⟨f | v, after⟩
  · refine ⟨#[], fun journal => ?_⟩
    rw [Array.append_empty]
    rfl
  · have hnotes := Context.notes_withJournal (Context.queryEvents q)
      { ctx with database := some after }
    exact ⟨_, fun journal => congrArg (Prod.mk (Except.ok v)) (hnotes journal)⟩

theorem host_appends (q : Script.Request) : Appends (Context.host q : Act δ χ Script.Reply) := by
  intro ctx
  cases q with
  | print text => exact ⟨#[⟨.scriptPrinted text, ctx.span⟩], fun _ => rfl⟩
  | debug text => exact ⟨#[⟨.scriptDebugged text, ctx.span⟩], fun _ => rfl⟩
  | call name argument =>
      have hdatabase : ∀ journal, (ctx.withJournal journal).database = ctx.database := fun _ => rfl
      simp only [Context.host, hdatabase]
      split
      · rename_i statement db hdb
        have hasked : Appends (δ := δ) (χ := χ) (do
            note (.codeQueried statement)
            fun ctx => ctx.query db (.raw statement)) :=
          (note_appends _).bind fun _ => query_appends db (.raw statement)
        cases hquery : (ctx.note (.codeQueried statement)).query db (.raw statement) with
        | mk r mid =>
            obtain ⟨entries, hentries⟩ := hasked.run hquery
            refine ⟨entries, fun journal => ?_⟩
            have hanswer := hentries journal
            rw [bind_apply, note_apply] at hanswer
            rw [hanswer]
            cases r <;> rfl
      · exact ⟨#[], fun journal => by rw [Array.append_empty]⟩
      · exact ⟨#[], fun journal => by rw [Array.append_empty]⟩

/-- A script reads no journal, since its host does not. -/
theorem session_appends (x : Script.Session α) : Appends (x.run Context.host : Act δ χ α) := by
  induction x with
  | done a => exact .quiet fun _ _ => rfl
  | ask q next ih =>
      exact Appends.bind (f := fun r => (next r).run Context.host) (host_appends q) fun ctx => ih _

theorem evaluate_appends (granted : List String) (params : Json) (code : String) :
    Appends (Context.evaluate granted params code : Act δ χ _) :=
  fun ctx => session_appends (ctx.scripts.run granted (ctx.scope params) code) ctx

theorem scriptApart_appends (granted : List String) (params : Json) (code : String) :
    Appends (scriptApart granted params code : Act δ χ _) := by
  intro ctx
  obtain ⟨entries, h⟩ := evaluate_appends granted params code { ctx with span := none }
  let rejoin (out : Except Script.Failure Json × Context δ χ) :
      Except Script.Failure Json × Context δ χ := (out.1, { out.2 with span := ctx.span })
  exact ⟨entries, fun journal => congrArg rejoin (h journal)⟩

variable [Client χ] {changes : Change → Prop} {asks : Store.Query → Prop}

theorem Basic.appends {x : Act δ χ α} (h : Basic changes asks α x) : Appends x := by
  cases h with
  | note e => exact note_appends e
  | script params code => exact evaluate_appends [] params code
  | scriptApart granted params code => exact scriptApart_appends granted params code
  | ask db q => exact query_appends db q
  | call client request => exact .quiet fun _ _ => rfl
  | change c => exact .quiet fun _ _ => by cases c <;> rfl

/-- **No step reads the journal, whatever it is put together from.** -/
theorem Composed.appends {gives : α → Prop} {x : Act δ χ α}
    (h : Composed (Basic changes asks) gives x) : Appends x := by
  induction h with
  | pure => exact .pure _
  | step hx => exact hx.appends
  | @look _ _ f hblind _ ih =>
      intro ctx
      obtain ⟨entries, hentries⟩ := ih ctx ctx
      refine ⟨entries, fun journal => ?_⟩
      have hsame : f (ctx.withJournal journal) = f ctx := hblind ctx journal
      rw [bind_apply, bind_apply, get_apply, get_apply, hsame]
      exact hentries journal
  | bind hx _ ih ihf => exact ih.bind fun ctx => ihf _ (hx.result ctx)

/-- A step that only evaluates scripts changes nothing and asks nothing itself. -/
theorem Evaluates.basic {ε : Type} {params : Json} {x : ExceptT ε (Act δ χ) α}
    (h : Evaluates params x) :
    Tried (Basic (fun _ => False) fun _ => False) (fun _ => True) (fun _ => True) x :=
  h.mono Task.basic_of_scripts fun _ he => he

theorem Evaluates.appends {ε : Type} {params : Json} {x : ExceptT ε (Act δ χ) α}
    (h : Evaluates params x) : Appends x.run := Composed.appends (Evaluates.basic h)

end Act

/-! ### Turns and walks -/

/-- The same of a step that may use up its budget, where it does not. -/
def Bounded.Appends (x : Bounded δ χ α) : Prop :=
  ∀ ctx a last, x ctx = some (a, last) → ∃ entries : Array Journal.Entry, ∀ journal,
    x (ctx.withJournal journal) = some (a, last.withJournal (journal ++ entries))

theorem Act.Appends.bounded {x : Act δ χ α} (h : Act.Appends x) :
    Bounded.Appends fun ctx => some (x ctx) := by
  intro ctx a last hx
  obtain ⟨entries, hentries⟩ := h.run (Option.some.inj hx)
  exact ⟨entries, fun journal => congrArg some (hentries journal)⟩

section Turns

variable {run : BodyRun δ χ} (hrun : ∀ v, (run v).Appends)
include hrun

theorem eachLoop_appends (values : List Json) : Bounded.Appends (eachLoop run values) := by
  induction values with
  | nil => exact (Act.Appends.pure _).bounded
  | cons v rest ih =>
      intro ctx r last h
      rw [eachLoop_cons_iff] at h
      cases h with
      | failed hr =>
          obtain ⟨entries, hentries⟩ := hrun v _ _ _ hr
          exact ⟨entries, fun journal => eachLoop_cons_iff.mpr (.failed (hentries journal))⟩
      | passed hr h =>
          obtain ⟨first, hfirst⟩ := hrun v _ _ _ hr
          obtain ⟨later, hlater⟩ := ih _ _ _ h
          refine ⟨first ++ later, fun journal =>
            eachLoop_cons_iff.mpr (.passed (hfirst journal) ?_)⟩
          rw [hlater, Array.append_assoc]

end Turns

theorem countLoop_appends {body : Option (BodyRun δ χ)}
    (hbody : ∀ run ∈ body, ∀ v, (run v).Appends) (b : Bounds) (fuel : Nat) (index : Float)
    (turns : Nat) : Bounded.Appends (countLoop b body fuel index turns) := by
  induction fuel generalizing index turns with
  | zero => intro ctx r last h; simp [countLoop] at h
  | succ fuel ih =>
      intro ctx r last h
      rw [countLoop_succ_iff] at h
      cases h with
      | past hover =>
          refine ⟨#[], fun journal => countLoop_succ_iff.mpr ?_⟩
          rw [Array.append_empty]
          exact .past hover
      | idle hover hnone h =>
          obtain ⟨entries, hentries⟩ := ih _ _ _ _ _ h
          exact ⟨entries, fun journal =>
            countLoop_succ_iff.mpr (.idle hover hnone (hentries journal))⟩
      | failed hover hsome hr =>
          obtain ⟨entries, hentries⟩ := hbody _ hsome _ _ _ _ hr
          exact ⟨entries, fun journal =>
            countLoop_succ_iff.mpr (.failed hover hsome (hentries journal))⟩
      | passed hover hsome hr h =>
          obtain ⟨first, hfirst⟩ := hbody _ hsome _ _ _ _ hr
          obtain ⟨later, hlater⟩ := ih _ _ _ _ _ h
          refine ⟨first ++ later, fun journal =>
            countLoop_succ_iff.mpr (.passed hover hsome (hfirst journal) ?_)⟩
          rw [hlater, Array.append_assoc]

section Walks

variable {run : Block → Json → Bounded δ χ (Except BlockError Output)}

/-- What is written down after a block. -/
theorem record_withJournal (id : String) (kind : Kind) (r : Except BlockError Output)
    (ctx : Context δ χ) (journal : Array Journal.Entry) :
    Walk.record id kind r (ctx.withJournal journal)
      = (Walk.record id kind r ctx).withJournal (journal ++ ctx.entries (Walk.events id kind r)) :=
  Context.notes_withJournal _ _ _

theorem BlockMap.walk_appends (hrun : ∀ b params, (run b params).Appends) (blocks : BlockMap)
    (fuel : Nat) (id : String) (params : Json) : (walk run blocks fuel id params).Appends := by
  induction fuel generalizing id params with
  | zero => intro ctx r last h; simp [walk_zero] at h
  | succ fuel ih =>
      intro ctx r last h
      rw [walk_succ_iff] at h
      cases h with
      | missing hb =>
          refine ⟨#[], fun journal => walk_succ_iff.mpr ?_⟩
          rw [Array.append_empty]
          exact .missing hb
      | @finished b r mid o hb hr hafter =>
          obtain ⟨entries, hentries⟩ := hrun _ _ _ _ _ hr
          refine ⟨entries ++ mid.entries (Walk.events b.id b.kind r), fun journal =>
            walk_succ_iff.mpr ?_⟩
          rw [← Array.append_assoc, ← record_withJournal]
          exact .finished hb (hentries journal) hafter
      | @aborted b r mid e hb hr hafter =>
          obtain ⟨entries, hentries⟩ := hrun _ _ _ _ _ hr
          refine ⟨entries ++ mid.entries (Walk.events b.id b.kind r), fun journal =>
            walk_succ_iff.mpr ?_⟩
          rw [← Array.append_assoc, ← record_withJournal]
          exact .aborted hb (hentries journal) hafter
      | @onward b r mid ctx' next params' result hb hr hafter h =>
          obtain ⟨entries, hentries⟩ := hrun _ _ _ _ _ hr
          obtain ⟨later, hlater⟩ := ih _ _ _ _ _ h
          refine ⟨entries ++ mid.entries (Walk.events b.id b.kind r) ++ later, fun journal =>
            walk_succ_iff.mpr (.onward hb (hentries journal) hafter ?_)⟩
          rw [record_withJournal, hlater, ← Array.append_assoc, ← Array.append_assoc]

end Walks

/-! ### Blocks -/

variable [Store.Database δ] [Client χ] {fuel : Nat}

/-- A block that ends does so from another journal, too, and writes the same entries. -/
def Block.Unread (fuel : Nat) (b : Block) (params : Json) (ctx : Context δ χ)
    (r : Except BlockError Output) (last : Context δ χ) : Prop :=
  ∃ entries : Array Journal.Entry, ∀ journal,
    b.Executes fuel params (ctx.withJournal journal) r (last.withJournal (journal ++ entries))

section Frames

variable {id : String} {next : Option String} {body : Option (String × BlockMap)} {params : Json}
  {ctx last : Context δ χ} {r : Except BlockError Output}
  (hbody : ∀ (blocks : BlockMap) entry v,
    Bounded.Appends (δ := δ) (χ := χ) (blocks.run fuel entry v))
include hbody

theorem unread_count {c : CountConfig}
    (h : Block.Executes fuel (.nested id next (.count c) body) params ctx r last) :
    Block.Unread fuel (.nested id next (.count c) body) params ctx r last := by
  have hbounds : Act.Appends (δ := δ) (χ := χ) (resolveBounds c params).run :=
    (Task.resolveBounds_evaluates params c).appends
  have hloop : ∀ b, Bounded.Appends
      (countLoop b (bodyRun (δ := δ) (χ := χ) fuel body) fuel b.start 0) := by
    intro b
    refine countLoop_appends (fun run hrun => ?_) b fuel b.start 0
    obtain ⟨inner, -, rfl⟩ := Option.map_eq_some_iff.mp hrun
    exact hbody inner.2 inner.1
  cases h with
  | countUnset h =>
      obtain ⟨entries, hentries⟩ := hbounds.run h
      exact ⟨entries, fun journal => .countUnset (hentries journal)⟩
  | @countDone _ _ _ _ _ _ mid last bounds turns h hl =>
      obtain ⟨first, hfirst⟩ := hbounds.run h
      obtain ⟨later, hlater⟩ := hloop _ _ _ _ hl
      refine ⟨first ++ later ++ last.entries [.countCompleted id turns], fun journal => ?_⟩
      rw [← Array.append_assoc, ← Array.append_assoc]
      exact .countDone (hfirst journal) (hlater _)
  | countFailed h hl =>
      obtain ⟨first, hfirst⟩ := hbounds.run h
      obtain ⟨later, hlater⟩ := hloop _ _ _ _ hl
      refine ⟨first ++ later, fun journal => ?_⟩
      rw [← Array.append_assoc]
      exact .countFailed (hfirst journal) (hlater _)

theorem unread_each {c : EachConfig}
    (h : Block.Executes fuel (.nested id next (.each c) body) params ctx r last) :
    Block.Unread fuel (.nested id next (.each c) body) params ctx r last := by
  have hitems : Act.Appends (δ := δ) (χ := χ) (resolveItems c params).run :=
    (Task.resolveItems_evaluates params c).appends
  cases h with
  | eachUnset h =>
      obtain ⟨entries, hentries⟩ := hitems.run h
      exact ⟨entries, fun journal => .eachUnset (hentries journal)⟩
  | @eachIdle _ _ _ _ _ mid items h =>
      obtain ⟨entries, hentries⟩ := hitems.run h
      refine ⟨entries ++ mid.entries [.eachCompleted id items.length], fun journal => ?_⟩
      rw [← Array.append_assoc]
      exact .eachIdle (hentries journal)
  | @eachDone _ entry _ _ inner _ _ mid last items h hl =>
      obtain ⟨first, hfirst⟩ := hitems.run h
      obtain ⟨later, hlater⟩ := eachLoop_appends (hbody inner entry) items _ _ _ hl
      refine ⟨first ++ later ++ last.entries [.eachCompleted id items.length], fun journal => ?_⟩
      rw [← Array.append_assoc, ← Array.append_assoc]
      exact .eachDone (hfirst journal) (hlater _)
  | @eachFailed _ entry _ _ inner _ _ mid last items e h hl =>
      obtain ⟨first, hfirst⟩ := hitems.run h
      obtain ⟨later, hlater⟩ := eachLoop_appends (hbody inner entry) items _ _ _ hl
      refine ⟨first ++ later, fun journal => ?_⟩
      rw [← Array.append_assoc]
      exact .eachFailed (hfirst journal) (hlater _)

theorem unread_transaction
    (h : Block.Executes fuel (.nested id next .transaction body) params ctx r last) :
    Block.Unread fuel (.nested id next .transaction body) params ctx r last := by
  cases h with
  | transactionUnserved hdb =>
      refine ⟨#[], fun journal => ?_⟩
      rw [Array.append_empty]
      exact .transactionUnserved hdb
  | transactionIdle hdb =>
      refine ⟨#[], fun journal => ?_⟩
      rw [Array.append_empty]
      exact .transactionIdle hdb
  | @transactionRefused _ _ _ _ _ _ db f hdb h =>
      obtain ⟨entries, hentries⟩ := (Act.query_appends db _).run h
      exact ⟨entries, fun journal => .transactionRefused hdb (hentries journal)⟩
  | @transactionClosed _ entry _ inner _ answer _ mid left db r hdb h hrun =>
      obtain ⟨opened, hopened⟩ := (Act.query_appends db _).run h
      obtain ⟨done, hdone⟩ := hbody inner entry params _ _ _ hrun
      obtain ⟨closed, hclosed⟩ := ((close_made id r).composed next).appends left
      obtain ⟨left', hleft⟩ := (leaveTransaction_composed id).appends (close id next r left).2
      refine ⟨opened ++ done ++ closed ++ left', fun journal => ?_⟩
      have hend : Block.Executes fuel (.nested id next .transaction (some (entry, inner))) params
          (ctx.withJournal journal) _ _ := .transactionClosed hdb (hopened journal) (hdone _)
      rw [hclosed, hleft] at hend
      simpa only [Array.append_assoc] using hend

end Frames

/-- **Nothing reads the journal**: what a block does it does whatever was written down before. -/
theorem Block.execute_appends (fuel : Nat) (b : Block) (params : Json) :
    Bounded.Appends (δ := δ) (χ := χ) (b.execute fuel params) := by
  induction fuel generalizing b params with
  | zero => intro ctx r last h; simp [execute_zero] at h
  | succ fuel ih =>
      have hbody : ∀ (blocks : BlockMap) entry v,
          Bounded.Appends (δ := δ) (χ := χ) (blocks.run fuel entry v) :=
        fun blocks entry v => BlockMap.walk_appends ih blocks fuel entry v
      intro ctx r last h
      rw [execute_succ_iff] at h
      suffices hunread : Unread fuel b params ctx r last by
        obtain ⟨entries, hentries⟩ := hunread
        exact ⟨entries, fun journal => execute_succ_iff.mpr (hentries journal)⟩
      cases b with
      | task id next t =>
          cases h with
          | task =>
              obtain ⟨entries, hentries⟩ := ((Task.run_made id params t).composed next).appends ctx
              refine ⟨entries, fun journal => ?_⟩
              have hend : Executes fuel (.task id next t) params (ctx.withJournal journal) _ _ :=
                .task
              rwa [hentries] at hend
      | branch id c onSuccess onFailure =>
          cases h with
          | branch =>
              obtain ⟨entries, hentries⟩ :=
                (Task.runBranch_made id params c onSuccess onFailure).appends ctx
              refine ⟨entries, fun journal => ?_⟩
              have hend : Executes fuel (.branch id c onSuccess onFailure) params
                  (ctx.withJournal journal) _ _ := .branch
              rwa [hentries] at hend
      | nested id next frame body =>
          cases frame with
          | count c => exact unread_count hbody h
          | each c => exact unread_each hbody h
          | transaction => exact unread_transaction hbody h

theorem BlockMap.run_appends (blocks : BlockMap) (fuel : Nat) (start : String) (params : Json) :
    Bounded.Appends (δ := δ) (χ := χ) (blocks.run fuel start params) :=
  walk_appends (Block.execute_appends fuel) blocks fuel start params

end FlowGraph
