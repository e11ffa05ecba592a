/-
Blocks that do the same.

No block reads the journal.  So in two states that differ in their journals only a step does
the same, as long as there is no interceptor that would see the difference.  `Act.Blind` says
that of a step, and every step that is put together from basic ones is blind.

Neither does a block look at its successors: it names one of them, or none.  Hence two blocks
with the same id and the same settings end in the same way, up to the successors that they
name, if their bodies do.  `Block.Twins` are such blocks.  What successors and what bodies are
to have in common is left open.
-/
import FlowGraph.Proofs.Run.Keeps
import FlowGraph.Proofs.Run.Unread
import FlowGraph.Proofs.Run.Raising

namespace FlowGraph

variable {δ χ α : Type}

/-! ### States -/

/-- Two states differ in their journals only, and there is no interceptor. -/
structure Context.Twins (a b : Context δ χ) : Prop where
  unwatched : a.intercepted = none
  same : ∃ journal, b = { a with journal := journal }

namespace Context.Twins

variable {a b : Context δ χ}

theorem database (h : a.Twins b) : b.database = a.database := by
  obtain ⟨-, journal, rfl⟩ := h
  rfl

theorem symm (h : a.Twins b) : b.Twins a := by
  obtain ⟨hnone, journal, rfl⟩ := h
  exact ⟨hnone, a.journal, rfl⟩

theorem note (h : a.Twins b) (e e' : Event) : (a.note e).Twins (b.note e') := by
  obtain ⟨hnone, journal, rfl⟩ := h
  exact ⟨hnone, _, rfl⟩

theorem note_right (h : a.Twins b) (e : Event) : a.Twins (b.note e) := by
  obtain ⟨hnone, journal, rfl⟩ := h
  exact ⟨hnone, _, rfl⟩

theorem notes_right (h : a.Twins b) (es : List Event) :
    a.Twins (es.foldl (fun c e => c.note e) b) := by
  induction es generalizing b with
  | nil => exact h
  | cons e rest ih => exact ih (h.note_right e)

/-- What is written down after blocks makes no difference. -/
theorem record (h : a.Twins b) (id id' : String) (kind kind' : Kind)
    (r r' : Except BlockError Output) :
    (Walk.record id kind r a).Twins (Walk.record id' kind' r' b) :=
  (h.notes_right (Walk.events id' kind' r')).symm.notes_right (Walk.events id kind r) |>.symm

end Context.Twins

/-! ### Steps -/

namespace Act

/-- A step does the same whatever the journal holds. -/
def Blind (x : Act δ χ α) : Prop :=
  ∀ a b : Context δ χ, a.Twins b → (x b).1 = (x a).1 ∧ (x a).2.Twins (x b).2

theorem Blind.run {x : Act δ χ α} (h : Blind x) {a b mid : Context δ χ} {r : α} (hab : a.Twins b)
    (hx : x a = (r, mid)) : ∃ mid', x b = (r, mid') ∧ mid.Twins mid' := by
  obtain ⟨hsame, hafter⟩ := h a b hab
  rw [hx] at hsame hafter
  exact ⟨(x b).2, Prod.ext hsame rfl, hafter⟩

variable [Store.Database δ] [Client χ] {changes : Change → Prop} {asks : Store.Query → Prop}

/-- No step brings an interceptor. -/
theorem Basic.unwatched {x : Act δ χ α} (h : Basic changes asks α x) :
    Preserves (fun ctx => ctx.intercepted = none) (fun _ => True) x := by
  intro ctx hnone
  refine ⟨?_, trivial⟩
  cases h with
  | note | call => exact hnone
  | script params code =>
      obtain ⟨database, journal, h⟩ := ctx.evaluate_leaves [] params code
      exact (congrArg Context.intercepted h).trans hnone
  | scriptApart granted params code =>
      obtain ⟨database, journal, h⟩ := ctx.evaluateApart_leaves granted params code
      exact (congrArg Context.intercepted h).trans hnone
  | ask db q =>
      obtain ⟨journal, h⟩ := ctx.query_leaves db q
      exact (congrArg Context.intercepted h).trans hnone
  | change c =>
      cases c with
      | shown i => exact congrArg (Option.map _) hnone
      | _ => exact hnone

/-- No step reads the journal, and none brings an interceptor. -/
theorem Composed.blind {gives : α → Prop} {x : Act δ χ α}
    (h : Composed (Basic changes asks) gives x) : Blind x := by
  rintro a _ ⟨hnone, journal, rfl⟩
  obtain ⟨entries, hentries⟩ := h.appends a
  have hunwatched := (h.preserves (fun _ _ hx => hx.unwatched) a hnone).1
  have hagain : x { a with journal := journal }
      = ((x a).1, (x a).2.withJournal (journal ++ entries)) := hentries journal
  rw [hagain]
  exact ⟨rfl, hunwatched, _, rfl⟩

theorem query_blind (db : δ) (q : Store.Query) :
    Blind (fun ctx => ctx.query db q : Act δ χ (Except Store.Fault Json)) := by
  have hstep : Composed (Basic (δ := δ) (χ := χ) (fun _ => False) fun _ => True) (fun _ => True)
      fun ctx => ctx.query db q := .step (.ask db q trivial) fun _ => trivial
  exact hstep.blind

theorem Evaluates.blind {ε : Type} {params : Json} {x : ExceptT ε (Act δ χ) α}
    (h : Evaluates params x) : Blind x.run := Composed.blind (Evaluates.basic h)

end Act

/-! ### Results -/

variable {P : String → String → Prop}

/-- Two outputs differ in the successors that they name only, and these correspond. -/
structure Output.Twins (P : String → String → Prop) (o o' : Output) : Prop where
  next : Option.Rel P o.next o'.next
  same : o' = { o with next := o'.next }

/-- Two blocks end with the same error, or with such outputs. -/
inductive Block.EndsTwin (P : String → String → Prop) :
    Except BlockError Output → Except BlockError Output → Prop
  | error (e : BlockError) : EndsTwin P (.error e) (.error e)
  | ok {o o' : Output} (h : o.Twins P o') : EndsTwin P (.ok o) (.ok o')

theorem Output.success_twins {next next' : Option String} (h : Option.Rel P next next') (v : Json) :
    (success next v).Twins P (success next' v) := ⟨h, rfl⟩

theorem Output.failure_twins (text : String) : (failure text).Twins P (failure text) := ⟨.none, rfl⟩

/-- Two walks end alike after twin outputs, or both go on. -/
inductive Walk.StepsTwin (P : String → String → Prop) : Step → Step → Prop
  | onward {next next' : String} (params : Json) (h : P next next') :
      StepsTwin P (.onward next params) (.onward next' params)
  | finished (o : Output) : StepsTwin P (.finished o) (.finished o)
  | aborted (e : RunError) : StepsTwin P (.aborted e) (.aborted e)

theorem Block.EndsTwin.after {r r' : Except BlockError Output} (h : EndsTwin P r r') (id : String) :
    Walk.StepsTwin P (Walk.after id r) (Walk.after id r') := by
  cases h with
  | error e => exact .aborted _
  | @ok o o' h =>
      obtain ⟨hnext, hsame⟩ := h
      generalize o'.next = next' at hnext hsame
      subst hsame
      obtain ⟨successful, continueIfFail, next, output, error⟩ := o
      by_cases hfatal : (!successful && !continueIfFail) = true
      · simp only [Walk.after, Walk.afterOutput, Output.isFatal, hfatal, if_true]
        exact .aborted _
      · simp only [Walk.after, Walk.afterOutput, Output.isFatal, hfatal]
        cases hnext with
        | none => exact .finished _
        | some h => exact .onward _ h

/-! ### Tasks -/

section Kinds

variable [Store.Database δ] [Client χ] {changes : Change → Prop} {asks : Store.Query → Prop}
  {next next' : Option String} {a b : Context δ χ}

/-- **What a task does with one successor, it does with another one.** -/
theorem Task.Made.twins {x : Option String → Act δ χ Output} (h : Made changes asks x)
    (hnext : Option.Rel P next next') (hab : a.Twins b) :
    (x next a).1.Twins P (x next' b).1 ∧ (x next a).2.Twins (x next' b).2 := by
  induction h generalizing a b with
  | success v => exact ⟨Output.success_twins hnext v, hab⟩
  | failure text => exact ⟨Output.failure_twins text, hab⟩
  | @look f hblind _ ih =>
      have hsame : f next' b = f next' a := by
        obtain ⟨-, journal, rfl⟩ := hab
        exact hblind next' a journal
      simp only [Act.bind_apply, Act.get_apply, hsame]
      exact ih a hab
  | bind hx _ ih =>
      obtain ⟨hgives, hafter⟩ := hx.blind a b hab
      simp only [Act.bind_apply, hgives]
      exact ih _ (hx.result a) hafter

theorem Task.runBranch_twins (c : BranchConfig) (id : String) (params : Json)
    {onSuccess onSuccess' onFailure onFailure' : Option String}
    (hs : Option.Rel P onSuccess onSuccess') (hf : Option.Rel P onFailure onFailure')
    (hab : a.Twins b) :
    Block.EndsTwin P (runBranch c id onSuccess onFailure params a).1
        (runBranch c id onSuccess' onFailure' params b).1 ∧
      (runBranch c id onSuccess onFailure params a).2.Twins
        (runBranch c id onSuccess' onFailure' params b).2 := by
  obtain ⟨hsame, hafter⟩ := Act.Evaluates.blind (conditions_evaluate params c.conditions) a b hab
  simp only [runBranch, Act.bind_apply, hsame]
  generalize (Condition.evaluateAll (Act.script params) c.conditions).run a = out at hsame hafter ⊢
  obtain ⟨r, mid⟩ := out
  cases r with
  | error f => exact ⟨.error _, hafter⟩
  | ok passed =>
      cases passed with
      | true => exact ⟨.ok (Output.success_twins hs _), hafter.note _ _⟩
      | false => exact ⟨.ok (Output.success_twins hf _), hafter.note _ _⟩

end Kinds

/-! ### Blocks -/

/-- Two blocks differ in their successors and bodies only, and these correspond. -/
inductive Block.Twins (P : String → String → Prop)
    (B : String × BlockMap → String × BlockMap → Prop) : Block → Block → Prop
  | task {id : String} {next next' : Option String} {t : Task} (hnext : Option.Rel P next next') :
      Twins P B (.task id next t) (.task id next' t)
  | branch {id : String} {c : BranchConfig}
      {onSuccess onSuccess' onFailure onFailure' : Option String}
      (hs : Option.Rel P onSuccess onSuccess') (hf : Option.Rel P onFailure onFailure') :
      Twins P B (.branch id c onSuccess onFailure) (.branch id c onSuccess' onFailure')
  | nested {id : String} {next next' : Option String} {frame : Frame}
      {body body' : Option (String × BlockMap)} (hnext : Option.Rel P next next')
      (hbody : Option.Rel B body body') :
      Twins P B (.nested id next frame body) (.nested id next' frame body')

theorem Block.Twins.id {B : String × BlockMap → String × BlockMap → Prop} {b b' : Block}
    (h : b.Twins P B b') : b'.id = b.id := by
  cases h <;> rfl

variable [Store.Database δ] [Client χ] {a a' last : Context δ χ}

/-- What one body ends with within a budget, another one ends with, and in a twin state. -/
def BlockMap.Followed (δ χ : Type) [Store.Database δ] [Client χ] (fuel : Nat)
    (p p' : String × BlockMap) : Prop :=
  ∀ (params : Json) (a a' : Context δ χ) r last, a.Twins a' →
    p.2.run fuel p.1 params a = some (r, last) →
    ∃ last', Outset.Ends ⟨p'.2, p'.1, params, a'⟩ r last' ∧ last.Twins last'

theorem LoopEnds.follows {fuel : Nat} {p p' : String × BlockMap}
    (hp : BlockMap.Followed δ χ fuel p p') {r : Except RunError Unit} :
    ∀ (values : List Json) {a a' : Context δ χ}, a.Twins a' →
      eachLoop (p.2.run fuel p.1) values a = some (r, last) →
      ∃ last', LoopEnds p'.1 p'.2 values a' r last' ∧ last.Twins last' := by
  intro values
  induction values with
  | nil =>
      intro a a' ha h
      obtain ⟨rfl, rfl⟩ := Prod.mk.inj (Option.some.inj h)
      exact ⟨a', .nil, ha⟩
  | cons v rest ih =>
      intro a a' ha h
      rw [eachLoop_cons_iff] at h
      cases h with
      | failed hr =>
          obtain ⟨last', hends, hlast⟩ := hp v _ _ _ _ ha hr
          exact ⟨last', .failed hends, hlast⟩
      | passed hr h =>
          obtain ⟨mid', hends, hmid⟩ := hp v _ _ _ _ ha hr
          obtain ⟨last', hrest, hlast⟩ := ih hmid h
          exact ⟨last', .passed hends hrest, hlast⟩

theorem CountLoopEnds.follows {fuel : Nat} {body body' : Option (String × BlockMap)}
    (hbody : Option.Rel (BlockMap.Followed δ χ fuel) body body') (b : Bounds)
    {r : Except RunError Nat} :
    ∀ (n : Nat) (index : Float) (turns : Nat) {a a' : Context δ χ}, a.Twins a' →
      countLoop b (bodyRun fuel body) n index turns a = some (r, last) →
      ∃ last', CountLoopEnds b body' index turns a' r last' ∧ last.Twins last' := by
  intro n
  induction n with
  | zero => intro index turns a a' _ h; simp [countLoop] at h
  | succ n ih =>
      intro index turns a a' ha h
      rw [countLoop_succ_iff] at h
      cases hbody with
      | none =>
          cases h with
          | past hover => exact ⟨a', .past hover, ha⟩
          | idle hover _ h =>
              obtain ⟨last', hrest, hlast⟩ := ih _ _ ha h
              exact ⟨last', .idle hover hrest, hlast⟩
          | failed _ hsome | passed _ hsome => cases hsome
      | some hp =>
          cases h with
          | past hover => exact ⟨a', .past hover, ha⟩
          | idle _ hnone => cases hnone
          | failed hover hsome hr =>
              obtain rfl := Option.some.inj hsome
              obtain ⟨last', hends, hlast⟩ := hp _ _ _ _ _ ha hr
              exact ⟨last', .failed hover hends, hlast⟩
          | passed hover hsome hr h =>
              obtain rfl := Option.some.inj hsome
              obtain ⟨mid', hends, hmid⟩ := hp _ _ _ _ _ ha hr
              obtain ⟨last', hrest, hlast⟩ := ih _ _ hmid h
              exact ⟨last', .passed hover hends hrest, hlast⟩

/-- A block ends with a result and a state, up to successors and journals. -/
def Visit.EndsLike (P : String → String → Prop) (v : Visit δ χ) (r : Except BlockError Output)
    (last : Context δ χ) : Prop :=
  ∃ r' last', v.Ends r' last' ∧ Block.EndsTwin P r r' ∧ last.Twins last'

section Nested

variable {id : String} {next next' : Option String} {body body' : Option (String × BlockMap)}
  {fuel : Nat} {params : Json} {r r' : Except BlockError Output} {last' : Context δ χ} {b : Block}

theorem Visit.EndsLike.of_executes (fuel : Nat) (h : b.Executes fuel params a' r' last')
    (hr : Block.EndsTwin P r r') (hlast : last.Twins last') :
    Visit.EndsLike P ⟨b, params, a'⟩ r last :=
  ⟨r', last', ⟨fuel + 1, Block.execute_succ_iff.mpr h⟩, hr, hlast⟩

/-- The ways in which a block around a body ends without an error of the body. -/
theorem Block.EndsTwin.success (hnext : Option.Rel P next next') (v : Json) :
    EndsTwin P (.ok (.success next v)) (.ok (.success next' v)) :=
  .ok (Output.success_twins hnext v)

theorem Block.EndsTwin.failure (text : String) :
    EndsTwin P (.ok (.failure text)) (.ok (.failure text)) :=
  .ok (Output.failure_twins text)

variable (hnext : Option.Rel P next next')
  (hbody : Option.Rel (BlockMap.Followed δ χ fuel) body body') (ha : a.Twins a')
include hnext hbody ha

theorem endsLike_count {c : CountConfig}
    (h : Block.Executes fuel (.nested id next (.count c) body) params a r last) :
    Visit.EndsLike P ⟨.nested id next' (.count c) body', params, a'⟩ r last := by
  have hblind : Act.Blind (δ := δ) (χ := χ) (resolveBounds c params).run :=
    (Task.resolveBounds_evaluates params c).blind
  cases h with
  | countUnset hbounds =>
      obtain ⟨mid', hbounds', hmid⟩ := hblind.run ha hbounds
      exact .of_executes 0 (.countUnset hbounds') (.failure _) hmid
  | countDone hbounds hloop =>
      obtain ⟨mid', hbounds', hmid⟩ := hblind.run ha hbounds
      obtain ⟨last', ⟨fuel', hloop'⟩, hlast⟩ := CountLoopEnds.follows hbody _ _ _ _ hmid hloop
      exact .of_executes _ (.countDone hbounds' hloop') (.success hnext params) (hlast.note _ _)
  | countFailed hbounds hloop =>
      obtain ⟨mid', hbounds', hmid⟩ := hblind.run ha hbounds
      obtain ⟨last', ⟨fuel', hloop'⟩, hlast⟩ := CountLoopEnds.follows hbody _ _ _ _ hmid hloop
      exact .of_executes _ (.countFailed hbounds' hloop') (.error _) hlast

theorem endsLike_each {c : EachConfig}
    (h : Block.Executes fuel (.nested id next (.each c) body) params a r last) :
    Visit.EndsLike P ⟨.nested id next' (.each c) body', params, a'⟩ r last := by
  have hblind : Act.Blind (δ := δ) (χ := χ) (resolveItems c params).run :=
    (Task.resolveItems_evaluates params c).blind
  cases h with
  | eachUnset hitems =>
      obtain ⟨mid', hitems', hmid⟩ := hblind.run ha hitems
      exact .of_executes 0 (.eachUnset hitems') (.failure _) hmid
  | eachIdle hitems =>
      cases hbody with
      | none =>
          obtain ⟨mid', hitems', hmid⟩ := hblind.run ha hitems
          exact .of_executes 0 (.eachIdle hitems') (.success hnext params) (hmid.note _ _)
  | eachDone hitems hloop =>
      cases hbody with
      | some hp =>
          obtain ⟨mid', hitems', hmid⟩ := hblind.run ha hitems
          obtain ⟨last', ⟨fuel', hloop'⟩, hlast⟩ := LoopEnds.follows hp _ hmid hloop
          exact .of_executes _ (.eachDone hitems' hloop') (.success hnext params) (hlast.note _ _)
  | eachFailed hitems hloop =>
      cases hbody with
      | some hp =>
          obtain ⟨mid', hitems', hmid⟩ := hblind.run ha hitems
          obtain ⟨last', ⟨fuel', hloop'⟩, hlast⟩ := LoopEnds.follows hp _ hmid hloop
          exact .of_executes _ (.eachFailed hitems' hloop') (.error _) hlast

theorem endsLike_transaction
    (h : Block.Executes fuel (.nested id next .transaction body) params a r last) :
    Visit.EndsLike P ⟨.nested id next' .transaction body', params, a'⟩ r last := by
  cases h with
  | transactionUnserved hdb =>
      exact .of_executes 0 (.transactionUnserved (ha.database.trans hdb)) (.failure _) ha
  | transactionIdle hdb =>
      cases hbody with
      | none =>
          exact .of_executes 0 (.transactionIdle (ha.database.trans hdb))
            (.success hnext params) ha
  | @transactionRefused _ _ _ _ _ _ db f hdb hopen =>
      cases hbody with
      | some hp =>
          obtain ⟨mid', hopen', hmid⟩ := (Act.query_blind db _).run ha hopen
          exact .of_executes 0 (.transactionRefused (ha.database.trans hdb) hopen')
            (.error _) hmid
  | @transactionClosed _ _ _ _ _ _ _ _ _ db result hdb hopen hrun =>
      cases hbody with
      | some hp =>
          obtain ⟨mid', hopen', hmid⟩ := (Act.query_blind db _).run ha hopen
          obtain ⟨left', ⟨fuel', hrun'⟩, hleft⟩ := hp params _ _ _ _ hmid hrun
          obtain ⟨hout, hclosed⟩ := (close_made id result).twins hnext hleft
          obtain ⟨-, hlast⟩ := (leaveTransaction_composed id).blind _ _ hclosed
          exact .of_executes _ (.transactionClosed (ha.database.trans hdb) hopen' hrun') (.ok hout)
            hlast

end Nested

/-- **A block ends as its twin does**, if its body ends as the body of the twin. -/
theorem Block.Twins.executes {B : String × BlockMap → String × BlockMap → Prop} {b b' : Block}
    {fuel : Nat} (hb : b.Twins P B b') (hB : ∀ p p', B p p' → BlockMap.Followed δ χ fuel p p')
    (ha : a.Twins a') {params : Json} {r : Except BlockError Output}
    (h : b.Executes fuel params a r last) : Visit.EndsLike P ⟨b', params, a'⟩ r last := by
  cases hb with
  | @task id next next' t hnext =>
      cases h with
      | task =>
          obtain ⟨hsame, hlast⟩ := (Task.run_made id params t).twins hnext ha
          exact .of_executes 0 .task (.ok hsame) hlast
  | @branch id c _ _ _ _ hs hf =>
      cases h with
      | branch =>
          obtain ⟨hsame, hlast⟩ := Task.runBranch_twins c id params hs hf ha
          exact .of_executes 0 .branch hsame hlast
  | @nested id next next' frame body body' hnext hbody =>
      have hfollowed : Option.Rel (BlockMap.Followed δ χ fuel) body body' := by
        cases hbody with
        | none => exact .none
        | some hp => exact .some (hB _ _ hp)
      cases frame with
      | count c => exact endsLike_count hnext hfollowed ha h
      | each c => exact endsLike_each hnext hfollowed ha h
      | transaction => exact endsLike_transaction hnext hfollowed ha h

end FlowGraph
