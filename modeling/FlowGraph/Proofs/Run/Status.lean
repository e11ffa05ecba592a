/-
Which status a run may record.

A status that stands in the settings of a block is checked when the graph is compiled: it lies
between 100 and 599.  A status that a script computes is checked when the block runs, and there it
only has to be a natural number that is not too large.  So the bounds of a literal hold for a whole
run if no block with a computed status is reached, and else the wider one is all that holds.

Only one kind of block records a status, and everything else that is run leaves it as it is.
`Answered` is the relation that all of this goes along.
-/
import FlowGraph.Proofs.Run.Footprint
import FlowGraph.Web.Offline

namespace FlowGraph

variable {δ χ : Type} {allowed : Nat → Prop} {n : Nat} {params : Json}

/-! ### Settings -/

namespace ResponseConfig

/-- The status is computed by a script. -/
def Computes (c : ResponseConfig) : Prop :=
  ∃ setting, c.status = some setting ∧ (Template.script? setting).isSome = true

/-- A block with the settings may record the status. -/
def Records (c : ResponseConfig) (n : Nat) : Prop :=
  n ≤ Response.maxStatus ∧ (c.status = some (Json.nat n) ∨ c.Computes)

/-- What the check lets through as a literal is within its bounds. -/
theorem Records.checked {c : ResponseConfig} (h : c.Records n) (hcheck : c.check = .ok ()) :
    (100 ≤ n ∧ n ≤ 599) ∨ (n ≤ Response.maxStatus ∧ c.Computes) := by
  obtain ⟨hmax, hliteral | hcomputes⟩ := h
  · refine Or.inl ?_
    rw [check, hliteral] at hcheck
    by_contra hout
    have hbounds : ¬ (100 ≤ (n : Int) ∧ (n : Int) ≤ 599) := by omega
    simp only [Json.nat, if_neg hbounds] at hcheck
    exact nomatch hcheck
  · exact Or.inr ⟨hmax, hcomputes⟩

end ResponseConfig

namespace Json

theorem natural?_eq_some {v : Json} : v.natural? = some n ↔ v = Json.nat n := by
  constructor
  · intro h
    cases v with
    | number x =>
        cases x with
        | int i =>
            rw [natural?] at h
            split at h
            · have hi : i = (n : Int) := by
                have := Option.some.inj h
                omega
              rw [hi]
              rfl
            · exact nomatch h
        | float x => exact nomatch h
    | _ => exact nomatch h
  · rintro rfl
    simp [natural?, Json.nat]

end Json

namespace Task

open Act

/-- **A number is a status exactly if it is a natural one that is not too large.** -/
theorem statusOf_eq_ok {v : Json} :
    statusOf v = .ok n ↔ v = Json.nat n ∧ n ≤ Response.maxStatus := by
  constructor
  · intro h
    cases v with
    | number x =>
        simp only [statusOf] at h
        cases hx : (Json.number x).natural? with
        | none =>
            rw [hx] at h
            exact nomatch h
        | some s =>
            rw [hx] at h
            dsimp only at h
            split at h
            · rename_i hmax
              obtain rfl := Except.ok.inj h
              exact ⟨Json.natural?_eq_some.mp hx, hmax⟩
            · exact nomatch h
    | _ => exact nomatch h
  · rintro ⟨rfl, hmax⟩
    have hnatural : (Json.nat n).natural? = some n := Json.natural?_eq_some.mpr rfl
    simp only [Json.nat] at hnatural
    simp only [statusOf, Json.nat, hnatural, if_pos hmax]

variable [Store.Database δ]

/-- A value that is no script stands for itself. -/
theorem resolve_literal (setting : Json) :
    Tried (Scripts params) (fun v => Template.script? setting = none → v = setting) (fun _ => True)
      (resolve params setting : ExceptT _ (Act δ χ) Json) := by
  unfold resolve Template.resolve
  split
  · rename_i code hscript
    refine .step (.mk code) fun r => ?_
    cases r with
    | ok v => exact fun hnone => nomatch hscript.symm.trans hnone
    | error f => exact trivial
  · exact .pure fun _ => rfl

theorem answerOf_records (c : ResponseConfig) :
    Tried (Scripts params) (fun a => ∀ n, a.1 = some n → c.Records n) (fun _ => True)
      (answerOf c params : ExceptT _ (Act δ χ) _) := by
  have hbody : ∀ status : Option Nat, (∀ n, status = some n → c.Records n) →
      Tried (Scripts params) (fun a => ∀ n, a.1 = some n → c.Records n) (fun _ => True) (do
        let body ←
          if c.useParam then pure params
          else (Act.resolveDeep params c.body).adapt Script.Failure.message
        return (status, body) : ExceptT String (Act δ χ) (Option Nat × Json)) := by
    intro status hstatus
    split
    · exact .pure hstatus
    · exact ((resolveDeep_evaluates params c.body).adapt fun _ _ => trivial).bind fun _ _ =>
        .pure hstatus
  unfold answerOf
  cases hc : c.status with
  | none => exact hbody none fun _ h => nomatch h
  | some setting =>
      refine ((resolve_literal setting).adapt fun _ _ => trivial).bind fun v hv => ?_
      have hstatus : Tried (Scripts params) c.Records (fun _ => True)
          (liftM (statusOf v) : ExceptT String (Act δ χ) Nat) := by
        refine .lift (fun n hn => ?_) fun _ _ => trivial
        obtain ⟨hnat, hmax⟩ := statusOf_eq_ok.mp hn
        refine ⟨hmax, ?_⟩
        cases hscript : Template.script? setting with
        | none => exact Or.inl (by rw [hc, ← hv hscript, hnat])
        | some code => exact Or.inr ⟨setting, hc, by rw [hscript]; rfl⟩
      refine hstatus.bind fun status hrecords => hbody (some status) fun n hn => ?_
      exact Option.some.inj hn ▸ hrecords

end Task

/-! ### What everything that is run goes along -/

/-- The status is as it was, or one that is allowed has been recorded. -/
def Context.Answered (allowed : Nat → Prop) (before after : Context δ χ) : Prop :=
  after.response.status = before.response.status ∨
    ∃ n, after.response.status = some n ∧ allowed n

/-- If the change records a status, then one that is allowed. -/
def Change.Answers (allowed : Nat → Prop) : Change → Prop
  | .answer status _ => ∀ n, status = some n → allowed n
  | _ => True

/-- The task records no status but those that are allowed. -/
def Task.Answers (allowed : Nat → Prop) : Task → Prop
  | .response c => ∀ n, c.Records n → allowed n
  | _ => True

namespace Context.Answered

variable {before mid after : Context δ χ}

theorem of_eq (h : after.response = before.response) : Answered allowed before after :=
  Or.inl (by rw [h])

theorem trans (h : Answered allowed before mid) (h' : Answered allowed mid after) :
    Answered allowed before after := by
  rcases h' with heq | hnew
  · rcases h with heq' | ⟨n, hn, hallowed⟩
    · exact Or.inl (heq.trans heq')
    · exact Or.inr ⟨n, heq.trans hn, hallowed⟩
  · exact Or.inr hnew

theorem change {c : Change} (hc : c.Answers allowed) (ctx : Context δ χ) :
    Answered allowed ctx (c.apply ctx) := by
  cases c with
  | answer status body =>
      cases status with
      | none => exact Or.inl rfl
      | some n => exact Or.inr ⟨n, rfl, hc n rfl⟩
  | _ => exact Or.inl rfl

variable [Store.Database δ]

theorem query (db : δ) (q : Store.Query) (ctx : Context δ χ) :
    Answered allowed ctx (ctx.query db q).2 := by
  obtain ⟨journal, h⟩ := ctx.query_leaves db q
  exact h ▸ of_eq rfl

variable [Client χ] {changes : Change → Prop} {asks : Store.Query → Prop}

theorem basic (hchanges : ∀ c, changes c → c.Answers allowed) {α : Type} {x : Act δ χ α}
    (hx : Act.Basic changes asks α x) (ctx : Context δ χ) : Answered allowed ctx (x ctx).2 := by
  cases hx with
  | note e => exact of_eq rfl
  | script params code =>
      obtain ⟨database, journal, h⟩ := ctx.evaluate_leaves [] params code
      exact h ▸ of_eq rfl
  | scriptApart granted params code =>
      obtain ⟨database, journal, h⟩ := ctx.evaluateApart_leaves granted params code
      exact h ▸ of_eq rfl
  | call client request => exact of_eq rfl
  | ask db q hq => exact query db q ctx
  | change c hc => exact change (hchanges c hc) ctx

theorem composed (hchanges : ∀ c, changes c → c.Answers allowed) {α : Type} {gives : α → Prop}
    {x : Act δ χ α} (h : Act.Composed (Act.Basic changes asks) gives x) (ctx : Context δ χ) :
    Answered allowed ctx (x ctx).2 := by
  have hanswered := h.preserves (P := Answered allowed ctx) fun _ _ hx mid hmid =>
    ⟨hmid.trans (basic hchanges hx mid), trivial⟩
  exact (hanswered ctx (of_eq rfl)).1

/-- A task records what its settings allow. -/
theorem task {t : Task} (ht : t.Answers allowed) (id : String) (next : Option String)
    (params : Json) (ctx : Context δ χ) : Answered allowed ctx (t.run id next params ctx).2 := by
  cases t with
  | response c =>
      have hmade : Task.Made (Change.Answers allowed) (fun _ => False) fun next =>
          (Task.runResponse c next params : Act δ χ Output) :=
        Task.orFail_made (Task.answerOf_records c) fun answer hanswer =>
          .change (.answer answer.1 answer.2) (fun n hn => ht n (hanswer n hn)) (.success answer.2)
      exact composed (fun _ hc => hc) (hmade.composed next) ctx
  | _ =>
      refine composed (fun c hc => ?_) ((Task.run_made id params _).composed next) ctx
      cases c with
      | answer status body => exact hc.elim
      | _ => exact trivial

/-- Whatever is run records only what its tasks may record. -/
theorem carried (allowed : Nat → Prop) :
    Carried (Answered (δ := δ) (χ := χ) allowed) (Task.Answers allowed) where
  refl _ := of_eq rfl
  trans := .trans
  idle hx ctx := basic (fun _ hc => hc.elim) hx ctx
  task t ht id next params ctx := task ht id next params ctx
  refused := by
    intro ctx mid db f _ hopen
    have hasked : Answered allowed ctx (ctx.query db (.setMode .transaction)).2 := query db _ ctx
    rwa [hopen] at hasked
  closed := by
    intro ctx mid left db answer _ hopen hbody id next r
    have hopened : Answered allowed ctx (ctx.query db (.setMode .transaction)).2 := query db _ ctx
    rw [hopen] at hopened
    have hclosed : Answered allowed left (close id next r left).2 :=
      composed (fun _ hc => hc.elim) ((close_made id r).composed next) left
    have hleft : Answered allowed (close id next r left).2
        (leaveTransaction id (close id next r left).2).2 :=
      composed (fun _ hc => hc.elim) (leaveTransaction_composed id) _
    exact (hopened.trans hbody).trans (hclosed.trans hleft)

end Context.Answered

/-! ### The moments of a run -/

variable [Store.Database δ] [Client χ]

/-- A walk is in a state: where a block begins, where it has ended, or where the walk has. -/
inductive Outset.Passes (o : Outset δ χ) : Context δ χ → Prop
  | begun {v : Visit δ χ} (hv : o.Visits v) : Passes o v.ctx
  | ended {v : Visit δ χ} {r : Except BlockError Output} {ctx : Context δ χ} (hv : o.Visits v)
      (hends : v.Ends r ctx) : Passes o ctx
  | finished {r : Except RunError Output} {ctx : Context δ χ} (hends : o.Ends r ctx) : Passes o ctx

variable {o last : Outset δ χ} {outer : List (Visit δ χ)}

theorem Outset.Passes.answered {ctx : Context δ χ} (h : o.Passes ctx)
    (hdoes : o.blocks.Does (Task.Answers allowed)) : Context.Answered allowed o.ctx ctx := by
  have hcarried := Context.Answered.carried (δ := δ) (χ := χ) allowed
  cases h with
  | begun hv => exact hcarried.visits hdoes hv
  | ended hv hends =>
      obtain ⟨id, hid⟩ := hv.mem
      obtain ⟨fuel, hfuel⟩ := hends
      exact (hcarried.visits hdoes hv).trans (hcarried.found hdoes hid fuel _ _ _ _ hfuel)
  | finished hends => exact hcarried.ends hdoes hends

/-- A body is opened in a state to which the relation leads, by a transaction too. -/
theorem Visit.Opens.answered {v : Visit δ χ} (h : v.Opens o)
    (hdoes : ∀ entry inner, v.block.body? = some (entry, inner) →
      inner.Does (Task.Answers allowed)) :
    Context.Answered allowed v.ctx o.ctx := by
  have hcarried := Context.Answered.carried (δ := δ) (χ := χ) allowed
  cases h with
  | count n hbounds hturns =>
      exact hcarried.opens hdoes (.count n hbounds hturns) (by simp [Block.kind, Frame.kind])
  | each hitems hturns =>
      exact hcarried.opens hdoes (.each hitems hturns) (by simp [Block.kind, Frame.kind])
  | @transaction id entry next blocks params answer ctx ctx' db hdb hopen =>
      have hasked : Context.Answered allowed ctx (ctx.query db (.setMode .transaction)).2 :=
        Context.Answered.query db _ ctx
      rwa [hopen] at hasked

theorem Starts.answered (h : Starts o outer last) (hdoes : o.blocks.Does (Task.Answers allowed)) :
    Context.Answered allowed o.ctx last.ctx ∧ last.blocks.Does (Task.Answers allowed) := by
  have hcarried := Context.Answered.carried (δ := δ) (χ := χ) allowed
  induction h with
  | self => exact ⟨.of_eq rfl, hdoes⟩
  | inside hu hopen _ ih =>
      obtain ⟨id, hid⟩ := hu.mem
      obtain ⟨hinner, hlast⟩ := ih (hdoes.body hid hopen.body)
      have hopened := hopen.answered fun entry inner hbody => hdoes.body hid hbody
      exact ⟨((hcarried.visits hdoes hu).trans hopened).trans hinner, hlast⟩

namespace Program

/-- A block of a compiled graph that is reached has settings that pass the check of its kind. -/
theorem CompiledFrom.checked {c : Compiler} {start : String} {p : Program}
    (h : CompiledFrom c start p) (hvalidate : c.validate = true) {k : Kind} {P : k.Settings → Prop}
    (hhas : c.wiring.net.Has start k P) :
    c.wiring.net.Has start k fun s => k.checks s = .ok () ∧ P s := by
  obtain ⟨id, d, s, hreach, hd, rfl, hread, hs⟩ := hhas
  have hcompiled := h.layered start p.blocks .self
  obtain ⟨b, hb⟩ := Entries.contains_iff.mp ((hcompiled.contains_iff id).mpr hreach)
  obtain ⟨d', hd', hbuilds⟩ := hcompiled.built id b hb
  obtain rfl := Option.some.inj (hd.symm.trans hd')
  obtain ⟨s', hread', hcheck⟩ := hbuilds.accepted
  obtain rfl := Except.ok.inj (hread.symm.trans hread')
  exact ⟨id, d, s, hreach, hd, rfl, hread, hcheck hvalidate, hs⟩

/-- **The status of a run.**  At every moment of a run of a graph that was compiled with its
settings checked, in bodies at any depth too, the status is as it was before the run, or it lies
between 100 and 599, or a block with a computed status is reached and the status is a natural
number that is not too large. -/
theorem run_status {g : Graph} {from? : Option String} {log : BuildLog} {p : Program}
    (h : Build.result (compileGraph g true from?) log = .ok p) (params : Json) (ctx : Context δ χ)
    {outer : List (Visit δ χ)} {o : Outset δ χ} (hstarts : Starts (p.outset params ctx) outer o)
    {now : Context δ χ} (hnow : o.Passes now) :
    now.response.status = ctx.response.status ∨
      ∃ n, now.response.status = some n ∧
        ((100 ≤ n ∧ n ≤ 599) ∨
          (n ≤ Response.maxStatus ∧
            g.net.Has p.entrypoint .response ResponseConfig.Computes)) := by
  obtain ⟨w, start, hw, hp⟩ := (compileGraph_ends g true from?).ok h
  obtain ⟨hloaded, hnet, -, -⟩ := Wiring.ofGraph_ok hw
  rw [← hnet, hp.entrypoint]
  have hdoes : p.blocks.Does (Task.Answers fun n =>
      (100 ≤ n ∧ n ≤ 599) ∨ (n ≤ Response.maxStatus ∧
        w.net.Has start .response ResponseConfig.Computes)) := by
    refine hp.layered.does hloaded.sound fun t hhas => ?_
    cases t with
    | response c =>
        intro n hrecords
        obtain ⟨id, d, s, hreach, hd, hkind, hread, hcheck, hs⟩ :=
          hp.checked rfl (hhas (fun s : ResponseConfig => s.Records n) hrecords)
        exact (ResponseConfig.Records.checked hs hcheck).imp_right fun ⟨hmax, hcomputes⟩ =>
          ⟨hmax, id, d, s, hreach, hd, hkind, hread, hcomputes⟩
    | _ => exact trivial
  obtain ⟨hstarted, hlast⟩ := hstarts.answered hdoes
  exact hstarted.trans (hnow.answered hlast)

end Program

/-- A graph whose answer has a status that a script computes. -/
def Graph.answering : Graph :=
  ((Graph.empty.addBlock "in" .entrypoint .null).addBlock "out" .response
    (.obj [("status", .str "js:42")])).link "in" "out"

/-- The program that it compiles to. -/
def Program.answering : Program :=
  ⟨[("in", .task "in" (some "out") .entrypoint),
    ("out", .task "out" none (.response ⟨some (.str "js:42"), .null, false⟩))], "in"⟩

/-- A context with nothing in it. -/
def Context.unanswered : Context Store.Memory Offline := { scripts := .standard {} }

/-- The end of its walk. -/
def Program.answered : Option (Except RunError Output × Context Store.Memory Offline) :=
  answering.blocks.run 3 "in" .null (answering.outset .null Context.unanswered).ctx

theorem Program.run_status_answering :
    Build.result (compileGraph .answering true none) {} = .ok .answering ∧
      answered.any (fun out => out.2.response.status == some 42) ∧
      Graph.answering.net.Has "in" .response ResponseConfig.Computes := by
  have hcompiled : Build.result (compileGraph .answering true none) {} = .ok .answering := rfl
  have hany : answered.any (fun out => out.2.response.status == some 42) := by decide +kernel
  obtain ⟨⟨r, now⟩, hanswered, hfound⟩ := (Option.any_eq_true _ _).mp hany
  have hstatus : now.response.status = some 42 := eq_of_beq hfound
  have hends : (answering.outset .null Context.unanswered).Ends r now := ⟨3, hanswered⟩
  rcases run_status hcompiled .null .unanswered .self (.finished hends) with
    hsame | ⟨n, hn, hbounds⟩
  · exact absurd (hstatus.symm.trans hsame) (by decide)
  · obtain rfl : 42 = n := Option.some.inj (hstatus.symm.trans hn)
    rcases hbounds with hbounds | ⟨-, hhas⟩
    · omega
    · exact ⟨hcompiled, hany, hhas⟩

/-- The bounds of a literal do not hold for a status that a script computes. -/
theorem Program.run_status_unbounded :
    Build.result (compileGraph .answering true none) {} = .ok .answering ∧
      (answering.run 3 .null Context.unanswered).any (fun out =>
        out.2.response.status.any fun n => !(decide (100 ≤ n) && decide (n ≤ 599))) :=
  ⟨rfl, by decide +kernel⟩

end FlowGraph
