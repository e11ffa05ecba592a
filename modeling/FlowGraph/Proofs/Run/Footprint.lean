/-
What a whole run may change.

The blocks of a program are the blocks that can be reached, so a run changes only what some
block that can be reached is there to change.  `Framed` says that everything else is as it
was: variables, headers and cookies under other names, the answer where nothing answers, and
what was logged before.  Scripts play no part in it, whatever they do.

For the tables of a database this holds as well if the database is one in memory, which has
no statements that a script could send.  What a transaction undoes is what its body did, so
where no block writes, nothing is there to be undone: the tables that are put back are the
ones that are there.  This is why `Preserved` follows the mode and the tables that were
remembered.
-/
import FlowGraph.Proofs.Run.Missing
import FlowGraph.Proofs.Run.Transaction
import FlowGraph.Proofs.Run.Untouched

namespace FlowGraph

variable {δ χ : Type}

/-! ### What blocks share -/

/-- Whatever no change of a kind changes is as it was. -/
structure Context.Framed (changes : Change → Prop) (before after : Context δ χ) : Prop where
  vars : ∀ key, (∀ v, ¬ changes (.assign key v)) →
    Entries.find? key after.vars = Entries.find? key before.vars
  logs : before.logs.toList <+: after.logs.toList
  headers : ∀ name, (∀ text, ¬ changes (.header name text)) →
    Entries.find? name after.response.headers = Entries.find? name before.response.headers
  cookies : ∀ name, (∀ c, ¬ changes (.cookie name c)) →
    Entries.find? name after.response.cookies = Entries.find? name before.response.cookies
  answer : (∀ status body, ¬ changes (.answer status body)) →
    after.response.status = before.response.status ∧ after.response.body = before.response.body

namespace Context.Framed

variable {changes : Change → Prop} {before mid after : Context δ χ}

/-- Nothing of all that was changed. -/
theorem of_eq (hvars : after.vars = before.vars) (hlogs : after.logs = before.logs)
    (hresponse : after.response = before.response) : Framed changes before after := by
  have hgrown : before.logs.toList <+: after.logs.toList := hlogs ▸ List.prefix_rfl
  refine ⟨fun _ _ => by rw [hvars], hgrown, ?_, ?_, ?_⟩ <;> simp [hresponse]

theorem trans (h : Framed changes before mid) (h' : Framed changes mid after) :
    Framed changes before after where
  vars key hkey := (h'.vars key hkey).trans (h.vars key hkey)
  logs := h.logs.trans h'.logs
  headers name hname := (h'.headers name hname).trans (h.headers name hname)
  cookies name hname := (h'.cookies name hname).trans (h.cookies name hname)
  answer hnone :=
    ⟨(h'.answer hnone).1.trans (h.answer hnone).1, (h'.answer hnone).2.trans (h.answer hnone).2⟩

theorem mono {changes' : Change → Prop} (h : Framed changes before after)
    (himp : ∀ c, changes c → changes' c) : Framed changes' before after where
  vars key hkey := h.vars key fun v hv => hkey v (himp _ hv)
  logs := h.logs
  headers name hname := h.headers name fun text htext => hname text (himp _ htext)
  cookies name hname := h.cookies name fun c hc => hname c (himp _ hc)
  answer hnone := h.answer fun status body hanswer => hnone status body (himp _ hanswer)

theorem change {c : Change} (hc : changes c) (ctx : Context δ χ) :
    Framed changes ctx (c.apply ctx) := by
  have hunchanged : Framed changes ctx ctx := of_eq rfl rfl rfl
  cases c with
  | assign key v =>
      refine { hunchanged with vars := fun other hother => Entries.find?_insert_ne _ ?_ }
      rintro rfl
      exact hother v hc
  | header name text =>
      refine { hunchanged with headers := fun other hother => Entries.find?_insert_ne _ ?_ }
      rintro rfl
      exact hother text hc
  | cookie name cookie =>
      refine { hunchanged with cookies := fun other hother => Entries.find?_insert_ne _ ?_ }
      rintro rfl
      exact hother cookie hc
  | answer status body =>
      exact { hunchanged with answer := fun hnone => absurd hc (hnone status body) }
  | log e => exact { hunchanged with logs := by simp [Change.apply] }
  | shown i => exact of_eq rfl rfl rfl

variable [Store.Database δ]

theorem query (db : δ) (q : Store.Query) (ctx : Context δ χ) :
    Framed changes ctx (ctx.query db q).2 := by
  obtain ⟨journal, h⟩ := ctx.query_leaves db q
  exact h ▸ of_eq rfl rfl rfl

variable [Client χ]

/-- Of all basic steps, only changes count. -/
theorem basic {asks : Store.Query → Prop} {α : Type} {x : Act δ χ α}
    (hx : Act.Basic changes asks α x) (ctx : Context δ χ) : Framed changes ctx (x ctx).2 := by
  cases hx with
  | note e => exact of_eq rfl rfl rfl
  | script params code =>
      obtain ⟨database, journal, h⟩ := ctx.evaluate_leaves [] params code
      exact h ▸ of_eq rfl rfl rfl
  | scriptApart granted params code =>
      obtain ⟨database, journal, h⟩ := ctx.evaluateApart_leaves granted params code
      exact h ▸ of_eq rfl rfl rfl
  | call client request => exact of_eq rfl rfl rfl
  | ask db q hq => exact query db q ctx
  | change c hc => exact change hc ctx

theorem composed {asks : Store.Query → Prop} {α : Type} {gives : α → Prop} {x : Act δ χ α}
    (h : Act.Composed (Act.Basic changes asks) gives x) (ctx : Context δ χ) :
    Framed changes ctx (x ctx).2 := by
  have hframed := h.preserves (P := Framed changes ctx) fun _ _ hx mid hmid =>
    ⟨hmid.trans (basic hx mid), trivial⟩
  exact (hframed ctx (of_eq rfl rfl rfl)).1

/-- Whatever is run changes only what its tasks may change. -/
theorem carried (changes : Change → Prop) :
    Carried (Framed (δ := δ) (χ := χ) changes) fun t => ∀ id c, t.Changes id c → changes c where
  refl _ := of_eq rfl rfl rfl
  trans := .trans
  idle hx ctx := (basic hx ctx).mono fun _ hc => hc.elim
  task t ht id next params ctx :=
    (composed ((Task.run_made id params t).composed next) ctx).mono (ht id)
  refused := by
    intro ctx mid db f _ hopen
    have hasked : Framed changes ctx (ctx.query db (.setMode .transaction)).2 := query db _ ctx
    rwa [hopen] at hasked
  closed := by
    intro ctx mid left db answer _ hopen hbody id next r
    have hopened : Framed changes ctx (ctx.query db (.setMode .transaction)).2 := query db _ ctx
    rw [hopen] at hopened
    have hclosed := composed ((close_made id r).composed next) left
    have hleft := composed (leaveTransaction_composed id) (close id next r left).2
    exact (hopened.trans hbody).trans ((hclosed.trans hleft).mono fun _ hc => hc.elim)

end Context.Framed

/-! ### Tables in memory -/

/-- The action changes tables. -/
def StoreAction.Writes : StoreAction → Prop
  | .insert | .insertBulk | .update | .delete => True
  | .getAll | .getSingle | .raw => False

/-- The task changes tables. -/
def Task.Writes : Task → Prop
  | .store action _ => action.Writes
  | _ => False

namespace Store

/-- The tables are as they were, and a transaction that was open is still open. -/
structure Memory.Preserved (before after : Memory) : Prop where
  tables : after.tables = before.tables
  opened : before.mode = .transaction →
    after.mode = .transaction ∧ after.snapshot = before.snapshot

namespace Memory

variable {m mid last : Memory}

theorem Preserved.refl (m : Memory) : m.Preserved m := ⟨rfl, fun h => ⟨h, rfl⟩⟩

theorem Preserved.trans (h : m.Preserved mid) (h' : mid.Preserved last) : m.Preserved last where
  tables := h'.tables.trans h.tables
  opened hm := by
    obtain ⟨hmid, hsnapshot⟩ := h.opened hm
    obtain ⟨hlast, hsnapshot'⟩ := h'.opened hmid
    exact ⟨hlast, hsnapshot'.trans hsnapshot⟩

/-- Questions of an action that does not write change nothing. -/
theorem answer_of_asks {action : StoreAction} (haction : ¬ action.Writes) {q : Query}
    (hq : action.Asks q) : (m.answer q).2 = m := by
  cases action with
  | insert | insertBulk | update | delete => exact absurd trivial haction
  | getAll | getSingle | raw =>
      cases q <;> first
        | exact hq.elim
        | rfl
        | rw [answer]; split <;> rfl

end Memory

end Store

/-- The tables of the database are as they were. -/
def Context.Unwritten {χ : Type} (before after : Context Store.Memory χ) : Prop :=
  Option.Rel Store.Memory.Preserved before.database after.database

namespace Context.Unwritten

open Store

variable {before mid after : Context Memory χ}

theorem of_eq (h : after.database = before.database) : before.Unwritten after := by
  rw [Unwritten, h]
  cases before.database with
  | none => exact .none
  | some m => exact .some (.refl m)

theorem trans (h : before.Unwritten mid) (h' : mid.Unwritten after) : before.Unwritten after := by
  rw [Unwritten] at h h' ⊢
  generalize before.database = first, mid.database = second, after.database = third at h h' ⊢
  cases h with
  | none => exact h'
  | some hm =>
      cases h' with
      | some hm' => exact .some (hm.trans hm')

theorem exists_of_some {m : Memory} (h : before.Unwritten after) (hm : before.database = some m) :
    ∃ m', after.database = some m' ∧ m.Preserved m' := by
  rw [Unwritten, hm] at h
  generalize after.database = last at h
  obtain h | _ := h
  exact ⟨_, rfl, h⟩

theorem of_some {m m' : Memory} (hm : before.database = some m) (hm' : after.database = some m')
    (h : m.Preserved m') : before.Unwritten after := by
  rw [Unwritten, hm, hm']
  exact .some h

theorem tables (h : before.Unwritten after) :
    after.database.map Memory.tables = before.database.map Memory.tables := by
  rw [Unwritten] at h
  generalize before.database = first, after.database = last at h
  cases h with
  | none => rfl
  | some hm => exact congrArg some hm.tables

theorem store {action : StoreAction} (haction : ¬ action.Writes) (c : StoreConfig) (id : String)
    (next : Option String) (params : Json) (ctx : Context Memory χ) :
    ctx.Unwritten (Task.runStore action c id next params ctx).2 := by
  have hscripts : Act.KeptByScripts ctx.Unwritten params := fun code =>
    .intro fun mid h => h.trans (of_eq (Memory.evaluate_untouched [] params code mid).database)
  have hasked := (Task.storeQuery_tried params action c).attempts hscripts ctx (of_eq rfl)
  -- The database is asked as it was before the scripts, and a question that reads leaves it so.
  have hanswered : ∀ {m q mid}, ctx.database = some m →
      (Task.storeQuery action c params).run ctx = (.ok q, mid) →
      (mid.query m q).2.database = ctx.database := by
    intro m q mid hdb hquery
    rw [hquery] at hasked
    rw [Context.query_database, hdb]
    exact congrArg some (Memory.answer_of_asks haction hasked.2)
  have hends := Task.runStore_ends action c id next params ctx
  generalize Task.runStore action c id next params ctx = out at hends ⊢
  cases hends with
  | absent => exact of_eq rfl
  | unasked _ hquery =>
      rw [hquery] at hasked
      exact hasked.1
  | refused hdb hquery hanswer | answered hdb hquery hanswer =>
      have hkept := hanswered hdb hquery
      rw [hanswer] at hkept
      exact of_eq hkept

variable [Client χ]

/-- A step that asks nothing itself leaves the tables alone: what scripts send is refused. -/
theorem composed {changes : Change → Prop} {asks : Query → Prop} {α : Type} {gives : α → Prop}
    {x : Act Memory χ α} (h : Act.Composed (Act.Basic changes asks) gives x)
    (hasks : ∀ q, ¬ asks q) (ctx : Context Memory χ) : ctx.Unwritten (x ctx).2 := by
  refine (h.preserves (P := ctx.Unwritten) (fun _ _ hx mid hmid => ⟨hmid.trans ?_, trivial⟩) ctx
    (of_eq rfl)).1
  cases hx with
  | note | call => exact of_eq rfl
  | script params code => exact of_eq (Memory.evaluate_untouched [] params code mid).database
  | scriptApart granted params code =>
      exact of_eq (Memory.evaluateApart_untouched granted params code mid).database
  | ask db q hq => exact absurd hq (hasks q)
  | change c => cases c <;> exact of_eq rfl

/-- Whatever is run leaves the tables as they were, if no task writes. -/
theorem carried : Carried (Unwritten (χ := χ)) fun t => ¬ t.Writes where
  refl _ := of_eq rfl
  trans := .trans
  idle hx ctx := composed (.step hx fun _ => trivial) (fun _ hq => hq) ctx
  task t ht id next params ctx := by
    cases t with
    | store action c => exact store ht c id next params ctx
    | _ =>
        refine composed ((Task.run_made id params _).composed next) (fun _ hq => ?_) ctx
        exact hq
  refused := by
    intro ctx mid m f hdb hopen
    have hrefused := Memory.query_refused (.refl ctx) hdb (congrArg Prod.fst hopen)
    rw [hopen] at hrefused
    exact of_eq hrefused.database
  closed := by
    intro ctx mid left m answer hdb hopen hbody id next r
    cases hmode : m.mode with
    | transaction =>
        rw [query_open_refused hdb hmode] at hopen
        simp at hopen
    | normal =>
        rw [query_open hmode] at hopen
        obtain rfl : ctx.opened m = mid := congrArg Prod.snd hopen
        -- The transaction is still open, and the tables it remembers are those that are there.
        obtain ⟨m', hm', hpreserved⟩ := hbody.exists_of_some rfl
        obtain ⟨hmode', hsnapshot⟩ := hpreserved.opened rfl
        have hstands : m'.Stands (some m.tables) := ⟨hsnapshot, hmode'⟩
        have hnormal : m.mode ≠ .transaction := by simp [hmode]
        have hsettles := closes (v := ⟨.task id next .entrypoint, .null, ctx⟩) id next hdb
          ⟨m', hm', hstands⟩ r
        cases r with
        | ok out =>
            obtain ⟨_, last, hleft, hlast, -, htables⟩ := Visit.Kept.tables hsettles
            obtain rfl := Option.some.inj (hm'.symm.trans hleft)
            exact of_some hdb hlast
              ⟨htables.trans hpreserved.tables, fun h => absurd h hnormal⟩
        | error e =>
            obtain ⟨_, last, hbefore, hlast, -, htables⟩ := Visit.Undone.tables hsettles
            obtain rfl := Option.some.inj (hdb.symm.trans hbefore)
            exact of_some hdb hlast ⟨htables, fun h => absurd h hnormal⟩

end Context.Unwritten

/-! ### Compiled graphs -/

/-- A block of a kind is reached, with settings of which `P` holds. -/
def Net.Has (n : Net) (start : String) (k : Kind) (P : k.Settings → Prop) : Prop :=
  ∃ id d s, n.Reaches start id ∧ n.block? id = some d ∧ d.kind = k ∧
    Json.readValue k.reads d.told = .ok s ∧ P s

/-- A change that is there to be made by a block that is reached. -/
def Net.MayChange (n : Net) (start : String) : Change → Prop
  | .assign key _ =>
    n.Has start .setVar (fun s : SetVarConfig => s.key = key) ∨
      n.Has start .arrayOps (fun s : ListConfig => s.var = key)
  | .header name _ => n.Has start .setHeader fun s : HeaderConfig => s.name = name
  | .cookie name _ => n.Has start .setCookie fun s : CookieConfig => s.name = name
  | .answer _ _ => n.Has start .response fun _ => True
  | .log _ => n.Has start .logger fun _ => True
  | .shown _ => n.Has start .interceptor fun _ => True

/-- A block is reached that changes tables. -/
def Net.MayWrite (n : Net) (start : String) : Prop :=
  ∃ k ∈ [Kind.dbInsert, .dbInsertBulk, .dbUpdate, .dbDelete], n.Has start k fun _ => True

section Reached

variable {n : Net} {start id : String} {t : Task}

/-- What a task may change, the graph says. -/
theorem Task.Changes.may {c : Change}
    (hhas : ∀ P : t.kind.Settings → Prop, P t.settings → n.Has start t.kind P)
    (h : t.Changes id c) : n.MayChange start c := by
  cases t with
  | setVar s =>
      cases c with
      | assign key v => exact Or.inl (hhas (fun s : SetVarConfig => s.key = key) h.symm)
      | _ => exact h.elim
  | list s =>
      cases c with
      | assign key v => exact Or.inr (hhas (fun s : ListConfig => s.var = key) h.symm)
      | _ => exact h.elim
  | setHeader s =>
      cases c with
      | header name text => exact hhas (fun s : HeaderConfig => s.name = name) h.symm
      | _ => exact h.elim
  | setCookie s =>
      cases c with
      | cookie name cookie => exact hhas (fun s : CookieConfig => s.name = name) h.symm
      | _ => exact h.elim
  | response s =>
      cases c with
      | answer status body => exact hhas (fun _ => True) trivial
      | _ => exact h.elim
  | logger s =>
      cases c with
      | log e => exact hhas (fun _ => True) trivial
      | _ => exact h.elim
  | interceptor s =>
      cases c with
      | shown i => exact hhas (fun _ => True) trivial
      | _ => exact h.elim
  | _ => exact h.elim

theorem Task.Writes.may (hhas : ∀ P : t.kind.Settings → Prop, P t.settings → n.Has start t.kind P)
    (h : t.Writes) : n.MayWrite start := by
  cases t with
  | store action s =>
      refine ⟨action.kind, ?_, hhas (fun _ => True) trivial⟩
      cases action with
      | insert | insertBulk | update | delete => simp [StoreAction.kind]
      | getAll | getSingle | raw => exact h.elim
  | _ => exact h.elim

end Reached

/-- The tasks of a compiled graph are told what the graph says. -/
theorem Compiler.Layered.does {c : Compiler} {start : String} {blocks : BlockMap}
    (h : c.Layered start blocks) (hs : c.wiring.Sound) {allowed : Task → Prop}
    (hallowed : ∀ t : Task,
      (∀ P : t.kind.Settings → Prop, P t.settings → c.wiring.net.Has start t.kind P) → allowed t) :
    blocks.Does allowed := by
  refine BlockMap.does_of_within start fun start' blocks' hin id b hb => ?_
  obtain ⟨d, hreach, hd, hrealizes⟩ := realizes hs hin h hb
  cases b with
  | task name next t =>
      exact hallowed t fun P hP =>
        ⟨id, d, t.settings, hreach, hd, hrealizes.kind.symm, hrealizes.settings, hP⟩
  | branch | nested => exact trivial

namespace Program

/-- **What a run may change.**  However a run of a compiled graph ends, it changes only what some
block that is reached is there to change; and over a database in memory it changes no tables
unless a block is reached that does so.  This holds for all scripts. -/
theorem run_framed {g : Graph} {validate : Bool} {from? : Option String} {log : BuildLog}
    {p : Program} (h : Build.result (compileGraph g validate from?) log = .ok p) :
    (∀ (δ χ : Type) [Store.Database δ] [Client χ] (fuel : Nat) (params : Json)
      (ctx ctx' : Context δ χ) (r : Except RunError Output),
      p.run fuel params ctx = some (r, ctx') →
        ctx.Framed (g.net.MayChange p.entrypoint) ctx') ∧
    ∀ (χ : Type) [Client χ] (fuel : Nat) (params : Json) (ctx ctx' : Context Store.Memory χ)
      (r : Except RunError Output), p.run fuel params ctx = some (r, ctx') →
        ¬ g.net.MayWrite p.entrypoint →
          ctx'.database.map Store.Memory.tables = ctx.database.map Store.Memory.tables := by
  obtain ⟨w, start, hw, hp⟩ := (compileGraph_ends g validate from?).ok h
  obtain ⟨hloaded, hnet, -, -⟩ := Wiring.ofGraph_ok hw
  rw [← hnet, hp.entrypoint]
  refine ⟨?_, ?_⟩
  · intro δ χ _ _ fuel params ctx ctx' r hrun
    have hdoes : p.blocks.Does fun t => ∀ id c, t.Changes id c → w.net.MayChange start c :=
      hp.layered.does hloaded.sound fun t hhas id c hc => hc.may hhas
    obtain ⟨last, hwalk, rfl⟩ := run_iff.mp hrun
    have hframed := (Context.Framed.carried (w.net.MayChange start)).run hdoes fuel _ params _ _ _
      hwalk
    have hbegun : ctx.Framed (w.net.MayChange start) (p.outset params ctx).ctx := .of_eq rfl rfl rfl
    have hended : last.Framed (w.net.MayChange start)
        { last.note (endOfRun r) with span := ctx.span } := .of_eq rfl rfl rfl
    exact (hbegun.trans hframed).trans hended
  · intro χ _ fuel params ctx ctx' r hrun hwrite
    have hdoes : p.blocks.Does fun t => ¬ t.Writes :=
      hp.layered.does hloaded.sound fun t hhas hwrites => hwrite (hwrites.may hhas)
    obtain ⟨last, hwalk, rfl⟩ := run_iff.mp hrun
    have hkept := Context.Unwritten.carried.run hdoes fuel _ params _ _ _ hwalk
    exact hkept.tables

end Program

/-- A graph with a transaction around a block that sets a variable. -/
def Graph.setting : Graph :=
  ((((Graph.empty.addBlock "in" .entrypoint .null).addBlock "tx" .transaction .null).addBlock
    "set" .setVar (.obj [("key", .str "x")])).link "in" "tx").addEdge "tx" "set" Slot.executor

/-- The program that it compiles to. -/
def Program.setting : Program :=
  let set : Block := .task "set" none (.setVar ⟨"x", .null, false⟩)
  ⟨[("in", .task "in" (some "tx") .entrypoint), ("set", set),
    ("tx", .nested "tx" none .transaction (some ("set", [("set", set)])))], "in"⟩

/-- A context with another variable and a table. -/
def Context.setting : Context Store.Memory Offline :=
  { vars := [("y", .bool true)], database := some { tables := [("rows", [[]])] }
    scripts := ⟨fun _ _ _ => .done (.ok .null)⟩ }

theorem Program.run_framed_setting :
    Build.result (compileGraph .setting true none) {} = .ok .setting ∧
      ∃ r ctx', Program.setting.run 4 .null .setting = some (r, ctx') ∧
        Entries.find? "y" ctx'.vars = some (.bool true) ∧
        ctx'.database.map Store.Memory.tables = some [("rows", [[]])] := by
  have hcompiled : Build.result (compileGraph .setting true none) {} = .ok .setting := rfl
  have hkinds : ∀ d ∈ Graph.setting.blocks, d.kind ≠ .arrayOps ∧
      d.kind ∉ [Kind.dbInsert, .dbInsertBulk, .dbUpdate, .dbDelete] := by decide
  have hset : ∀ d ∈ Graph.setting.blocks, d.kind = .setVar →
      Json.readValue SetVarConfig.reader d.told = .ok ⟨"x", .null, false⟩ := by
    intro d hd hkind
    simp only [Graph.setting, Graph.addEdge, Graph.link, Graph.addBlock, Graph.empty,
      List.nil_append, List.cons_append, List.mem_cons, List.not_mem_nil, or_false] at hd
    rcases hd with rfl | rfl | rfl
    · exact nomatch hkind
    · exact nomatch hkind
    · rfl
  have hassign : ∀ v, ¬ Graph.setting.net.MayChange "in" (.assign "y" v) := by
    rintro v (⟨id, d, s, -, hd, hkind, hread, hkey⟩ | ⟨id, d, s, -, hd, hkind, -⟩)
    · obtain rfl : SetVarConfig.mk "x" .null false = s := by
        have h := (hset d (Graph.mem_of_block? hd).1 hkind).symm.trans hread
        exact Except.ok.inj h
      exact absurd hkey (by decide)
    · exact (hkinds d (Graph.mem_of_block? hd).1).1 hkind
  have hwrite : ¬ Graph.setting.net.MayWrite "in" := by
    rintro ⟨k, hk, id, d, s, -, hd, rfl, -⟩
    exact (hkinds d (Graph.mem_of_block? hd).1).2 hk
  obtain ⟨hframed, htables⟩ := run_framed hcompiled
  have hrun : ∃ r ctx', Program.setting.run 4 .null .setting = some (r, ctx') := ⟨_, _, rfl⟩
  obtain ⟨r, ctx', hrun⟩ := hrun
  exact ⟨hcompiled, r, ctx', hrun, (hframed _ _ _ _ _ _ _ hrun).vars "y" hassign,
    htables _ _ _ _ _ _ hrun hwrite⟩

end FlowGraph
