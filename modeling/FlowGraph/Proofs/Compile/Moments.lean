/-
Compiling comes to an end, moment by moment.

`buildGraph` recurses on budgets: one for the list of waiting ids and one for bodies inside
of bodies.  Here compiling is laid open as a machine without any budget, which takes one
small step after another and keeps a stack of the entries whose bodies are open.  The
machine says what "at every moment" means, and nothing in it forces an end.

`buildGraph_terminates` says that it ends all the same, with the result and the log of
`buildGraph`.  Inside of a call, every block is taken up once and makes ids wait once for
each of its slots, so the waiting ids and the slots of blocks that are still outside lose
one in every round: this is the induction of `leads_of_call`.  Bodies nest only as long as
there are entries that are not open, and all entries are targets of `executor` slots: this
is the induction of `buildBody_answers` around it.

What holds at every moment is `Moment.Steady`.  A single step keeps it, and how compiling
ends plays no part in that.
-/
import FlowGraph.Proofs.Compile.Bodies
import Mathlib.Data.Set.Card
import Mathlib.Logic.Relation

namespace FlowGraph.Compiler

/-! ### The machine -/

/-- A call that builds what is reached from a block. -/
structure Call where
  /-- The ids whose blocks were taken up, the latest first. -/
  begun : List String
  blocks : BlockMap
  pending : List String

/-- A call that has not done anything yet. -/
def Call.start (id : String) : Call := ⟨[], [], [id]⟩

/-- A call that waits for the body of a block. -/
structure Waiting where
  call : Call
  id : String
  block : BlockDef
  /-- Where the body starts. -/
  entry : String

/-- What the innermost call is about to do. -/
inductive Work where
  /-- To choose among the ids that wait. -/
  | choosing (k : Call)
  /-- To build the block of an id. -/
  | building (k : Call) (id : String) (d : BlockDef)
  /-- To return. -/
  | ended (r : Except BuildError BlockMap)

/-- A moment of compiling. -/
structure Moment where
  /-- The entries of the bodies that are open, the innermost first. -/
  opened : List String
  /-- The calls around the innermost one. -/
  waiting : List Waiting
  /-- What comes next, and the log so far. -/
  now : Work × BuildLog

variable (c : Compiler)

/-- Take the next id. -/
def Call.choose (k : Call) (log : BuildLog) : Work × BuildLog :=
  match k.pending with
  | [] => (.ended (.ok k.blocks), log)
  | id :: pending =>
    if Entries.contains id k.blocks then (.choosing { k with pending := pending }, log)
    else
      match Entries.find? id c.wiring.definitions with
      | none =>
        (.choosing { k with pending := pending },
          { log with events := log.events.push (.blockUndefined id) })
      | some d => (.building { k with begun := id :: k.begun, pending := pending } id d, log)

/-- Put in a block that was built, or end with its fault. -/
def Call.put (k : Call) (id : String) (kind : Kind) (log : BuildLog) :
    Except BuildError Block → Work × BuildLog
  | .error e => (.ended (.error e), log)
  | .ok b =>
    let blocks := Entries.insert id b k.blocks
    let found := (c.wiring.targets id).filter fun t => !Entries.contains t blocks
    (.choosing { k with blocks := blocks, pending := found.reverse ++ k.pending },
      { log with events := log.events.push (.blockBuilt id kind) })

/-- Go on with a block when the call for its body has returned. -/
def Waiting.resume (f : Waiting) (log : BuildLog) (r : Except BuildError BlockMap) :
    Work × BuildLog :=
  f.call.put c f.id f.block.kind log (r.bind fun inner => c.block f.block (some (f.entry, inner)))

/-- The moment after a moment.  There is none when the outermost call has returned. -/
def advance (m : Moment) : Option Moment :=
  match m.now with
  | (.choosing k, log) => some { m with now := k.choose c log }
  | (.building k id d, log) =>
    match c.bodyEntry d with
    | none => some { m with now := k.put c id d.kind log (c.block d none) }
    | some entry =>
      let log := { log with bodies := log.bodies.push entry }
      if m.opened.contains entry then
        some { m with now := (.ended (.error (.recursiveBody entry)), log) }
      else
        some ⟨entry :: m.opened, ⟨k, id, d, entry⟩ :: m.waiting, (.choosing (.start entry), log)⟩
  | (.ended r, log) =>
    match m.waiting with
    | [] => none
    | f :: waiting => some ⟨m.opened.tail, waiting, f.resume c log r⟩

/-- The moments of building from a block. -/
def moment (start : String) (log : BuildLog) : Nat → Option Moment
  | 0 => some ⟨[], [], (.choosing (.start start), log)⟩
  | n + 1 => (moment start log n).bind (advance c)

/-! ### What holds at every moment -/

/-- No id was taken up twice, and all but the one that is being built are built. -/
structure Call.Steady (k : Call) (current : Option String) : Prop where
  nodup : k.begun.Nodup
  built : ∀ id ∈ k.begun, Entries.contains id k.blocks = true ∨ current = some id

/-- The call that is at work. -/
def Work.Steady : Work → Prop
  | .choosing k => k.Steady none
  | .building k id _ => k.Steady (some id)
  | .ended _ => True

/-- All calls that are under way. -/
def Moment.calls (m : Moment) : List Call :=
  match m.now.1 with
  | .choosing k | .building k _ _ => k :: m.waiting.map Waiting.call
  | .ended _ => m.waiting.map Waiting.call

/-- What holds at every moment. -/
structure Moment.Steady (m : Moment) : Prop where
  /-- The stack has one entry for every call that waits. -/
  opened : m.opened = m.waiting.map Waiting.entry
  nodup : m.opened.Nodup
  targets : ∀ x ∈ m.opened, ∃ id, c.wiring.successor id Slot.executor = some x
  waiting : ∀ f ∈ m.waiting, f.call.Steady (some f.id)
  now : m.now.1.Steady

variable {c : Compiler}

namespace Call

theorem steady_start (id : String) : (start id).Steady none :=
  ⟨List.nodup_nil, by simp [start]⟩

theorem Steady.choose {k : Call} (h : k.Steady none) (log : BuildLog) :
    (k.choose c log).1.Steady := by
  have hbuilt : ∀ id ∈ k.begun, Entries.contains id k.blocks = true := fun id hid =>
    (h.built id hid).resolve_right (by simp)
  rw [Call.choose]
  split
  · exact trivial
  · rename_i id pending _
    split
    · exact ⟨h.nodup, h.built⟩
    · rename_i hnew
      split
      · exact ⟨h.nodup, h.built⟩
      · -- The id was not taken up before, since it would be built.
        refine ⟨List.nodup_cons.mpr ⟨fun hid => hnew (hbuilt id hid), h.nodup⟩, ?_⟩
        intro other hother
        rcases List.mem_cons.mp hother with rfl | hold
        · exact Or.inr rfl
        · exact Or.inl (hbuilt other hold)

theorem Steady.put {k : Call} {id : String} (h : k.Steady (some id)) (kind : Kind)
    (log : BuildLog) (r : Except BuildError Block) : (k.put c id kind log r).1.Steady := by
  cases r with
  | error e => exact trivial
  | ok b =>
      refine ⟨h.nodup, fun other hother => Or.inl ?_⟩
      rw [Entries.contains_insert]
      rcases h.built other hother with hbuilt | hcurrent
      · simp [hbuilt]
      · simp [Option.some.inj hcurrent]

end Call

theorem successor_of_bodyEntry {d : BlockDef} {entry : String} (h : c.bodyEntry d = some entry) :
    c.wiring.successor d.id Slot.executor = some entry := by
  rw [bodyEntry] at h
  split at h
  · exact h
  · simp at h

/-- **A step keeps what holds at every moment.** -/
theorem Moment.Steady.advance {m m' : Moment} (hm : m.Steady c) (h : c.advance m = some m') :
    m'.Steady c := by
  obtain ⟨opened, waiting, work, log⟩ := m
  obtain ⟨hopened, hnodup, htargets, hwaiting, hwork⟩ := hm
  simp only at hopened hnodup htargets hwaiting hwork
  rw [Compiler.advance] at h
  cases work with
  | choosing k =>
      obtain rfl := Option.some.inj h
      exact ⟨hopened, hnodup, htargets, hwaiting, Call.Steady.choose hwork log⟩
  | building k id d =>
      simp only at h
      split at h
      · obtain rfl := Option.some.inj h
        exact ⟨hopened, hnodup, htargets, hwaiting, Call.Steady.put hwork _ _ _⟩
      · rename_i entry hentry
        split at h
        · obtain rfl := Option.some.inj h
          exact ⟨hopened, hnodup, htargets, hwaiting, trivial⟩
        · rename_i hnew
          obtain rfl := Option.some.inj h
          refine ⟨by simp [hopened], ?_, ?_, ?_, Call.steady_start entry⟩
          · exact List.nodup_cons.mpr ⟨fun hmem => hnew (List.contains_iff_mem.mpr hmem), hnodup⟩
          · intro x hx
            rcases List.mem_cons.mp hx with rfl | hx
            · exact ⟨d.id, successor_of_bodyEntry hentry⟩
            · exact htargets x hx
          · intro f hf
            rcases List.mem_cons.mp hf with rfl | hf
            · exact hwork
            · exact hwaiting f hf
  | ended r =>
      cases waiting with
      | nil => simp at h
      | cons f waiting =>
          obtain rfl := Option.some.inj h
          subst hopened
          exact ⟨rfl, hnodup.of_cons, fun x hx => htargets x (List.mem_cons_of_mem _ hx),
            fun g hg => hwaiting g (List.mem_cons_of_mem _ hg),
            Call.Steady.put (hwaiting f (List.mem_cons_self ..)) _ _ _⟩

theorem moment_steady (start : String) (log : BuildLog) :
    ∀ (n : Nat) (m : Moment), c.moment start log n = some m → m.Steady c := by
  intro n
  induction n with
  | zero =>
      intro m h
      obtain rfl := Option.some.inj h
      exact ⟨rfl, List.nodup_nil, by simp, by simp, Call.steady_start start⟩
  | succ n ih =>
      intro m h
      obtain ⟨before, hbefore, hnext⟩ := Option.bind_eq_some_iff.mp h
      exact (ih before hbefore).advance hnext

namespace Moment.Steady

variable {m : Moment}

/-- Bodies nest only as long as there are targets that are not open. -/
theorem length_le (h : m.Steady c) :
    m.waiting.length ≤ {x | ∃ id, c.wiring.successor id Slot.executor = some x}.ncard := by
  have hfinite : {x | ∃ id, c.wiring.successor id Slot.executor = some x}.Finite := by
    refine c.wiring.executorTargets.toFinset.finite_toSet.subset ?_
    rintro x ⟨id, hx⟩
    exact List.mem_toFinset.mpr (Wiring.mem_executorTargets hx)
  calc m.waiting.length
      = m.opened.length := by rw [h.opened, List.length_map]
    _ = (m.opened.toFinset : Set String).ncard := by
        rw [Set.ncard_coe_finset, List.toFinset_card_of_nodup h.nodup]
    _ ≤ _ := Set.ncard_le_ncard (fun x hx => h.targets x (List.mem_toFinset.mp hx)) hfinite

theorem begun_nodup (h : m.Steady c) : ∀ k ∈ m.calls, k.begun.Nodup := by
  obtain ⟨opened, waiting, work, log⟩ := m
  have hwaiting : ∀ k ∈ waiting.map Waiting.call, k.begun.Nodup := by
    intro k hk
    obtain ⟨f, hf, rfl⟩ := List.mem_map.mp hk
    exact (h.waiting f hf).nodup
  have hnow := h.now
  cases work with
  | choosing k => exact List.forall_mem_cons.mpr ⟨hnow.nodup, hwaiting⟩
  | building k id d => exact List.forall_mem_cons.mpr ⟨hnow.nodup, hwaiting⟩
  | ended r => exact hwaiting

end Moment.Steady

/-! ### How it ends -/

/-- A moment comes after another one, or is the same. -/
def Leads (c : Compiler) : Moment → Moment → Prop :=
  Relation.ReflTransGen fun m m' => c.advance m = some m'

theorem Leads.step {m m' m'' : Moment} (h : c.advance m = some m') (hrest : c.Leads m' m'') :
    c.Leads m m'' :=
  Relation.ReflTransGen.head h hrest

variable {child : BodyBuilder} {opened : List String} {waiting : List Waiting}

/-- While these bodies are open, a block gets the body that `child` builds. -/
def Answers (c : Compiler) (child : BodyBuilder) (opened : List String) (waiting : List Waiting) :
    Prop :=
  ∀ (f : Waiting) (log log' : BuildLog) (r : Except BuildError BlockMap),
    c.bodyEntry f.block = some f.entry →
    Build.outcome (child f.entry) { log with bodies := log.bodies.push f.entry } = (r, log') →
    c.Leads ⟨opened, waiting, (.building f.call f.id f.block, log)⟩
      ⟨opened, waiting, f.resume c log' r⟩

/-- A block is built from what its body ends with. -/
theorem outcome_build (child : BodyBuilder) (d : BlockDef) (log : BuildLog) :
    Build.outcome (c.build child d) log
      = match c.bodyEntry d with
        | none => (c.block d none, log)
        | some entry =>
          let out := Build.outcome (child entry) { log with bodies := log.bodies.push entry }
          (out.1.bind fun inner => c.block d (some (entry, inner)), out.2) := by
  rw [build, body, bodyEntry]
  by_cases hk : d.kind.hasBody = true
  · rw [if_pos hk, if_pos hk]
    cases c.wiring.successor d.id Slot.executor with
    | none => exact Build.outcome_lift _ _
    | some entry =>
        simp only [Build.outcome_bind, noteBody, Build.outcome_noted]
        generalize Build.outcome (child entry) _ = out
        obtain ⟨r, log'⟩ := out
        cases r with
        | ok inner => exact Build.outcome_lift _ _
        | error e => rfl
  · rw [if_neg hk, if_neg hk]
    exact Build.outcome_lift _ _

theorem leads_of_build (hchild : c.Answers child opened waiting) (k : Call) (id : String)
    (d : BlockDef) (log : BuildLog) :
    c.Leads ⟨opened, waiting, (.building k id d, log)⟩
      ⟨opened, waiting, k.put c id d.kind (Build.outcome (c.build child d) log).2
        (Build.outcome (c.build child d) log).1⟩ := by
  rw [outcome_build]
  cases hentry : c.bodyEntry d with
  | none =>
      refine .step ?_ .refl
      simp only [advance, hentry]
  | some entry => exact hchild ⟨k, id, d, entry⟩ log _ _ hentry rfl

/-- A call ends with what building the blocks that wait ends with. -/
theorem leads_of_call (hchild : c.Answers child opened waiting) :
    ∀ (fuel : Nat) (k : Call) (log log' : BuildLog) (r : Except BuildError BlockMap),
      k.pending.length + c.wiring.slotsOutside k.blocks < fuel →
      Build.outcome (c.buildPending child fuel k.blocks k.pending) log = (r, log') →
      c.Leads ⟨opened, waiting, (.choosing k, log)⟩ ⟨opened, waiting, (.ended r, log')⟩ := by
  intro fuel
  induction fuel with
  | zero => intro k log log' r hlt; omega
  | succ fuel ih =>
      intro k log log' r hlt hout
      obtain ⟨begun, blocks, pending⟩ := k
      simp only at hlt hout
      refine .step rfl ?_
      cases pending with
      | nil =>
          obtain ⟨rfl, rfl⟩ := Prod.mk.inj hout
          exact .refl
      | cons id pending =>
          rw [List.length_cons] at hlt
          rw [buildPending] at hout
          rw [Call.choose]
          simp only
          by_cases hc : Entries.contains id blocks = true
          · rw [if_pos hc] at hout ⊢
            exact ih ⟨begun, blocks, pending⟩ log log' r (by simp only; omega) hout
          · rw [if_neg hc] at hout ⊢
            cases hd : Entries.find? id c.wiring.definitions with
            | none =>
                rw [hd] at hout
                simp only [note, Build.outcome_bind, Build.outcome_noted] at hout
                exact ih ⟨begun, blocks, pending⟩ _ log' r (by simp only; omega) hout
            | some d =>
                rw [hd] at hout
                simp only [note, Build.outcome_bind, Build.outcome_noted] at hout
                refine (leads_of_build hchild _ id d log).trans ?_
                generalize Build.outcome (c.build child d) log = built at hout ⊢
                obtain ⟨rb, after⟩ := built
                cases rb with
                | error e =>
                    obtain ⟨rfl, rfl⟩ := Prod.mk.inj hout
                    exact .refl
                | ok b =>
                    refine ih ⟨id :: begun, _, _⟩ _ log' r ?_ hout
                    have hpay := c.wiring.found_length_le b (Bool.eq_false_iff.mpr hc) pending
                    simp only
                    omega

theorem leads_of_buildFrom (hchild : c.Answers child opened waiting) {start : String}
    {log log' : BuildLog} {r : Except BuildError BlockMap}
    (hout : Build.outcome (c.buildFrom child start) log = (r, log')) :
    c.Leads ⟨opened, waiting, (.choosing (.start start), log)⟩
      ⟨opened, waiting, (.ended r, log')⟩ :=
  leads_of_call hchild _ (.start start) log log' r (c.wiring.start_length_lt start) hout

/-- A body that is open already is turned down. -/
theorem advance_opened (f : Waiting) (log : BuildLog) (waiting : List Waiting)
    (hentry : c.bodyEntry f.block = some f.entry) (hopen : f.entry ∈ opened) :
    c.advance ⟨opened, waiting, (.building f.call f.id f.block, log)⟩
      = some ⟨opened, waiting, (.ended (.error (.recursiveBody f.entry)),
          { log with bodies := log.bodies.push f.entry })⟩ := by
  simp only [advance, hentry, if_pos (List.contains_iff_mem.mpr hopen)]

/-- Any other body is opened. -/
theorem advance_new (f : Waiting) (log : BuildLog) (waiting : List Waiting)
    (hentry : c.bodyEntry f.block = some f.entry) (hnew : f.entry ∉ opened) :
    c.advance ⟨opened, waiting, (.building f.call f.id f.block, log)⟩
      = some ⟨f.entry :: opened, f :: waiting, (.choosing (.start f.entry),
          { log with bodies := log.bodies.push f.entry })⟩ := by
  have hopen : ¬ opened.contains f.entry = true := fun h => hnew (List.contains_iff_mem.mp h)
  simp only [advance, hentry, if_neg hopen]

/-- Bodies are built as long as the depth leaves room for the entries that are not open. -/
theorem buildBody_answers :
    ∀ (depth : Nat) (opened : List String) (waiting : List Waiting), opened.Nodup →
      (∀ x ∈ opened, x ∈ c.wiring.executorTargets) → c.bodyDepth ≤ depth + opened.length →
      c.Answers (c.buildBody depth opened) opened waiting := by
  intro depth
  induction depth with
  | zero =>
      intro opened waiting hnodup htargets hle
      have hlen := Wiring.length_le_edgeCount hnodup htargets
      rw [bodyDepth] at hle
      omega
  | succ depth ih =>
      intro opened waiting hnodup htargets hle f log log' r hentry hout
      rw [buildBody] at hout
      by_cases hopen : opened.contains f.entry = true
      · rw [if_pos hopen] at hout
        obtain ⟨rfl, rfl⟩ := Prod.mk.inj hout
        have hstep := advance_opened f log waiting hentry (List.contains_iff_mem.mp hopen)
        exact .step hstep .refl
      · rw [if_neg hopen] at hout
        have hnew : f.entry ∉ opened := fun hmem => hopen (List.contains_iff_mem.mpr hmem)
        have hbody : c.Answers (c.buildBody depth (f.entry :: opened)) (f.entry :: opened)
            (f :: waiting) := by
          refine ih _ _ (List.nodup_cons.mpr ⟨hnew, hnodup⟩) ?_ ?_
          · intro x hx
            rcases List.mem_cons.mp hx with rfl | hx
            · exact Wiring.mem_executorTargets (successor_of_bodyEntry hentry)
            · exact htargets x hx
          · rw [List.length_cons]
            omega
        have hstep := advance_new f log waiting hentry hnew
        exact .step hstep ((leads_of_buildFrom hbody hout).tail rfl)

theorem exists_moment_of_leads {start : String} {log : BuildLog} {m : Moment}
    (h : c.Leads ⟨[], [], (.choosing (.start start), log)⟩ m) :
    ∃ n, c.moment start log n = some m := by
  induction h with
  | refl => exact ⟨0, rfl⟩
  | tail _ hnext ih =>
      obtain ⟨n, hn⟩ := ih
      exact ⟨n + 1, by rw [moment, hn, Option.bind_some, hnext]⟩

/-- **Compiling terminates.**  From any block of any wiring the machine comes to a moment after
which there is none, with the result and the log of `buildGraph`.  At every moment before, the
entries that are open are different targets of `executor` slots, one for every call that waits for a
body, and no call takes up an id twice. -/
theorem buildGraph_terminates (c : Compiler) (start : String) (log : BuildLog) :
    (∃ n r log', c.moment start log n = some ⟨[], [], (.ended r, log')⟩ ∧
      c.moment start log (n + 1) = none ∧ Build.outcome (c.buildGraph start) log = (r, log')) ∧
    ∀ n m, c.moment start log n = some m →
      m.opened.Nodup ∧
      (∀ x ∈ m.opened, ∃ id, c.wiring.successor id Slot.executor = some x) ∧
      m.waiting.map Waiting.entry = m.opened ∧
      m.waiting.length ≤ {x | ∃ id, c.wiring.successor id Slot.executor = some x}.ncard ∧
      ∀ k ∈ m.calls, k.begun.Nodup := by
  constructor
  · have hbodies : c.Answers c.buildChild [] [] :=
      buildBody_answers c.bodyDepth [] [] List.nodup_nil (by simp) (by simp)
    have hout : Build.outcome (c.buildFrom c.buildChild start) log = _ := rfl
    obtain ⟨n, hn⟩ := exists_moment_of_leads (leads_of_buildFrom hbodies hout)
    exact ⟨n, _, _, hn, by rw [moment, hn, Option.bind_some, advance], rfl⟩
  · intro n m hm
    have hsteady := moment_steady start log n m hm
    exact ⟨hsteady.nodup, hsteady.targets, hsteady.opened.symm, hsteady.length_le,
      hsteady.begun_nodup⟩

end FlowGraph.Compiler

namespace FlowGraph

/-- A wiring with a transaction that is its own body. -/
def Wiring.circular : Wiring :=
  (({} : Wiring).addBlocks [⟨"tx", .transaction, .null, none⟩]).2.addEdges
    [⟨"", "tx", "tx", none, Slot.executor⟩]

theorem Compiler.buildGraph_terminates_circular :
    ∃ m, Compiler.moment ⟨.circular, true⟩ "tx" {} 3 = some m ∧ m.opened = ["tx"] ∧
      m.waiting.map Waiting.entry = ["tx"] ∧ m.calls.map Call.begun = [["tx"], ["tx"]] ∧
      (∀ k ∈ m.calls, k.begun.Nodup) ∧
      ∃ n r log', Compiler.moment ⟨.circular, true⟩ "tx" {} n = some ⟨[], [], (.ended r, log')⟩ ∧
        Build.outcome (Compiler.buildGraph ⟨.circular, true⟩ "tx") {} = (r, log') := by
  obtain ⟨⟨n, r, log', hend, -, hresult⟩, hmoments⟩ :=
    Compiler.buildGraph_terminates ⟨.circular, true⟩ "tx" {}
  obtain ⟨-, -, hwaiting, -, hbegun⟩ := hmoments 3 _ rfl
  exact ⟨_, rfl, rfl, hwaiting, rfl, hbegun, n, r, log', hend, hresult⟩

end FlowGraph
