/-
Bodies inside of bodies.

A body is compiled while the bodies around it are still open.  Two things make this come
to an end.  An entry that is open already is turned down, so the open entries are all
different; and every one of them is the target of an `executor` slot, so there are no more
of them than edges.  The depth that compiling is given therefore never runs out.

The open entries also tell what is wrong with a graph.  Each of them needs the body that
is to be compiled.  So an entry that is met again while it is open needs itself, and that
is the fault that is reported.  The other way round, a body that could be compiled needs
none of the open entries and not itself, and the same holds of all bodies it needs, since
they were compiled while it was open.  Hence a graph compiles only if no body needs
itself.
-/
import FlowGraph.Proofs.Compile.Worklist
import FlowGraph.Proofs.Settings

namespace FlowGraph

/-- A compiled body lies somewhere within a compiled graph, the graph itself among them. -/
inductive BlockMap.Within : String → BlockMap → String → BlockMap → Prop
  | self {start : String} {blocks : BlockMap} : Within start blocks start blocks
  | body {start entry start' id : String} {blocks inner blocks' : BlockMap} {b : Block}
      (hb : Entries.find? id blocks = some b) (hbody : b.body? = some (entry, inner))
      (h : Within entry inner start' blocks') : Within start blocks start' blocks'

theorem BlockMap.Within.trans {start start' start'' : String} {blocks blocks' blocks'' : BlockMap}
    (h : Within start blocks start' blocks') (h' : Within start' blocks' start'' blocks'') :
    Within start blocks start'' blocks'' := by
  induction h with
  | self => exact h'
  | body hb hbody _ ih => exact .body hb hbody (ih h')

/-- What is wrong with what can be reached from a block. -/
inductive Net.Faulty (n : Net) (validate : Bool) (start : String) : BuildError → Prop
  | invalidConfig {id text : String} {d : BlockDef} (hr : n.Reaches start id)
      (hd : n.block? id = some d) (h : d.Rejected validate text) :
      Faulty n validate start (.invalidConfig id d.kind text)
  | recursiveBody {x : String} (hx : n.Depends start x) (h : n.Depends x x) :
      Faulty n validate start (.recursiveBody x)

/-- What is wrong with a body is wrong with everything that needs it. -/
theorem Net.Faulty.of_depends {n : Net} {validate : Bool} {start entry : String} {e : BuildError}
    (h : n.Depends start entry) (he : n.Faulty validate entry e) : n.Faulty validate start e := by
  cases he with
  | invalidConfig hr hd hrej => exact .invalidConfig (h.reaches hr) hd hrej
  | recursiveBody hx hloop => exact .recursiveBody (h.trans hx) hloop

/-! ### How many bodies can be open -/

namespace Wiring

/-- The targets of the `executor` slots. -/
def executorTargets (w : Wiring) : List String :=
  w.edges.filterMap fun e => Entries.find? Slot.executor e.2

theorem mem_executorTargets {w : Wiring} {id x : String}
    (h : w.successor id Slot.executor = some x) :
    x ∈ w.executorTargets := by
  rw [successor] at h
  rw [executorTargets, List.mem_filterMap]
  generalize w.edges = es at h ⊢
  induction es with
  | nil => simp at h
  | cons e rest ih =>
      obtain ⟨k, out⟩ := e
      rw [Entries.find?_cons] at h
      split at h
      · exact ⟨(k, out), List.mem_cons_self .., h⟩
      · obtain ⟨e', he', hx⟩ := ih h
        exact ⟨e', List.mem_cons_of_mem _ he', hx⟩

theorem length_executorTargets_le (w : Wiring) : w.executorTargets.length ≤ w.edgeCount := by
  have hall : ∀ (es : Entries (Entries String)) (k : Nat),
      (es.filterMap fun e => Entries.find? Slot.executor e.2).length + k
        ≤ es.foldl (fun n e => n + e.2.length) k := by
    intro es
    induction es with
    | nil => intro k; simp
    | cons e rest ih =>
        intro k
        have hrest := ih (k + e.2.length)
        rw [List.filterMap_cons, List.foldl_cons]
        cases hx : Entries.find? Slot.executor e.2 with
        | none =>
            simp only
            omega
        | some x =>
            have hpos : 0 < e.2.length := by
              cases hout : e.2 with
              | nil => simp [hout] at hx
              | cons _ _ => simp
            simp only [List.length_cons]
            omega
  have := hall w.edges 0
  rw [executorTargets, edgeCount]
  omega

/-- Different targets of `executor` slots are no more than edges. -/
theorem length_le_edgeCount {w : Wiring} {opened : List String} (hnodup : opened.Nodup)
    (htargets : ∀ x ∈ opened, x ∈ w.executorTargets) : opened.length ≤ w.edgeCount :=
  Nat.le_trans (List.subperm_of_subset hnodup htargets).length_le w.length_executorTargets_le

end Wiring

/-- The bodies that are open while a body is compiled. -/
structure Opened (w : Wiring) (opened : List String) (entry : String) : Prop where
  nodup : opened.Nodup
  targets : ∀ x ∈ opened, x ∈ w.executorTargets
  /-- Every open body needs the one that is compiled. -/
  needed : ∀ x ∈ opened, w.net.Depends x entry
  entry : entry ∈ w.executorTargets

namespace Opened

variable {w : Wiring} {opened : List String} {entry next : String}

theorem init (h : entry ∈ w.executorTargets) : Opened w [] entry :=
  ⟨List.nodup_nil, by simp, by simp, h⟩

theorem length_le (h : Opened w opened entry) : opened.length ≤ w.edgeCount :=
  Wiring.length_le_edgeCount h.nodup h.targets

/-- A body that is not open yet is opened for the bodies that it needs. -/
theorem push (h : Opened w opened entry) (hnew : entry ∉ opened) (hd : w.net.Depends entry next) :
    Opened w (entry :: opened) next := by
  refine ⟨List.nodup_cons.mpr ⟨hnew, h.nodup⟩, ?_, ?_, ?_⟩
  · intro x hx
    rcases List.mem_cons.mp hx with rfl | hx
    · exact h.entry
    · exact h.targets x hx
  · intro x hx
    rcases List.mem_cons.mp hx with rfl | hx
    · exact hd
    · exact (h.needed x hx).trans hd
  · obtain ⟨id, b, -, -, -, ht⟩ := hd
    exact Wiring.mem_executorTargets ht

end Opened

/-! ### Blocks with bodies -/

namespace Compiler

variable {c : Compiler} {child : BodyBuilder} {inside inside' : String → BlockMap → Prop}
variable {start entry : String} {blocks : BlockMap} {fails : BuildError → Prop}

/-- Where the body of a block starts, if the block has one. -/
def bodyEntry (c : Compiler) (d : BlockDef) : Option String :=
  if d.kind.hasBody then c.wiring.successor d.id Slot.executor else none

/-- A body is needed by whatever reaches the block that owns it. -/
theorem depends_of_bodyEntry (hs : c.wiring.Sound) {id : String} {d : BlockDef}
    (hreach : c.wiring.net.Reaches start id) (hd : c.wiring.net.block? id = some d)
    (hentry : c.bodyEntry d = some entry) : c.wiring.net.Depends start entry := by
  rw [bodyEntry, hs.ids id d hd] at hentry
  split at hentry
  · rename_i hk
    exact ⟨id, d, hreach, hd, hk, hentry⟩
  · simp at hentry

/-- A block is built from its definition, with a body of which `inside` holds. -/
structure Builds (c : Compiler) (inside : String → BlockMap → Prop) (d : BlockDef) (b : Block) :
    Prop where
  realizes : b.Realizes d (c.wiring.successor d.id)
  accepted : d.Accepted c.validate
  entry : b.body?.map Prod.fst = c.bodyEntry d
  inside : ∀ entry inner, b.body? = some (entry, inner) → inside entry inner

theorem Builds.mono {d : BlockDef} {b : Block} (h : c.Builds inside d b)
    (himp : ∀ entry inner, inside entry inner → inside' entry inner) : c.Builds inside' d b :=
  ⟨h.realizes, h.accepted, h.entry, fun entry inner hb => himp _ _ (h.inside entry inner hb)⟩

theorem body_ends (d : BlockDef)
    (hchild : ∀ entry, c.bodyEntry d = some entry → Build.Ends (child entry) (inside entry) fails) :
    Build.Ends (c.body child d)
      (fun body => body.map Prod.fst = c.bodyEntry d ∧
        ∀ entry inner, body = some (entry, inner) → inside entry inner) fails := by
  rw [bodyEntry] at hchild ⊢
  rw [body]
  by_cases hk : d.kind.hasBody = true
  · simp only [hk, if_true] at hchild ⊢
    cases ht : c.wiring.successor d.id Slot.executor with
    | none => exact .pure ⟨rfl, by simp⟩
    | some entry =>
        refine .bind (.noted _) fun _ _ => .bind (hchild entry ht) fun inner hinner => ?_
        refine .pure ⟨rfl, ?_⟩
        intro entry' inner' heq
        simp only [Option.some.injEq, Prod.mk.injEq] at heq
        obtain ⟨rfl, rfl⟩ := heq
        exact hinner
  · simp only [hk, Bool.false_eq_true, if_false]
    exact .pure ⟨rfl, by simp⟩

theorem build_ends {id : String} {d : BlockDef} (hs : c.wiring.Sound)
    (hreach : c.wiring.net.Reaches start id) (hd : c.wiring.net.block? id = some d)
    (hchild : ∀ entry, c.wiring.net.Depends start entry →
      Build.Ends (child entry) (inside entry) (c.wiring.net.Faulty c.validate entry)) :
    Build.Ends (c.build child d) (c.Builds inside d) (c.wiring.net.Faulty c.validate start) := by
  have hid : d.id = id := hs.ids id d hd
  have hchildren : ∀ entry, c.bodyEntry d = some entry →
      Build.Ends (child entry) (inside entry) (c.wiring.net.Faulty c.validate start) := by
    intro entry hentry
    have hdep := depends_of_bodyEntry hs hreach hd hentry
    exact (hchild entry hdep).mono (fun _ h => h) fun _ h => h.of_depends hdep
  rw [build]
  refine .bind (body_ends d hchildren) fun body hbody => .lift ?_ ?_
  · intro b hb
    obtain ⟨hreal, hacc, hbody?⟩ := block_ok hb
    obtain ⟨hentry, hinside⟩ := hbody
    by_cases hk : d.kind.hasBody = true
    · rw [if_pos hk] at hbody?
      exact ⟨hreal, hacc, by rw [hbody?, hentry], fun e inner he => hinside e inner (hbody? ▸ he)⟩
    · rw [if_neg hk] at hbody?
      refine ⟨hreal, hacc, ?_, by simp [hbody?]⟩
      rw [hbody?, bodyEntry, if_neg hk]
      rfl
  · intro e he
    obtain ⟨text, rfl, hrej⟩ := block_error he
    rw [hid]
    exact .invalidConfig hreach hd hrej

/-- Everything that is reached is built, around the bodies that are needed. -/
theorem buildFrom_bodies (hs : c.wiring.Sound)
    (hchild : ∀ entry, c.wiring.net.Depends start entry →
      Build.Ends (child entry) (inside entry) (c.wiring.net.Faulty c.validate entry)) :
    Build.Ends (c.buildFrom child start) (Compiled c.wiring.net (c.Builds inside) start)
      (c.wiring.net.Faulty c.validate start) :=
  buildFrom_ends hs fun _ _ hreach hd => build_ends hs hreach hd hchild

/-- A body that is needed was compiled. -/
theorem inside_of_depends (hs : c.wiring.Sound)
    (h : Compiled c.wiring.net (c.Builds inside) start blocks)
    (hdep : c.wiring.net.Depends start entry) : ∃ inner, inside entry inner := by
  obtain ⟨id, d, hreach, hd, hk, ht⟩ := hdep
  obtain ⟨b, hb⟩ := Entries.contains_iff.mp ((h.contains_iff id).mpr hreach)
  obtain ⟨d', hd', hbuilds⟩ := h.built id b hb
  obtain rfl : d = d' := Option.some.inj (hd ▸ hd')
  have hid : d.id = id := hs.ids id d hd
  have hentry := hbuilds.entry
  have hsuccessor : c.wiring.successor id Slot.executor = some entry := ht
  rw [bodyEntry, if_pos hk, hid, hsuccessor] at hentry
  obtain ⟨⟨e, inner⟩, hbody, rfl⟩ := Option.map_eq_some_iff.mp hentry
  exact ⟨inner, hbuilds.inside _ _ hbody⟩

/-! ### All bodies -/

/-- At every depth exactly the reached blocks are built, each from its definition. -/
def Layered (c : Compiler) (start : String) (blocks : BlockMap) : Prop :=
  ∀ start' blocks', BlockMap.Within start blocks start' blocks' →
    Compiled c.wiring.net (c.Builds fun _ _ => True) start' blocks'

namespace Layered

theorem body (h : c.Layered start blocks) {id : String} {b : Block} {inner : BlockMap}
    (hb : Entries.find? id blocks = some b) (hbody : b.body? = some (entry, inner)) :
    c.Layered entry inner :=
  fun start' blocks' hin => h start' blocks' (.body hb hbody hin)

/-- A body is needed by the graph or body around it. -/
theorem depends (h : c.Layered start blocks) (hs : c.wiring.Sound) {id : String} {b : Block}
    {inner : BlockMap} (hb : Entries.find? id blocks = some b)
    (hbody : b.body? = some (entry, inner)) : c.wiring.net.Depends start entry := by
  have hcompiled := h start blocks .self
  obtain ⟨d, hd, hbuilds⟩ := hcompiled.built id b hb
  have hentry := hbuilds.entry
  rw [hbody] at hentry
  have hreach := (hcompiled.contains_iff id).mp (Entries.contains_of_find? hb)
  exact depends_of_bodyEntry hs hreach hd hentry.symm

/-- The blocks of a body are reached from the start of everything around it. -/
theorem reaches (hs : c.wiring.Sound) {start' : String} {blocks' : BlockMap}
    (hin : BlockMap.Within start blocks start' blocks') (h : c.Layered start blocks) {id : String}
    (hid : Entries.contains id blocks' = true) : c.wiring.net.Reaches start id := by
  induction hin with
  | self => exact ((h _ _ .self).contains_iff id).mp hid
  | body hb hbody _ ih => exact (h.depends hs hb hbody).reaches (ih (h.body hb hbody) hid)

/-- A block in some body is what the definition says that is reached under its id. -/
theorem realizes (hs : c.wiring.Sound) {start' : String} {blocks' : BlockMap}
    (hin : BlockMap.Within start blocks start' blocks') (h : c.Layered start blocks) {id : String}
    {b : Block} (hb : Entries.find? id blocks' = some b) :
    ∃ d, c.wiring.net.Reaches start id ∧ c.wiring.net.block? id = some d ∧
      b.Realizes d (c.wiring.net.target? id) := by
  obtain ⟨d, hd, hbuilds⟩ := (h start' blocks' hin).built id b hb
  exact ⟨d, reaches hs hin h (Entries.contains_of_find? hb), hd,
    hs.ids id d hd ▸ hbuilds.realizes⟩

end Layered

theorem layered_of_bodies (h : Compiled c.wiring.net (c.Builds inside) start blocks)
    (hinside : ∀ entry inner, inside entry inner → c.Layered entry inner) :
    c.Layered start blocks := by
  intro start' blocks' hwithin
  cases hwithin with
  | self =>
      refine ⟨h.distinct, h.contains_iff, ?_⟩
      intro id b hb
      obtain ⟨d, hd, hbuilds⟩ := h.built id b hb
      exact ⟨d, hd, hbuilds.mono fun _ _ _ => trivial⟩
  | body hb hbody hwithin =>
      obtain ⟨d, -, hbuilds⟩ := h.built _ _ hb
      exact hinside _ _ (hbuilds.inside _ _ hbody) _ _ hwithin

/-- A body could be compiled while others were open. -/
structure BodyBuilt (c : Compiler) (opened : List String) (entry : String) (blocks : BlockMap) :
    Prop where
  layered : c.Layered entry blocks
  closed : entry ∉ opened
  grounded : ¬ c.wiring.net.Depends entry entry

theorem buildBody_ends (hs : c.wiring.Sound) :
    ∀ (depth : Nat) (opened : List String) (entry : String), Opened c.wiring opened entry →
      c.bodyDepth ≤ depth + opened.length →
      Build.Ends (c.buildBody depth opened entry) (c.BodyBuilt opened entry)
        (c.wiring.net.Faulty c.validate entry) := by
  intro depth
  induction depth with
  | zero =>
      intro opened entry ho hdepth
      have := ho.length_le
      rw [bodyDepth] at hdepth
      omega
  | succ depth ih =>
      intro opened entry ho hdepth
      rw [buildBody]
      by_cases hopen : opened.contains entry = true
      · rw [if_pos hopen]
        have hloop := ho.needed entry (List.contains_iff_mem.mp hopen)
        exact .throw (.recursiveBody hloop hloop)
      · rw [if_neg hopen]
        have hnew : entry ∉ opened := fun h => hopen (List.contains_iff_mem.mpr h)
        have hbodies : Build.Ends (c.buildFrom (c.buildBody depth (entry :: opened)) entry)
            (Compiled c.wiring.net (c.Builds (c.BodyBuilt (entry :: opened))) entry)
            (c.wiring.net.Faulty c.validate entry) :=
          buildFrom_bodies hs fun next hdep =>
            ih (entry :: opened) next (ho.push hnew hdep) (by rw [List.length_cons]; omega)
        refine hbodies.mono ?_ fun _ h => h
        intro blocks hblocks
        refine ⟨layered_of_bodies hblocks fun _ _ h => h.layered, hnew, ?_⟩
        intro hself
        obtain ⟨inner, hinner⟩ := inside_of_depends hs hblocks hself
        exact hinner.closed (List.mem_cons_self ..)

/-- **How compiling from a block ends.**  If it succeeds, exactly the reached blocks are built at
every depth and no body needs itself; if it fails, the error names a fault of what is reached. -/
theorem buildGraph_ends (hs : c.wiring.Sound) (start : String) :
    Build.Ends (c.buildGraph start)
      (fun blocks => c.Layered start blocks ∧
        ∀ x, c.wiring.net.Depends start x → ¬ c.wiring.net.Depends x x)
      (c.wiring.net.Faulty c.validate start) := by
  have hbodies : Build.Ends (c.buildGraph start)
      (Compiled c.wiring.net (c.Builds (c.BodyBuilt [])) start)
      (c.wiring.net.Faulty c.validate start) := by
    refine buildFrom_bodies hs fun entry hdep => ?_
    obtain ⟨id, d, -, -, -, ht⟩ := hdep
    exact buildBody_ends hs _ _ _ (.init (Wiring.mem_executorTargets ht)) (by simp)
  refine hbodies.mono ?_ fun _ h => h
  intro blocks hblocks
  refine ⟨layered_of_bodies hblocks fun _ _ h => h.layered, ?_⟩
  intro x hx
  obtain ⟨inner, hinner⟩ := inside_of_depends hs hblocks hx
  exact hinner.grounded

end Compiler

end FlowGraph
