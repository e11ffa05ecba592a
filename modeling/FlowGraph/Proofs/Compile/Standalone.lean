/-
Bodies do not depend on where they are compiled.

A body is compiled while others are open, and how many they are and which decides only
whether the body is turned down.  So whatever a body compiles to with some bodies open, it
compiles to with fewer of them open, and with none; `buildBody_passes` has said so.

Hence every body within a compiled graph is what its entry compiles to on its own.  Two
blocks of one definition are then equal, wherever they stand, and a body and the blocks
around it have their common blocks in common down to the last body.
-/
import FlowGraph.Proofs.Compile.Passes

namespace FlowGraph

namespace Compiler

open Build

variable {c : Compiler} {child : BodyBuilder}

/-- What was written to the log before plays no part. -/
theorem buildGraph_passes (start : String) : Passes (c.buildGraph start) (c.buildGraph start) :=
  (Eases.refl c).buildGraph start

/-- A body that compiles is what its entry compiles to on its own. -/
theorem buildBody_passes_buildGraph {depth : Nat} (hle : depth ≤ c.bodyDepth + 1)
    (opened : List String) (entry : String) :
    Passes (c.buildBody depth opened entry) (c.buildGraph entry) := by
  cases depth with
  | zero => exact .throw _ _
  | succ depth =>
      rw [buildBody]
      split
      · exact .throw _ _
      · exact buildFrom_passes (.refl c)
          (buildBody_passes (.refl c) depth c.bodyDepth _ [] (by omega) (List.nil_subset _)) entry

/-! ### Blocks that stand anywhere -/

/-- Compiling from the entry on its own gives these blocks, whatever the log. -/
def Gives (c : Compiler) (entry : String) (inner : BlockMap) : Prop :=
  ∀ log, result (c.buildGraph entry) log = .ok inner

/-- A block is what is made of its definition and of what its body compiles to on its own. -/
structure Standard (c : Compiler) (d : BlockDef) (b : Block) : Prop where
  made : c.block d b.body? = .ok b
  entry : b.body?.map Prod.fst = c.bodyEntry d
  inside : ∀ entry inner, b.body? = some (entry, inner) → c.Gives entry inner

/-- Two such blocks of one definition are the same. -/
theorem Standard.unique {d : BlockDef} {b b' : Block} (h : c.Standard d b)
    (h' : c.Standard d b') : b = b' := by
  have hbody : b.body? = b'.body? := by
    have hentry := h.entry.trans h'.entry.symm
    cases hb : b.body? with
    | none =>
        rw [hb] at hentry
        exact (Option.map_eq_none_iff.mp hentry.symm).symm
    | some body =>
        obtain ⟨entry, inner⟩ := body
        rw [hb] at hentry
        obtain ⟨⟨entry', inner'⟩, hb', heq⟩ := Option.map_eq_some_iff.mp hentry.symm
        obtain rfl : entry' = entry := heq
        have hsame := (h.inside _ _ hb {}).symm.trans (h'.inside _ _ hb' {})
        rw [hb', Except.ok.inj hsame]
  exact Except.ok.inj (h.made.symm.trans (hbody ▸ h'.made))

theorem build_standard {d : BlockDef}
    (hchild : ∀ entry, Ends (child entry) (c.Gives entry) fun _ => True) :
    Ends (c.build child d) (c.Standard d) fun _ => True := by
  refine (body_ends d fun entry _ => hchild entry).bind fun body hbody =>
    .lift ?_ fun _ _ => trivial
  rintro b hb
  obtain ⟨hentry, hinside⟩ := hbody
  obtain ⟨-, -, hbody?⟩ := block_ok hb
  have hsame : b.body? = body := by
    by_cases hk : d.kind.hasBody = true
    · rw [hbody?, if_pos hk]
    · rw [bodyEntry, if_neg hk] at hentry
      rw [hbody?, if_neg hk, Option.map_eq_none_iff.mp hentry]
  exact ⟨hsame ▸ hb, hsame ▸ hentry, fun entry inner h => hinside entry inner (hsame ▸ h)⟩

/-- Compiling from a block gives exactly the reached blocks, each as it would stand anywhere. -/
theorem buildGraph_standard (hs : c.wiring.Sound) (start : String) :
    Ends (c.buildGraph start) (Compiled c.wiring.net c.Standard start) fun _ => True := by
  refine buildFrom_ends hs fun _ d _ _ => build_standard fun entry => ?_
  intro log
  cases hr : result (c.buildChild entry) log with
  | error e => exact trivial
  | ok inner =>
      exact fun log' => buildBody_passes_buildGraph (Nat.le_succ _) [] entry log log' inner hr

/-- Every body within a compiled graph is what its entry compiles to on its own. -/
theorem Gives.within (hs : c.wiring.Sound) {start start' : String} {blocks blocks' : BlockMap}
    (hin : BlockMap.Within start blocks start' blocks') (h : c.Gives start blocks) :
    c.Gives start' blocks' := by
  induction hin with
  | self => exact h
  | body hb hbody _ ih =>
      obtain ⟨d, -, hstandard⟩ := ((buildGraph_standard hs _).ok (h {})).built _ _ hb
      exact ih (hstandard.inside _ _ hbody)

/-- The blocks of a body are blocks of everything that needs the body. -/
theorem Gives.shared (hs : c.wiring.Sound) {start entry : String} {blocks inner : BlockMap}
    (h : c.Gives start blocks) (hinner : c.Gives entry inner)
    (hdep : c.wiring.net.Depends start entry) {id : String} {b : Block}
    (hb : Entries.find? id inner = some b) : Entries.find? id blocks = some b := by
  have houter := (buildGraph_standard hs start).ok (h {})
  have hbody := (buildGraph_standard hs entry).ok (hinner {})
  obtain ⟨d, hd, hstandard⟩ := hbody.built id b hb
  have hreach := hdep.reaches ((hbody.contains_iff id).mp (Entries.contains_of_find? hb))
  obtain ⟨b', hb'⟩ := Entries.contains_iff.mp ((houter.contains_iff id).mpr hreach)
  obtain ⟨d', hd', hstandard'⟩ := houter.built id b' hb'
  obtain rfl : d = d' := Option.some.inj (hd ▸ hd')
  rw [hb', hstandard.unique hstandard']

/-- **A body is the same wherever it is compiled.**  In a graph that was built from a block, and in
every body within it, a block whose kind owns a body and whose `executor` slot leads to an entry
has the body that building from this entry gives; and every block of the body is also a block of
the graph or body around it. -/
theorem body_eq_buildGraph {w : Wiring} (hw : w.Loaded) (validate : Bool) {start : String}
    {log : BuildLog} {blocks : BlockMap}
    (h : result (buildGraph ⟨w, validate⟩ start) log = .ok blocks) {start' : String}
    {blocks' : BlockMap} (hin : BlockMap.Within start blocks start' blocks') {id entry : String}
    {b : Block} (hb : Entries.find? id blocks' = some b) (hkind : b.kind.hasBody = true)
    (hentry : w.successor id Slot.executor = some entry) :
    ∃ inner, b.body? = some (entry, inner) ∧
      (∀ log', result (buildGraph ⟨w, validate⟩ entry) log' = .ok inner) ∧
      ∀ id' b', Entries.find? id' inner = some b' → Entries.find? id' blocks' = some b' := by
  let c : Compiler := ⟨w, validate⟩
  have hs : c.wiring.Sound := hw.sound
  have hgives : c.Gives start blocks := fun log' =>
    buildGraph_passes start log log' blocks h
  have hgives' : c.Gives start' blocks' := hgives.within hs hin
  have hcompiled := (buildGraph_standard hs start').ok (hgives' {})
  obtain ⟨d, hd, hstandard⟩ := hcompiled.built id b hb
  have hid : d.id = id := hs.ids id d hd
  have hk : d.kind.hasBody = true := by
    obtain ⟨hrealizes, -, -⟩ := block_ok hstandard.made
    rwa [← hrealizes.kind]
  have hbody := hstandard.entry
  rw [bodyEntry, if_pos hk, hid, show c.wiring.successor id Slot.executor = some entry from hentry,
    Option.map_eq_some_iff] at hbody
  obtain ⟨⟨entry', inner⟩, hbody, rfl⟩ := hbody
  have hinner := hstandard.inside _ _ hbody
  have hdep : c.wiring.net.Depends start' entry' :=
    ⟨id, d, (hcompiled.contains_iff id).mp (Entries.contains_of_find? hb), hd, hk, hentry⟩
  exact ⟨inner, hbody, hinner, fun _ _ hb' => hgives'.shared hs hinner hdep hb'⟩

end Compiler

/-- A wiring with a transaction inside of a transaction. -/
def Wiring.nested : Wiring :=
  (({} : Wiring).addBlocks
      [⟨"in", .entrypoint, .null, none⟩, ⟨"outer", .transaction, .null, none⟩,
       ⟨"inner", .transaction, .null, none⟩,
       ⟨"leaf", .getVar, .obj [("key", .str "x")], none⟩]).2.addEdges
    [⟨"", "in", "outer", none, Slot.source⟩, ⟨"", "outer", "inner", none, Slot.executor⟩,
     ⟨"", "inner", "leaf", none, Slot.executor⟩]

/-- The body of the inner transaction. -/
def BlockMap.innermost : BlockMap := [("leaf", .task "leaf" none (.getVar ⟨"x"⟩))]

/-- The body of the outer transaction. -/
def BlockMap.inner : BlockMap :=
  ("inner", .nested "inner" none .transaction (some ("leaf", innermost))) :: innermost

/-- The blocks that are built from the wiring. -/
def BlockMap.nested : BlockMap :=
  ("in", .task "in" (some "outer") .entrypoint) ::
    (inner ++ [("outer", .nested "outer" none .transaction (some ("inner", inner)))])

theorem Compiler.body_eq_buildGraph_nested :
    Wiring.nested.Loaded ∧
      Build.result (Compiler.buildGraph ⟨.nested, true⟩ "in") {} = .ok BlockMap.nested ∧
      BlockMap.Within "in" .nested "inner" .inner ∧
      Wiring.nested.successor "inner" Slot.executor = some "leaf" ∧
      ∃ b inner, Entries.find? "inner" BlockMap.inner = some b ∧ b.kind.hasBody = true ∧
        b.body? = some ("leaf", inner) ∧
        (∀ log', Build.result (Compiler.buildGraph ⟨.nested, true⟩ "leaf") log' = .ok inner) ∧
        ∀ id' b', Entries.find? id' inner = some b' →
          Entries.find? id' BlockMap.inner = some b' := by
  have hloaded : Wiring.nested.Loaded := .edges (.blocks .empty _) _
  have hbuilt : Build.result (Compiler.buildGraph ⟨.nested, true⟩ "in") {}
      = .ok BlockMap.nested := rfl
  have houter : Entries.find? "outer" BlockMap.nested
      = some (.nested "outer" none .transaction (some ("inner", BlockMap.inner))) := rfl
  have hinner : Entries.find? "inner" BlockMap.inner
      = some (.nested "inner" none .transaction (some ("leaf", BlockMap.innermost))) := rfl
  have hwithin : BlockMap.Within "in" .nested "inner" .inner := .body houter rfl .self
  obtain ⟨inner, hbody⟩ :=
    Compiler.body_eq_buildGraph hloaded true hbuilt hwithin hinner rfl rfl
  exact ⟨hloaded, hbuilt, hwithin, rfl, _, inner, hinner, rfl, hbody⟩

end FlowGraph
