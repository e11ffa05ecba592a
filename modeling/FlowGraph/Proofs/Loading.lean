/-
What loading leaves in a wiring.

A wiring is filled by loads of blocks and loads of edges, in any order.  A load of blocks
stops at the first one that does not fit and keeps those before it, so a load that failed
has changed the wiring too.  `Loaded` covers both, and `Sound` is what holds after any
such history.

`Tidy` is about how the edges are kept.  They stand in the order of their blocks and slots,
whatever order they came in, so they are the same as soon as they lead to the same.

For a whole graph the question is what became of it: `ofGraph_ok` says that a wiring that
was loaded from a graph has the net of the graph, and `ofGraph_error` that a graph that
cannot be loaded repeats an id or has several entrypoints.
-/
import FlowGraph.Proofs.Reach

namespace FlowGraph.Wiring

variable {w w' : Wiring} {b : BlockDef} {e : BuildError}

/-- A wiring that blocks and edges were loaded into. -/
inductive Loaded : Wiring → Prop
  | empty : Loaded {}
  | blocks {w : Wiring} (h : Loaded w) (bs : List BlockDef) : Loaded (w.addBlocks bs).2
  | edges {w : Wiring} (h : Loaded w) (es : List EdgeDef) : Loaded (w.addEdges es)

/-- What every load keeps. -/
structure Sound (w : Wiring) : Prop where
  /-- A block stands under its own id. -/
  ids : ∀ id b, Entries.find? id w.definitions = some b → b.id = id
  /-- A slot stands once among the slots of a block. -/
  slots : ∀ id out, Entries.find? id w.edges = some out → (Entries.keys out).Nodup

/-! ### One block -/

theorem addBlock_ok (h : w.addBlock b = .ok w') :
    Entries.contains b.id w.definitions = false ∧ (b.kind = .entrypoint → w.entrypoint = none) ∧
      w' = { w with
        definitions := Entries.insert b.id b w.definitions
        entrypoint := if b.kind = .entrypoint then some b.id else w.entrypoint } := by
  rw [addBlock] at h
  split at h
  · simp at h
  · rename_i hc
    refine ⟨by simpa using hc, ?_⟩
    simp only at h
    split at h
    · simp at h
    · rename_i hk hnone
      simp only [Except.ok.injEq] at h
      exact ⟨fun _ => hnone, by simp [← h, hk]⟩
    · rename_i hsome hnone
      simp only [Except.ok.injEq] at h
      have hk : b.kind ≠ .entrypoint := by
        intro hk
        cases hw : w.entrypoint with
        | none => exact hnone hk hw
        | some first => exact hsome first hk hw
      exact ⟨fun hc => absurd hc hk, by simp [← h, hk]⟩

theorem addBlock_error (h : w.addBlock b = .error e) :
    (Entries.contains b.id w.definitions = true ∧ e = .duplicateBlock b.id) ∨
      (Entries.contains b.id w.definitions = false ∧ b.kind = .entrypoint ∧
        ∃ first, w.entrypoint = some first ∧ e = .multipleEntrypoints [first, b.id]) := by
  rw [addBlock] at h
  split at h
  · rename_i hc
    simp only [Except.error.injEq] at h
    exact Or.inl ⟨hc, h.symm⟩
  · rename_i hc
    refine Or.inr ⟨by simpa using hc, ?_⟩
    simp only at h
    split at h
    · rename_i first hk hw
      simp only [Except.error.injEq] at h
      exact ⟨hk, first, hw, h.symm⟩
    · simp at h
    · simp at h

theorem Sound.addBlock (hs : w.Sound) (h : w.addBlock b = .ok w') : w'.Sound := by
  obtain ⟨-, -, rfl⟩ := addBlock_ok h
  refine ⟨?_, hs.slots⟩
  intro id b' hb'
  rw [Entries.find?_insert] at hb'
  split at hb'
  · rename_i hid
    simp only [Option.some.injEq] at hb'
    rw [← hb', hid]
  · exact hs.ids id b' hb'

theorem Sound.addBlocks :
    ∀ (bs : List BlockDef) {w : Wiring}, w.Sound → (w.addBlocks bs).2.Sound := by
  intro bs
  induction bs with
  | nil => intro w hs; exact hs
  | cons b rest ih =>
      intro w hs
      rw [Wiring.addBlocks]
      cases hb : w.addBlock b with
      | ok w' => exact ih (hs.addBlock hb)
      | error e => exact hs

/-! ### Edges -/

/-- An edge is taken where its slot is still free. -/
theorem successor_addEdge (w : Wiring) (e : EdgeDef) (id slot : String) :
    (w.addEdge e).successor id slot
      = (w.successor id slot).or
          (if e.start = id ∧ e.slot = slot then some e.target else none) := by
  simp only [successor, addEdge]
  rw [Entries.find?_insert]
  by_cases hid : id = e.start
  · subst hid
    simp only [true_and, if_true, Option.bind_some, Entries.find?_insertNew]
    by_cases hslot : slot = e.slot
    · subst hslot
      cases Entries.find? e.start w.edges with
      | none => simp
      | some out => cases hout : Entries.find? e.slot out <;> simp [hout]
    · cases Entries.find? e.start w.edges with
      | none => simp [hslot, Ne.symm hslot]
      | some out => simp [hslot, Ne.symm hslot]
  · simp [hid, Ne.symm hid]

theorem successor_addEdges : ∀ (es : List EdgeDef) (w : Wiring) (id slot : String),
    (w.addEdges es).successor id slot
      = (w.successor id slot).or
          ((es.find? fun e => e.start = id ∧ e.slot = slot).map EdgeDef.target) := by
  intro es
  induction es with
  | nil => intro w id slot; simp [addEdges]
  | cons e rest ih =>
      intro w id slot
      show ((w.addEdge e).addEdges rest).successor id slot = _
      rw [ih, successor_addEdge, List.find?_cons]
      by_cases he : e.start = id ∧ e.slot = slot
      · cases w.successor id slot <;> simp [he]
      · simp [he]

theorem Sound.addEdge (hs : w.Sound) (e : EdgeDef) : (w.addEdge e).Sound := by
  refine ⟨hs.ids, ?_⟩
  intro id out hout
  simp only [Wiring.addEdge, Entries.find?_insert] at hout
  split at hout
  · simp only [Option.some.injEq] at hout
    rw [← hout]
    refine Entries.nodup_keys_insertNew ?_
    cases hold : Entries.find? e.start w.edges with
    | none => simp [Entries.keys]
    | some slots => exact hs.slots _ _ hold
  · exact hs.slots id out hout

theorem Sound.addEdges : ∀ (es : List EdgeDef) {w : Wiring}, w.Sound → (w.addEdges es).Sound := by
  intro es
  induction es with
  | nil => intro w hs; exact hs
  | cons e rest ih => intro w hs; exact ih (hs.addEdge e)

@[simp] theorem addEdges_definitions : ∀ (es : List EdgeDef) (w : Wiring),
    (w.addEdges es).definitions = w.definitions := by
  intro es
  induction es with
  | nil => intro w; rfl
  | cons e rest ih => intro w; exact ih (w.addEdge e)

@[simp] theorem addEdges_entrypoint : ∀ (es : List EdgeDef) (w : Wiring),
    (w.addEdges es).entrypoint = w.entrypoint := by
  intro es
  induction es with
  | nil => intro w; rfl
  | cons e rest ih => intro w; exact ih (w.addEdge e)

/-- **Every history of loads leaves a sound wiring.** -/
theorem Loaded.sound (h : w.Loaded) : w.Sound := by
  induction h with
  | empty => exact ⟨by simp, by simp⟩
  | blocks _ bs ih => exact Sound.addBlocks bs ih
  | edges _ es ih => exact Sound.addEdges es ih

/-- The targets of a block are those of its slots. -/
theorem Sound.mem_targets (hs : w.Sound) {id t : String} :
    t ∈ w.targets id ↔ ∃ slot, w.successor id slot = some t := by
  rw [targets]
  simp only [successor]
  cases hout : Entries.find? id w.edges with
  | none => simp
  | some out =>
      simp only [Option.map_some, Option.getD_some, Option.bind_some]
      constructor
      · exact Entries.exists_find?_of_mem_values (hs.slots id out hout)
      · rintro ⟨slot, hslot⟩
        exact Entries.mem_values_of_find? hslot

/-! ### Edges in their order -/

/-- Blocks and their slots stand in ascending order, and only blocks with a slot are listed. -/
structure Tidy (w : Wiring) : Prop where
  edges : Entries.Sorted w.edges
  slots : ∀ id out, Entries.find? id w.edges = some out → Entries.Sorted out ∧ out ≠ []

@[simp] theorem addBlocks_edges : ∀ (bs : List BlockDef) (w : Wiring),
    (w.addBlocks bs).2.edges = w.edges := by
  intro bs
  induction bs with
  | nil => intro w; rfl
  | cons b rest ih =>
      intro w
      rw [addBlocks]
      cases hb : w.addBlock b with
      | error e => rfl
      | ok w' =>
          obtain ⟨-, -, rfl⟩ := addBlock_ok hb
          exact ih _

theorem Tidy.addEdge (ht : w.Tidy) (e : EdgeDef) : (w.addEdge e).Tidy := by
  refine ⟨ht.edges.insert, ?_⟩
  intro id out hout
  simp only [Wiring.addEdge, Entries.find?_insert] at hout
  split at hout
  · simp only [Option.some.injEq] at hout
    subst hout
    refine ⟨?_, fun hnil => ?_⟩
    · cases hold : Entries.find? e.start w.edges with
      | none => exact Entries.Sorted.nil.insertNew
      | some slots => exact (ht.slots _ _ hold).1.insertNew
    · have hslot : Entries.contains e.slot (Entries.insertNew e.slot e.target
          ((Entries.find? e.start w.edges).getD [])) = true := by
        simp [Entries.contains, Entries.find?_insertNew]
      rw [hnil] at hslot
      exact Bool.false_ne_true hslot
  · exact ht.slots id out hout

theorem Tidy.addEdges : ∀ (es : List EdgeDef) {w : Wiring}, w.Tidy → (w.addEdges es).Tidy := by
  intro es
  induction es with
  | nil => intro w ht; exact ht
  | cons e rest ih => intro w ht; exact ih (ht.addEdge e)

theorem Loaded.tidy (h : w.Loaded) : w.Tidy := by
  induction h with
  | empty => exact ⟨.nil, by simp⟩
  | blocks _ bs ih => exact ⟨by simpa using ih.edges, by simpa using ih.slots⟩
  | edges _ es ih => exact Tidy.addEdges es ih

/-- **Edges are kept in one way only**, however they were loaded: what the slots lead to decides
it. -/
theorem Tidy.edges_eq (h : w.Tidy) (h' : w'.Tidy)
    (hsame : ∀ id slot, w.successor id slot = w'.successor id slot) : w.edges = w'.edges := by
  -- A block that only one of them lists would have a slot that leads somewhere in that one only.
  have hlisted : ∀ {v v' : Wiring} {id out}, v.Tidy →
      (∀ slot, v.successor id slot = v'.successor id slot) →
      Entries.find? id v.edges = some out → Entries.find? id v'.edges ≠ none := by
    intro v v' id out ht hslots hout hnone
    obtain ⟨-, hfilled⟩ := ht.slots id out hout
    cases out with
    | nil => exact hfilled rfl
    | cons e rest =>
        obtain ⟨slot, target⟩ := e
        have hslot := hslots slot
        rw [successor, successor, hout, hnone] at hslot
        simp at hslot
  refine h.edges.ext h'.edges fun id => ?_
  cases hout : Entries.find? id w.edges with
  | none =>
      cases hout' : Entries.find? id w'.edges with
      | none => rfl
      | some out' => exact absurd hout (hlisted h' (fun slot => (hsame id slot).symm) hout')
  | some out =>
      cases hout' : Entries.find? id w'.edges with
      | none => exact absurd hout' (hlisted h (hsame id) hout)
      | some out' =>
          refine congrArg some ((h.slots id out hout).1.ext (h'.slots id out' hout').1 fun slot => ?_)
          have hslot := hsame id slot
          rwa [successor, successor, hout, hout'] at hslot

/-! ### A whole graph -/

/-- The ids of the entrypoints among some blocks. -/
def entrypointsOf (bs : List BlockDef) : List String :=
  (bs.filter fun b => b.kind = .entrypoint).map BlockDef.id

/-- What a load of blocks does that comes to its end. -/
structure Extends (w : Wiring) (bs : List BlockDef) (w' : Wiring) : Prop where
  distinct : (Entries.keys w.definitions).Nodup →
    (Entries.keys w.definitions ++ bs.map BlockDef.id).Nodup
  definitions : ∀ id, Entries.find? id w'.definitions
    = (Entries.find? id w.definitions).or (bs.find? fun b => b.id = id)
  entrypoint : w'.entrypoint.toList = w.entrypoint.toList ++ entrypointsOf bs
  edges : w'.edges = w.edges

theorem addBlocks_ok : ∀ (bs : List BlockDef) {w w' : Wiring},
    w.addBlocks bs = (none, w') → w.Extends bs w' := by
  intro bs
  induction bs with
  | nil =>
      intro w w' h
      simp only [addBlocks, Prod.mk.injEq, true_and] at h
      subst h
      exact ⟨by simp, by simp, by simp [entrypointsOf], rfl⟩
  | cons b rest ih =>
      intro w w' h
      rw [addBlocks] at h
      cases hb : w.addBlock b with
      | error e => simp [hb] at h
      | ok w₁ =>
          simp only [hb] at h
          obtain ⟨hfresh, hnone, rfl⟩ := addBlock_ok hb
          obtain ⟨hdistinct, hdefs, hentry, hedges⟩ := ih h
          have hperm : (Entries.keys (Entries.insert b.id b w.definitions)).Perm
              (b.id :: Entries.keys w.definitions) := Entries.keys_insert_perm hfresh
          have hnew : b.id ∉ Entries.keys w.definitions := fun hc =>
            absurd (Entries.contains_iff_mem_keys.mpr hc) (by simp [hfresh])
          refine ⟨?_, ?_, ?_, hedges⟩
          · intro hnd
            have := hdistinct (hperm.nodup_iff.mpr (List.nodup_cons.mpr ⟨hnew, hnd⟩))
            have hall : (Entries.keys (Entries.insert b.id b w.definitions)
                ++ rest.map BlockDef.id).Perm
                (Entries.keys w.definitions ++ (b :: rest).map BlockDef.id) :=
              (hperm.append_right _).trans List.perm_middle.symm
            exact hall.nodup_iff.mp this
          · intro id
            rw [hdefs id, Entries.find?_insert, List.find?_cons]
            by_cases hid : id = b.id
            · subst hid
              rw [Entries.not_contains_iff.mp hfresh]
              simp
            · simp [hid, Ne.symm hid]
          · rw [hentry]
            by_cases hk : b.kind = .entrypoint
            · simp [hk, hnone hk, entrypointsOf]
            · simp [hk, entrypointsOf]

theorem addBlocks_error : ∀ (bs : List BlockDef) {w w' : Wiring}, w.addBlocks bs = (some e, w') →
    (∃ id, e = .duplicateBlock id ∧
        2 ≤ (Entries.keys w.definitions ++ bs.map BlockDef.id).count id) ∨
      2 ≤ (w.entrypoint.toList ++ entrypointsOf bs).length := by
  intro bs
  induction bs with
  | nil => intro w w' h; simp [addBlocks] at h
  | cons b rest ih =>
      intro w w' h
      rw [addBlocks] at h
      cases hb : w.addBlock b with
      | error e' =>
          simp only [hb, Prod.mk.injEq, Option.some.injEq] at h
          obtain ⟨rfl, rfl⟩ := h
          rcases addBlock_error hb with ⟨hc, rfl⟩ | ⟨-, hk, first, hw, rfl⟩
          · have := List.count_pos_iff.mpr (Entries.contains_iff_mem_keys.mp hc)
            refine Or.inl ⟨b.id, rfl, ?_⟩
            rw [List.map_cons, List.count_append, List.count_cons_self]
            omega
          · refine Or.inr ?_
            simp [hw, hk, entrypointsOf]
      | ok w₁ =>
          simp only [hb] at h
          obtain ⟨hfresh, hnone, rfl⟩ := addBlock_ok hb
          have hperm : (Entries.keys (Entries.insert b.id b w.definitions)).Perm
              (b.id :: Entries.keys w.definitions) := Entries.keys_insert_perm hfresh
          rcases ih h with ⟨id, rfl, hcount⟩ | hlen
          · refine Or.inl ⟨id, rfl, ?_⟩
            rw [List.count_append, hperm.count_eq] at hcount
            rw [List.map_cons, List.count_append]
            simp only [List.count_cons] at hcount ⊢
            omega
          · refine Or.inr ?_
            by_cases hk : b.kind = .entrypoint
            · simpa [hk, hnone hk, entrypointsOf] using hlen
            · simpa [hk, entrypointsOf] using hlen

/-- **A wiring that was loaded from a graph has the net of the graph**, and the graph repeats no id
and has at most the one entrypoint of the wiring. -/
theorem ofGraph_ok {g : Graph} (h : ofGraph g = .ok w) :
    w.Loaded ∧ w.net = g.net ∧ (g.blocks.map BlockDef.id).Nodup ∧
      g.entrypoints = w.entrypoint.toList := by
  rw [ofGraph] at h
  split at h
  · simp at h
  · split at h
    · simp at h
    · rename_i w₁ hload
      simp only [Except.ok.injEq] at h
      subst h
      obtain ⟨hdistinct, hdefs, hentry, hedges⟩ := addBlocks_ok g.blocks hload
      have hw₁ : w₁ = (({} : Wiring).addBlocks g.blocks).2 := by rw [hload]
      refine ⟨.edges (hw₁ ▸ .blocks .empty g.blocks) g.edges, ?_, ?_, ?_⟩
      · have hblock : (fun id => Entries.find? id w₁.definitions)
            = fun id => g.blocks.find? fun b => b.id = id := by
          funext id
          simpa using hdefs id
        have htarget : (w₁.addEdges g.edges).successor
            = fun id slot =>
                (g.edges.find? fun e => e.start = id ∧ e.slot = slot).map EdgeDef.target := by
          funext id slot
          rw [successor_addEdges]
          simp [successor, hedges]
        rw [net, Graph.net, addEdges_definitions, hblock, htarget]
      · simpa [Entries.keys] using hdistinct (by simp [Entries.keys])
      · rw [addEdges_entrypoint, hentry]
        rfl

/-- A graph that cannot be loaded repeats an id or has several entrypoints. -/
theorem ofGraph_error {g : Graph} (h : ofGraph g = .error e) :
    (e = .multipleEntrypoints g.entrypoints ∧ 2 ≤ g.entrypoints.length) ∨
      ∃ id, e = .duplicateBlock id ∧ 2 ≤ (g.blocks.map BlockDef.id).count id := by
  rw [ofGraph] at h
  split at h
  · rename_i a b rest hg
    simp only [Except.error.injEq] at h
    exact Or.inl ⟨h.symm, by rw [hg]; simp⟩
  · rename_i hfew
    split at h
    · rename_i e' w₁ hload
      simp only [Except.error.injEq] at h
      subst h
      rcases addBlocks_error g.blocks hload with hdup | hmany
      · exact Or.inr (by simpa [Entries.keys] using hdup)
      · -- The graph was seen to have no two entrypoints before its blocks were loaded.
        exfalso
        have hlen : 2 ≤ g.entrypoints.length := hmany
        obtain ⟨a, b, rest, hg⟩ : ∃ a b rest, g.entrypoints = a :: b :: rest := by
          generalize g.entrypoints = ids at hlen
          cases ids with
          | nil => simp at hlen
          | cons a ids =>
              cases ids with
              | nil => simp at hlen
              | cons b rest => exact ⟨a, b, rest, rfl⟩
        exact hfew a b rest hg
    · simp at h

/-- A graph that repeats no id and has at most one entrypoint can be loaded. -/
theorem exists_ofGraph {g : Graph} (hd : (g.blocks.map BlockDef.id).Nodup)
    (hone : g.entrypoints.length ≤ 1) : ∃ w, ofGraph g = .ok w := by
  cases hload : ofGraph g with
  | ok w => exact ⟨w, rfl⟩
  | error e =>
      exfalso
      rcases ofGraph_error hload with ⟨-, hlen⟩ | ⟨id, -, hcount⟩
      · omega
      · have := List.nodup_iff_count.mp hd id
        omega

/-- At most one item stands in one order only. -/
theorem eq_toList_of_perm {α : Type} {l : List α} {o : Option α} (h : l.Perm o.toList) :
    l = o.toList := by
  cases o with
  | none => exact h.eq_nil
  | some a => exact List.perm_singleton.mp h

/-- A graph with the entrypoint of one that was loaded can be loaded if it repeats no id. -/
theorem exists_ofGraph_of_perm {g g' : Graph} (hw : ofGraph g = .ok w)
    (hd : (g'.blocks.map BlockDef.id).Nodup) (hperm : g'.entrypoints.Perm g.entrypoints) :
    ∃ w', ofGraph g' = .ok w' ∧ w'.entrypoint = w.entrypoint := by
  obtain ⟨-, -, -, hentry⟩ := ofGraph_ok hw
  have hsame : g'.entrypoints = w.entrypoint.toList := eq_toList_of_perm (hentry ▸ hperm)
  have hone : g'.entrypoints.length ≤ 1 := by
    rw [hsame]
    cases w.entrypoint <;> simp
  obtain ⟨w', hw'⟩ := exists_ofGraph hd hone
  obtain ⟨-, -, -, hentry'⟩ := ofGraph_ok hw'
  have hlists : w'.entrypoint.toList = w.entrypoint.toList := hentry'.symm.trans hsame
  exact ⟨w', hw', by simpa using congrArg List.head? hlists⟩

end FlowGraph.Wiring
