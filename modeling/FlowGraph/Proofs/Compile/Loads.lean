/-
What loads store.

A load of definitions goes through them one by one, and it may fail in the middle.  `LoadEnds` says
what it comes to in terms of the definitions alone: it stores them for as long as they can stand
together with those that are stored, and its error names the first one that cannot.  Definitions can
stand together (`Consistent`) if no id repeats and at most one of them is an entrypoint.

`Orderly` is what every load keeps, also one that fails: the definitions stand in order under their
ids, and the entrypoint is the one that is among them.  It is proved for one definition, for a load
by going through its definitions, and for a builder by going through its calls.

A load that is made in pieces stops at the first piece that fails, and then it is the load that is
made at once.  A caller who goes on behind such a piece loads more.
-/
import FlowGraph.Proofs.Compile.Builder

namespace FlowGraph

open Wiring (entrypointsOf)

/-! ### Definitions that stand together -/

section Definitions

variable {ds held held' after : List BlockDef} {d : BlockDef} {e : BuildError}
  {r : Except BuildError Unit}

/-- No id repeats, and at most one definition is an entrypoint. -/
structure Consistent (ds : List BlockDef) : Prop where
  distinct : (ds.map BlockDef.id).Nodup
  single : (entrypointsOf ds).length ≤ 1

/-- Why a definition cannot be stored with those that are. -/
inductive Clash (held : List BlockDef) (d : BlockDef) : BuildError → Prop
  | repeated (h : d.id ∈ held.map BlockDef.id) : Clash held d (.duplicateBlock d.id)
  | second {first : String} (hnew : d.id ∉ held.map BlockDef.id) (hkind : d.kind = .entrypoint)
      (hfirst : first ∈ entrypointsOf held) :
      Clash held d (.multipleEntrypoints [first, d.id])

/-- What a load of definitions ends with, and what is stored then. -/
inductive LoadEnds (held : List BlockDef) :
    List BlockDef → Except BuildError Unit → List BlockDef → Prop
  | all {ds after : List BlockDef} (hfit : Consistent (held ++ ds))
      (hstored : after.Perm (held ++ ds)) : LoadEnds held ds (.ok ()) after
  | upTo {before rest after : List BlockDef} {d : BlockDef} {e : BuildError}
      (hfit : Consistent (held ++ before)) (hclash : Clash (held ++ before) d e)
      (hstored : after.Perm (held ++ before)) :
      LoadEnds held (before ++ d :: rest) (.error e) after

theorem entrypointsOf_append (ds ds' : List BlockDef) :
    entrypointsOf (ds ++ ds') = entrypointsOf ds ++ entrypointsOf ds' := by
  rw [entrypointsOf, List.filter_append, List.map_append]
  rfl

theorem entrypointsOf_perm (h : held.Perm held') :
    (entrypointsOf held).Perm (entrypointsOf held') := (h.filter _).map _

theorem Consistent.perm (h : Consistent held) (hperm : held.Perm held') :
    Consistent held' :=
  ⟨(hperm.map _).nodup_iff.mp h.distinct, (entrypointsOf_perm hperm).length_eq ▸ h.single⟩

theorem Consistent.left (h : Consistent (held ++ ds)) : Consistent held := by
  obtain ⟨hdistinct, hsingle⟩ := h
  rw [List.map_append] at hdistinct
  rw [entrypointsOf_append, List.length_append] at hsingle
  exact ⟨(List.nodup_append.mp hdistinct).1, by omega⟩

theorem Clash.perm (h : Clash held d e) (hperm : held.Perm held') : Clash held' d e := by
  cases h with
  | repeated h => exact .repeated ((hperm.map _).mem_iff.mp h)
  | second hnew hkind hfirst =>
      exact .second (fun h => hnew ((hperm.map _).mem_iff.mpr h)) hkind
        ((entrypointsOf_perm hperm).mem_iff.mp hfirst)

theorem Clash.not_consistent (h : Clash held d e) : ¬ Consistent (held ++ [d]) := by
  rintro ⟨hdistinct, hsingle⟩
  cases h with
  | repeated h =>
      rw [List.map_append] at hdistinct
      exact (List.nodup_append.mp hdistinct).2.2 _ h _ (List.mem_singleton.mpr rfl) rfl
  | second hnew hkind hfirst =>
      have hpos := List.length_pos_of_mem hfirst
      rw [entrypointsOf_append, List.length_append] at hsingle
      have hone : (entrypointsOf [d]).length = 1 := by simp [entrypointsOf, hkind]
      omega

namespace LoadEnds

theorem perm (h : LoadEnds held ds r after) (hperm : held.Perm held') :
    LoadEnds held' ds r after := by
  cases h with
  | all hfit hstored =>
      exact .all (hfit.perm (hperm.append_right _)) (hstored.trans (hperm.append_right _))
  | upTo hfit hclash hstored =>
      exact .upTo (hfit.perm (hperm.append_right _)) (hclash.perm (hperm.append_right _))
        (hstored.trans (hperm.append_right _))

/-- One definition is stored before the others. -/
theorem cons (h : LoadEnds (held ++ [d]) ds r after) : LoadEnds held (d :: ds) r after := by
  cases h with
  | all hfit hstored =>
      rw [List.append_assoc] at hfit hstored
      exact .all hfit hstored
  | upTo hfit hclash hstored =>
      rw [List.append_assoc] at hfit hclash hstored
      exact .upTo hfit hclash hstored

/-- A load fails exactly on definitions that cannot stand with those that are stored. -/
theorem ok_iff (h : LoadEnds held ds r after) : r = .ok () ↔ Consistent (held ++ ds) := by
  cases h with
  | all hfit => exact ⟨fun _ => hfit, fun _ => rfl⟩
  | @upTo before rest _ d _ _ hclash =>
      refine ⟨nofun, fun hall => ?_⟩
      have hsplit : held ++ (before ++ d :: rest) = (held ++ before ++ [d]) ++ rest := by simp
      rw [hsplit] at hall
      exact absurd hall.left hclash.not_consistent

end LoadEnds

end Definitions

/-! ### Wirings that are loaded -/

namespace Wiring

variable {w w' : Wiring} {b : BlockDef}

/-- The definitions in a wiring. -/
def stored (w : Wiring) : List BlockDef := Entries.values w.definitions

/-- What every load keeps of the definitions. -/
structure Orderly (w : Wiring) : Prop where
  sound : w.Sound
  sorted : Entries.Sorted w.definitions
  entrypoint : entrypointsOf w.stored = w.entrypoint.toList

namespace Orderly

theorem empty : Orderly {} := ⟨Loaded.empty.sound, .nil, rfl⟩

theorem find?_iff (h : w.Orderly) {id : String} {d : BlockDef} :
    Entries.find? id w.definitions = some d ↔ d ∈ w.stored ∧ d.id = id := by
  constructor
  · exact fun hd => ⟨Entries.mem_values_of_find? hd, h.sound.ids id d hd⟩
  · rintro ⟨hmem, rfl⟩
    obtain ⟨key, hd⟩ := Entries.exists_find?_of_mem_values h.sorted.nodup_keys hmem
    rwa [h.sound.ids key d hd]

theorem contains_iff (h : w.Orderly) {id : String} :
    Entries.contains id w.definitions = true ↔ id ∈ w.stored.map BlockDef.id := by
  rw [Entries.contains_iff, List.mem_map]
  exact exists_congr fun d => h.find?_iff

theorem consistent (h : w.Orderly) : Consistent w.stored where
  distinct := by
    have hkeys : w.stored.map BlockDef.id = Entries.keys w.definitions := by
      rw [stored, Entries.values, List.map_map, Entries.keys]
      refine List.map_congr_left fun e he => ?_
      exact h.sound.ids e.1 e.2 (h.sorted.find?_iff_mem.mpr he)
    rw [hkeys]
    exact h.sorted.nodup_keys
  single := by
    rw [h.entrypoint]
    cases w.entrypoint <;> simp

end Orderly

theorem stored_addBlock (h : w.addBlock b = .ok w') : w'.stored.Perm (w.stored ++ [b]) := by
  obtain ⟨hfresh, -, rfl⟩ := addBlock_ok h
  exact ((Entries.insert_perm hfresh).map Prod.snd).trans (List.perm_append_singleton b _).symm

theorem Orderly.addBlock (ho : w.Orderly) (h : w.addBlock b = .ok w') : w'.Orderly := by
  have hsound := ho.sound.addBlock h
  have hentries := entrypointsOf_perm (stored_addBlock h)
  obtain ⟨-, hnone, rfl⟩ := addBlock_ok h
  refine ⟨hsound, ho.sorted.insert, eq_toList_of_perm (hentries.trans ?_)⟩
  rw [entrypointsOf_append, ho.entrypoint]
  by_cases hk : b.kind = .entrypoint
  · simp [entrypointsOf, hk, hnone hk]
  · simp [entrypointsOf, hk]

theorem Orderly.clash (ho : w.Orderly) {e : BuildError} (h : w.addBlock b = .error e) :
    Clash w.stored b e := by
  rcases addBlock_error h with ⟨hc, rfl⟩ | ⟨hnew, hk, first, hw, rfl⟩
  · exact .repeated (ho.contains_iff.mp hc)
  · refine .second (fun hmem => ?_) hk ?_
    · rw [ho.contains_iff.mpr hmem] at hnew
      exact Bool.noConfusion hnew
    · rw [ho.entrypoint, hw]
      exact List.mem_singleton.mpr rfl

theorem Orderly.addBlocks (ds : List BlockDef) (ho : w.Orderly) : (w.addBlocks ds).2.Orderly := by
  induction ds generalizing w with
  | nil => exact ho
  | cons d rest ih =>
      rw [Wiring.addBlocks]
      cases hd : w.addBlock d with
      | ok w' => exact ih (ho.addBlock hd)
      | error e => exact ho

/-- **A load stores what can stand with the definitions that are stored**, and stops at the first
one that cannot. -/
theorem Orderly.loadEnds (ds : List BlockDef) (ho : w.Orderly) :
    LoadEnds w.stored ds (Builder.loadResult (w.addBlocks ds).1) (w.addBlocks ds).2.stored := by
  induction ds generalizing w with
  | nil =>
      have hfit : Consistent (w.stored ++ []) := by simpa using ho.consistent
      exact .all hfit (List.Perm.of_eq (List.append_nil _).symm)
  | cons d rest ih =>
      rw [Wiring.addBlocks]
      cases hd : w.addBlock d with
      | ok w' => exact ((ih (ho.addBlock hd)).perm (stored_addBlock hd)).cons
      | error e =>
          have hfit : Consistent (w.stored ++ []) := by simpa using ho.consistent
          have hclash : Clash (w.stored ++ []) d e := by simpa using ho.clash hd
          exact .upTo hfit hclash (List.Perm.of_eq (List.append_nil _).symm)

/-- What is stored stays, whatever is loaded. -/
theorem find?_addBlocks {id : String} {d : BlockDef} (ds : List BlockDef)
    (h : Entries.find? id w.definitions = some d) :
    Entries.find? id (w.addBlocks ds).2.definitions = some d := by
  induction ds generalizing w with
  | nil => exact h
  | cons d' rest ih =>
      rw [addBlocks]
      cases hd : w.addBlock d' with
      | error e => exact h
      | ok w' =>
          obtain ⟨hfresh, -, rfl⟩ := addBlock_ok hd
          refine ih ?_
          have hne : id ≠ d'.id := fun heq => by
            rw [heq, Entries.not_contains_iff.mp hfresh] at h
            cases h
          rw [Entries.find?_insert_ne _ hne, h]

/-- A list of definitions may be cut in two. -/
theorem addBlocks_append (ds ds' : List BlockDef) (w : Wiring) :
    w.addBlocks (ds ++ ds')
      = match w.addBlocks ds with
        | (none, w') => w'.addBlocks ds'
        | (some e, w') => (some e, w') := by
  induction ds generalizing w with
  | nil => rfl
  | cons d rest ih =>
      rw [List.cons_append, addBlocks, addBlocks]
      cases w.addBlock d with
      | ok w' => exact ih w'
      | error e => rfl

theorem addEdges_append (es es' : List EdgeDef) (w : Wiring) :
    w.addEdges (es ++ es') = (w.addEdges es).addEdges es' := List.foldl_append

/-- A wiring of a graph is what loading its blocks and its edges leaves. -/
theorem eq_of_ofGraph {g : Graph} (h : ofGraph g = .ok w) :
    w = (({} : Wiring).addBlocks g.blocks).2.addEdges g.edges := by
  rw [ofGraph] at h
  split at h
  · cases h
  · split at h
    · cases h
    · rename_i hload
      rw [hload]
      exact (Except.ok.inj h).symm

theorem Orderly.addEdges (es : List EdgeDef) (ho : w.Orderly) : (w.addEdges es).Orderly := by
  refine ⟨Sound.addEdges es ho.sound, by simpa using ho.sorted, ?_⟩
  rw [addEdges_entrypoint, stored, addEdges_definitions]
  exact ho.entrypoint

end Wiring

/-! ### Builders -/

namespace Builder

open Work

variable {b : Builder} {id slot : String} {d : BlockDef}

/-- The definitions in a builder. -/
def stored (b : Builder) : List BlockDef := b.wiring.stored

/-- The edges that a call loads. -/
def Call.edges : Call → List EdgeDef
  | loadEdges es => es
  | _ => []

/-- The edges that calls load, in their order. -/
def loadedEdges (calls : List Call) : List EdgeDef := calls.flatMap Call.edges

/-- A list of edges, searched for the first one that leaves a block through a slot. -/
def firstTarget (es : List EdgeDef) (id slot : String) : Option String :=
  (es.find? fun e => e.start = id ∧ e.slot = slot).map EdgeDef.target

/-! #### One call after another -/

theorem perform_orderly (h : b.wiring.Orderly) (c : Call) : (b.perform c).2.wiring.Orderly := by
  cases c with
  | loadBlocks ds =>
      rw [perform_loadBlocks]
      exact h.addBlocks ds
  | loadEdges es =>
      rw [perform_loadEdges]
      exact h.addEdges es
  | buildGraph start => rwa [perform_eq_self b rfl]
  | buildChild entry => rwa [perform_eq_self b rfl]

theorem after_orderly (h : b.wiring.Orderly) (calls : List Call) :
    (b.after calls).wiring.Orderly := by
  induction calls generalizing b with
  | nil => exact h
  | cons c calls ih => exact ih (perform_orderly h c)

theorem perform_keeps (h : Entries.find? id b.wiring.definitions = some d) (c : Call) :
    Entries.find? id (b.perform c).2.wiring.definitions = some d := by
  cases c with
  | loadBlocks ds =>
      rw [perform_loadBlocks]
      exact Wiring.find?_addBlocks ds h
  | loadEdges es =>
      rw [perform_loadEdges]
      exact (Wiring.addEdges_definitions es b.wiring).symm ▸ h
  | buildGraph start => rwa [perform_eq_self b rfl]
  | buildChild entry => rwa [perform_eq_self b rfl]

theorem after_keeps (h : Entries.find? id b.wiring.definitions = some d) (calls : List Call) :
    Entries.find? id (b.after calls).wiring.definitions = some d := by
  induction calls generalizing b with
  | nil => exact h
  | cons c calls ih => exact ih (perform_keeps h c)

theorem perform_successor (b : Builder) (c : Call) (id slot : String) :
    (b.perform c).2.successor id slot = (b.successor id slot).or (firstTarget c.edges id slot) := by
  cases c with
  | loadBlocks ds =>
      rw [perform_loadBlocks, successor, successor, Wiring.successor, Wiring.addBlocks_edges]
      exact (Option.or_none).symm
  | loadEdges es => exact Wiring.successor_addEdges es b.wiring id slot
  | buildGraph start =>
      rw [perform_eq_self b rfl]
      exact (Option.or_none).symm
  | buildChild entry =>
      rw [perform_eq_self b rfl]
      exact (Option.or_none).symm

theorem after_successor (b : Builder) (calls : List Call) (id slot : String) :
    (b.after calls).successor id slot
      = (b.successor id slot).or (firstTarget (loadedEdges calls) id slot) := by
  induction calls generalizing b with
  | nil => exact (Option.or_none).symm
  | cons c calls ih =>
      have hedges : loadedEdges (c :: calls) = c.edges ++ loadedEdges calls := List.flatMap_cons
      rw [after_cons, ih, perform_successor, hedges, Option.or_assoc]
      refine congrArg _ ?_
      rw [firstTarget, firstTarget, firstTarget, List.find?_append, Option.map_or]

theorem perform_loadEnds (h : b.wiring.Orderly) (ds : List BlockDef) :
    ∃ r, (b.perform (.loadBlocks ds)).1 = .loaded r ∧
      LoadEnds b.stored ds r (b.perform (.loadBlocks ds)).2.stored := by
  refine ⟨loadResult (b.wiring.addBlocks ds).1, ?_, ?_⟩
  · rw [perform, outcome_loadBlocks]
  · rw [perform_loadBlocks]
    exact h.loadEnds ds

/-! #### Looking up the entrypoint -/

theorem entrypoint_ok_iff (h : b.wiring.Orderly) :
    b.entrypoint = .ok id ↔ entrypointsOf b.stored = [id] := by
  rw [stored, h.entrypoint, entrypoint]
  cases b.wiring.entrypoint <;> simp

theorem entrypoint_missing_iff (h : b.wiring.Orderly) :
    b.entrypoint = .error .missingEntrypoint ↔ entrypointsOf b.stored = [] := by
  rw [stored, h.entrypoint, entrypoint]
  cases b.wiring.entrypoint <;> simp

/-- A graph is compiled from the entrypoint of its builder. -/
theorem compile_eq (g : Graph) (validate : Bool) :
    Program.compile g validate = (do
      let b ← liftM (ofGraph g validate)
      let start ← liftM b.entrypoint
      Program.compileFrom b.compiler start) := by
  rw [Program.compile, ofGraph]
  cases Wiring.ofGraph g with
  | error e => rfl
  | ok w =>
      obtain ⟨definitions, edges, start⟩ := w
      cases start <;> rfl

/-! #### Loads in pieces -/

theorem outcome_loadBlocks_append (ds ds' : List BlockDef) (b : Builder) (log : BuildLog) :
    (loadBlocks (ds ++ ds')).outcome b log
      = (loadBlocks ds >>= fun _ => loadBlocks ds').outcome b log := by
  rw [Work.outcome_bind, outcome_loadBlocks, outcome_loadBlocks, Wiring.addBlocks_append]
  obtain ⟨failed, w⟩ := b.wiring.addBlocks ds
  cases failed with
  | some e => rfl
  | none =>
      show _ = (loadBlocks ds').outcome { b with wiring := w } log
      rw [outcome_loadBlocks]

theorem outcome_loadBlocks_flatten (pieces : List (List BlockDef)) (b : Builder) (log : BuildLog) :
    (loadBlocks pieces.flatten).outcome b log = (pieces.forM loadBlocks).outcome b log := by
  induction pieces generalizing b log with
  | nil => rfl
  | cons ds rest ih =>
      rw [List.flatten_cons, outcome_loadBlocks_append, Work.outcome_bind]
      show _ = (loadBlocks ds >>= fun _ => rest.forM loadBlocks).outcome b log
      rw [Work.outcome_bind]
      generalize (loadBlocks ds).outcome b log = out
      obtain ⟨⟨r, b'⟩, log'⟩ := out
      cases r with
      | ok _ => exact ih b' log'
      | error e => rfl

theorem outcome_loadEdges (es : List EdgeDef) (b : Builder) (log : BuildLog) :
    (loadEdges es).outcome b log
      = ((.ok (), { b with wiring := b.wiring.addEdges es }), log) := rfl

theorem outcome_loadEdges_flatten (pieces : List (List EdgeDef)) (b : Builder) (log : BuildLog) :
    (loadEdges pieces.flatten).outcome b log = (pieces.forM loadEdges).outcome b log := by
  induction pieces generalizing b log with
  | nil => rfl
  | cons es rest ih =>
      rw [List.flatten_cons]
      show _ = (loadEdges es >>= fun _ => rest.forM loadEdges).outcome b log
      rw [Work.outcome_bind, outcome_loadEdges, outcome_loadEdges, Wiring.addEdges_append]
      exact ih { b with wiring := b.wiring.addEdges es } log

/-! #### From a builder that is new -/

/-- A builder for a graph is a new one that the graph was loaded into. -/
theorem ofGraph_eq_after {g : Graph} {validate : Bool} (h : ofGraph g validate = .ok b) :
    b = after { validate := validate } [.loadBlocks g.blocks, .loadEdges g.edges] := by
  rw [after_cons, perform_loadBlocks, after_cons, perform_loadEdges]
  rw [ofGraph] at h
  cases hw : Wiring.ofGraph g with
  | error e =>
      rw [hw] at h
      cases h
  | ok w =>
      rw [hw] at h
      obtain rfl := Except.ok.inj h
      rw [Wiring.eq_of_ofGraph hw]
      rfl

/-- What holds of the definitions in a builder at all times. -/
structure InOrder (b : Builder) : Prop where
  /-- A definition stands under its own id. -/
  find?_iff : ∀ id d, Entries.find? id b.wiring.definitions = some d ↔ d ∈ b.stored ∧ d.id = id
  consistent : Consistent b.stored
  /-- The entrypoint is the one definition that is an entrypoint. -/
  entrypoint_ok : ∀ id, b.entrypoint = .ok id ↔ entrypointsOf b.stored = [id]
  entrypoint_missing : b.entrypoint = .error .missingEntrypoint ↔ entrypointsOf b.stored = []

theorem inOrder_of_orderly (h : b.wiring.Orderly) : b.InOrder where
  find?_iff _ _ := h.find?_iff
  consistent := h.consistent
  entrypoint_ok _ := entrypoint_ok_iff h
  entrypoint_missing := entrypoint_missing_iff h

/-- **Whatever was loaded into a builder, and whichever loads have failed**, the definitions in it are
in order, and each of them stays.  A load stores the definitions before the first one that cannot
stand with those that are stored, and its error names that one; it fails exactly if there is one.  A
slot leads where the first edge leads that was loaded for it.  A list that is loaded in pieces, up to
the first piece that fails, is loaded as it is at once.  All this holds of a builder for a graph, too,
since the graph is loaded into a new one. -/
theorem loads_keep_order (validate : Bool) (calls : List Call) :
    let b : Builder := after { validate := validate } calls
    b.InOrder ∧
    (∀ id d, Entries.find? id b.wiring.definitions = some d →
      ∀ more, Entries.find? id (b.after more).wiring.definitions = some d) ∧
    (∀ ds, ∃ r, (b.perform (.loadBlocks ds)).1 = .loaded r ∧
      LoadEnds b.stored ds r (b.perform (.loadBlocks ds)).2.stored ∧
      (r = .ok () ↔ Consistent (b.stored ++ ds))) ∧
    (∀ id slot, b.successor id slot = firstTarget (loadedEdges calls) id slot) ∧
    (∀ (pieces : List (List BlockDef)) (log : BuildLog),
      (loadBlocks pieces.flatten).outcome b log = (pieces.forM loadBlocks).outcome b log) ∧
    (∀ (pieces : List (List EdgeDef)) (log : BuildLog),
      (loadEdges pieces.flatten).outcome b log = (pieces.forM loadEdges).outcome b log) ∧
    ∀ (g : Graph) (b' : Builder), ofGraph g validate = .ok b' →
      b' = after { validate := validate } [.loadBlocks g.blocks, .loadEdges g.edges] := by
  intro b
  have horderly : b.wiring.Orderly := after_orderly Wiring.Orderly.empty calls
  refine ⟨inOrder_of_orderly horderly, fun id d hd => after_keeps hd, fun ds => ?_,
    fun id slot => ?_, fun pieces => outcome_loadBlocks_flatten pieces b,
    fun pieces => outcome_loadEdges_flatten pieces b, fun g b' => ofGraph_eq_after⟩
  · obtain ⟨r, hr, hends⟩ := perform_loadEnds horderly ds
    exact ⟨r, hr, hends, hends.ok_iff⟩
  · rw [show b.successor id slot = _ from after_successor _ calls id slot]
    rfl

/-- A definition of a block that only logs. -/
def logging (id : String) : BlockDef := ⟨id, .logger, .null, none⟩

/-- Loads of an entrypoint and another block, of three blocks of which the second repeats an id, and
of two edges for one slot. -/
def interruptedLoads : List Call :=
  [.loadBlocks [⟨"in", .entrypoint, .null, none⟩, logging "a"],
    .loadBlocks [logging "b", logging "a", logging "c"],
    .loadEdges [⟨"", "in", "a", none, Slot.source⟩],
    .loadEdges [⟨"", "in", "b", none, Slot.source⟩]]

theorem loads_keep_order_interrupted :
    let b : Builder := after { validate := true } interruptedLoads
    b.stored = [logging "a", logging "b", ⟨"in", .entrypoint, .null, none⟩] ∧
      b.entrypoint = .ok "in" ∧ b.successor "in" Slot.source = some "a" ∧
      ∃ r, (b.perform (.loadBlocks [logging "c", ⟨"out", .entrypoint, .null, none⟩])).1
          = .loaded r ∧ r ≠ .ok () := by
  intro b
  obtain ⟨horder, -, hloads, hslots, -, -, -⟩ := loads_keep_order true interruptedLoads
  obtain ⟨r, hr, -, hok⟩ := hloads [logging "c", ⟨"out", .entrypoint, .null, none⟩]
  refine ⟨rfl, (horder.entrypoint_ok "in").mpr rfl, (hslots "in" Slot.source).trans rfl, r, hr, ?_⟩
  intro hsuccess
  have hsingle := (hok.mp hsuccess).single
  exact absurd hsingle (by decide)

/-- A caller who goes on behind a piece that has failed loads more than a load at once, which ends
there. -/
theorem pieces_behind_failure :
    let new : Builder := { validate := true }
    (new.after [.loadBlocks [logging "a", logging "a"], .loadBlocks [logging "b"]]).stored
        = [logging "a", logging "b"] ∧
      (new.after [.loadBlocks ([logging "a", logging "a"] ++ [logging "b"])]).stored
        = [logging "a"] := by
  exact ⟨rfl, rfl⟩

end Builder

end FlowGraph
