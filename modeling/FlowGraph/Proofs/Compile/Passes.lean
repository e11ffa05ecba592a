/-
What compiles in one way compiles in another.

`Build.Passes` compares two ways of compiling: where the one gives something, the other gives
the same, and what was written to the log before plays no part.  Of errors it says nothing, so
the other way may give something more often.

Two things can do no more than turn something down.  One are the bodies that are open around
what is compiled: with fewer of them open, or none, everything that compiled still does.  The
other is the check of settings: it looks at settings that have been read and leaves them as
they are.  `Eases` takes away the second, and `buildBody_passes` goes through the compiler once
for both.

So a graph that compiles with its settings checked compiles to the same program without the
checks.
-/
import FlowGraph.Proofs.Compile.Program

namespace FlowGraph

/-! ### Ways of compiling that agree -/

namespace Build

variable {α β : Type} {x y : Build α}

/-- Whatever the one gives, the other gives too. -/
def Passes (x y : Build α) : Prop :=
  ∀ log log' a, result x log = .ok a → result y log' = .ok a

theorem Passes.pure (a : α) : Passes (Pure.pure a : Build α) (Pure.pure a) :=
  fun _ _ _ h => h

theorem Passes.lift {r s : Except BuildError α} (h : ∀ a, r = .ok a → s = .ok a) :
    Passes (liftM r : Build α) (liftM s) := by
  intro log log' a hr
  rw [result_lift] at hr ⊢
  exact h a hr

/-- An error gives nothing. -/
theorem Passes.throw (e : BuildError) (y : Build α) :
    Passes (MonadExcept.throw e : Build α) y :=
  fun _ _ _ h => nomatch h

theorem Passes.bind {f g : α → Build β} (hx : Passes x y) (hf : ∀ a, Passes (f a) (g a)) :
    Passes (x >>= f) (y >>= g) := by
  intro log log' b h
  obtain ⟨after, hbind⟩ := result_bind x f log
  obtain ⟨after', hbind'⟩ := result_bind y g log'
  rw [hbind] at h
  cases hr : result x log with
  | error e =>
      rw [hr] at h
      exact nomatch h
  | ok a =>
      rw [hr] at h
      rw [hbind', hx log log' a hr]
      exact hf a after after' b h

theorem Passes.noted (f : BuildLog → BuildLog) :
    Passes (modify f : Build Unit) (modify f) :=
  fun _ _ _ h => h

end Build

namespace Compiler

open Build

variable {c c' : Compiler} {child child' : BodyBuilder}

/-! ### Fewer checks -/

/-- The second compiler is for the same wiring, and checks settings only if the first one does. -/
structure Eases (c c' : Compiler) : Prop where
  wiring : c'.wiring = c.wiring
  checks : c'.validate = true → c.validate = true

namespace Eases

theorem refl (c : Compiler) : c.Eases c := ⟨rfl, id⟩

/-- Settings that pass the check are the ones that were read. -/
theorem config (h : c.Eases c') {α : Type} {r : Json.Reader α} {check : α → Check} {b : BlockDef}
    {a : α} (ha : c.config r check b = .ok a) : c'.config r check b = .ok a := by
  obtain ⟨hread, hcheck⟩ := config_ok ha
  rw [show b.told = if b.data.isNull then .obj [] else b.data from rfl] at hread
  simp only [Compiler.config, hread]
  cases hv : c'.validate with
  | false => cases check a <;> rfl
  | true => rw [hcheck (h.checks hv)]

theorem block (h : c.Eases c') {b : BlockDef} {body : Option (String × BlockMap)} {built : Block}
    (hb : c.block b body = .ok built) : c'.block b body = .ok built := by
  rw [block_eq] at hb ⊢
  rw [h.wiring]
  cases hconf : c.config b.kind.reads b.kind.checks b with
  | error e => simp [hconf, Except.map] at hb
  | ok s =>
      rw [hconf] at hb
      rw [h.config hconf]
      exact hb

end Eases

/-! ### Fewer bodies around -/

theorem body_passes (hc : c.Eases c') (hchild : ∀ entry, Passes (child entry) (child' entry))
    (d : BlockDef) : Passes (c.body child d) (c'.body child' d) := by
  rw [body, body, hc.wiring]
  split
  · split
    · exact .pure _
    · rename_i entry _
      exact (Passes.noted _).bind fun _ => (hchild entry).bind fun _ => .pure _
  · exact .pure _

theorem build_passes (hc : c.Eases c') (hchild : ∀ entry, Passes (child entry) (child' entry))
    (d : BlockDef) : Passes (c.build child d) (c'.build child' d) :=
  (body_passes hc hchild d).bind fun _ => .lift fun _ => hc.block

theorem buildPending_passes (hc : c.Eases c')
    (hchild : ∀ entry, Passes (child entry) (child' entry)) :
    ∀ (fuel : Nat) (blocks : BlockMap) (pending : List String),
      Passes (c.buildPending child fuel blocks pending)
        (c'.buildPending child' fuel blocks pending) := by
  intro fuel
  induction fuel with
  | zero => intro blocks pending; exact .pure _
  | succ fuel ih =>
      intro blocks pending
      cases pending with
      | nil => exact .pure _
      | cons id pending =>
          rw [buildPending, buildPending, hc.wiring]
          split
          · exact ih _ _
          · split
            · exact (Passes.noted _).bind fun _ => ih _ _
            · rename_i d _
              exact (build_passes hc hchild d).bind fun _ => (Passes.noted _).bind fun _ => ih _ _

theorem buildFrom_passes (hc : c.Eases c') (hchild : ∀ entry, Passes (child entry) (child' entry))
    (start : String) : Passes (c.buildFrom child start) (c'.buildFrom child' start) := by
  rw [buildFrom, buildFrom, hc.wiring]
  exact buildPending_passes hc hchild _ _ _

/-- A body that compiles also compiles where fewer bodies are open and less is checked. -/
theorem buildBody_passes (hc : c.Eases c') :
    ∀ (depth depth' : Nat) (opened opened' : List String), depth ≤ depth' → opened' ⊆ opened →
      ∀ entry, Passes (c.buildBody depth opened entry) (c'.buildBody depth' opened' entry) := by
  intro depth
  induction depth with
  | zero => intro depth' opened opened' _ _ entry; exact .throw _ _
  | succ depth ih =>
      intro depth' opened opened' hle hsub entry
      obtain ⟨k, rfl⟩ : ∃ k, depth' = k + 1 := ⟨depth' - 1, by omega⟩
      rw [buildBody, buildBody]
      by_cases hopen : opened.contains entry = true
      · rw [if_pos hopen]
        exact .throw _ _
      · have hnew : ¬ opened'.contains entry = true := fun h =>
          hopen (List.contains_iff_mem.mpr (hsub (List.contains_iff_mem.mp h)))
        rw [if_neg hopen, if_neg hnew]
        exact buildFrom_passes hc (ih k _ _ (by omega) (List.cons_subset_cons entry hsub)) entry

theorem Eases.buildGraph (hc : c.Eases c') (start : String) :
    Passes (c.buildGraph start) (c'.buildGraph start) := by
  have hdepth : c.bodyDepth ≤ c'.bodyDepth :=
    Nat.le_of_eq (by rw [bodyDepth, bodyDepth, hc.wiring])
  exact buildFrom_passes hc (buildBody_passes hc _ _ [] [] hdepth (List.Subset.refl _)) start

end Compiler

/-! ### Programs -/

namespace Program

open Build

theorem compileFrom_passes {c c' : Compiler} (hc : c.Eases c') (start : String) :
    Passes (compileFrom c start) (compileFrom c' start) := by
  rw [compileFrom, compileFrom]
  refine (hc.buildGraph start).bind fun blocks => ?_
  split
  · exact (Passes.noted _).bind fun _ => .pure _
  · exact .throw _ _

theorem compileGraph_passes (g : Graph) {validate validate' : Bool}
    (hv : validate' = true → validate = true) (from? : Option String) :
    Passes (compileGraph g validate from?) (compileGraph g validate' from?) := by
  rw [compileGraph_eq, compileGraph_eq]
  refine (Passes.lift fun _ h => h).bind fun w => ?_
  cases from?.or w.entrypoint with
  | none => exact .throw _ _
  | some start =>
      have hease : Compiler.Eases ⟨w, validate⟩ ⟨w, validate'⟩ := ⟨rfl, hv⟩
      exact compileFrom_passes hease start

/-- **A graph that compiles with its settings checked compiles without the checks, and to the same
program**: the same entrypoint and the same blocks, with their settings, successors and bodies at
every depth.  To check settings only turns graphs down. -/
theorem compileGraph_unchecked {g : Graph} {from? : Option String} {log : BuildLog} {p : Program}
    (h : result (compileGraph g true from?) log = .ok p) (log' : BuildLog) :
    result (compileGraph g false from?) log' = .ok p :=
  compileGraph_passes g (fun _ => rfl) from? log log' p h

end Program

/-- A graph with a loop, where the loop and the block in its body have settings to check. -/
def Graph.reading : Graph :=
  ⟨[⟨"in", .entrypoint, .null, none⟩,
    ⟨"all", .each, .obj [("values", .arr [.str "a", .str "b"])], none⟩,
    ⟨"read", .getVar, .obj [("key", .str "x")], none⟩],
   [⟨"", "in", "all", none, Slot.source⟩, ⟨"", "all", "read", none, Slot.executor⟩]⟩

/-- The program that it compiles to. -/
def Program.reading : Program :=
  let read : Block := .task "read" none (.getVar ⟨"x"⟩)
  ⟨[("all", .nested "all" none (.each ⟨.arr [.str "a", .str "b"], false⟩)
      (some ("read", [("read", read)]))),
    ("in", .task "in" (some "all") .entrypoint), ("read", read)], "in"⟩

theorem Program.compileGraph_unchecked_reading :
    Build.result (compileGraph .reading true none) {} = .ok .reading ∧
      Build.result (compileGraph .reading false none) {} = .ok .reading := by
  have hchecked : Build.result (compileGraph .reading true none) {} = .ok .reading := rfl
  exact ⟨hchecked, compileGraph_unchecked hchecked {}⟩

end FlowGraph
