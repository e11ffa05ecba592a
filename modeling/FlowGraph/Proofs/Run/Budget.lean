/-
A larger budget changes no result.

Walks, loops and blocks are run with a budget, and have no result where it is used up.
Whatever has a result has the same one with more: the budget is only a bound on the work.
So results that were found with different budgets can be put together, and `Ends` may
forget the budget altogether.

Blocks and walks run each other, a level of bodies at a time.  The lemmas on walks and
loops therefore compare two ways to run what is inside, and the induction on the budget
is done once, for blocks.
-/
import FlowGraph.Proofs.Run.Steps

namespace FlowGraph

variable {δ χ α : Type}

/-- Whatever has a result has the same one in the other way. -/
def Bounded.Grows (f g : Bounded δ χ α) : Prop := ∀ ctx r, f ctx = some r → g ctx = some r

/-- Two budgets do not lead to different results, for the larger one leads to both. -/
theorem Bounded.unique {f : Nat → Bounded δ χ α}
    (hf : ∀ fuel fuel', fuel ≤ fuel' → (f fuel).Grows (f fuel')) {fuel fuel' : Nat}
    {ctx : Context δ χ} {r r' : α × Context δ χ} (h : f fuel ctx = some r)
    (h' : f fuel' ctx = some r') : r = r' := by
  have hlong := hf fuel _ (Nat.le_max_left fuel fuel') ctx r h
  have hlong' := hf fuel' _ (Nat.le_max_right fuel fuel') ctx r' h'
  exact Option.some.inj (hlong.symm.trans hlong')

theorem BlockMap.walk_grows {run run' : Block → Json → Bounded δ χ (Except BlockError Output)}
    (hrun : ∀ b params, (run b params).Grows (run' b params)) (blocks : BlockMap) :
    ∀ (fuel fuel' : Nat) (id : String) (params : Json), fuel ≤ fuel' →
      (walk run blocks fuel id params).Grows (walk run' blocks fuel' id params) := by
  intro fuel
  induction fuel with
  | zero => intro fuel' id params _ ctx r h; simp [walk_zero] at h
  | succ fuel ih =>
      rintro fuel' id params hle ctx ⟨r, ctx'⟩ h
      obtain ⟨k, rfl⟩ : ∃ k, fuel' = k + 1 := ⟨fuel' - 1, by omega⟩
      rw [walk_succ_iff] at h ⊢
      cases h with
      | missing hb => exact .missing hb
      | finished hb hr hafter => exact .finished hb (hrun _ _ _ _ hr) hafter
      | aborted hb hr hafter => exact .aborted hb (hrun _ _ _ _ hr) hafter
      | onward hb hr hafter h =>
          exact .onward hb (hrun _ _ _ _ hr) hafter (ih k _ _ (by omega) _ _ h)

theorem countLoop_grows {body body' : Option (BodyRun δ χ)}
    (hbody : Option.Rel (fun run run' => ∀ v, (run v).Grows (run' v)) body body') (b : Bounds) :
    ∀ (fuel fuel' : Nat) (index : Float) (turns : Nat), fuel ≤ fuel' →
      Bounded.Grows (countLoop b body fuel index turns) (countLoop b body' fuel' index turns) := by
  intro fuel
  induction fuel with
  | zero => intro fuel' index turns _ ctx r h; simp [countLoop] at h
  | succ fuel ih =>
      rintro fuel' index turns hle ctx ⟨r, ctx'⟩ h
      obtain ⟨k, rfl⟩ : ∃ k, fuel' = k + 1 := ⟨fuel' - 1, by omega⟩
      have hk : fuel ≤ k := by omega
      rw [countLoop_succ_iff] at h ⊢
      cases h with
      | past hover => exact .past hover
      | idle hover hnone h =>
          subst hnone
          cases hbody
          exact .idle hover rfl (ih k _ _ hk _ _ h)
      | failed hover hsome hr =>
          subst hsome
          obtain ⟨hrun⟩ := hbody
          exact .failed hover rfl (hrun _ _ _ hr)
      | passed hover hsome hr h =>
          subst hsome
          have hlater := ih k _ _ hk _ _ h
          obtain ⟨hrun⟩ := hbody
          exact .passed hover rfl (hrun _ _ _ hr) hlater

theorem eachLoop_grows {run run' : BodyRun δ χ} (hrun : ∀ v, (run v).Grows (run' v)) :
    ∀ items : List Json, Bounded.Grows (eachLoop run items) (eachLoop run' items) := by
  intro items
  induction items with
  | nil => intro ctx r h; exact h
  | cons v rest ih =>
      rintro ctx ⟨r, ctx'⟩ h
      rw [eachLoop_cons_iff] at h ⊢
      cases h with
      | failed hr => exact .failed (hrun _ _ _ hr)
      | passed hr h => exact .passed (hrun _ _ _ hr) (ih _ _ h)

section Frames

variable [Store.Database δ] {body body' : Option (BodyRun δ χ)}

theorem runCount_grows (hbody : Option.Rel (fun run run' => ∀ v, (run v).Grows (run' v)) body body')
    (c : CountConfig) (id : String) (next : Option String) {fuel fuel' : Nat} (hle : fuel ≤ fuel')
    (params : Json) :
    Bounded.Grows (runCount c id next body fuel params)
      (runCount c id next body' fuel' params) := by
  intro ctx r h
  rw [runCount, Act.within_context] at h ⊢
  split at h
  · exact h
  · rename_i bounds ctx' _
    cases hl : countLoop bounds body fuel bounds.start 0 ctx' with
    | none => simp [hl] at h
    | some out =>
        rw [countLoop_grows hbody bounds _ _ _ _ hle _ _ hl]
        rwa [hl] at h

theorem runEach_grows (hbody : Option.Rel (fun run run' => ∀ v, (run v).Grows (run' v)) body body')
    (c : EachConfig) (id : String) (next : Option String) (params : Json) :
    Bounded.Grows (runEach c id next body params) (runEach c id next body' params) := by
  intro ctx r h
  rw [runEach, Act.within_context] at h ⊢
  split at h
  · exact h
  · rename_i items ctx' _
    cases hbody with
    | none => exact h
    | @some run run' hrun =>
        simp only at h ⊢
        cases hl : eachLoop run items ctx' with
        | none => simp [hl] at h
        | some out =>
            rw [eachLoop_grows hrun items _ _ hl]
            rwa [hl] at h

theorem runTransaction_grows
    (hbody : Option.Rel (fun run run' => ∀ v, (run v).Grows (run' v)) body body') (id : String)
    (next : Option String) (params : Json) :
    Bounded.Grows (runTransaction id next body params) (runTransaction id next body' params) := by
  intro ctx r h
  simp only [runTransaction, HoldsContext.context_context, Act.within_context] at h ⊢
  cases hbody with
  | none => exact h
  | @some run run' hrun =>
      cases hdb : ctx.database with
      | none => simpa only [hdb] using h
      | some db =>
          simp only [hdb] at h ⊢
          split at h
          · exact h
          · rename_i _ ctx' _
            cases hr : run params ctx' with
            | none => simp [hr] at h
            | some out =>
                rw [hrun _ _ _ hr]
                rwa [hr] at h

end Frames

variable [Store.Database δ] [Client χ]

/-- **A larger budget changes no result of a block.** -/
theorem Block.execute_grows :
    ∀ (fuel fuel' : Nat), fuel ≤ fuel' → ∀ (b : Block) (params : Json),
      Bounded.Grows (δ := δ) (χ := χ) (b.execute fuel params) (b.execute fuel' params) := by
  intro fuel
  induction fuel with
  | zero => intro fuel' _ b params ctx r h; simp [execute] at h
  | succ fuel ih =>
      intro fuel' hle b params ctx r h
      obtain ⟨k, rfl⟩ : ∃ k, fuel' = k + 1 := ⟨fuel' - 1, by omega⟩
      have hk : fuel ≤ k := by omega
      have hbody : ∀ body : Option (String × BlockMap),
          Option.Rel (fun run run' : BodyRun δ χ => ∀ v, (run v).Grows (run' v))
            (body.map fun inner => BlockMap.walk (execute fuel) inner.2 fuel inner.1)
            (body.map fun inner => BlockMap.walk (execute k) inner.2 k inner.1) := by
        intro body
        cases body with
        | none => exact .none
        | some inner => exact .some fun v => BlockMap.walk_grows (ih k hk) _ _ _ _ _ hk
      rw [execute] at h ⊢
      cases b with
      | task id next t => exact h
      | branch id c onSuccess onFailure => exact h
      | nested id next frame body =>
          cases frame with
          | count c => exact runCount_grows (hbody body) c id next hk params ctx r h
          | each c => exact runEach_grows (hbody body) c id next params ctx r h
          | transaction => exact runTransaction_grows (hbody body) id next params ctx r h

/-- A larger budget changes no result of a walk. -/
theorem BlockMap.run_grows (blocks : BlockMap) {fuel fuel' : Nat} (hle : fuel ≤ fuel')
    (start : String) (params : Json) :
    Bounded.Grows (δ := δ) (χ := χ) (blocks.run fuel start params)
      (blocks.run fuel' start params) :=
  walk_grows (Block.execute_grows fuel fuel' hle) blocks fuel fuel' start params hle

end FlowGraph
