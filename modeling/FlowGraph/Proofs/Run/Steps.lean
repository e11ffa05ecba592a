/-
One step of a walk and one turn of a loop.

A walk that ends has come to a block or to none, and after a block it ends or goes on.  A
loop that ends is over, or its next turn fails, or it goes on after that turn.  Everything
that is proved of walks and loops looks at the same few cases, so they are listed once,
with all that is known in each.  The lists are complete and nothing but these cases: a
walk or a loop ends in a way exactly if one of them says so.
-/
import FlowGraph.Run.Execute

namespace FlowGraph

variable {δ χ : Type} {ctx ctx' : Context δ χ}

/-! ### After a block -/

namespace Walk

variable {id next : String} {params : Json} {r : Except BlockError Output}

/-- Blocks that raise or fail do not look like blocks that are missing. -/
theorem after_ne_notFound (id : String) (r : Except BlockError Output) (missing : String) :
    after id r ≠ .aborted (.blockNotFound missing) := by
  cases r with
  | error e => simp [after]
  | ok o =>
      rw [after, afterOutput]
      split
      · simp
      · split <;> simp

/-- A walk goes on to the successor that the output of the block names. -/
theorem after_onward (h : after id r = .onward next params) :
    ∃ o, r = .ok o ∧ o.next = some next := by
  cases r with
  | error e => simp [after] at h
  | ok o =>
      rw [after, afterOutput] at h
      split at h
      · simp at h
      · split at h
        · simp at h
        · rename_i next' hnext
          simp only [Step.onward.injEq] at h
          exact ⟨o, rfl, h.1 ▸ hnext⟩

end Walk

/-! ### Walks -/

/-- Walk over blocks that are run in some way. -/
abbrev BlockMap.walk (run : Block → Json → Bounded δ χ (Except BlockError Output))
    (blocks : BlockMap) : Nat → String → Json → Bounded δ χ (Except RunError Output) :=
  Walk.from? fun id => (Entries.find? id blocks).map (Block.station run)

section Walks

variable {run : Block → Json → Bounded δ χ (Except BlockError Output)} {blocks : BlockMap}
  {fuel : Nat} {id : String} {params : Json} {r : Except RunError Output}

/-- How a walk ends, seen from the id where it is. -/
inductive BlockMap.WalkEnds (run : Block → Json → Bounded δ χ (Except BlockError Output))
    (blocks : BlockMap) (fuel : Nat) (id : String) (params : Json) (ctx : Context δ χ) :
    Except RunError Output → Context δ χ → Prop
  | missing (hb : Entries.find? id blocks = none) :
      WalkEnds run blocks fuel id params ctx (.error (.blockNotFound id)) ctx
  | finished {b : Block} {r : Except BlockError Output} {mid : Context δ χ} {o : Output}
      (hb : Entries.find? id blocks = some b) (hr : run b params ctx = some (r, mid))
      (hafter : Walk.after b.id r = .finished o) :
      WalkEnds run blocks fuel id params ctx (.ok o) (Walk.record b.id b.kind r mid)
  | aborted {b : Block} {r : Except BlockError Output} {mid : Context δ χ} {e : RunError}
      (hb : Entries.find? id blocks = some b) (hr : run b params ctx = some (r, mid))
      (hafter : Walk.after b.id r = .aborted e) :
      WalkEnds run blocks fuel id params ctx (.error e) (Walk.record b.id b.kind r mid)
  | onward {b : Block} {r : Except BlockError Output} {mid ctx' : Context δ χ} {next : String}
      {params' : Json} {result : Except RunError Output}
      (hb : Entries.find? id blocks = some b) (hr : run b params ctx = some (r, mid))
      (hafter : Walk.after b.id r = .onward next params')
      (h : walk run blocks fuel next params' (Walk.record b.id b.kind r mid)
        = some (result, ctx')) :
      WalkEnds run blocks fuel id params ctx result ctx'

theorem BlockMap.walk_zero (run : Block → Json → Bounded δ χ (Except BlockError Output))
    (blocks : BlockMap) (id : String) (params : Json) (ctx : Context δ χ) :
    walk run blocks 0 id params ctx = none := rfl

/-- **How walks end.** -/
theorem BlockMap.walk_succ_iff :
    walk run blocks (fuel + 1) id params ctx = some (r, ctx')
      ↔ WalkEnds run blocks fuel id params ctx r ctx' := by
  rw [walk, Walk.from?]
  constructor
  · intro h
    cases hb : Entries.find? id blocks with
    | none =>
        simp only [hb, Option.map_none, Option.some.injEq, Prod.mk.injEq] at h
        obtain ⟨rfl, rfl⟩ := h
        exact .missing hb
    | some b =>
        simp only [hb, Option.map_some, Block.station] at h
        cases hr : run b params ctx with
        | none => simp [hr] at h
        | some out =>
            obtain ⟨o, mid⟩ := out
            simp only [hr] at h
            split at h
            · rename_i hafter
              simp only [Option.some.injEq, Prod.mk.injEq] at h
              obtain ⟨rfl, rfl⟩ := h
              exact .finished hb hr hafter
            · rename_i hafter
              simp only [Option.some.injEq, Prod.mk.injEq] at h
              obtain ⟨rfl, rfl⟩ := h
              exact .aborted hb hr hafter
            · rename_i hafter
              exact .onward hb hr hafter h
  · intro h
    cases h with
    | missing hb => simp [hb]
    | finished hb hr hafter | aborted hb hr hafter => simp [hb, Block.station, hr, hafter]
    | onward hb hr hafter h =>
        simp only [hb, Option.map_some, Block.station, hr, hafter]
        exact h

/-- A walk that ends ran the block that it was at, and if that led onward, it went on from there. -/
theorem BlockMap.walk_found {b : Block} (hb : Entries.find? id blocks = some b)
    (h : walk run blocks (fuel + 1) id params ctx = some (r, ctx')) :
    ∃ o mid, run b params ctx = some (o, mid) ∧
      ∀ next params', Walk.after b.id o = .onward next params' →
        walk run blocks fuel next params' (Walk.record b.id b.kind o mid) = some (r, ctx') := by
  rw [walk_succ_iff] at h
  cases h with
  | missing hb' => exact nomatch hb.symm.trans hb'
  | finished hb' hr hafter | aborted hb' hr hafter =>
      obtain rfl := Option.some.inj (hb.symm.trans hb')
      exact ⟨_, _, hr, fun _ _ honward => nomatch hafter.symm.trans honward⟩
  | onward hb' hr hafter h =>
      obtain rfl := Option.some.inj (hb.symm.trans hb')
      refine ⟨_, _, hr, fun _ _ honward => ?_⟩
      obtain ⟨rfl, rfl⟩ := Walk.Step.onward.inj (hafter.symm.trans honward)
      exact h

end Walks

/-! ### Loops -/

section Loops

variable {σ : Type} {run : Inside σ} {v : Json} {rest : List Json} {ctx ctx' : σ}

/-- How a loop over values ends, seen from the next one. -/
inductive EachEnds (run : Inside σ) (v : Json) (rest : List Json) (ctx : σ) :
    Except RunError Unit → σ → Prop
  | failed {e : RunError} {mid : σ} (hr : run v ctx = some (.error e, mid)) :
      EachEnds run v rest ctx (.error e) mid
  | passed {o : Output} {mid ctx' : σ} {r : Except RunError Unit}
      (hr : run v ctx = some (.ok o, mid)) (h : eachLoop run rest mid = some (r, ctx')) :
      EachEnds run v rest ctx r ctx'

theorem eachLoop_cons_iff {r : Except RunError Unit} :
    eachLoop run (v :: rest) ctx = some (r, ctx') ↔ EachEnds run v rest ctx r ctx' := by
  rw [eachLoop]
  constructor
  · intro h
    cases hr : run v ctx with
    | none => simp [hr] at h
    | some out =>
        obtain ⟨o, mid⟩ := out
        rw [hr] at h
        cases o with
        | error e =>
            simp only [Option.some.injEq, Prod.mk.injEq] at h
            obtain ⟨rfl, rfl⟩ := h
            exact .failed hr
        | ok o => exact .passed hr h
  · intro h
    cases h with
    | failed hr => simp [hr]
    | passed hr h => simpa [hr] using h

theorem Bounds.indices_over {b : Bounds} {index : Float} (hover : b.isOver index = true) (n : Nat) :
    b.indices n index = [] := by
  cases n with
  | zero => rfl
  | succ n => rw [indices, if_pos hover]

theorem Bounds.indices_succ {b : Bounds} {index : Float} (hover : b.isOver index = false)
    (n : Nat) : b.indices (n + 1) index = index :: b.indices n (index + b.step) := by
  rw [indices, if_neg (Bool.eq_false_iff.mp hover)]

/-- How a counting loop ends, seen from an index. -/
inductive CountEnds (b : Bounds) (body : Option (Inside σ)) (fuel : Nat) (index : Float)
    (turns : Nat) (ctx : σ) : Except RunError Nat → σ → Prop
  | past (hover : b.isOver index = true) : CountEnds b body fuel index turns ctx (.ok turns) ctx
  | idle {r : Except RunError Nat} {ctx' : σ} (hover : b.isOver index = false)
      (hbody : body = none)
      (h : countLoop b body fuel (index + b.step) (turns + 1) ctx = some (r, ctx')) :
      CountEnds b body fuel index turns ctx r ctx'
  | failed {run : Inside σ} {e : RunError} {mid : σ} (hover : b.isOver index = false)
      (hbody : body = some run) (hr : run (Bounds.indexValue index) ctx = some (.error e, mid)) :
      CountEnds b body fuel index turns ctx (.error e) mid
  | passed {run : Inside σ} {o : Output} {mid ctx' : σ} {r : Except RunError Nat}
      (hover : b.isOver index = false) (hbody : body = some run)
      (hr : run (Bounds.indexValue index) ctx = some (.ok o, mid))
      (h : countLoop b body fuel (index + b.step) (turns + 1) mid = some (r, ctx')) :
      CountEnds b body fuel index turns ctx r ctx'

theorem countLoop_succ_iff {b : Bounds} {body : Option (Inside σ)} {fuel : Nat} {index : Float}
    {turns : Nat} {r : Except RunError Nat} :
    countLoop b body (fuel + 1) index turns ctx = some (r, ctx')
      ↔ CountEnds b body fuel index turns ctx r ctx' := by
  rw [countLoop]
  constructor
  · intro h
    by_cases hover : b.isOver index = true
    · simp only [hover, if_true, Option.some.injEq, Prod.mk.injEq] at h
      obtain ⟨rfl, rfl⟩ := h
      exact .past hover
    · simp only [hover, Bool.false_eq_true, if_false] at h
      have hnot : b.isOver index = false := Bool.eq_false_iff.mpr hover
      cases body with
      | none => exact .idle hnot rfl h
      | some run =>
          simp only at h
          cases hr : run (Bounds.indexValue index) ctx with
          | none => simp [hr] at h
          | some out =>
              obtain ⟨o, mid⟩ := out
              rw [hr] at h
              cases o with
              | error e =>
                  simp only [Option.some.injEq, Prod.mk.injEq] at h
                  obtain ⟨rfl, rfl⟩ := h
                  exact .failed hnot rfl hr
              | ok o => exact .passed hnot rfl hr h
  · intro h
    cases h with
    | past hover => simp [hover]
    | idle hover hbody h =>
        subst hbody
        simpa [hover] using h
    | failed hover hbody hr =>
        subst hbody
        simp [hover, hr]
    | passed hover hbody hr h =>
        subst hbody
        simpa [hover, hr] using h

end Loops

end FlowGraph
