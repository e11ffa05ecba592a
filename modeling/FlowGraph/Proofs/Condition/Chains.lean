/-
Chains of conditions.

Nothing is skipped in a list of conditions.  The scripts that its conditions ask form one list, the
left operand of a condition before the right one, and the first of them that fails is the failure of
the whole, whatever has been found true before it.

If none fails, the results are taken together in one pass over three truth values.  They say what
the grouped reading says, in which the list is cut behind every condition that closes its group
(`resolve_iff`): the pass goes on from any state, so the induction is over all states
(`result_foldl`).  The same pass decides which rows meet a list of filters.
-/
import FlowGraph.Proofs.Outcome
import FlowGraph.Store.Memory
import Mathlib.Data.List.Basic

namespace FlowGraph

namespace Chain

variable {α β : Type}

/-! ### Cutting a list -/

/-- A list cut behind every element that closes its group.  What is left behind the last of them is
a piece of its own, unless nothing is. -/
def pieces (chain : α → Chain) : List α → List (List α)
  | [] => []
  | x :: rest =>
    match chain x, pieces chain rest with
    | .or, ps => [x] :: ps
    | .and, [] => [[x]]
    | .and, p :: ps => (x :: p) :: ps

variable {chain : α → Chain}

theorem pieces_or {x : α} (h : chain x = .or) (rest : List α) :
    pieces chain (x :: rest) = [x] :: pieces chain rest := by
  rw [pieces, h]

theorem pieces_and {x : α} (h : chain x = .and) (rest : List α) :
    pieces chain (x :: rest)
      = (x :: (pieces chain rest).head?.getD []) :: (pieces chain rest).tail := by
  rw [pieces, h]
  cases pieces chain rest <;> rfl

theorem pieces_ne_nil {xs : List α} (h : xs ≠ []) : pieces chain xs ≠ [] := by
  cases xs with
  | nil => exact absurd rfl h
  | cons x rest =>
      cases hx : chain x with
      | or => rw [pieces_or hx]; exact List.cons_ne_nil _ _
      | and => rw [pieces_and hx]; exact List.cons_ne_nil _ _

/-- Without an element that closes its group there is one piece. -/
theorem pieces_of_forall_and {xs : List α} (h : ∀ x ∈ xs, chain x = .and) (hne : xs ≠ []) :
    pieces chain xs = [xs] := by
  induction xs with
  | nil => exact absurd rfl hne
  | cons x rest ih =>
      obtain ⟨hx, hrest⟩ := List.forall_mem_cons.mp h
      rw [pieces_and hx]
      cases rest with
      | nil => rfl
      | cons y ys => rw [ih hrest (List.cons_ne_nil _ _)]; rfl

theorem pieces_map (f : β → α) (xs : List β) :
    pieces chain (xs.map f) = (pieces (fun x => chain (f x)) xs).map (List.map f) := by
  induction xs with
  | nil => rfl
  | cons x rest ih =>
      rw [List.map_cons]
      cases h : chain (f x) with
      | or =>
          have hpieces : pieces (fun x => chain (f x)) (x :: rest)
              = [x] :: pieces (fun x => chain (f x)) rest := pieces_or (x := x) h rest
          rw [pieces_or h, hpieces, ih]
          rfl
      | and =>
          have hpieces : pieces (fun x => chain (f x)) (x :: rest)
              = (x :: (pieces (fun x => chain (f x)) rest).head?.getD [])
                :: (pieces (fun x => chain (f x)) rest).tail := pieces_and (x := x) h rest
          rw [pieces_and h, hpieces, ih]
          cases pieces (fun x => chain (f x)) rest <;> rfl

/-! ### The pass over the results -/

/-- All results of a piece are true. -/
def full (piece : List (Bool × Chain)) : Bool := piece.all Prod.fst

/-- The results behind some that were read. -/
def Progress.after (p : Progress) : List (List (Bool × Chain)) → Bool
  | [] => p.opened && p.group
  | q :: qs => (p.group && full q) || qs.any full

/-- **The pass reads the pieces**, the first of them as the rest of the group that is open. -/
theorem result_foldl (rs : List (Bool × Chain)) (p : Progress) :
    (rs.foldl Progress.step p).result = (p.held || p.after (pieces Prod.snd rs)) := by
  induction rs generalizing p with
  | nil => rfl
  | cons r rest ih =>
      obtain ⟨b, c⟩ := r
      rw [List.foldl_cons, ih]
      cases c with
      | or =>
          rw [pieces_or rfl]
          cases pieces Prod.snd rest <;>
            simp [Progress.step, Progress.after, full, Bool.or_assoc]
      | and =>
          rw [pieces_and rfl]
          cases pieces Prod.snd rest <;>
            simp [Progress.step, Progress.after, full, Bool.and_assoc]

/-- **Results taken together are true if there are none, or if those of some piece are.** -/
theorem resolve_iff {rs : List (Bool × Chain)} :
    resolve rs = true ↔ rs = [] ∨ ∃ piece ∈ pieces Prod.snd rs, ∀ r ∈ piece, r.1 = true := by
  have hpass := result_foldl rs .start
  cases rs with
  | nil => exact iff_of_true rfl (Or.inl rfl)
  | cons r rest =>
      cases hp : pieces Prod.snd (r :: rest) with
      | nil => exact absurd hp (pieces_ne_nil (List.cons_ne_nil _ _))
      | cons q qs =>
          have hany : resolve (r :: rest) = (q :: qs).any full := by
            rw [resolve, hpass, hp]
            simp [Progress.start, Progress.after]
          rw [hany, List.any_eq_true]
          simp [full]

/-- If none closes its group, all of them have to be true. -/
theorem resolve_of_forall_and {rs : List (Bool × Chain)} (h : ∀ r ∈ rs, r.2 = .and) :
    resolve rs = true ↔ ∀ r ∈ rs, r.1 = true := by
  rw [resolve_iff]
  cases rs with
  | nil => simp
  | cons r rest =>
      rw [pieces_of_forall_and h (List.cons_ne_nil _ _)]
      simp only [reduceCtorEq, false_or, List.mem_singleton, exists_eq_left]

/-- How the last one goes on does not matter. -/
theorem resolve_last (rs : List (Bool × Chain)) (b : Bool) (c d : Chain) :
    resolve (rs ++ [(b, c)]) = resolve (rs ++ [(b, d)]) := by
  have hstep : ∀ (p : Progress) (c : Chain),
      (p.step (b, c)).result = (p.held || (p.group && b)) := by
    intro p c
    cases c <;> simp [Progress.step, Progress.result]
  rw [resolve, resolve, List.foldl_append, List.foldl_append]
  exact (hstep _ c).trans (hstep _ d).symm

end Chain

/-! ### Evaluators -/

/-- What answers scripts.  It may fail, and it may remember what it was asked. -/
abbrev Evaluator (ε σ : Type) := String → ExceptT ε (StateM σ) Json

namespace Evaluator

variable {ε σ : Type} {s s' : σ} {e : ε} (run : Evaluator ε σ)

/-- Scripts are answered one after the other, each by the evaluator as the one before left it. -/
inductive Answered : List String → σ → σ → Prop
  | nil {s : σ} : Answered [] s s
  | cons {code : String} {rest : List String} {v : Json} {s s₁ s₂ : σ}
      (hrun : outcome (run code) s = (.ok v, s₁)) (hrest : Answered rest s₁ s₂) :
      Answered (code :: rest) s s₂

/-- Some of the scripts are answered, and the one behind them fails with an error. -/
def FirstFails (codes : List String) (s : σ) (e : ε) (s' : σ) : Prop :=
  ∃ before code after s₁, codes = before ++ code :: after ∧ Answered run before s s₁ ∧
    outcome (run code) s₁ = (.error e, s')

variable {run} {code : String} {codes more : List String}

theorem answered_nil_iff : Answered run [] s s' ↔ s = s' := by
  constructor
  · rintro ⟨⟩
    rfl
  · rintro rfl
    exact .nil

theorem answered_cons_iff :
    Answered run (code :: codes) s s' ↔
      ∃ v s₁, outcome (run code) s = (.ok v, s₁) ∧ Answered run codes s₁ s' := by
  constructor
  · intro h
    cases h with
    | cons hrun hrest => exact ⟨_, _, hrun, hrest⟩
  · rintro ⟨v, s₁, hrun, hrest⟩
    exact .cons hrun hrest

theorem answered_append_iff :
    Answered run (codes ++ more) s s' ↔
      ∃ s₁, Answered run codes s s₁ ∧ Answered run more s₁ s' := by
  induction codes generalizing s with
  | nil => simp [answered_nil_iff]
  | cons code codes ih =>
      simp only [List.cons_append, answered_cons_iff, ih]
      grind

theorem not_firstFails_nil : ¬ FirstFails run [] s e s' := by
  rintro ⟨before, code, after, s₁, hsplit, -⟩
  exact absurd hsplit (by simp)

theorem firstFails_cons_iff :
    FirstFails run (code :: codes) s e s' ↔
      outcome (run code) s = (.error e, s') ∨
        ∃ v s₁, outcome (run code) s = (.ok v, s₁) ∧ FirstFails run codes s₁ e s' := by
  constructor
  · rintro ⟨before, failing, after, s₁, hsplit, hbefore, hfails⟩
    cases hbefore with
    | nil =>
        obtain ⟨rfl, -⟩ := List.cons.inj hsplit
        exact Or.inl hfails
    | cons hrun hrest =>
        obtain ⟨rfl, hrest'⟩ := List.cons.inj hsplit
        exact Or.inr ⟨_, _, hrun, _, _, _, _, hrest', hrest, hfails⟩
  · rintro (hfails | ⟨v, s₁, hrun, before, failing, after, s₂, rfl, hbefore, hfails⟩)
    · exact ⟨[], code, codes, s, rfl, .nil, hfails⟩
    · exact ⟨code :: before, failing, after, s₂, rfl, .cons hrun hbefore, hfails⟩

theorem firstFails_append_iff :
    FirstFails run (codes ++ more) s e s' ↔
      FirstFails run codes s e s' ∨
        ∃ s₁, Answered run codes s s₁ ∧ FirstFails run more s₁ e s' := by
  induction codes generalizing s with
  | nil => simp [answered_nil_iff, not_firstFails_nil]
  | cons code codes ih =>
      simp only [List.cons_append, firstFails_cons_iff, answered_cons_iff, ih]
      grind

/-! ### Operands -/

/-- A value stands for what its script is answered, and without a script for itself. -/
inductive Stands (run : Evaluator ε σ) (j : Json) (s : σ) : Json → σ → Prop
  | answered {code : String} {v : Json} {s' : σ} (hscript : Template.script? j = some code)
      (hrun : outcome (run code) s = (.ok v, s')) : Stands run j s v s'
  | plain (hscript : Template.script? j = none) : Stands run j s j s

variable {j v : Json}

theorem resolve_ok_iff :
    outcome (Template.resolve run j) s = (.ok v, s') ↔ Stands run j s v s' := by
  rw [Template.resolve]
  cases hscript : Template.script? j with
  | some code =>
      refine ⟨.answered hscript, fun h => ?_⟩
      cases h with
      | answered hcode hrun => rwa [Option.some.inj (hscript.symm.trans hcode)]
      | plain hnone => cases hscript.symm.trans hnone
  | none =>
      refine pure_ok_iff.trans ⟨?_, fun h => ?_⟩
      · rintro ⟨rfl, rfl⟩
        exact .plain hscript
      · cases h with
        | answered hcode hrun => cases hscript.symm.trans hcode
        | plain hnone => exact ⟨rfl, rfl⟩

theorem resolve_error_iff :
    outcome (Template.resolve run j) s = (.error e, s') ↔
      FirstFails run (Template.script? j).toList s e s' := by
  rw [Template.resolve]
  cases Template.script? j with
  | some code => simp [firstFails_cons_iff, not_firstFails_nil]
  | none => exact iff_of_false pure_error not_firstFails_nil

theorem stands_iff_answered :
    (∃ v, Stands run j s v s') ↔ Answered run (Template.script? j).toList s s' := by
  simp only [← resolve_ok_iff, Template.resolve]
  cases Template.script? j with
  | some code => simp [answered_cons_iff, answered_nil_iff]
  | none => simp [pure_ok_iff, answered_nil_iff]

end Evaluator

/-! ### Conditions -/

namespace Condition

open Evaluator

variable {ε σ : Type}

/-- The script of its own that a condition asks instead of its operands. -/
def own? (c : Condition) : Option String := if c.operator = .script then c.script else none

/-- The scripts that a condition asks, in their order. -/
def scripts (c : Condition) : List String :=
  match c.own? with
  | some code => [Template.unmarked code]
  | none => (Template.script? c.lhs).toList ++ (Template.script? c.rhs).toList

/-- A condition is true or false. -/
inductive Gives (run : Evaluator ε σ) (truthy : Json → Bool) (c : Condition) (s : σ) :
    Bool → σ → Prop
  | asked {code : String} {v : Json} {s' : σ} (hown : c.own? = some code)
      (hrun : outcome (run (Template.unmarked code)) s = (.ok v, s')) :
      Gives run truthy c s (truthy v) s'
  | compared {a b : Json} {s₁ s' : σ} (hown : c.own? = none) (hleft : Stands run c.lhs s a s₁)
      (hright : Stands run c.rhs s₁ b s') : Gives run truthy c s (c.operator.holds a b) s'

/-- Conditions are true or false one after the other. -/
inductive GivesEach (run : Evaluator ε σ) (truthy : Json → Bool) :
    List Condition → σ → List (Bool × Chain) → σ → Prop
  | nil {s : σ} : GivesEach run truthy [] s [] s
  | cons {c : Condition} {rest : List Condition} {b : Bool} {rs : List (Bool × Chain)}
      {s s₁ s' : σ} (hfirst : Gives run truthy c s b s₁)
      (hrest : GivesEach run truthy rest s₁ rs s') :
      GivesEach run truthy (c :: rest) s ((b, c.chain) :: rs) s'

variable {run : Evaluator ε σ} {truthy : Json → Bool} {c : Condition} {cs : List Condition}
  {s s' : σ} {e : ε} {b : Bool} {rs : List (Bool × Chain)}

theorem evaluate_own {code : String} (h : c.own? = some code) :
    c.evaluate run truthy = do return truthy (← run (Template.unmarked code)) := by
  obtain ⟨lhs, rhs, operator, script, chain⟩ := c
  rw [own?] at h
  split at h
  · rename_i hoperator
    dsimp only at h hoperator
    subst h hoperator
    rfl
  · cases h

theorem evaluate_compared (h : c.own? = none) :
    c.evaluate run truthy = do
      let x ← Template.resolve run c.lhs
      let y ← Template.resolve run c.rhs
      return c.operator.holds x y := by
  rw [evaluate]
  split
  · rename_i hoperator hscript
    rw [own?, if_pos hoperator, hscript] at h
    cases h
  · rfl

theorem evaluate_ok_iff :
    outcome (c.evaluate run truthy) s = (.ok b, s') ↔ Gives run truthy c s b s' := by
  cases hown : c.own? with
  | some code =>
      rw [evaluate_own hown, bind_ok_iff]
      simp only [pure_ok_iff]
      constructor
      · rintro ⟨v, s₁, hrun, rfl, rfl⟩
        exact .asked hown hrun
      · intro h
        cases h with
        | asked hown' hrun =>
            obtain rfl := Option.some.inj (hown.symm.trans hown')
            exact ⟨_, _, hrun, rfl, rfl⟩
        | compared hown' _ _ => cases hown.symm.trans hown'
  | none =>
      rw [evaluate_compared hown]
      simp only [bind_ok_iff, pure_ok_iff, resolve_ok_iff]
      constructor
      · rintro ⟨x, s₁, hleft, y, s₂, hright, rfl, rfl⟩
        exact .compared hown hleft hright
      · intro h
        cases h with
        | asked hown' _ => cases hown.symm.trans hown'
        | compared _ hleft hright => exact ⟨_, _, hleft, _, _, hright, rfl, rfl⟩

theorem gives_iff_answered : (∃ b, Gives run truthy c s b s') ↔ Answered run c.scripts s s' := by
  rw [scripts]
  simp only [← evaluate_ok_iff]
  cases hown : c.own? with
  | some code =>
      rw [evaluate_own hown]
      simp only [bind_ok_iff, pure_ok_iff, answered_cons_iff, answered_nil_iff]
      grind
  | none =>
      rw [evaluate_compared hown]
      simp only [bind_ok_iff, pure_ok_iff, resolve_ok_iff, answered_append_iff,
        ← stands_iff_answered]
      grind

theorem evaluate_error_iff :
    outcome (c.evaluate run truthy) s = (.error e, s') ↔ FirstFails run c.scripts s e s' := by
  rw [scripts]
  cases hown : c.own? with
  | some code =>
      rw [evaluate_own hown, bind_error_iff]
      simp [pure_error, firstFails_cons_iff, not_firstFails_nil]
  | none =>
      rw [evaluate_compared hown]
      simp only [bind_error_iff, pure_error, resolve_ok_iff, resolve_error_iff,
        firstFails_append_iff, ← stands_iff_answered]
      grind

theorem evaluateEach_ok_iff :
    outcome (evaluateEach run cs truthy) s = (.ok rs, s') ↔ GivesEach run truthy cs s rs s' := by
  induction cs generalizing s s' rs with
  | nil =>
      refine pure_ok_iff.trans ⟨?_, fun h => ?_⟩
      · rintro ⟨rfl, rfl⟩
        exact .nil
      · cases h with
        | nil => exact ⟨rfl, rfl⟩
  | cons c rest ih =>
      rw [evaluateEach]
      simp only [bind_ok_iff, pure_ok_iff, evaluate_ok_iff, ih]
      constructor
      · rintro ⟨b, s₁, hfirst, rs, s₂, hrest, rfl, rfl⟩
        exact .cons hfirst hrest
      · intro h
        cases h with
        | cons hfirst hrest => exact ⟨_, _, hfirst, _, _, hrest, rfl, rfl⟩

/-- **Of all scripts that the conditions ask, the first that fails is the failure.** -/
theorem evaluateEach_error_iff :
    outcome (evaluateEach run cs truthy) s = (.error e, s') ↔
      FirstFails run (cs.flatMap scripts) s e s' := by
  induction cs generalizing s with
  | nil => exact iff_of_false pure_error not_firstFails_nil
  | cons c rest ih =>
      have hasked : ∀ s₁, Answered run c.scripts s s₁ ↔ ∃ b, Gives run truthy c s b s₁ :=
        fun _ => gives_iff_answered.symm
      rw [evaluateEach, List.flatMap_cons, firstFails_append_iff]
      simp only [bind_error_iff, pure_error, evaluate_ok_iff, evaluate_error_iff, ih, hasked]
      grind

/-! ### The list of conditions -/

theorem GivesEach.eq_nil_iff (h : GivesEach run truthy cs s rs s') : rs = [] ↔ cs = [] := by
  cases h <;> simp

theorem GivesEach.chains (h : GivesEach run truthy cs s rs s') (hcs : ∀ c ∈ cs, c.chain = .and) :
    ∀ r ∈ rs, r.2 = .and := by
  induction h with
  | nil => exact fun _ h => nomatch h
  | cons _ _ ih =>
      obtain ⟨hc, hrest⟩ := List.forall_mem_cons.mp hcs
      exact List.forall_mem_cons.mpr ⟨hc, ih hrest⟩

theorem evaluateAll_error_iff :
    outcome (evaluateAll run cs truthy) s = (.error e, s') ↔
      FirstFails run (cs.flatMap scripts) s e s' := by
  rw [evaluateAll]
  simp only [bind_error_iff, pure_error, evaluateEach_error_iff, and_false, exists_false, or_false]

theorem evaluateAll_ok_iff :
    outcome (evaluateAll run cs truthy) s = (.ok b, s') ↔
      ∃ rs, GivesEach run truthy cs s rs s' ∧ Chain.resolve rs = b := by
  rw [evaluateAll]
  simp only [bind_ok_iff, pure_ok_iff, evaluateEach_ok_iff]
  grind

theorem evaluateEach_append (cs ds : List Condition) :
    evaluateEach run (cs ++ ds) truthy = do
      let rs ← evaluateEach run cs truthy
      let more ← evaluateEach run ds truthy
      return rs ++ more := by
  induction cs with
  | nil => simp [evaluateEach]
  | cons c rest ih => simp [evaluateEach, ih]

/-- How the last condition goes on does not matter. -/
theorem evaluateAll_last (cs : List Condition) (c : Condition) (chain : Chain) :
    evaluateAll run (cs ++ [{ c with chain := chain }]) truthy
      = evaluateAll run (cs ++ [c]) truthy := by
  have hsame : Condition.evaluate run { c with chain := chain } truthy
      = c.evaluate run truthy := rfl
  rw [evaluateAll, evaluateAll, evaluateEach_append, evaluateEach_append]
  simp [evaluateEach, hsame, Chain.resolve_last _ _ chain c.chain]

end Condition

/-! ### Filters of rows -/

namespace Store.Memory

/-- A row satisfies filters: there are none, or some piece of them holds of it. -/
def Satisfies (filters : List Filter) (row : Row) : Prop :=
  filters = [] ∨ ∃ piece ∈ Chain.pieces Filter.chain filters,
    ∀ f ∈ piece, f.operator.holds (cell row f.column) f.value = true

variable {filters : List Filter} {row : Row}

theorem meets_iff : meets filters row = true ↔ Satisfies filters row := by
  rw [meets, Chain.resolve_iff, Chain.pieces_map, Satisfies]
  simp only [List.map_eq_nil_iff, List.mem_map, exists_exists_and_eq_and, forall_exists_index,
    and_imp, forall_apply_eq_imp_iff₂]

instance : DecidablePred (Satisfies filters) := fun _ => decidable_of_iff _ meets_iff

theorem meets_eq (filters : List Filter) :
    meets filters = fun row => decide (Satisfies filters row) := by
  funext row
  rw [Bool.eq_iff_iff, meets_iff, decide_eq_true_iff]

end Store.Memory

namespace Condition

open Evaluator Store

/-- **All conditions of a list are evaluated.**  The first script that fails is the failure of the
list, or the list is true as its pieces say.  How the last condition goes on says nothing, and a
list in which none closes its group is true if all its conditions are.  The filters of rows are
read by the same rule. -/
theorem evaluateAll_in_order {ε σ : Type} (run : Evaluator ε σ) (truthy : Json → Bool)
    (cs : List Condition) (s : σ) :
    (∀ e s', outcome (evaluateAll run cs truthy) s = (.error e, s') ↔
        FirstFails run (cs.flatMap scripts) s e s') ∧
      (∀ b s', outcome (evaluateAll run cs truthy) s = (.ok b, s') ↔
        ∃ rs, GivesEach run truthy cs s rs s' ∧ (b = true ↔ cs = [] ∨
          ∃ piece ∈ Chain.pieces Prod.snd rs, ∀ r ∈ piece, r.1 = true)) ∧
      ((∀ c ∈ cs, c.chain = .and) →
        ∀ b s', outcome (evaluateAll run cs truthy) s = (.ok b, s') ↔
          ∃ rs, GivesEach run truthy cs s rs s' ∧ (b = true ↔ ∀ r ∈ rs, r.1 = true)) ∧
      (∀ c chain, evaluateAll run (cs ++ [{ c with chain := chain }]) truthy
        = evaluateAll run (cs ++ [c]) truthy) ∧
      ∀ filters row, Memory.meets filters row = true ↔ filters = [] ∨
        ∃ piece ∈ Chain.pieces Filter.chain filters,
          ∀ f ∈ piece, f.operator.holds (Memory.cell row f.column) f.value = true := by
  refine ⟨fun e s' => evaluateAll_error_iff, fun b s' => ?grouped, fun hcs b s' => ?plain,
    evaluateAll_last cs, fun filters row => Memory.meets_iff⟩
  case grouped =>
    rw [evaluateAll_ok_iff]
    refine exists_congr fun rs => and_congr_right fun hgives => ?_
    rw [← hgives.eq_nil_iff, ← Chain.resolve_iff, Bool.eq_iff_iff]
    exact Iff.comm
  case plain =>
    rw [evaluateAll_ok_iff]
    refine exists_congr fun rs => and_congr_right fun hgives => ?_
    rw [← Chain.resolve_of_forall_and (hgives.chains hcs), Bool.eq_iff_iff]
    exact Iff.comm

/-- An evaluator that remembers what it was asked.  It says yes to one word and fails at another. -/
def listening : Evaluator String (List String) := fun code => do
  modify (· ++ [code])
  if code = "boom" then throw "no answer" else return .bool (code = "yes")

/-- A list that is true as soon as its first condition is, and fails all the same. -/
def failing : List Condition := [(asking "yes").closing, asking "boom", asking "yes"]

theorem evaluateAll_in_order_failing :
    (∀ c ∈ [asking "yes", asking "no"], c.chain = .and) ∧
      outcome (evaluateAll listening [asking "yes", asking "no"]) []
        = (.ok false, ["yes", "no"]) ∧
      outcome (evaluateAll listening failing) [] = (.error "no answer", ["yes", "boom"]) := by
  have hchains : ∀ c ∈ [asking "yes", asking "no"], c.chain = .and := by simp [asking]
  obtain ⟨-, -, hplain, -⟩ :=
    evaluateAll_in_order listening Json.truthy [asking "yes", asking "no"] []
  obtain ⟨hfails, -⟩ := evaluateAll_in_order listening Json.truthy failing []
  refine ⟨hchains, (hplain hchains _ _).mpr ⟨[(true, .and), (false, .and)], ?gives, by decide⟩,
    (hfails _ _).mpr ?fails⟩
  case gives =>
    exact .cons (.asked (v := .bool true) rfl rfl)
      (.cons (.asked (v := .bool false) rfl rfl) .nil)
  case fails => exact ⟨["yes"], "boom", ["yes"], ["yes"], rfl, .cons rfl .nil, rfl⟩

end Condition

end FlowGraph
