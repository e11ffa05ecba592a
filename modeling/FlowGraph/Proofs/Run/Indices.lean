/-
Loops that are driven by indices.

A counting loop goes from index to index, and its body gets the index.  A loop over a list can be
driven in the same way: by floats from zero on, where the element is looked up at every turn.
`drive` is what both have in common.

Below `2 ^ 53` the indices of a list are whole numbers, and none is left out or comes twice.  So the
loop that is driven by them takes the elements one after the other, and each of them once
(`drive_each`).
-/
import FlowGraph.Proofs.Whole
import FlowGraph.Run.Execute

namespace FlowGraph

variable {δ χ : Type}

/-- Run a body for every index from one on, with the value that belongs to the index.  The result
counts the turns. -/
def drive (b : Bounds) (valueAt : Float → Json) (body : Option (BodyRun δ χ)) :
    Nat → Float → Nat → Bounded δ χ (Except RunError Nat)
  | 0, _, _ => fun _ => none
  | fuel + 1, index, turns => fun ctx =>
    if b.isOver index then some (.ok turns, ctx)
    else
      match body with
      | none => drive b valueAt none fuel (index + b.step) (turns + 1) ctx
      | some run =>
        match run (valueAt index) ctx with
        | none => none
        | some (.error e, ctx) => some (.error e, ctx)
        | some (.ok _, ctx) => drive b valueAt (some run) fuel (index + b.step) (turns + 1) ctx

/-- A counting loop is driven by its indices, with the indices as values. -/
theorem countLoop_eq_drive (b : Bounds) (body : Option (BodyRun δ χ)) (fuel : Nat) (index : Float)
    (turns : Nat) :
    countLoop b body fuel index turns = drive b Bounds.indexValue body fuel index turns := by
  induction fuel generalizing body index turns with
  | zero => rfl
  | succ fuel ih =>
      funext ctx
      cases hover : b.isOver index with
      | true => simp [countLoop, drive, hover]
      | false =>
          cases body with
          | none => simp [countLoop, drive, hover, ih]
          | some run =>
              rcases hr : run (Bounds.indexValue index) ctx with _ | ⟨_ | _, _⟩ <;>
                simp [countLoop, drive, hover, hr, ih]

/-- The indices of a list. -/
def Bounds.ofList (items : List Json) : Bounds := ⟨0.0, items.length.toUInt64.toFloat, 1.0⟩

/-- The element at an index, or nothing. -/
def elementAt (items : List Json) (index : Float) : Json :=
  items[index.toUInt64.toNat]?.getD .null

section Indices

variable {items : List Json} {index : Float} {k : Nat} (hlength : items.length < 2 ^ 53)
  (hindex : Holds index k)
include hlength hindex

theorem Bounds.isOver_ofList : (Bounds.ofList items).isOver index = decide (items.length ≤ k) := by
  have hstep : ¬ (1.0 : Float) ≤ 0.0 := by
    rw [Holds.one.le_iff Holds.zero]
    exact Nat.not_succ_le_zero 0
  simp only [isOver, ofList, Holds.one.isNaN, hindex.isNaN, hstep,
    (Holds.ofNat hlength).le_iff hindex, decide_false, Bool.or_false, Bool.false_or]

theorem elementAt_ofList (hk : k < items.length) : elementAt items index = items[k] := by
  rw [elementAt, hindex.toNat (Nat.lt_trans hk hlength), List.getElem?_eq_getElem hk,
    Option.getD_some]

end Indices

/-- One turn for each value, if there is a body. -/
def overEach (body : Option (BodyRun δ χ)) (values : List Json) :
    Bounded δ χ (Except RunError Unit) :=
  match body with
  | none => fun ctx => some (.ok (), ctx)
  | some run => eachLoop run values

/-- From an index on, a loop that is driven by the indices of a list is a loop over the rest. -/
theorem drive_from {items : List Json} (hlength : items.length < 2 ^ 53)
    (body : Option (BodyRun δ χ)) (fuel : Nat) {index : Float} {k : Nat} (hindex : Holds index k)
    (hk : k ≤ items.length) (hfuel : items.length < fuel + k) (ctx : Context δ χ) :
    drive (.ofList items) (elementAt items) body fuel index k ctx
      = (overEach body (items.drop k) ctx).map fun out =>
          (out.1.map fun _ => items.length, out.2) := by
  induction fuel generalizing index k ctx with
  | zero => omega
  | succ fuel ih =>
      rw [drive, Bounds.isOver_ofList hlength hindex]
      rcases Nat.eq_or_lt_of_le hk with rfl | hlt
      · rw [List.drop_length]
        cases body <;> simp [overEach, eachLoop, Except.map]
      · have hnext : Holds (index + (Bounds.ofList items).step) (k + 1) :=
          hindex.add .one (by omega)
        have hrest := fun ctx => ih hnext hlt (by omega) ctx
        simp only [Nat.not_le.mpr hlt, decide_false, Bool.false_eq_true, if_false]
        cases body with
        | none => exact hrest ctx
        | some run =>
            rw [overEach, List.drop_eq_getElem_cons hlt, eachLoop]
            simp only [elementAt_ofList hlength hindex hlt]
            cases run items[k] ctx with
            | none => rfl
            | some out =>
                obtain ⟨r, mid⟩ := out
                cases r with
                | error e => rfl
                | ok o => exact hrest mid

/-- **Driven by its indices, a list is looped over once, from its first element to the last.** -/
theorem drive_each {items : List Json} (hlength : items.length < 2 ^ 53)
    (body : Option (BodyRun δ χ)) {fuel : Nat} (hfuel : items.length < fuel) (ctx : Context δ χ) :
    drive (.ofList items) (elementAt items) body fuel 0.0 0 ctx
      = (overEach body items ctx).map fun out => (out.1.map fun _ => items.length, out.2) :=
  drive_from hlength body fuel .zero (Nat.zero_le _) hfuel ctx

/-- A loop over a list has been driven, and is reported with the turns that were counted. -/
def eachDriven (next : Option String) (params : Json) (id : String) :
    Except RunError Nat × Context δ χ → Except BlockError Output × Context δ χ
  | (.ok turns, ctx) => loopEnd next params (.eachCompleted id turns) (.ok ()) ctx
  | (.error e, ctx) => loopEnd next params (.eachCompleted id 0) (.error e) ctx

theorem eachDriven_counted (next : Option String) (params : Json) (id : String) (turns : Nat)
    (out : Except RunError Unit × Context δ χ) :
    eachDriven next params id (out.1.map fun _ => turns, out.2)
      = loopEnd next params (.eachCompleted id turns) out.1 out.2 := by
  obtain ⟨_ | _, ctx⟩ := out <;> rfl

variable [Store.Database δ]

/-- Run a loop over a list by its indices. -/
def runEachByIndex (c : EachConfig) (id : String) (next : Option String)
    (body : Option (BodyRun δ χ)) (fuel : Nat) (params : Json) :
    Bounded δ χ (Except BlockError Output) := fun ctx =>
  match (resolveItems c params).run ctx with
  | (.error text, ctx) => some (.ok (.failure text), ctx)
  | (.ok items, ctx) =>
    (drive (.ofList items) (elementAt items) body fuel 0.0 0 ctx).map (eachDriven next params id)

/-- The loop over a list goes the same way by its indices. -/
theorem runEach_eq_byIndex {c : EachConfig} {params : Json} {ctx mid : Context δ χ}
    {items : List Json} (hitems : (resolveItems c params).run ctx = (.ok items, mid))
    (hlength : items.length < 2 ^ 53) (id : String) (next : Option String)
    (body : Option (BodyRun δ χ)) {fuel : Nat} (hfuel : items.length < fuel) :
    runEach c id next body params ctx = runEachByIndex c id next body fuel params ctx := by
  rw [runEach, Act.within_context, runEachByIndex, hitems]
  simp only [drive_each hlength body hfuel, Option.map_map, Function.comp_def, eachDriven_counted]
  cases body <;> rfl

end FlowGraph
