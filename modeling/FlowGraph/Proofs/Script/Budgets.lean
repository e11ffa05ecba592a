/-
Scripts with different budgets.

All functions of the machine recurse on one budget, and each hands it on less one.  So `Cuts` says
of all of them at once that with a smaller budget they do what they do with a larger one, cut off
where the smaller is used up, and a budget of one more is a step of one induction.

The budget is no part of the language, and this is why it does not matter: an outcome that one
budget allows is the outcome with every larger one.

The machine asks for a function of its host in one place only, where it looks up the name among
those that are granted.  But a script comes to that place on many ways: through expressions and
statements, through functions of the script, and through library functions that call back.  The same
induction goes along all of them, so `Cut` carries what is asked for as well.
-/
import FlowGraph.Proofs.Script.Cut

namespace FlowGraph.Script

open Run (Cut)

/-- With the smaller budget every function of the machine is what it is with the larger, cut off. -/
structure Cuts (a : Allowance) (fuel fuel' : Nat) : Prop where
  eval : ∀ level e, Cut a.granted (eval fuel ⟨a, level⟩ e) (eval fuel' ⟨a, level⟩ e)
  joinParts : ∀ level es acc,
    Cut a.granted (joinParts fuel ⟨a, level⟩ es acc) (joinParts fuel' ⟨a, level⟩ es acc)
  evalAll : ∀ level es, Cut a.granted (evalAll fuel ⟨a, level⟩ es) (evalAll fuel' ⟨a, level⟩ es)
  evalFields : ∀ level es acc,
    Cut a.granted (evalFields fuel ⟨a, level⟩ es acc) (evalFields fuel' ⟨a, level⟩ es acc)
  shareAll : ∀ xs, Cut a.granted (shareAll fuel xs) (shareAll fuel' xs)
  evalCall : ∀ level name es,
    Cut a.granted (evalCall fuel ⟨a, level⟩ name es) (evalCall fuel' ⟨a, level⟩ name es)
  evalNamed : ∀ level name es,
    Cut a.granted (evalNamed fuel ⟨a, level⟩ name es) (evalNamed fuel' ⟨a, level⟩ name es)
  apply : ∀ level name vs this,
    Cut a.granted (apply fuel ⟨a, level⟩ name vs this) (apply fuel' ⟨a, level⟩ name vs this)
  special : ∀ level name vs,
    Cut a.granted (special fuel ⟨a, level⟩ name vs) (special fuel' ⟨a, level⟩ name vs)
  evalText : ∀ level code,
    Cut a.granted (evalText fuel ⟨a, level⟩ code) (evalText fuel' ⟨a, level⟩ code)
  callFunction : ∀ level f vs this,
    Cut a.granted (callFunction fuel ⟨a, level⟩ f vs this) (callFunction fuel' ⟨a, level⟩ f vs this)
  callBody : ∀ level f, Cut a.granted (callBody fuel ⟨a, level⟩ f) (callBody fuel' ⟨a, level⟩ f)
  callValue : ∀ level name vs this,
    Cut a.granted (callValue fuel ⟨a, level⟩ name vs this) (callValue fuel' ⟨a, level⟩ name vs this)
  callWith : ∀ level f vs more,
    Cut a.granted (callWith fuel ⟨a, level⟩ f vs more) (callWith fuel' ⟨a, level⟩ f vs more)
  callBack : ∀ level name vs,
    Cut a.granted (callBack fuel ⟨a, level⟩ name vs) (callBack fuel' ⟨a, level⟩ name vs)
  mapList : ∀ level f i xs,
    Cut a.granted (mapList fuel ⟨a, level⟩ f i xs) (mapList fuel' ⟨a, level⟩ f i xs)
  filterList : ∀ level f wanted i xs,
    Cut a.granted (filterList fuel ⟨a, level⟩ f wanted i xs)
      (filterList fuel' ⟨a, level⟩ f wanted i xs)
  searchList : ∀ level f wanted i xs,
    Cut a.granted (searchList fuel ⟨a, level⟩ f wanted i xs)
      (searchList fuel' ⟨a, level⟩ f wanted i xs)
  firstMapped : ∀ level f i xs,
    Cut a.granted (firstMapped fuel ⟨a, level⟩ f i xs) (firstMapped fuel' ⟨a, level⟩ f i xs)
  fold : ∀ level f acc i xs,
    Cut a.granted (fold fuel ⟨a, level⟩ f acc i xs) (fold fuel' ⟨a, level⟩ f acc i xs)
  sortList : ∀ level f xs done,
    Cut a.granted (sortList fuel ⟨a, level⟩ f xs done) (sortList fuel' ⟨a, level⟩ f xs done)
  insertSorted : ∀ level f x before after,
    Cut a.granted (insertSorted fuel ⟨a, level⟩ f x before after)
      (insertSorted fuel' ⟨a, level⟩ f x before after)
  filterMap : ∀ level f fields,
    Cut a.granted (filterMap fuel ⟨a, level⟩ f fields) (filterMap fuel' ⟨a, level⟩ f fields)
  reach : ∀ level steps, Cut a.granted (reach fuel ⟨a, level⟩ steps) (reach fuel' ⟨a, level⟩ steps)
  evalChain : ∀ level root steps set,
    Cut a.granted (evalChain fuel ⟨a, level⟩ root steps set)
      (evalChain fuel' ⟨a, level⟩ root steps set)
  chainOn : ∀ level x v constant path set,
    Cut a.granted (chainOn fuel ⟨a, level⟩ x v constant path set)
      (chainOn fuel' ⟨a, level⟩ x v constant path set)
  walk : ∀ level v constant path set,
    Cut a.granted (walk fuel ⟨a, level⟩ v constant path set)
      (walk fuel' ⟨a, level⟩ v constant path set)
  callMethod : ∀ level name v vs constant,
    Cut a.granted (callMethod fuel ⟨a, level⟩ name v vs constant)
      (callMethod fuel' ⟨a, level⟩ name v vs constant)
  execAll : ∀ level ss, Cut a.granted (execAll fuel ⟨a, level⟩ ss) (execAll fuel' ⟨a, level⟩ ss)
  exec : ∀ level s, Cut a.granted (exec fuel ⟨a, level⟩ s) (exec fuel' ⟨a, level⟩ s)
  handle : ∀ level f caught ss,
    Cut a.granted (handle fuel ⟨a, level⟩ f caught ss) (handle fuel' ⟨a, level⟩ f caught ss)
  assign : ∀ level e set,
    Cut a.granted (assign fuel ⟨a, level⟩ e set) (assign fuel' ⟨a, level⟩ e set)
  choose : ∀ level cases other,
    Cut a.granted (choose fuel ⟨a, level⟩ cases other) (choose fuel' ⟨a, level⟩ cases other)
  holds : ∀ level guard, Cut a.granted (holds fuel ⟨a, level⟩ guard) (holds fuel' ⟨a, level⟩ guard)
  turn : ∀ level body, Cut a.granted (turn fuel ⟨a, level⟩ body) (turn fuel' ⟨a, level⟩ body)
  whileLoop : ∀ level guard body,
    Cut a.granted (whileLoop fuel ⟨a, level⟩ guard body) (whileLoop fuel' ⟨a, level⟩ guard body)
  untilLoop : ∀ level body guard wanted,
    Cut a.granted (untilLoop fuel ⟨a, level⟩ body guard wanted)
      (untilLoop fuel' ⟨a, level⟩ body guard wanted)
  eachLoop : ∀ level x counter i src body,
    Cut a.granted (eachLoop fuel ⟨a, level⟩ x counter i src body)
      (eachLoop fuel' ⟨a, level⟩ x counter i src body)

namespace Cuts

variable {a : Allowance} {fuel fuel' : Nat}

/-! ### Expressions -/

section Expressions

variable (ih : Cuts a fuel fuel') (level : Nat)
include ih

theorem eval_succ (e : Expr) :
    Cut a.granted (Script.eval (fuel + 1) ⟨a, level⟩ e) (Script.eval (fuel' + 1) ⟨a, level⟩ e) := by
  rw [eval.eq_def, eval.eq_def]
  refine (Cut.tick a).bind fun _ => ?_
  cases e with
  | lit v => exact .pure v
  | joined parts => exact ih.joinParts level parts ""
  | list items => exact (ih.evalAll level items).bind fun _ => .pure _
  | record fields => exact (ih.evalFields level fields []).bind fun _ => .pure _
  | var name => exact (Cut.readVar name).bind fun _ => .pure _
  | this =>
      refine Cut.machine.bind fun m => ?_
      split
      · exact .pure _
      · exact .fault _
  | and x y =>
      refine (ih.eval level x).bind fun _ => (Cut.ofExcept _).bind fun b => ?_
      split
      · exact (ih.eval level y).bind fun _ => (Cut.ofExcept _).bind fun _ => .pure _
      · exact .pure _
  | or x y =>
      refine (ih.eval level x).bind fun _ => (Cut.ofExcept _).bind fun b => ?_
      split
      · exact .pure _
      · exact (ih.eval level y).bind fun _ => (Cut.ofExcept _).bind fun _ => .pure _
  | coalesce x y =>
      refine (ih.eval level x).bind fun v => ?_
      split
      · exact ih.eval level y
      · exact .pure _
  | call name args => exact ih.evalCall level name args
  | chain root steps => exact ih.evalChain level root steps none
  | block body => exact (ih.execAll level body).locally
  | closure name outer => exact (ih.shareAll outer).bind fun _ => .pure _

theorem joinParts_succ (es : List Expr) (acc : String) :
    Cut a.granted (Script.joinParts (fuel + 1) ⟨a, level⟩ es acc)
      (Script.joinParts (fuel' + 1) ⟨a, level⟩ es acc) := by
  rw [joinParts.eq_def, joinParts.eq_def]
  cases es with
  | nil => exact .pure _
  | cons e rest => exact (ih.eval level e).bind fun _ => ih.joinParts level rest _

theorem evalAll_succ (es : List Expr) :
    Cut a.granted (Script.evalAll (fuel + 1) ⟨a, level⟩ es)
      (Script.evalAll (fuel' + 1) ⟨a, level⟩ es) := by
  rw [evalAll.eq_def, evalAll.eq_def]
  cases es with
  | nil => exact .pure _
  | cons e rest =>
      exact (ih.eval level e).bind fun _ => (ih.evalAll level rest).bind fun _ => .pure _

theorem evalFields_succ (es : List (String × Expr)) (acc : List (String × Val)) :
    Cut a.granted (Script.evalFields (fuel + 1) ⟨a, level⟩ es acc)
      (Script.evalFields (fuel' + 1) ⟨a, level⟩ es acc) := by
  rw [evalFields.eq_def, evalFields.eq_def]
  cases es with
  | nil => exact .pure _
  | cons e rest => exact (ih.eval level e.2).bind fun _ => ih.evalFields level rest _

theorem shareAll_succ (xs : List String) :
    Cut a.granted (Script.shareAll (fuel + 1) xs) (Script.shareAll (fuel' + 1) xs) := by
  rw [shareAll.eq_def, shareAll.eq_def]
  cases xs with
  | nil => exact .pure _
  | cons x rest => exact (Cut.shareVar x).bind fun _ => (ih.shareAll rest).bind fun _ => .pure _

theorem evalCall_succ (name : String) (es : List Expr) :
    Cut a.granted (Script.evalCall (fuel + 1) ⟨a, level⟩ name es)
      (Script.evalCall (fuel' + 1) ⟨a, level⟩ name es) := by
  rw [evalCall.eq_def, evalCall.eq_def]
  dsimp only
  split
  · split
    · exact (ih.eval level _).bind fun _ => (ih.eval level _).bind fun _ =>
        (Cut.tick a).bind fun _ => .ofExcept _
    · exact ih.evalNamed level name _
  · exact ih.evalNamed level name _

theorem evalNamed_succ (name : String) (es : List Expr) :
    Cut a.granted (Script.evalNamed (fuel + 1) ⟨a, level⟩ name es)
      (Script.evalNamed (fuel' + 1) ⟨a, level⟩ name es) := by
  rw [evalNamed.eq_def, evalNamed.eq_def]
  dsimp only
  split
  · split
    · exact Cut.machine.bind fun _ => .pure _
    · refine (ih.evalAll level _).bind fun _ => (Cut.readVar _).bind fun r =>
        (ih.apply level name _ none).bind fun out => ?_
      split
      · split
        · exact .pure _
        · exact (Cut.writeVar _ _).bind fun _ => .pure _
      · exact .pure _
  · exact (ih.evalAll level _).bind fun _ => (ih.apply level name _ none).bind fun _ => .pure _

end Expressions

/-! ### Functions -/

section Functions

variable (ih : Cuts a fuel fuel') (level : Nat)

omit ih in
theorem changeFirst (name : String) (this : Option Bool) (v : Val) (first : Option Val) :
    Cut a.granted (Script.changeFirst name this v first)
      (Script.changeFirst name this v first) := by
  rw [Script.changeFirst.eq_def]
  split
  · exact .fault _
  · exact .pure _

omit ih in
/-- The name is looked up before its function is called. -/
theorem askHost {name : String} (hname : name ∈ a.granted) (v : Val) :
    Cut a.granted (Script.askHost name v) (Script.askHost name v) := by
  rw [Script.askHost]
  split
  · exact .fault _
  · refine (Cut.call hname _).bind fun reply => ?_
    split
    · exact .pure _
    · exact .fault _

include ih

theorem apply_succ (name : String) (vs : List Val) (this : Option Bool) :
    Cut a.granted (Script.apply (fuel + 1) ⟨a, level⟩ name vs this)
      (Script.apply (fuel' + 1) ⟨a, level⟩ name vs this) := by
  rw [apply.eq_def, apply.eq_def]
  refine (Cut.tick a).bind fun _ => Cut.machine.bind fun m => ?_
  dsimp only
  split
  · exact (ih.callFunction level _ _ none).bind fun _ => .pure _
  · exact ih.callFunction level _ _ _
  · split
    · rename_i hgranted
      have hname : name ∈ a.granted := by
        rw [Bool.and_eq_true] at hgranted
        exact List.contains_iff_mem.mp hgranted.1
      exact (askHost hname _).bind fun _ => .pure _
    · refine (ih.special level name _).bind fun special => ?_
      split
      · exact .pure _
      · split
        · refine (ih.callBack (level + 1) name _).bind fun r => ?_
          split
          · exact changeFirst _ _ _ _
          · exact .fault _
        · split
          · exact .fault _
          · exact .pure _
          · exact changeFirst _ _ _ _
          · exact .fault _

theorem special_succ (name : String) (vs : List Val) :
    Cut a.granted (Script.special (fuel + 1) ⟨a, level⟩ name vs)
      (Script.special (fuel' + 1) ⟨a, level⟩ name vs) := by
  rw [special.eq_def, special.eq_def]
  dsimp only
  -- In the order of the functions: only `print` and `debug` ask, and for no function.
  split
  · exact (Cut.print _).bind fun _ => .pure _
  · exact (Cut.print _).bind fun _ => .pure _
  · exact (Cut.debug _).bind fun _ => .pure _
  · exact (Cut.debug _).bind fun _ => .pure _
  · exact .pure _
  · exact .pure _
  · exact .pure _
  · exact .fault _
  · exact Cut.machine.bind fun _ => .pure _
  · exact .fault _
  · exact Cut.machine.bind fun _ => .pure _
  · exact (ih.callValue level _ _ none).bind fun _ => .pure _
  · exact .fault _
  · exact .pure _
  · exact .fault _
  · exact (ih.evalText level _).bind fun _ => .pure _
  · exact .fault _
  · exact .pure _

theorem evalText_succ (code : String) :
    Cut a.granted (Script.evalText (fuel + 1) ⟨a, level⟩ code)
      (Script.evalText (fuel' + 1) ⟨a, level⟩ code) := by
  rw [evalText.eq_def, evalText.eq_def]
  refine Cut.machine.bind fun m => ?_
  split
  · exact .fault _
  · split
    · exact .fault _
    · refine (ih.execAll (level + 1) _).attempt.bind fun r => ?_
      split
      · exact .pure _
      · exact .pure _
      · exact .fault _
      · exact .signal _

theorem callFunction_succ (f : Function) (vs : List Val) (this : Option (Val × Bool)) :
    Cut a.granted (Script.callFunction (fuel + 1) ⟨a, level⟩ f vs this)
      (Script.callFunction (fuel' + 1) ⟨a, level⟩ f vs this) := by
  rw [callFunction.eq_def, callFunction.eq_def]
  dsimp only
  split
  · exact .fault _
  · refine (Cut.tick a).bind fun _ =>
      ((ih.callBody (level + 1) f).isolated _).attempt.bind fun r => ?_
    split
    · exact .pure _
    · exact .fault _
    · exact .signal _

theorem callBody_succ (f : Function) :
    Cut a.granted (Script.callBody (fuel + 1) ⟨a, level⟩ f)
      (Script.callBody (fuel' + 1) ⟨a, level⟩ f) := by
  rw [callBody.eq_def, callBody.eq_def]
  refine (ih.execAll level f.body).attempt.bind fun r => ?_
  split
  · exact .pure _
  · exact .pure _
  · exact .signal _

theorem callValue_succ (name : String) (vs : List Val) (this : Option (Val × Bool)) :
    Cut a.granted (Script.callValue (fuel + 1) ⟨a, level⟩ name vs this)
      (Script.callValue (fuel' + 1) ⟨a, level⟩ name vs this) := by
  rw [callValue.eq_def, callValue.eq_def]
  refine Cut.machine.bind fun m => ?_
  split
  · exact ih.callFunction level _ vs this
  · exact Cut.machine.bind fun m => ih.apply level name _ none

theorem callWith_succ (f : Val) (vs more : List Val) :
    Cut a.granted (Script.callWith (fuel + 1) ⟨a, level⟩ f vs more)
      (Script.callWith (fuel' + 1) ⟨a, level⟩ f vs more) := by
  rw [callWith.eq_def, callWith.eq_def]
  dsimp only
  split
  · refine Cut.machine.bind fun m => ?_
    split
    · exact (ih.callFunction level _ _ none).bind fun _ => .pure _
    · split
      · exact (ih.callFunction level _ _ none).bind fun _ => .pure _
      · split
        · exact (ih.callFunction level _ _ _).bind fun _ => .pure _
        · exact (ih.apply level _ _ none).bind fun _ => .pure _
  · exact .fault _

end Functions

/-! ### Library functions that call back -/

section Library

variable (ih : Cuts a fuel fuel') (level : Nat)
include ih

theorem callBack_succ (name : String) (vs : List Val) :
    Cut a.granted (Script.callBack (fuel + 1) ⟨a, level⟩ name vs)
      (Script.callBack (fuel' + 1) ⟨a, level⟩ name vs) := by
  rw [callBack.eq_def, callBack.eq_def]
  dsimp only
  split
  · exact (ih.mapList level _ 0 _).bind fun _ => .pure _
  · exact (ih.filterList level _ true 0 _).bind fun _ => .pure _
  · exact (ih.filterList level _ true 0 _).bind fun _ =>
      (ih.filterList level _ false 0 _).bind fun _ => .pure _
  · exact (ih.filterList level _ true 0 _).bind fun _ =>
      (ih.filterList level _ false 0 _).bind fun _ => .pure _
  · exact (ih.searchList level _ true 0 _).bind fun _ => .pure _
  · exact (ih.searchList level _ true 0 _).bind fun _ => .pure _
  · exact (ih.searchList level _ false 0 _).bind fun _ => .pure _
  · exact (ih.searchList level _ true 0 _).bind fun _ => .pure _
  · exact (ih.firstMapped level _ 0 _).bind fun _ => .pure _
  · exact (ih.mapList level _ 0 _).bind fun _ => .pure _
  · exact (ih.fold level _ _ 0 _).bind fun _ => .pure _
  · exact (ih.fold level _ _ 0 _).bind fun _ => .pure _
  · exact (ih.fold level _ _ 0 _).bind fun _ => .pure _
  · exact (ih.fold level _ _ 0 _).bind fun _ => .pure _
  · exact (ih.sortList level _ _ []).bind fun _ => .pure _
  · exact (ih.filterMap level _ _).bind fun _ => .pure _
  · exact .pure _

theorem mapList_succ (f : Val) (i : Nat) (xs : List Val) :
    Cut a.granted (Script.mapList (fuel + 1) ⟨a, level⟩ f i xs)
      (Script.mapList (fuel' + 1) ⟨a, level⟩ f i xs) := by
  rw [mapList.eq_def, mapList.eq_def]
  cases xs with
  | nil => exact .pure _
  | cons x rest =>
      exact (ih.callWith level f _ _).bind fun _ =>
        (ih.mapList level f (i + 1) rest).bind fun _ => .pure _

theorem filterList_succ (f : Val) (wanted : Bool) (i : Nat) (xs : List Val) :
    Cut a.granted (Script.filterList (fuel + 1) ⟨a, level⟩ f wanted i xs)
      (Script.filterList (fuel' + 1) ⟨a, level⟩ f wanted i xs) := by
  rw [filterList.eq_def, filterList.eq_def]
  cases xs with
  | nil => exact .pure _
  | cons x rest =>
      exact (ih.callWith level f _ _).bind fun _ =>
        (ih.filterList level f wanted (i + 1) rest).bind fun _ => .pure _

theorem searchList_succ (f : Val) (wanted : Bool) (i : Nat) (xs : List Val) :
    Cut a.granted (Script.searchList (fuel + 1) ⟨a, level⟩ f wanted i xs)
      (Script.searchList (fuel' + 1) ⟨a, level⟩ f wanted i xs) := by
  rw [searchList.eq_def, searchList.eq_def]
  cases xs with
  | nil => exact .pure _
  | cons x rest =>
      refine (ih.callWith level f _ _).bind fun y => ?_
      split
      · exact .pure _
      · exact ih.searchList level f wanted (i + 1) rest

theorem firstMapped_succ (f : Val) (i : Nat) (xs : List Val) :
    Cut a.granted (Script.firstMapped (fuel + 1) ⟨a, level⟩ f i xs)
      (Script.firstMapped (fuel' + 1) ⟨a, level⟩ f i xs) := by
  rw [firstMapped.eq_def, firstMapped.eq_def]
  cases xs with
  | nil => exact .pure _
  | cons x rest =>
      refine (ih.callWith level f _ _).bind fun y => ?_
      split
      · exact ih.firstMapped level f (i + 1) rest
      · exact .pure _

theorem fold_succ (f acc : Val) (i : Nat) (xs : List Val) :
    Cut a.granted (Script.fold (fuel + 1) ⟨a, level⟩ f acc i xs)
      (Script.fold (fuel' + 1) ⟨a, level⟩ f acc i xs) := by
  rw [fold.eq_def, fold.eq_def]
  cases xs with
  | nil => exact .pure _
  | cons x rest =>
      exact (ih.callWith level f _ _).bind fun _ => ih.fold level f _ (i + 1) rest

theorem sortList_succ (f : Val) (xs done : List Val) :
    Cut a.granted (Script.sortList (fuel + 1) ⟨a, level⟩ f xs done)
      (Script.sortList (fuel' + 1) ⟨a, level⟩ f xs done) := by
  rw [sortList.eq_def, sortList.eq_def]
  cases xs with
  | nil => exact .pure _
  | cons x rest =>
      exact (ih.insertSorted level f x _ []).bind fun _ => ih.sortList level f rest _

theorem insertSorted_succ (f x : Val) (before after : List Val) :
    Cut a.granted (Script.insertSorted (fuel + 1) ⟨a, level⟩ f x before after)
      (Script.insertSorted (fuel' + 1) ⟨a, level⟩ f x before after) := by
  rw [insertSorted.eq_def, insertSorted.eq_def]
  cases before with
  | nil => exact .pure _
  | cons y before =>
      have hplace : ∀ later : Bool, Cut a.granted
          (if later then Script.insertSorted fuel ⟨a, level⟩ f x before (y :: after)
            else pure (before.reverse ++ y :: x :: after))
          (if later then Script.insertSorted fuel' ⟨a, level⟩ f x before (y :: after)
            else pure (before.reverse ++ y :: x :: after)) := by
        intro later
        split
        · exact ih.insertSorted level f x before _
        · exact .pure _
      refine (ih.callWith level f _ _).attempt.bind fun r => ?_
      split
      · exact (Cut.pure _).bind hplace
      · exact (Cut.pure _).bind hplace
      · exact (Cut.pure false).bind hplace

theorem filterMap_succ (f : Val) (fields : List (String × Val)) :
    Cut a.granted (Script.filterMap (fuel + 1) ⟨a, level⟩ f fields)
      (Script.filterMap (fuel' + 1) ⟨a, level⟩ f fields) := by
  rw [filterMap.eq_def, filterMap.eq_def]
  cases fields with
  | nil => exact .pure _
  | cons x rest =>
      exact (ih.callWith level f _ _).bind fun _ =>
        (ih.filterMap level f rest).bind fun _ => .pure _

end Library

/-! ### Chains -/

section Chains

variable (ih : Cuts a fuel fuel') (level : Nat)
include ih

theorem reach_succ (steps : List Step) :
    Cut a.granted (Script.reach (fuel + 1) ⟨a, level⟩ steps)
      (Script.reach (fuel' + 1) ⟨a, level⟩ steps) := by
  rw [reach.eq_def, reach.eq_def]
  cases steps with
  | nil => exact .pure _
  | cons s rest =>
      have hrest : ∀ r : Reached, Cut a.granted (do
          return r :: (← Script.reach fuel ⟨a, level⟩ rest)) (do
          return r :: (← Script.reach fuel' ⟨a, level⟩ rest)) := fun _ =>
        (ih.reach level rest).bind fun _ => .pure _
      cases s with
      | property name safe => exact (Cut.pure _).bind hrest
      | index key safe => exact (ih.eval level key).bind fun _ => (Cut.pure _).bind hrest
      | method name args safe =>
          exact (ih.evalAll level args).bind fun _ => (Cut.pure _).bind hrest

theorem evalChain_succ (root : Expr) (steps : List Step) (set : Option Assignment) :
    Cut a.granted (Script.evalChain (fuel + 1) ⟨a, level⟩ root steps set)
      (Script.evalChain (fuel' + 1) ⟨a, level⟩ root steps set) := by
  rw [evalChain.eq_def, evalChain.eq_def]
  refine (ih.reach level steps).bind fun path => ?_
  dsimp only
  split
  · exact (Cut.readVar _).bind fun _ => ih.chainOn level _ _ _ path set
  · refine Cut.machine.bind fun m => ?_
    split
    · split
      · exact .fault _
      · exact ih.chainOn level _ _ _ path set
    · exact .fault _
  · exact (ih.eval level _).bind fun _ => (ih.walk level _ false path set).bind fun _ => .pure _

theorem chainOn_succ (x : String) (v : Val) (constant : Bool) (path : List Reached)
    (set : Option Assignment) :
    Cut a.granted (Script.chainOn (fuel + 1) ⟨a, level⟩ x v constant path set)
      (Script.chainOn (fuel' + 1) ⟨a, level⟩ x v constant path set) := by
  rw [chainOn.eq_def, chainOn.eq_def]
  dsimp only
  split
  · exact .fault _
  · refine (ih.walk level v constant path set).bind fun out => ?_
    split
    · split
      · exact .pure _
      · exact (Cut.writeVar _ _).bind fun _ => .pure _
    · exact .pure _

theorem walk_succ (v : Val) (constant : Bool) (path : List Reached) (set : Option Assignment) :
    Cut a.granted (Script.walk (fuel + 1) ⟨a, level⟩ v constant path set)
      (Script.walk (fuel' + 1) ⟨a, level⟩ v constant path set) := by
  rw [walk.eq_def, walk.eq_def]
  cases path with
  | nil => exact .pure _
  | cons s rest =>
      refine (Cut.tick a).bind fun _ => ?_
      dsimp only
      split
      · exact .pure _
      · cases s with
        | property name safe =>
            dsimp only
            split
            · split
              · exact (Cut.ofExcept _).bind fun _ => .pure _
              · exact (ih.walk level _ constant _ _).bind fun _ => .pure _
            · split
              · exact .fault _
              · split
                · exact (ih.walk level _ constant _ _).bind fun _ => .pure _
                · exact .fault _
                · exact .fault _
        | index key safe =>
            dsimp only
            split
            · split
              · exact (Cut.pure _).bind fun _ => (Cut.ofExcept _).bind fun _ =>
                  (Cut.ofExcept _).bind fun _ => .pure _
              · exact (Cut.ofExcept _).bind fun _ => (Cut.ofExcept _).bind fun _ =>
                  (Cut.ofExcept _).bind fun _ => .pure _
            · refine (Cut.ofExcept _).bind fun old =>
                (ih.walk level old constant _ _).bind fun out => ?_
              split
              · exact .pure _
              · exact (Cut.ofExcept _).bind fun _ => .pure _
        | method name args safe =>
            exact (ih.callMethod level name _ args constant).bind fun out =>
              (ih.walk level _ false rest set).bind fun _ => .pure _

theorem callMethod_succ (name : String) (v : Val) (vs : List Val) (constant : Bool) :
    Cut a.granted (Script.callMethod (fuel + 1) ⟨a, level⟩ name v vs constant)
      (Script.callMethod (fuel' + 1) ⟨a, level⟩ name v vs constant) := by
  rw [callMethod.eq_def, callMethod.eq_def]
  dsimp only
  split
  · exact (ih.callValue level _ _ none).bind fun _ => .pure _
  · exact ih.callValue level _ _ _
  · split
    · exact ih.callValue level _ _ _
    · exact ih.apply level name _ _

end Chains

/-! ### Statements -/

section Statements

variable (ih : Cuts a fuel fuel') (level : Nat)
include ih

theorem execAll_succ (ss : List Stmt) :
    Cut a.granted (Script.execAll (fuel + 1) ⟨a, level⟩ ss)
      (Script.execAll (fuel' + 1) ⟨a, level⟩ ss) := by
  rw [execAll.eq_def, execAll.eq_def]
  cases ss with
  | nil => exact .pure _
  | cons s rest =>
      cases rest with
      | nil => exact ih.exec level s
      | cons next rest => exact (ih.exec level s).bind fun _ => ih.execAll level _

theorem exec_succ (s : Stmt) :
    Cut a.granted (Script.exec (fuel + 1) ⟨a, level⟩ s) (Script.exec (fuel' + 1) ⟨a, level⟩ s) := by
  rw [exec.eq_def, exec.eq_def]
  refine (Cut.tick a).bind fun _ => ?_
  cases s with
  | nothing => exact .pure _
  | expr e => exact ih.eval level e
  | declare name constant e =>
      exact (ih.eval level e).bind fun _ => (Cut.declareVar _ _ _).bind fun _ => .pure _
  | assign target op e => exact (ih.eval level e).bind fun _ => ih.assign level target _
  | branch guard body other =>
      refine (ih.eval level guard).bind fun _ => (Cut.ofExcept _).bind fun b => ?_
      split
      · exact (ih.execAll level body).locally
      · exact (ih.execAll level other).locally
  | choose subject cases other =>
      exact (ih.eval level subject).bind fun _ => ih.choose level _ other
  | loop guard body => exact ih.whileLoop level guard body
  | again body guard wanted => exact ih.untilLoop level body guard wanted
  | each x counter source body =>
      refine (ih.eval level source).bind fun v => ?_
      split
      · exact ih.eachLoop level x counter 0 _ body
      · exact .fault _
  | scope body => exact (ih.execAll level body).locally
  | leave value =>
      cases value with
      | some e => exact (ih.eval level e).bind fun _ => .signal _
      | none => exact .signal _
  | skip => exact .signal _
  | give value =>
      cases value with
      | some e => exact (ih.eval level e).bind fun _ => .signal _
      | none => exact .signal _
  | raise value =>
      cases value with
      | some e => exact (ih.eval level e).bind fun _ => .fault _
      | none => exact .fault _
  | guarded body caught handler =>
      refine (ih.execAll level body).locally.attempt.bind fun r => ?_
      split
      · exact .pure _
      · split
        · exact ih.handle level _ caught handler
        · exact .fault _
      · exact .signal _

theorem handle_succ (f : Fault) (caught : Option String) (ss : List Stmt) :
    Cut a.granted (Script.handle (fuel + 1) ⟨a, level⟩ f caught ss)
      (Script.handle (fuel' + 1) ⟨a, level⟩ f caught ss) := by
  rw [handle.eq_def, handle.eq_def]
  refine Cut.bind (Cut.attempt (Cut.locally ?_)) fun r => ?_
  · cases caught with
    | none => exact ih.execAll level ss
    | some x => exact (Cut.declareVar _ _ _).bind fun _ => ih.execAll level ss
  · split
    · exact .pure _
    · exact .fault _
    · exact .signal _

theorem assign_succ (e : Expr) (set : Assignment) :
    Cut a.granted (Script.assign (fuel + 1) ⟨a, level⟩ e set)
      (Script.assign (fuel' + 1) ⟨a, level⟩ e set) := by
  rw [assign.eq_def, assign.eq_def]
  refine (Cut.tick a).bind fun _ => ?_
  dsimp only
  split
  · refine (Cut.readVar _).bind fun out => ?_
    split
    · exact .fault _
    · exact (Cut.ofExcept _).bind fun _ => (Cut.writeVar _ _).bind fun _ => .pure _
  · refine Cut.machine.bind fun m => ?_
    split
    · split
      · exact .fault _
      · exact (Cut.ofExcept _).bind fun _ => (Cut.writeVar _ _).bind fun _ => .pure _
    · exact .fault _
  · exact ih.evalChain level _ _ _
  · exact .fault _

theorem choose_succ (cases' : List Case) (other : Option Stmt) :
    Cut a.granted (Script.choose (fuel + 1) ⟨a, level⟩ cases' other)
      (Script.choose (fuel' + 1) ⟨a, level⟩ cases' other) := by
  rw [choose.eq_def, choose.eq_def]
  cases cases' with
  | nil =>
      cases other with
      | none => exact .pure _
      | some s => exact (ih.exec level s).locally
  | cons c rest =>
      obtain ⟨values, condition, action⟩ := c
      have htake : ∀ b : Bool, Cut a.granted
          (if b then Run.locally (Script.exec fuel ⟨a, level⟩ action)
            else Script.choose fuel ⟨a, level⟩ rest other)
          (if b then Run.locally (Script.exec fuel' ⟨a, level⟩ action)
            else Script.choose fuel' ⟨a, level⟩ rest other) := by
        intro b
        split
        · exact (ih.exec level action).locally
        · exact ih.choose level rest other
      cases condition with
      | none => exact (Cut.pure true).bind htake
      | some e => exact (ih.eval level e).bind fun _ => (Cut.ofExcept _).bind htake

theorem holds_succ (guard : Option Expr) :
    Cut a.granted (Script.holds (fuel + 1) ⟨a, level⟩ guard)
      (Script.holds (fuel' + 1) ⟨a, level⟩ guard) := by
  rw [holds.eq_def, holds.eq_def]
  cases guard with
  | none => exact .pure _
  | some e => exact (ih.eval level e).bind fun _ => .ofExcept _

theorem turn_succ (body : List Stmt) :
    Cut a.granted (Script.turn (fuel + 1) ⟨a, level⟩ body)
      (Script.turn (fuel' + 1) ⟨a, level⟩ body) := by
  rw [turn.eq_def, turn.eq_def]
  refine (Cut.tick a).bind fun _ => (ih.execAll level body).locally.attempt.bind fun r => ?_
  split
  · exact .pure _
  · exact .pure _
  · exact .pure _
  · exact .signal _

theorem whileLoop_succ (guard : Option Expr) (body : List Stmt) :
    Cut a.granted (Script.whileLoop (fuel + 1) ⟨a, level⟩ guard body)
      (Script.whileLoop (fuel' + 1) ⟨a, level⟩ guard body) := by
  rw [whileLoop.eq_def, whileLoop.eq_def]
  refine (ih.holds level guard).bind fun b => ?_
  split
  · refine (ih.turn level body).bind fun r => ?_
    split
    · exact .pure _
    · exact ih.whileLoop level guard body
  · exact .pure _

theorem untilLoop_succ (body : List Stmt) (guard : Expr) (wanted : Bool) :
    Cut a.granted (Script.untilLoop (fuel + 1) ⟨a, level⟩ body guard wanted)
      (Script.untilLoop (fuel' + 1) ⟨a, level⟩ body guard wanted) := by
  rw [untilLoop.eq_def, untilLoop.eq_def]
  refine (ih.turn level body).bind fun r => ?_
  split
  · exact .pure _
  · refine (ih.holds level (some guard)).bind fun b => ?_
    split
    · exact ih.untilLoop level body guard wanted
    · exact .pure _

theorem eachLoop_succ (x : String) (counter : Option String) (i : Int) (src : Source)
    (body : List Stmt) :
    Cut a.granted (Script.eachLoop (fuel + 1) ⟨a, level⟩ x counter i src body)
      (Script.eachLoop (fuel' + 1) ⟨a, level⟩ x counter i src body) := by
  rw [eachLoop.eq_def, eachLoop.eq_def]
  dsimp only
  split
  · exact .pure _
  · refine Cut.bind (Cut.locally ?_) fun r => ?_
    · have hturn : ∀ v : Val, Cut a.granted (do
          Run.declareVar x v false
          Script.turn fuel ⟨a, level⟩ body) (do
          Run.declareVar x v false
          Script.turn fuel' ⟨a, level⟩ body) := fun _ =>
        (Cut.declareVar _ _ _).bind fun _ => ih.turn level body
      cases counter with
      | none => exact hturn _
      | some c => exact (Cut.declareVar _ _ _).bind fun _ => hturn _
    · split
      · exact .pure _
      · exact ih.eachLoop level x counter (i + 1) _ body

end Statements

/-! ### All budgets -/

/-- Without a budget every function of the machine gives up at once, and that is a part of
everything. -/
theorem zero (a : Allowance) (fuel' : Nat) : Cuts a 0 fuel' := by
  constructor <;> intros <;> with_unfolding_all exact Cut.exhausted _

theorem succ (ih : Cuts a fuel fuel') : Cuts a (fuel + 1) (fuel' + 1) where
  eval := ih.eval_succ
  joinParts := ih.joinParts_succ
  evalAll := ih.evalAll_succ
  evalFields := ih.evalFields_succ
  shareAll := ih.shareAll_succ
  evalCall := ih.evalCall_succ
  evalNamed := ih.evalNamed_succ
  apply := ih.apply_succ
  special := ih.special_succ
  evalText := ih.evalText_succ
  callFunction := ih.callFunction_succ
  callBody := ih.callBody_succ
  callValue := ih.callValue_succ
  callWith := ih.callWith_succ
  callBack := ih.callBack_succ
  mapList := ih.mapList_succ
  filterList := ih.filterList_succ
  searchList := ih.searchList_succ
  firstMapped := ih.firstMapped_succ
  fold := ih.fold_succ
  sortList := ih.sortList_succ
  insertSorted := ih.insertSorted_succ
  filterMap := ih.filterMap_succ
  reach := ih.reach_succ
  evalChain := ih.evalChain_succ
  chainOn := ih.chainOn_succ
  walk := ih.walk_succ
  callMethod := ih.callMethod_succ
  execAll := ih.execAll_succ
  exec := ih.exec_succ
  handle := ih.handle_succ
  assign := ih.assign_succ
  choose := ih.choose_succ
  holds := ih.holds_succ
  turn := ih.turn_succ
  whileLoop := ih.whileLoop_succ
  untilLoop := ih.untilLoop_succ
  eachLoop := ih.eachLoop_succ

theorem all (a : Allowance) : ∀ {fuel fuel' : Nat}, fuel ≤ fuel' → Cuts a fuel fuel'
  | 0, _, _ => zero a _
  | _ + 1, _ + 1, h => (all a (Nat.le_of_succ_le_succ h)).succ

end Cuts

/-! ### Scripts -/

/-- **Scripts call only what was granted to them.** -/
theorem Engine.standard_asksGranted (limits : Limits) : (Engine.standard limits).AsksGranted := by
  intro granted scope code
  refine Session.Asks.bind ?_ fun _ => trivial
  rw [evaluate, evaluateWithin]
  split
  · exact trivial
  · have hbody := (Cuts.all (limits.allowance granted) (Nat.le_refl budget)).execAll 0
    refine Session.Asks.bind ((hbody _).asks _) fun r => ?_
    cases r <;> exact trivial

/-- **A larger budget changes no result.** -/
theorem evaluateWithin_of_le {fuel fuel' : Nat} (h : fuel ≤ fuel') {limits : Limits}
    {granted : List String} {scope : Entries Json} {code : String} {σ : Type}
    {host : Request → σ → Reply × σ} {s s' : σ} {r : Except Failure Json}
    (hr : (evaluateWithin fuel limits granted scope code).run host s = (some r, s')) :
    (evaluateWithin fuel' limits granted scope code).run host s = (some r, s') := by
  rw [evaluateWithin] at hr ⊢
  split at hr
  · exact hr
  · rename_i p closures hparse
    have hbody := (Cuts.all (limits.allowance granted) h).execAll 0 p.body
    have hextends := hbody.run_extends (Machine.start scope p closures)
    rw [Session.run_bind] at hr ⊢
    generalize hx : ((execAll fuel ⟨limits.allowance granted, 0⟩ p.body).run
      (Machine.start scope p closures)).run host s = out at hr
    obtain ⟨e, s₁⟩ := out
    have hne : e ≠ .exhausted := by
      rintro rfl
      cases (Prod.mk.inj hr).1
    rw [hextends.run_eq hx hne]
    exact hr

end FlowGraph.Script
