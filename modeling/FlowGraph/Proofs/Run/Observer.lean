/-
A run with an observer.

Whoever watches a run keeps beside the context what was seen of it: when blocks begin and when they
end, at every depth and in the order of time, and where a walk comes to an id that it does not find.
Blocks are run by the same step in a state like this as in a context alone; the observer only stands
around every block and every walk (`Block.watched`).

The observer changes nothing (`Block.watched_watches`): what is watched ends as it does when nobody
looks, and what was seen before is kept.  So what is seen in a run is something that happens in the
run itself, and it is put together from what is seen in its walks, turns and bodies.
-/
import FlowGraph.Proofs.Run.Faults

namespace FlowGraph

variable {δ χ α : Type}

/-- Something that happens in a run. -/
inductive Moment (δ χ : Type) where
  | began (v : Visit δ χ)
  | ended (v : Visit δ χ)
  /-- A walk comes to an id that it does not find. -/
  | missed (id : String)

/-- A context with an observer, who has seen something. -/
structure Observed (δ χ : Type) where
  ctx : Context δ χ
  seen : List (Moment δ χ)

instance : HoldsContext (Observed δ χ) δ χ := ⟨Observed.ctx, fun ctx o => { o with ctx := ctx }⟩

instance : Journaling (Observed δ χ) := ⟨fun e o => { o with ctx := o.ctx.note e }⟩

namespace Observed

def see (m : Moment δ χ) (o : Observed δ χ) : Observed δ χ := { o with seen := o.seen ++ [m] }

/-- See at the end of a walk that it came to an id that is not there. -/
def seeMissing : Except RunError Output × Observed δ χ → Except RunError Output × Observed δ χ
  | (.error (.blockNotFound id), o) => (.error (.blockNotFound id), o.see (.missed id))
  | (.error (.raised id e), o) => (.error (.raised id e), o)
  | (.error (.failed id text), o) => (.error (.failed id text), o)
  | (.ok out, o) => (.ok out, o)

theorem record_eq (id : String) (kind : Kind) (r : Except BlockError Output) (ctx : Context δ χ)
    (seen : List (Moment δ χ)) :
    Walk.record id kind r (⟨ctx, seen⟩ : Observed δ χ) = ⟨Walk.record id kind r ctx, seen⟩ := by
  rw [Walk.record, Walk.record]
  induction Walk.events id kind r generalizing ctx with
  | nil => rfl
  | cons e rest ih => exact ih _

end Observed

/-! ### What is watched -/

/-- What is seen of a step that is taken in a context. -/
def seenIn (x : Limited (Observed δ χ) α) (ctx : Context δ χ) : List (Moment δ χ) :=
  (x ⟨ctx, []⟩).elim [] fun out => out.2.seen

/-- A watched step ends with this, and this is seen of it, whatever was seen before. -/
def Sees (x : Limited (Observed δ χ) α) (ctx : Context δ χ) (a : α) (left : Context δ χ)
    (log : List (Moment δ χ)) : Prop :=
  ∀ seen, x ⟨ctx, seen⟩ = some (a, ⟨left, seen ++ log⟩)

/-- A watched step does what another one does, and what was seen before is kept. -/
def Watches (x : Limited (Observed δ χ) α) (y : Bounded δ χ α) : Prop :=
  ∀ ctx, ∃ log, ∀ seen, x ⟨ctx, seen⟩ = (y ctx).map fun out => (out.1, ⟨out.2, seen ++ log⟩)

section Steps

variable {x : Limited (Observed δ χ) α} {y : Bounded δ χ α} {ctx left : Context δ χ} {a : α}
  {log : List (Moment δ χ)}

theorem Sees.seenIn (h : Sees x ctx a left log) : seenIn x ctx = log := by
  rw [FlowGraph.seenIn, h []]
  rfl

theorem Watches.sees (h : Watches x y) (hy : y ctx = some (a, left)) :
    Sees x ctx a left (seenIn x ctx) := by
  obtain ⟨log, hlog⟩ := h ctx
  have hsees : Sees x ctx a left log := fun seen => by rw [hlog, hy]; rfl
  rwa [hsees.seenIn]

/-- **The observer changes nothing.** -/
theorem Watches.erase (h : Watches x y) (o : Observed δ χ) :
    (x o).map (fun out => (out.1, out.2.ctx)) = y o.ctx := by
  obtain ⟨log, hlog⟩ := h o.ctx
  rw [hlog o.seen]
  cases y o.ctx <;> rfl

/-- What ends with an observer ends without one. -/
theorem Watches.back (h : Watches x y) {o o' : Observed δ χ} (hx : x o = some (a, o')) :
    y o.ctx = some (a, o'.ctx) := by
  rw [← h.erase, hx]
  rfl

/-- A watched step does what another one does if it ends only where that one does, and if there
something is seen of it. -/
theorem watches_of_sees (hback : ∀ o a o', x o = some (a, o') → ∃ out, y o.ctx = some out)
    (hsees : ∀ ctx a left, y ctx = some (a, left) → ∃ log, Sees x ctx a left log) :
    Watches x y := by
  intro ctx
  cases hy : y ctx with
  | some out => exact hsees ctx out.1 out.2 hy
  | none =>
      refine ⟨[], fun seen => ?_⟩
      cases hx : x ⟨ctx, seen⟩ with
      | none => rfl
      | some out =>
          obtain ⟨_, hends⟩ := hback _ _ _ hx
          cases hy.symm.trans hends

end Steps

/-! ### Loops -/

section Loops

variable {run' : Inside (Observed δ χ)} {run : BodyRun δ χ} {v : Json} {rest : List Json}
  {ctx mid left : Context δ χ} {o : Output} {e : RunError} {log log' : List (Moment δ χ)}

theorem eachLoop_sees_failed (hv : Sees (run' v) ctx (.error e) left log) :
    Sees (eachLoop run' (v :: rest)) ctx (.error e) left log :=
  fun seen => eachLoop_cons_iff.mpr (.failed (hv seen))

theorem eachLoop_sees_passed {r : Except RunError Unit} (hv : Sees (run' v) ctx (.ok o) mid log)
    (hrest : Sees (eachLoop run' rest) mid r left log') :
    Sees (eachLoop run' (v :: rest)) ctx r left (log ++ log') := by
  intro seen
  rw [← List.append_assoc]
  exact eachLoop_cons_iff.mpr (.passed (hv seen) (hrest _))

theorem eachLoop_watches (h : ∀ v, Watches (run' v) (run v)) (values : List Json) :
    Watches (eachLoop run' values) (eachLoop run values) := by
  induction values with
  | nil => exact fun ctx => ⟨[], fun seen => by rw [List.append_nil]; rfl⟩
  | cons v rest ih =>
      refine watches_of_sees (fun o r o' hends => ?_) fun ctx r left hsome => ?_
      · rw [eachLoop_cons_iff] at hends
        cases hends with
        | failed hv => exact ⟨_, eachLoop_cons_iff.mpr (.failed ((h v).back hv))⟩
        | passed hv hrest =>
            exact ⟨_, eachLoop_cons_iff.mpr (.passed ((h v).back hv) (ih.back hrest))⟩
      · rw [eachLoop_cons_iff] at hsome
        cases hsome with
        | failed hv => exact ⟨_, eachLoop_sees_failed ((h v).sees hv)⟩
        | passed hv hrest => exact ⟨_, eachLoop_sees_passed ((h v).sees hv) (ih.sees hrest)⟩

variable {b : Bounds} {body' : Option (Inside (Observed δ χ))} {body : Option (BodyRun δ χ)}
  {n : Nat} {index : Float} {turns : Nat}

theorem countLoop_sees_failed (hover : b.isOver index = false)
    (hv : Sees (run' (Bounds.indexValue index)) ctx (.error e) left log) :
    Sees (countLoop b (some run') (n + 1) index turns) ctx (.error e) left log :=
  fun seen => countLoop_succ_iff.mpr (.failed hover rfl (hv seen))

theorem countLoop_sees_passed {r : Except RunError Nat} (hover : b.isOver index = false)
    (hv : Sees (run' (Bounds.indexValue index)) ctx (.ok o) mid log)
    (hrest : Sees (countLoop b (some run') n (index + b.step) (turns + 1)) mid r left log') :
    Sees (countLoop b (some run') (n + 1) index turns) ctx r left (log ++ log') := by
  intro seen
  rw [← List.append_assoc]
  exact countLoop_succ_iff.mpr (.passed hover rfl (hv seen) (hrest _))

theorem countLoop_watches
    (h : Option.Rel (fun run' run => ∀ v, Watches (run' v) (run v)) body' body) (n : Nat)
    (index : Float) (turns : Nat) :
    Watches (countLoop b body' n index turns) (countLoop b body n index turns) := by
  induction n generalizing index turns with
  | zero => exact fun ctx => ⟨[], fun seen => rfl⟩
  | succ n ih =>
      have hrest := ih (index + b.step) (turns + 1)
      refine watches_of_sees (fun o r o' hends => ?_) fun ctx r left hsome => ?_
      · rw [countLoop_succ_iff] at hends
        cases hends with
        | past hover => exact ⟨_, countLoop_succ_iff.mpr (.past hover)⟩
        | idle hover hbody hloop =>
            subst hbody
            cases h
            exact ⟨_, countLoop_succ_iff.mpr (.idle hover rfl (hrest.back hloop))⟩
        | failed hover hbody hv =>
            subst hbody
            cases h with
            | some hrun => exact ⟨_, countLoop_succ_iff.mpr (.failed hover rfl ((hrun _).back hv))⟩
        | passed hover hbody hv hloop =>
            subst hbody
            cases h with
            | some hrun =>
                exact ⟨_, countLoop_succ_iff.mpr
                  (.passed hover rfl ((hrun _).back hv) (hrest.back hloop))⟩
      · rw [countLoop_succ_iff] at hsome
        cases hsome with
        | past hover =>
            refine ⟨[], fun seen => ?_⟩
            rw [List.append_nil]
            exact countLoop_succ_iff.mpr (.past hover)
        | idle hover hnone hloop =>
            subst hnone
            cases h
            exact ⟨_, fun seen => countLoop_succ_iff.mpr (.idle hover rfl (hrest.sees hloop seen))⟩
        | failed hover hbody hv =>
            subst hbody
            cases h with
            | some hrun => exact ⟨_, countLoop_sees_failed hover ((hrun _).sees hv)⟩
        | passed hover hbody hv hloop =>
            subst hbody
            cases h with
            | some hrun =>
                exact ⟨_, countLoop_sees_passed hover ((hrun _).sees hv) (hrest.sees hloop)⟩

end Loops

/-! ### Walks -/

/-- A block as a station of a walk, with the observer in front of it and behind it. -/
def Block.watchedStation (run : Block → Json → Limited (Observed δ χ) (Except BlockError Output))
    (b : Block) : Station (Observed δ χ) where
  id := b.id
  kind := b.kind
  run params o :=
    (run b params (o.see (.began ⟨b, params, o.ctx⟩))).map fun out =>
      (out.1, out.2.see (.ended ⟨b, params, o.ctx⟩))

/-- Walk over blocks that are run in some way, and watch the walk. -/
def BlockMap.watchedWalk (run : Block → Json → Limited (Observed δ χ) (Except BlockError Output))
    (blocks : BlockMap) (n : Nat) (start : String) (params : Json) :
    Limited (Observed δ χ) (Except RunError Output) := fun o =>
  (Walk.from? (fun id => (Entries.find? id blocks).map (Block.watchedStation run)) n start params
    o).map Observed.seeMissing

section Walks

variable {run' : Block → Json → Limited (Observed δ χ) (Except BlockError Output)}
  {run : Block → Json → Bounded δ χ (Except BlockError Output)} {blocks : BlockMap} {n : Nat}
  {start next : String} {params params' : Json} {ctx mid left : Context δ χ} {b : Block}
  {r : Except BlockError Output} {log log' : List (Moment δ χ)}

/-- What is seen of a block: it begins, something happens inside of it, and it ends. -/
def Visit.around (v : Visit δ χ) (log : List (Moment δ χ)) : List (Moment δ χ) :=
  .began v :: log ++ [.ended v]

theorem Block.watchedStation_sees (hr : Sees (run' b params) ctx r mid log) :
    Sees ((watchedStation run' b).run params) ctx r mid (Visit.around ⟨b, params, ctx⟩ log) := by
  intro seen
  show (run' b params ⟨ctx, seen ++ [.began ⟨b, params, ctx⟩]⟩).map _ = _
  rw [hr]
  simp [Observed.see, Visit.around]

/-- A station that is watched ends only where the block does. -/
theorem Block.watchedStation_back {o o' : Observed δ χ} (h : Watches (run' b params) (run b params))
    (hr : (watchedStation run' b).run params o = some (r, o')) :
    run b params o.ctx = some (r, o'.ctx) := by
  obtain ⟨⟨_, mid⟩, hrun, hout⟩ := Option.map_eq_some_iff.mp hr
  obtain ⟨rfl, rfl⟩ := Prod.mk.inj hout
  have hback := h.back hrun
  exact hback

namespace BlockMap

theorem watchedWalk_sees_missing (hb : Entries.find? start blocks = none) :
    Sees (watchedWalk run' blocks (n + 1) start params) ctx (.error (.blockNotFound start)) ctx
      [.missed start] := by
  intro seen
  rw [watchedWalk, Walk.from?, hb]
  rfl

theorem watchedWalk_sees_finished {o : Output} (hb : Entries.find? start blocks = some b)
    (hr : Sees (run' b params) ctx r mid log) (hafter : Walk.after b.id r = .finished o) :
    Sees (watchedWalk run' blocks (n + 1) start params) ctx (.ok o)
      (Walk.record b.id b.kind r mid) (Visit.around ⟨b, params, ctx⟩ log) := by
  intro seen
  simp only [watchedWalk, Walk.from?, hb, Option.map_some, Block.watchedStation_sees hr seen]
  simp only [Block.watchedStation, hafter, Observed.record_eq, Option.map_some,
    Observed.seeMissing]

theorem watchedWalk_sees_aborted {e : RunError} (hb : Entries.find? start blocks = some b)
    (hr : Sees (run' b params) ctx r mid log) (hafter : Walk.after b.id r = .aborted e) :
    Sees (watchedWalk run' blocks (n + 1) start params) ctx (.error e)
      (Walk.record b.id b.kind r mid) (Visit.around ⟨b, params, ctx⟩ log) := by
  intro seen
  simp only [watchedWalk, Walk.from?, hb, Option.map_some, Block.watchedStation_sees hr seen]
  simp only [Block.watchedStation, hafter, Observed.record_eq, Option.map_some]
  -- A block that is there does not look like one that is missing.
  cases e with
  | blockNotFound id => exact absurd hafter (Walk.after_ne_notFound _ _ _)
  | raised | failed => rfl

theorem watchedWalk_sees_onward {result : Except RunError Output}
    (hb : Entries.find? start blocks = some b) (hr : Sees (run' b params) ctx r mid log)
    (hafter : Walk.after b.id r = .onward next params')
    (hrest : Sees (watchedWalk run' blocks n next params') (Walk.record b.id b.kind r mid) result
      left log') :
    Sees (watchedWalk run' blocks (n + 1) start params) ctx result left
      (Visit.around ⟨b, params, ctx⟩ log ++ log') := by
  intro seen
  simp only [watchedWalk, Walk.from?, hb, Option.map_some, Block.watchedStation_sees hr seen]
  simp only [Block.watchedStation, hafter, Observed.record_eq]
  rw [← List.append_assoc]
  exact hrest _

/-- A watched walk does what the walk does. -/
theorem watchedWalk_watches (h : ∀ b params, Watches (run' b params) (run b params))
    (blocks : BlockMap) (n : Nat) (start : String) (params : Json) :
    Watches (watchedWalk run' blocks n start params) (walk run blocks n start params) := by
  induction n generalizing start params with
  | zero => exact fun ctx => ⟨[], fun seen => rfl⟩
  | succ n ih =>
      refine watches_of_sees (fun o result o' hends => ?_) fun ctx result left hsome => ?_
      · cases hb : Entries.find? start blocks with
        | none => exact ⟨_, walk_succ_iff.mpr (.missing hb)⟩
        | some b =>
            simp only [watchedWalk, Walk.from?, hb, Option.map_some] at hends
            cases hr : (Block.watchedStation run' b).run params o with
            | none => simp [hr] at hends
            | some out =>
                obtain ⟨r, ⟨mid, seen⟩⟩ := out
                have hrun := Block.watchedStation_back (h b params) hr
                cases hafter : Walk.after b.id r with
                | finished out => exact ⟨_, walk_succ_iff.mpr (.finished hb hrun hafter)⟩
                | aborted e => exact ⟨_, walk_succ_iff.mpr (.aborted hb hrun hafter)⟩
                | onward next params' =>
                    simp only [hr] at hends
                    simp only [Block.watchedStation, hafter, Observed.record_eq] at hends
                    exact ⟨_, walk_succ_iff.mpr (.onward hb hrun hafter ((ih _ _).back hends))⟩
      · rw [walk_succ_iff] at hsome
        cases hsome with
        | missing hb => exact ⟨_, watchedWalk_sees_missing hb⟩
        | finished hb hr hafter =>
            exact ⟨_, watchedWalk_sees_finished hb ((h _ _).sees hr) hafter⟩
        | aborted hb hr hafter =>
            exact ⟨_, watchedWalk_sees_aborted hb ((h _ _).sees hr) hafter⟩
        | onward hb hr hafter hrest =>
            exact ⟨_, watchedWalk_sees_onward hb ((h _ _).sees hr) hafter ((ih _ _).sees hrest)⟩

end BlockMap

end Walks

/-! ### Blocks and programs -/

section Frames

variable [Store.Database δ] {run' : Inside (Observed δ χ)} {body' : Option (Inside (Observed δ χ))}
  {body : Option (BodyRun δ χ)} {id : String} {next : Option String} {fuel : Nat} {params : Json}
  {ctx mid : Context δ χ}

omit [Store.Database δ] in
/-- A step in the context is taken as it is, and nothing is seen of it. -/
theorem Observed.within_eq (x : Act δ χ α) (ctx : Context δ χ) (seen : List (Moment δ χ)) :
    x.within (⟨ctx, seen⟩ : Observed δ χ) = ((x ctx).1, ⟨(x ctx).2, seen⟩) := rfl

theorem runCount_watches {c : CountConfig}
    (h : Option.Rel (fun run' run => ∀ v, Watches (run' v) (run v)) body' body) :
    Watches (runCount c id next body' fuel params) (runCount c id next body fuel params) := by
  intro ctx
  simp only [runCount, Observed.within_eq, Act.within_context]
  obtain ⟨_ | bounds, mid⟩ := (resolveBounds c params).run ctx
  · exact ⟨[], fun seen => by rw [List.append_nil]; rfl⟩
  · obtain ⟨log, hlog⟩ := countLoop_watches (b := bounds) h fuel bounds.start 0 mid
    refine ⟨log, fun seen => ?_⟩
    simp only [hlog]
    obtain _ | ⟨_ | _, left⟩ := countLoop bounds body fuel bounds.start 0 mid <;> rfl

theorem runEach_watches {c : EachConfig}
    (h : Option.Rel (fun run' run => ∀ v, Watches (run' v) (run v)) body' body) :
    Watches (runEach c id next body' params) (runEach c id next body params) := by
  intro ctx
  simp only [runEach, Observed.within_eq, Act.within_context]
  obtain ⟨_ | items, mid⟩ := (resolveItems c params).run ctx
  · exact ⟨[], fun seen => by rw [List.append_nil]; rfl⟩
  · cases h with
    | none => exact ⟨[], fun seen => by rw [List.append_nil]; rfl⟩
    | @some run' run hrun =>
        obtain ⟨log, hlog⟩ := eachLoop_watches hrun items mid
        refine ⟨log, fun seen => ?_⟩
        simp only [hlog]
        obtain _ | ⟨_ | _, left⟩ := eachLoop run items mid <;> rfl

theorem runTransaction_watches
    (h : Option.Rel (fun run' run => ∀ v, Watches (run' v) (run v)) body' body) :
    Watches (runTransaction id next body' params) (runTransaction id next body params) := by
  intro ctx
  simp only [runTransaction, Observed.within_eq, Act.within_context]
  cases hdb : ctx.database with
  | none => exact ⟨[], fun seen => by simp [HoldsContext.context, hdb]⟩
  | some db =>
      cases h with
      | none => exact ⟨[], fun seen => by simp [HoldsContext.context, hdb]⟩
      | @some run' run hrun =>
          simp only [HoldsContext.context, hdb]
          obtain ⟨_ | answer, mid⟩ := ctx.query db (.setMode .transaction)
          · exact ⟨[], fun seen => by rw [List.append_nil]; rfl⟩
          · obtain ⟨log, hlog⟩ := hrun params mid
            refine ⟨log, fun seen => ?_⟩
            simp only [hlog]
            cases run params mid <;> rfl

theorem seenIn_runCount {c : CountConfig} {bounds : Bounds}
    (hbounds : (resolveBounds c params).run ctx = (.ok bounds, mid)) :
    seenIn (runCount c id next body' fuel params) ctx
      = seenIn (countLoop bounds body' fuel bounds.start 0) mid := by
  simp only [seenIn, runCount, Observed.within_eq, hbounds]
  obtain _ | ⟨_ | _, left⟩ := countLoop bounds body' fuel bounds.start 0 ⟨mid, []⟩ <;> rfl

theorem seenIn_runEach {c : EachConfig} {items : List Json}
    (hitems : (resolveItems c params).run ctx = (.ok items, mid)) :
    seenIn (runEach c id next (some run') params) ctx = seenIn (eachLoop run' items) mid := by
  simp only [seenIn, runEach, Observed.within_eq, hitems]
  obtain _ | ⟨_ | _, left⟩ := eachLoop run' items ⟨mid, []⟩ <;> rfl

theorem seenIn_runTransaction {db : δ} {answer : Json} (hdb : ctx.database = some db)
    (hopened : ctx.query db (.setMode .transaction) = (.ok answer, mid)) :
    seenIn (runTransaction id next (some run') params) ctx = seenIn (run' params) mid := by
  simp only [seenIn, runTransaction, Observed.within_eq, HoldsContext.context, hdb, hopened]
  cases run' params ⟨mid, []⟩ <;> rfl

end Frames

section Runs

variable [Store.Database δ] [Client χ]

/-- Run a block, with the observer at all that is run inside of it. -/
def Block.watched : Nat → Block → Json → Limited (Observed δ χ) (Except BlockError Output)
  | 0, _, _ => fun _ => none
  | fuel + 1, b, params =>
    b.perform (fun blocks => BlockMap.watchedWalk (Block.watched fuel) blocks fuel) fuel params

/-- Run blocks from one of them, and watch it. -/
def BlockMap.watched (fuel : Nat) (blocks : BlockMap) (start : String) (params : Json) :
    Limited (Observed δ χ) (Except RunError Output) :=
  watchedWalk (Block.watched fuel) blocks fuel start params

/-- **A block that is watched does what it does when nobody looks.** -/
theorem Block.watched_watches (fuel : Nat) (b : Block) (params : Json) :
    Watches (b.watched fuel params : Limited (Observed δ χ) _) (b.execute fuel params) := by
  induction fuel generalizing b params with
  | zero => exact fun ctx => ⟨[], fun seen => rfl⟩
  | succ fuel ih =>
      have hbody : ∀ body : Option (String × BlockMap),
          Option.Rel (fun run' run => ∀ v, Watches (run' v) (run v))
            (body.map fun inner => BlockMap.watched (δ := δ) (χ := χ) fuel inner.2 inner.1)
            (bodyRun fuel body) := by
        intro body
        cases body with
        | none => exact .none
        | some inner => exact .some fun v => BlockMap.watchedWalk_watches ih inner.2 fuel inner.1 v
      cases b with
      | task id next t => exact fun ctx => ⟨[], fun seen => by rw [List.append_nil]; rfl⟩
      | branch id c onSuccess onFailure =>
          exact fun ctx => ⟨[], fun seen => by rw [List.append_nil]; rfl⟩
      | nested id next frame body =>
          cases frame with
          | count c => exact runCount_watches (hbody body)
          | each c => exact runEach_watches (hbody body)
          | transaction => exact runTransaction_watches (hbody body)

theorem BlockMap.watched_watches (fuel : Nat) (blocks : BlockMap) (start : String) (params : Json) :
    Watches (blocks.watched fuel start params : Limited (Observed δ χ) _)
      (blocks.run fuel start params) :=
  watchedWalk_watches (Block.watched_watches fuel) blocks fuel start params

/-! ### What is seen in a run -/

/-- What happens inside of a block. -/
def Block.moments (fuel : Nat) (b : Block) (params : Json) (ctx : Context δ χ) :
    List (Moment δ χ) :=
  seenIn (b.watched fuel params) ctx

/-- What happens along a walk. -/
def BlockMap.walkMoments (fuel : Nat) (blocks : BlockMap) (n : Nat) (start : String) (params : Json)
    (ctx : Context δ χ) : List (Moment δ χ) :=
  seenIn (blocks.watchedWalk (Block.watched fuel) n start params) ctx

/-- What happens where blocks are run from one of them. -/
def BlockMap.moments (fuel : Nat) (blocks : BlockMap) (start : String) (params : Json)
    (ctx : Context δ χ) : List (Moment δ χ) :=
  blocks.walkMoments fuel fuel start params ctx

/-- What happens in a run of a program. -/
def Program.moments (fuel : Nat) (p : Program) (params : Json) (ctx : Context δ χ) :
    List (Moment δ χ) :=
  p.blocks.moments fuel p.entrypoint params (p.outset params ctx).ctx

/-- What happens in a loop over values. -/
def BlockMap.eachMoments (fuel : Nat) (blocks : BlockMap) (entry : String) (values : List Json)
    (ctx : Context δ χ) : List (Moment δ χ) :=
  seenIn (eachLoop (blocks.watched fuel entry) values) ctx

/-- What happens in a counting loop from an index on. -/
def BlockMap.countMoments (fuel : Nat) (blocks : BlockMap) (entry : String) (b : Bounds) (n : Nat)
    (index : Float) (turns : Nat) (ctx : Context δ χ) : List (Moment δ χ) :=
  seenIn (countLoop b (some (blocks.watched fuel entry)) n index turns) ctx

section Parts

variable {fuel n : Nat} {blocks : BlockMap} {entry id start next : String}
  {nextBlock : Option String} {v params params' : Json} {rest : List Json}
  {ctx mid left : Context δ χ} {o : Output} {e : RunError}

theorem BlockMap.run_sees {r : Except RunError Output}
    (h : blocks.run fuel entry v ctx = some (r, left)) :
    Sees (blocks.watched fuel entry v) ctx r left (blocks.moments fuel entry v ctx) :=
  (blocks.watched_watches fuel entry v).sees h

theorem Block.execute_sees {b : Block} {r : Except BlockError Output}
    (h : b.execute fuel params ctx = some (r, mid)) :
    Sees (b.watched fuel params) ctx r mid (b.moments fuel params ctx) :=
  (b.watched_watches fuel params).sees h

theorem BlockMap.eachMoments_failed (hv : blocks.run fuel entry v ctx = some (.error e, left)) :
    blocks.eachMoments fuel entry (v :: rest) ctx = blocks.moments fuel entry v ctx :=
  (eachLoop_sees_failed (run_sees hv)).seenIn

theorem BlockMap.eachMoments_passed {r : Except RunError Unit}
    (hv : blocks.run fuel entry v ctx = some (.ok o, mid))
    (hrest : eachLoop (blocks.run fuel entry) rest mid = some (r, left)) :
    blocks.eachMoments fuel entry (v :: rest) ctx
      = blocks.moments fuel entry v ctx ++ blocks.eachMoments fuel entry rest mid :=
  (eachLoop_sees_passed (run_sees hv)
    ((eachLoop_watches (blocks.watched_watches fuel entry) rest).sees hrest)).seenIn

variable {b : Bounds} {index : Float} {turns : Nat}

theorem BlockMap.countMoments_failed (hover : b.isOver index = false)
    (hv : blocks.run fuel entry (Bounds.indexValue index) ctx = some (.error e, left)) :
    blocks.countMoments fuel entry b (n + 1) index turns ctx
      = blocks.moments fuel entry (Bounds.indexValue index) ctx :=
  (countLoop_sees_failed hover (run_sees hv)).seenIn

theorem BlockMap.countMoments_passed {r : Except RunError Nat} (hover : b.isOver index = false)
    (hv : blocks.run fuel entry (Bounds.indexValue index) ctx = some (.ok o, mid))
    (hrest : countLoop b (some (blocks.run fuel entry)) n (index + b.step) (turns + 1) mid
      = some (r, left)) :
    blocks.countMoments fuel entry b (n + 1) index turns ctx
      = blocks.moments fuel entry (Bounds.indexValue index) ctx
        ++ blocks.countMoments fuel entry b n (index + b.step) (turns + 1) mid :=
  (countLoop_sees_passed hover (run_sees hv)
    ((countLoop_watches (.some (blocks.watched_watches fuel entry)) n _ _).sees hrest)).seenIn

theorem Block.moments_count {c : CountConfig} {bounds : Bounds}
    (hbounds : (resolveBounds c params).run ctx = (.ok bounds, mid)) :
    (Block.nested id nextBlock (.count c) (some (entry, blocks))).moments (fuel + 1) params ctx
      = blocks.countMoments fuel entry bounds fuel bounds.start 0 mid :=
  seenIn_runCount hbounds

theorem Block.moments_each {c : EachConfig} {items : List Json}
    (hitems : (resolveItems c params).run ctx = (.ok items, mid)) :
    (Block.nested id nextBlock (.each c) (some (entry, blocks))).moments (fuel + 1) params ctx
      = blocks.eachMoments fuel entry items mid :=
  seenIn_runEach hitems

theorem Block.moments_transaction {db : δ} {answer : Json} (hdb : ctx.database = some db)
    (hopened : ctx.query db (.setMode .transaction) = (.ok answer, mid)) :
    (Block.nested id nextBlock .transaction (some (entry, blocks))).moments (fuel + 1) params ctx
      = blocks.moments fuel entry params mid :=
  seenIn_runTransaction hdb hopened

variable {b : Block} {r : Except BlockError Output} {result : Except RunError Output}

theorem BlockMap.walkMoments_missing (hb : Entries.find? start blocks = none) :
    blocks.walkMoments fuel (n + 1) start params ctx = [.missed start] :=
  (watchedWalk_sees_missing hb).seenIn

theorem BlockMap.walkMoments_aborted (hb : Entries.find? start blocks = some b)
    (hr : b.execute fuel params ctx = some (r, mid)) (hafter : Walk.after b.id r = .aborted e) :
    blocks.walkMoments fuel (n + 1) start params ctx
      = Visit.around ⟨b, params, ctx⟩ (b.moments fuel params ctx) :=
  (watchedWalk_sees_aborted hb (Block.execute_sees hr) hafter).seenIn

theorem BlockMap.walkMoments_onward (hb : Entries.find? start blocks = some b)
    (hr : b.execute fuel params ctx = some (r, mid))
    (hafter : Walk.after b.id r = .onward next params')
    (hrest : walk (Block.execute fuel) blocks n next params' (Walk.record b.id b.kind r mid)
      = some (result, left)) :
    blocks.walkMoments fuel (n + 1) start params ctx
      = Visit.around ⟨b, params, ctx⟩ (b.moments fuel params ctx)
        ++ blocks.walkMoments fuel n next params' (Walk.record b.id b.kind r mid) :=
  (watchedWalk_sees_onward hb (Block.execute_sees hr) hafter
    ((watchedWalk_watches (Block.watched_watches fuel) blocks n next params').sees hrest)).seenIn

/-- A walk that ends has seen the block that it was at, and then maybe others. -/
theorem BlockMap.walkMoments_found (hb : Entries.find? start blocks = some b)
    (h : walk (Block.execute fuel) blocks (n + 1) start params ctx = some (result, left)) :
    ∃ rest, blocks.walkMoments fuel (n + 1) start params ctx
      = Visit.around ⟨b, params, ctx⟩ (b.moments fuel params ctx) ++ rest := by
  rw [walk_succ_iff] at h
  cases h with
  | missing hb' => cases hb.symm.trans hb'
  | finished hb' hr hafter =>
      obtain rfl := Option.some.inj (hb.symm.trans hb')
      refine ⟨[], ?_⟩
      rw [List.append_nil]
      exact (watchedWalk_sees_finished hb (Block.execute_sees hr) hafter).seenIn
  | aborted hb' hr hafter =>
      obtain rfl := Option.some.inj (hb.symm.trans hb')
      refine ⟨[], ?_⟩
      rw [List.append_nil, walkMoments_aborted hb hr hafter]
  | onward hb' hr hafter hrest =>
      obtain rfl := Option.some.inj (hb.symm.trans hb')
      exact ⟨_, walkMoments_onward hb hr hafter hrest⟩

end Parts

end Runs

end FlowGraph
