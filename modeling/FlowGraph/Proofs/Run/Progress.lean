/-
Progress of loops that count.

Let the bounds of a loop be finite and its step positive.  Its indices never fall and never leave
the bounds, but nothing keeps one of them from coming again: the sum of an index and the step is
rounded, and it is rounded to the index itself if the step is too small for it.  Then the loop
stands still, and since it only asks whether it has come to the end, it is never over
(`indices_standing`).

This is the only way to miss the end.  An index that the step leads away from is followed by a
greater one, by the least float at least, and so there are only finitely many until the end
(`exists_through`).  No index stands still if the bounds are less than `2 ^ 53` steps away from zero
(`moves_of_near`).
-/
import FlowGraph.Proofs.Decimal.Sums
import FlowGraph.Proofs.Run.Acyclic
import FlowGraph.Proofs.Run.Blame
import FlowGraph.Proofs.Run.Count
import Mathlib.Algebra.Order.Archimedean.Basic

namespace FlowGraph

open Decimal

namespace Bounds

/-- The bounds of a loop are finite, and its step leads upward. -/
structure Upward (b : Bounds) : Prop where
  start : b.start.isFinite = true
  stop : b.stop.isFinite = true
  step : b.step.isFinite = true
  up : (0.0 : Float) < b.step

/-- From an index on, a loop goes through some indices and is over then. -/
inductive Through (b : Bounds) : Float → List Float → Prop
  | past {index : Float} (hover : b.isOver index = true) : Through b index []
  | next {index : Float} {rest : List Float} (hover : b.isOver index = false)
      (h : Through b (index + b.step) rest) : Through b index (index :: rest)

/-- From an index on, the step leads away from every index that the loop comes to. -/
def Moves (b : Bounds) (index : Float) : Prop :=
  ∀ n, ∀ x ∈ b.indices n index, x + b.step ≠ x

variable {b : Bounds} {index x : Float} {xs rest : List Float} {n : Nat}

theorem eq_of_mem_head? (hx : x ∈ (b.indices n index).head?) : x = index := by
  cases n with
  | zero => exact nomatch hx
  | succ n =>
      cases hover : b.isOver index with
      | true =>
          rw [indices_over hover] at hx
          exact nomatch hx
      | false =>
          rw [indices_succ hover, List.head?_cons] at hx
          exact (Option.mem_some_iff.mp hx).symm

/-- Every index is a step behind the one before. -/
theorem isChain_indices (b : Bounds) (n : Nat) (index : Float) :
    (b.indices n index).IsChain fun x y => x + b.step = y := by
  induction n generalizing index with
  | zero => exact .nil
  | succ n ih =>
      cases hover : b.isOver index with
      | true =>
          rw [indices_over hover]
          exact .nil
      | false =>
          rw [indices_succ hover]
          refine List.isChain_cons.mpr ⟨fun y hy => (eq_of_mem_head? hy).symm, ih _⟩

/-! ### Loops that are over some time -/

/-- What a loop goes through are its indices. -/
theorem Through.indices (h : b.Through index xs) (n : Nat) : b.indices n index = xs.take n := by
  induction h generalizing n with
  | past hover => rw [indices_over hover, List.take_nil]
  | next hover _ ih =>
      cases n with
      | zero => rfl
      | succ n => rw [indices_succ hover, ih, List.take_succ_cons]

theorem Through.unique {ys : List Float} (h : b.Through index xs) (h' : b.Through index ys) :
    xs = ys := by
  have hxs := h.indices (max xs.length ys.length)
  rw [h'.indices, List.take_of_length_le (le_max_right _ _),
    List.take_of_length_le (le_max_left _ _)] at hxs
  exact hxs.symm

theorem moves_of_over (hover : b.isOver index = true) : b.Moves index := by
  intro n x hx
  rw [indices_over hover] at hx
  exact nomatch hx

theorem moves_iff (hover : b.isOver index = false) :
    b.Moves index ↔ index + b.step ≠ index ∧ b.Moves (index + b.step) := by
  constructor
  · refine fun h => ⟨h 1 index ?_, fun n x hx => h (n + 1) x ?_⟩
    · rw [indices_succ hover]
      exact List.mem_cons_self
    · rw [indices_succ hover]
      exact List.mem_cons_of_mem _ hx
  · rintro ⟨hne, h⟩ (_ | n) x hx
    · exact nomatch hx
    · rw [indices_succ hover] at hx
      rcases List.mem_cons.mp hx with rfl | hx
      · exact hne
      · exact h n x hx

/-- A loop that is over some time does not stand still before. -/
theorem Through.moves (h : b.Through index xs) : b.Moves index := by
  induction h with
  | past hover => exact moves_of_over hover
  | @next index rest hover h ih =>
      refine (moves_iff hover).mpr ⟨fun hsame => ?_, ih⟩
      have hrest := congrArg List.length ((Through.next hover h).unique (hsame ▸ h))
      rw [List.length_cons] at hrest
      omega

/-- A loop that stands still goes through the same index again and again. -/
theorem indices_standing (hover : b.isOver x = false) (hsame : x + b.step = x) (n : Nat) :
    b.indices n x = List.replicate n x := by
  induction n with
  | zero => rfl
  | succ n ih => rw [indices_succ hover, hsame, ih, List.replicate_succ]

theorem Through.counts (h : b.Through index xs) : b.Counts index (xs.map indexValue) := by
  induction h with
  | past hover => exact .past hover
  | next hover _ ih => exact .next hover ih

/-! ### Steps upward -/

namespace Upward

variable (h : b.Upward)
include h

theorem pos : 0 < value b.step := by
  have hup := (lt_iff_value isInt_zero.finite h.step).mp h.up
  rwa [isInt_zero.eq, Int.cast_zero] at hup

theorem isOver_iff (hindex : index.isFinite) :
    b.isOver index = true ↔ value b.stop ≤ value index :=
  isOver_iff_value h.stop h.step h.pos hindex

theorem lt_stop (hindex : index.isFinite) (hover : b.isOver index = false) :
    value index < value b.stop := by
  rw [← not_le, ← h.isOver_iff hindex, hover]
  exact Bool.false_ne_true

/-- A step leads beyond all floats only where the loop is over. -/
theorem over_or_finite (hindex : index.isFinite) :
    b.isOver (index + b.step) = true ∨ (index + b.step).isFinite = true := by
  rcases add_upward hindex h.step h.pos with hinfinite | ⟨hfinite, -⟩
  · have hstop : b.stop ≤ index + b.step := by
      rw [le_iff_compare, hinfinite]
      rcases unpack_cases h.stop with ⟨s, hs⟩ | ⟨s, _, _, hs⟩ <;> rw [hs] <;> cases s <;> rfl
    refine Or.inl ?_
    simp only [isOver, hstop, decide_true, Bool.or_true]
  · exact Or.inr hfinite

/-- A step leads no lower. -/
theorem le_step (hindex : index.isFinite) (hfinite : (index + b.step).isFinite) :
    value index ≤ value (index + b.step) := by
  rcases add_upward hindex h.step h.pos with hinfinite | ⟨-, hle⟩
  · have hbeyond : (index + b.step).isFinite = false :=
      congrArg Float.Model.UnpackedFloat.isFinite hinfinite
    exact absurd (hfinite.symm.trans hbeyond) Bool.noConfusion
  · exact hle

/-- A step that leads on leads to a greater float. -/
theorem lt_step (hindex : index.isFinite) (hfinite : (index + b.step).isFinite)
    (hne : index + b.step ≠ index) : value index < value (index + b.step) :=
  lt_of_le_of_ne (h.le_step hindex hfinite) fun hsame =>
    hne (add_eq_self hindex h.step h.pos hfinite hsame.symm)

/-- The indices of a loop are no less than the first one, and less than the end. -/
theorem between (hindex : index.isFinite) (hx : x ∈ b.indices n index) :
    x.isFinite = true ∧ value index ≤ value x ∧ value x < value b.stop := by
  induction n generalizing index with
  | zero => exact nomatch hx
  | succ n ih =>
      cases hover : b.isOver index with
      | true =>
          rw [indices_over hover] at hx
          exact nomatch hx
      | false =>
          rw [indices_succ hover] at hx
          rcases List.mem_cons.mp hx with rfl | hx
          · exact ⟨hindex, le_rfl, h.lt_stop hindex hover⟩
          · rcases h.over_or_finite hindex with hpast | hfinite
            · rw [indices_over hpast] at hx
              exact nomatch hx
            · obtain ⟨hxfinite, hge, hlt⟩ := ih hfinite hx
              exact ⟨hxfinite, (h.le_step hindex hfinite).trans hge, hlt⟩

/-- An order in which every step leads onward is the order of all indices. -/
theorem pairwise_value (hindex : index.isFinite) {R : ℚ → ℚ → Prop} [IsTrans ℚ R]
    (hstep : ∀ x ∈ b.indices n index, (x + b.step).isFinite = true →
      R (value x) (value (x + b.step))) :
    (b.indices n index).Pairwise fun x y => R (value x) (value y) := by
  rw [← List.pairwise_map, ← List.isChain_iff_pairwise, List.isChain_map]
  refine (isChain_indices b n index).imp_of_mem_imp fun x y hx hy hxy => ?_
  subst hxy
  exact hstep x hx (h.between hindex hy).1

/-- The indices of a loop never fall. -/
theorem pairwise_le (hindex : index.isFinite) (n : Nat) :
    (b.indices n index).Pairwise (· ≤ ·) := by
  have hvalues : (b.indices n index).Pairwise fun x y => value x ≤ value y :=
    h.pairwise_value hindex fun x hx hfinite => h.le_step (h.between hindex hx).1 hfinite
  refine hvalues.imp_of_mem fun hx hy hle => ?_
  exact (le_iff_value (h.between hindex hx).1 (h.between hindex hy).1).mpr hle

/-- The indices of a loop that does not stand still rise. -/
theorem pairwise_lt (hindex : index.isFinite) (hmoves : b.Moves index) (n : Nat) :
    (b.indices n index).Pairwise (· < ·) := by
  have hvalues : (b.indices n index).Pairwise fun x y => value x < value y :=
    h.pairwise_value hindex fun x hx hfinite =>
      h.lt_step (h.between hindex hx).1 hfinite (hmoves n x hx)
  refine hvalues.imp_of_mem fun hx hy hlt => ?_
  exact (lt_iff_value (h.between hindex hx).1 (h.between hindex hy).1).mpr hlt

/-- **A loop that does not stand still is over some time.**  The induction is on the number of
floats that are left until the end: none is closer to the next one than the least positive float
is to zero. -/
theorem exists_through (hindex : index.isFinite) (hmoves : b.Moves index) :
    ∃ xs, b.Through index xs := by
  have hunit : (0 : ℚ) < 2 ^ (-1074 : ℤ) := zpow_pos (by norm_num) _
  obtain ⟨n, hn⟩ := exists_nat_ge ((value b.stop - value index) / 2 ^ (-1074 : ℤ))
  rw [div_le_iff₀ hunit] at hn
  induction n generalizing index with
  | zero =>
      refine ⟨[], .past ((h.isOver_iff hindex).mpr ?_)⟩
      rw [Nat.cast_zero, zero_mul] at hn
      linarith
  | succ n ih =>
      cases hover : b.isOver index with
      | true => exact ⟨[], .past hover⟩
      | false =>
          obtain ⟨hne, hmoves⟩ := (moves_iff hover).mp hmoves
          rcases h.over_or_finite hindex with hpast | hfinite
          · exact ⟨[index], .next hover (.past hpast)⟩
          · have hone := unit_le_sub hindex hfinite (h.lt_step hindex hfinite hne)
            rw [Nat.cast_succ, add_one_mul] at hn
            obtain ⟨rest, hrest⟩ := ih hfinite hmoves (by linarith)
            exact ⟨index :: rest, .next hover hrest⟩

/-- A loop does not stand still near zero. -/
theorem moves_of_near (hindex : index.isFinite) (hlow : -(2 ^ 53 * value b.step) ≤ value index)
    (hhigh : value b.stop ≤ 2 ^ 53 * value b.step) : b.Moves index := by
  intro n x hx hsame
  obtain ⟨hfinite, hge, hlt⟩ := h.between hindex hx
  exact add_onward hfinite h.step h.pos (hlow.trans hge) (hlt.trans_le hhigh)
    (hsame.symm ▸ hfinite) (congrArg value hsame)

end Upward

end Bounds

/-! ### Blocks -/

section Blocks

variable {δ χ : Type} [Store.Database δ] [Client χ] {b : Bounds} {c : CountConfig}
  {id : String} {next : Option String} {body : Option (String × BlockMap)} {params : Json}
  {ctx mid last : Context δ χ} {xs : List Float} {r : Except BlockError Output}

omit [Store.Database δ] [Client χ] in
/-- A loop that ends with its turns is over. -/
theorem exists_through_of_countLoop {run : Option (BodyRun δ χ)} {fuel turns n : Nat}
    {index : Float} (h : countLoop b run fuel index turns ctx = some (.ok n, last)) :
    ∃ xs, b.Through index xs := by
  induction fuel generalizing index turns ctx with
  | zero => exact nomatch h
  | succ fuel ih =>
      rw [countLoop_succ_iff] at h
      cases h with
      | past hover => exact ⟨[], .past hover⟩
      | idle hover _ h | passed hover _ _ h =>
          obtain ⟨rest, hrest⟩ := ih h
          exact ⟨index :: rest, .next hover hrest⟩

/-- A block around a counting loop comes to an end if its loop is over some time and all turns come
to an end. -/
theorem count_ends (hbounds : (resolveBounds c params).run ctx = (.ok b, mid))
    (h : b.Through b.start xs)
    (hturns : ∀ o, Visit.Opens ⟨.nested id next (.count c) body, params, ctx⟩ o →
      ∃ r last, o.Ends r last) :
    ∃ r last, Visit.Ends ⟨.nested id next (.count c) body, params, ctx⟩ r last := by
  cases body with
  | none => exact ⟨_, _, (count_ends_idle_iff hbounds h.counts).mpr ⟨rfl, rfl⟩⟩
  | some p =>
      obtain ⟨looped, last, hloop⟩ := LoopEnds.of_turns fun o ho =>
        hturns o ((count_opens_iff hbounds h.counts).mpr ho)
      have hcount : CountLoopEnds b (some p) b.start 0 mid
          (looped.map fun _ => 0 + (xs.map Bounds.indexValue).length) last :=
        h.counts.ends_iff.mpr ⟨looped, hloop, rfl⟩
      cases looped with
      | ok _ => exact ⟨_, _, (count_ends_iff hbounds).mpr (Or.inl ⟨_, _, hcount, rfl, rfl⟩)⟩
      | error e => exact ⟨_, _, (count_ends_iff hbounds).mpr (Or.inr ⟨e, hcount, rfl⟩)⟩

/-- A block around a counting loop comes to no end but the one of its loop or of a turn that
raises an error. -/
theorem through_or_raised (hbounds : (resolveBounds c params).run ctx = (.ok b, mid))
    (h : Visit.Ends ⟨.nested id next (.count c) body, params, ctx⟩ r last) :
    (∃ xs, b.Through b.start xs) ∨
      ∃ o e, Visit.Opens ⟨.nested id next (.count c) body, params, ctx⟩ o ∧
        o.Ends (.error e) last := by
  rcases (count_ends_iff hbounds).mp h with ⟨n, left, ⟨fuel, hloop⟩, -⟩ | ⟨e, ⟨fuel, hloop⟩, -⟩
  · exact Or.inl (exists_through_of_countLoop hloop)
  · obtain ⟨entry, inner, v, state, -, rfl, hturn, hfails, -⟩ := countLoop_fault fuel hloop
    exact Or.inr ⟨_, e, .count fuel hbounds hturn, fuel, hfails⟩

end Blocks

/-- **A counting loop with finite bounds and a positive step misses its end only by standing
still.**  Its indices never fall, and none of them is less than the start or reaches the end.  The
loop goes through finitely many of them, each greater than the one before, if and only if the step
leads away from each; otherwise it comes to one that it goes through again and again.  The step
leads away from all of them if neither the start is further below zero nor the end further above it
than `2 ^ 53` steps.

A block around such a loop comes to an end if the step leads on and all turns come to an end, and
if the step does not lead on it comes to no other end than the error of a turn. -/
theorem Block.count_progress {δ χ : Type} [Store.Database δ] [Client χ] {b : Bounds}
    (hb : b.Upward) :
    (∀ n, (b.indices n b.start).Pairwise (· ≤ ·) ∧
      ∀ x ∈ b.indices n b.start, b.start ≤ x ∧ x < b.stop ∧
        (x + b.step = x → ∀ m, b.indices m x = List.replicate m x)) ∧
    ((∃ xs, b.Through b.start xs) ↔ b.Moves b.start) ∧
    (∀ xs, b.Through b.start xs →
      xs.Pairwise (· < ·) ∧ ∀ n, b.indices n b.start = xs.take n) ∧
    (-(2 ^ 53 * value b.step) ≤ value b.start → value b.stop ≤ 2 ^ 53 * value b.step →
      b.Moves b.start) ∧
    ∀ (c : CountConfig) (params : Json) (ctx mid : Context δ χ),
      (resolveBounds c params).run ctx = (.ok b, mid) → ∀ id next body,
      let loop : Visit δ χ := ⟨.nested id next (.count c) body, params, ctx⟩
      (b.Moves b.start → (∀ o, loop.Opens o → ∃ r last, o.Ends r last) →
        ∃ r last, loop.Ends r last) ∧
      (¬ b.Moves b.start → ∀ r last, loop.Ends r last →
        ∃ o e, loop.Opens o ∧ o.Ends (.error e) last) := by
  have hmoves : (∃ xs, b.Through b.start xs) ↔ b.Moves b.start :=
    ⟨fun ⟨_, h⟩ => h.moves, hb.exists_through hb.start⟩
  refine ⟨fun n => ⟨hb.pairwise_le hb.start n, fun x hx => ?_⟩, hmoves, fun xs hxs => ?_,
    hb.moves_of_near hb.start, fun c params ctx mid hbounds id next body => ⟨fun hon hturns => ?_,
      fun hstill r last hends => ?_⟩⟩
  · obtain ⟨hfinite, hge, hlt⟩ := hb.between hb.start hx
    have hstop : x < b.stop := (lt_iff_value hfinite hb.stop).mpr hlt
    have hover : b.isOver x = false := by
      rw [← Bool.not_eq_true, hb.isOver_iff hfinite, not_le]
      exact hlt
    exact ⟨(le_iff_value hb.start hfinite).mpr hge, hstop, Bounds.indices_standing hover⟩
  · refine ⟨?_, hxs.indices⟩
    have hrises := hb.pairwise_lt hb.start hxs.moves xs.length
    rwa [hxs.indices, List.take_length] at hrises
  · obtain ⟨xs, hxs⟩ := hmoves.mpr hon
    exact count_ends hbounds hxs hturns
  · exact (through_or_raised hbounds hends).resolve_left (mt hmoves.mp hstill)

/-- The settings that give these bounds. -/
def Bounds.settings (b : Bounds) : CountConfig :=
  ⟨.number (.float b.start), .number (.float b.stop), .number (.float b.step)⟩

/-- A loop around a block that writes its input down. -/
def Bounds.logging (b : Bounds) : Visit Store.Memory Offline :=
  ⟨.nested "all" none (.count b.settings)
    (some ("show", [("show", .task "show" none (.logger ⟨none, .info⟩))])), .null, .bodiless⟩

theorem Bounds.logging_resolves (b : Bounds) :
    (resolveBounds b.settings .null).run Context.bodiless = (.ok b, .bodiless) := rfl

theorem Bounds.logging_turns {b : Bounds} {o : Outset Store.Memory Offline}
    (h : b.logging.Opens o) : ∃ out last, o.Ends (.ok out) last := by
  obtain ⟨blocks, start, v, ctx⟩ := o
  obtain ⟨rfl, rfl⟩ := Prod.mk.inj (Option.some.inj h.body)
  exact ⟨_, _, 1, rfl⟩

/-- Tenths are no floats, and three of them are more than the float next to three tenths. -/
def Bounds.tenths : Bounds := ⟨0.1, 0.3, 0.1⟩

theorem Block.count_progress_tenths :
    Bounds.tenths.Upward ∧ Bounds.tenths.indices 5 0.1 = [0.1, 0.2] ∧ Bounds.tenths.Moves 0.1 ∧
      ∃ r last, Bounds.tenths.logging.Ends r last := by
  have hb : Bounds.tenths.Upward := ⟨rfl, rfl, rfl, by decide⟩
  have htenth : value 0.1 = 7205759403792794 * 2 ^ (-56 : ℤ) := rfl
  have hstop : value 0.3 = 5404319552844595 * 2 ^ (-54 : ℤ) := rfl
  obtain ⟨-, -, -, hnear, hblock⟩ := @count_progress Store.Memory Offline _ _ _ hb
  have hmoves : Bounds.tenths.Moves 0.1 := by
    refine hnear ?_ ?_
    · show -(2 ^ 53 * value 0.1) ≤ value 0.1
      rw [htenth]
      norm_num
    · show value 0.3 ≤ 2 ^ 53 * value 0.1
      rw [htenth, hstop]
      norm_num
  obtain ⟨hends, -⟩ := hblock _ _ _ _ (Bounds.logging_resolves _) "all" none _
  refine ⟨hb, by decide +kernel, hmoves, hends hmoves fun o ho => ?_⟩
  obtain ⟨out, last, hout⟩ := Bounds.logging_turns ho
  exact ⟨_, last, hout⟩

/-- At `2 ^ 53` a step of one is rounded off. -/
def Bounds.flat : Bounds := ⟨9007199254740992.0, 9007199254740994.0, 1.0⟩

/-- A loop with finite bounds and a positive step goes through one index without an end, although
its turns all come to an end. -/
theorem Block.count_standing :
    Bounds.flat.Upward ∧
      (∀ n, Bounds.flat.indices n 9007199254740992.0 = List.replicate n 9007199254740992.0) ∧
      (¬ ∃ xs, Bounds.flat.Through 9007199254740992.0 xs) ∧
      (∀ o, Bounds.flat.logging.Opens o → ∃ out last, o.Ends (.ok out) last) ∧
      ¬ ∃ r last, Bounds.flat.logging.Ends r last := by
  have hover : Bounds.flat.isOver 9007199254740992.0 = false := rfl
  have hsame : (9007199254740992.0 : Float) + Bounds.flat.step = 9007199254740992.0 := rfl
  have hstill : ¬ ∃ xs, Bounds.flat.Through 9007199254740992.0 xs := fun ⟨_, h⟩ =>
    ((Bounds.moves_iff hover).mp h.moves).1 hsame
  refine ⟨⟨rfl, rfl, rfl, by decide⟩, Bounds.indices_standing hover hsame, hstill,
    fun _ => Bounds.logging_turns, fun ⟨r, last, hends⟩ => ?_⟩
  obtain ⟨o, e, ho, he⟩ := (through_or_raised (Bounds.logging_resolves _) hends).resolve_left hstill
  obtain ⟨out, left, hout⟩ := Bounds.logging_turns ho
  exact nomatch (hout.unique he).1

end FlowGraph
