/-
Loops that count.

A counting loop adds its step to a float and asks after every addition whether it has come to the
end.  `Counts` lists the values that it goes through until then.  It is all that matters of the
bounds: the loop takes a turn for each of these values, as a loop over a list of them does
(`Counts.ends_iff`), and what turns do to the state the bounds were computed from plays no part.

Between integers of at most 53 bits nothing is rounded before the end is reached.  Only the last
addition can lead beyond `2 ^ 53`, and then it leads to a float that is no less than the end
(`At.next`).  So the values are the integers from the start on, a step apart, and their number is
what the division says (`counts_of_isInt`).
-/
import FlowGraph.Proofs.Decimal.Values
import FlowGraph.Proofs.Run.Each

namespace FlowGraph

open Decimal

/-! ### The values of a loop -/

/-- From an index on, a counting loop goes through some values and is over then. -/
inductive Bounds.Counts (b : Bounds) : Float → List Json → Prop
  | past {index : Float} (hover : b.isOver index = true) : Counts b index []
  | next {index : Float} {values : List Json} (hover : b.isOver index = false)
      (h : Counts b (index + b.step) values) : Counts b index (indexValue index :: values)

variable {δ χ : Type} [Store.Database δ]

section Loops

variable [Client χ] {b : Bounds} {entry : String} {inner : BlockMap} {index : Float} {turns : Nat}
  {values : List Json} {ctx last : Context δ χ} {r : Except RunError Nat} {o : Outset δ χ}

theorem CountLoopEnds.past_iff {body : Option (String × BlockMap)} (hover : b.isOver index = true) :
    CountLoopEnds b body index turns ctx r last ↔ r = .ok turns ∧ last = ctx := by
  constructor
  · rintro ⟨fuel, h⟩
    cases fuel with
    | zero => exact nomatch h
    | succ fuel =>
        rw [countLoop_succ_iff] at h
        cases h with
        | past => exact ⟨rfl, rfl⟩
        | idle hnot | failed hnot | passed hnot => exact nomatch hover.symm.trans hnot
  · rintro ⟨rfl, rfl⟩
    exact .past hover

theorem CountLoopEnds.idle_iff (hover : b.isOver index = false) :
    CountLoopEnds b none index turns ctx r last ↔
      CountLoopEnds b none (index + b.step) (turns + 1) ctx r last := by
  constructor
  · rintro ⟨fuel, h⟩
    cases fuel with
    | zero => exact nomatch h
    | succ fuel =>
        rw [countLoop_succ_iff] at h
        cases h with
        | past hnot => exact nomatch hover.symm.trans hnot
        | idle _ _ h => exact ⟨fuel, h⟩
        | failed _ hbody | passed _ hbody => exact nomatch hbody
  · exact .idle hover

/-- A counting loop that is not over ends with its next turn or goes on after it. -/
theorem CountLoopEnds.next_iff (hover : b.isOver index = false) :
    CountLoopEnds b (some (entry, inner)) index turns ctx r last ↔
      (∃ e, Outset.Ends ⟨inner, entry, Bounds.indexValue index, ctx⟩ (.error e) last ∧
        r = .error e) ∨
      ∃ out mid, Outset.Ends ⟨inner, entry, Bounds.indexValue index, ctx⟩ (.ok out) mid ∧
        CountLoopEnds b (some (entry, inner)) (index + b.step) (turns + 1) mid r last := by
  constructor
  · rintro ⟨fuel, h⟩
    cases fuel with
    | zero => exact nomatch h
    | succ fuel =>
        rw [countLoop_succ_iff] at h
        cases h with
        | past hnot => exact nomatch hover.symm.trans hnot
        | idle _ hbody => exact nomatch hbody
        | failed _ hbody hr =>
            obtain rfl := Option.some.inj hbody
            exact Or.inl ⟨_, ⟨fuel + 1, hr⟩, rfl⟩
        | passed _ hbody hr h =>
            obtain rfl := Option.some.inj hbody
            have hsame : Option.Rel (fun run run' : BodyRun δ χ => ∀ v, (run v).Grows (run' v))
                (bodyRun (fuel + 1) (some (entry, inner)))
                (bodyRun (fuel + 1) (some (entry, inner))) := .some fun _ _ _ h => h
            have hrest := countLoop_grows hsame b _ _ _ _ (Nat.le_succ fuel) _ _ h
            exact Or.inr ⟨_, _, ⟨fuel + 1, hr⟩, fuel + 1, hrest⟩
  · rintro (⟨e, he, rfl⟩ | ⟨out, mid, hv, h⟩)
    · exact .failed hover he
    · exact .passed hover hv h

namespace Bounds.Counts

/-- **A counting loop is a loop over its values**, and counts the turns. -/
theorem ends_iff (h : b.Counts index values) :
    CountLoopEnds b (some (entry, inner)) index turns ctx r last ↔
      ∃ looped, LoopEnds entry inner values ctx looped last ∧
        r = looped.map fun _ => turns + values.length := by
  induction h generalizing turns ctx with
  | past hover =>
      rw [CountLoopEnds.past_iff hover]
      constructor
      · rintro ⟨rfl, rfl⟩
        exact ⟨.ok (), .nil, rfl⟩
      · rintro ⟨looped, hloop, rfl⟩
        obtain ⟨rfl, rfl⟩ := hloop.unique .nil
        exact ⟨rfl, rfl⟩
  | @next index values hover _ ih =>
      have hlength : turns + 1 + values.length = turns + (values.length + 1) := by omega
      rw [CountLoopEnds.next_iff hover]
      simp only [ih, LoopEnds.cons_iff, List.length_cons, hlength]
      constructor
      · rintro (⟨e, he, rfl⟩ | ⟨out, mid, hv, looped, hloop, rfl⟩)
        · exact ⟨.error e, Or.inl ⟨e, he, rfl⟩, rfl⟩
        · exact ⟨looped, Or.inr ⟨out, mid, hv, hloop⟩, rfl⟩
      · rintro ⟨looped, ⟨e, he, rfl⟩ | ⟨out, mid, hv, hloop⟩, rfl⟩
        · exact Or.inl ⟨e, he, rfl⟩
        · exact Or.inr ⟨out, mid, hv, looped, hloop, rfl⟩

/-- Without a body the loop only counts. -/
theorem idle_ends_iff (h : b.Counts index values) :
    CountLoopEnds b none index turns ctx r last ↔
      r = .ok (turns + values.length) ∧ last = ctx := by
  induction h generalizing turns with
  | past hover => exact CountLoopEnds.past_iff hover
  | @next index values hover _ ih =>
      have hlength : turns + 1 + values.length = turns + (values.length + 1) := by omega
      rw [CountLoopEnds.idle_iff hover, ih, List.length_cons, hlength]

/-- The turns that a counting loop takes are those over its values. -/
theorem turns_iff (h : b.Counts index values) :
    (∃ n, Turns entry inner ((b.indices n index).map indexValue) ctx o) ↔
      Turns entry inner values ctx o := by
  induction h generalizing ctx with
  | past hover =>
      constructor
      · rintro ⟨n, hturns⟩
        rw [indices_over hover] at hturns
        exact hturns
      · intro hturns
        cases hturns
  | next hover _ ih =>
      constructor
      · rintro ⟨n, hturns⟩
        cases n with
        | zero => cases hturns
        | succ n =>
            rw [indices_succ hover, List.map_cons] at hturns
            cases hturns with
            | here => exact .here
            | later hv hrest => exact .later hv (ih.mp ⟨n, hrest⟩)
      · intro hturns
        cases hturns with
        | here =>
            refine ⟨1, ?_⟩
            rw [indices_succ hover, List.map_cons]
            exact .here
        | later hv hrest =>
            obtain ⟨n, hn⟩ := ih.mpr hrest
            refine ⟨n + 1, ?_⟩
            rw [indices_succ hover, List.map_cons]
            exact .later hv hn

end Bounds.Counts

end Loops

/-! ### Integers -/

namespace Bounds

variable {b : Bounds} {index x : Float} {i stop step : ℤ}

/-- The value of an index that is an integer. -/
theorem indexValue_of_isInt (h : IsInt x i) (hi : |i| < 2 ^ 53) : indexValue x = Json.int i := by
  have hsmall : i.natAbs < 9007199254740992 := by
    rw [abs_lt] at hi
    omega
  have hneg : x < 0.0 ↔ i < 0 := by
    rw [lt_iff_value h.finite isInt_zero.finite, h.eq, isInt_zero.eq, Int.cast_lt]
  have hsign : (if x < 0.0 then -(i.natAbs : ℤ) else i.natAbs) = i := by
    by_cases hlt : i < 0
    · rw [if_pos (hneg.mpr hlt)]
      omega
    · rw [if_neg fun hx => hlt (hneg.mp hx)]
      omega
  have hwhole : (Binary.ofBits x.toBits).natural? = some i.natAbs := h.natural?
  unfold indexValue
  simp only [h.finite, if_true, hwhole, hsmall, hsign]

/-- A loop has come to an integer.  Beyond its end the index may have been rounded. -/
structure At (stop i : ℤ) (index : Float) : Prop where
  finite : index.isFinite = true
  exact : i < stop → value index = i
  past : stop ≤ i → (stop : ℚ) ≤ value index

theorem At.of_isInt (h : IsInt index i) (stop : ℤ) : At stop i index := by
  refine ⟨h.finite, fun _ => h.eq, fun hle => ?_⟩
  rw [h.eq]
  exact_mod_cast hle

/-- The step leads from integer to integer, until it leads to the end or beyond. -/
theorem At.next (h : At stop i index) (hx : IsInt x step) (hi : -2 ^ 53 < i) (hlt : i < stop)
    (hstop : stop ≤ 2 ^ 53) (hstep : 1 ≤ step) (hstep' : step ≤ 2 ^ 53) :
    At stop (i + step) (index + x) := by
  have hindex : IsInt index i := ⟨h.finite, h.exact hlt⟩
  by_cases hle : i + step ≤ 2 ^ 53
  · have habs : |i + step| ≤ 2 ^ 53 := abs_le.mpr ⟨by omega, hle⟩
    exact .of_isInt (hindex.add hx habs) stop
  · obtain ⟨hfinite, hbeyond⟩ := hindex.add_beyond hx (by omega) (by omega)
    refine ⟨hfinite, fun hless => by omega, fun _ => ?_⟩
    have hcast : (stop : ℚ) ≤ 2 ^ 53 := by exact_mod_cast hstop
    exact hcast.trans hbeyond

/-- With a step upward a loop is over when it has come to the end or beyond. -/
theorem isOver_iff_value (hstop : b.stop.isFinite) (hstep : b.step.isFinite)
    (hpos : 0 < value b.step) (hindex : index.isFinite) :
    b.isOver index = true ↔ value b.stop ≤ value index := by
  have hup : ¬ b.step ≤ 0.0 := by
    rw [le_iff_value hstep isInt_zero.finite, isInt_zero.eq, Int.cast_zero, not_le]
    exact hpos
  unfold isOver
  simp only [isNaN_of_isFinite hstep, isNaN_of_isFinite hindex, hup, decide_false,
    Bool.or_false, Bool.false_or, decide_eq_true_eq]
  exact le_iff_value hstop hindex

/-- A loop between integers is over when it has come to the end or beyond. -/
theorem isOver_iff (hstop : IsInt b.stop stop) (hstep : IsInt b.step step) (hpos : 1 ≤ step)
    (h : At stop i index) : b.isOver index = true ↔ stop ≤ i := by
  have hup : 0 < value b.step := by
    rw [hstep.eq]
    exact_mod_cast hpos
  rw [isOver_iff_value hstop.finite hstep.finite hup h.finite, hstop.eq]
  constructor
  · intro hle
    by_contra hlt
    rw [h.exact (not_le.mp hlt), Int.cast_le] at hle
    exact hlt hle
  · exact h.past

/-- How often a step fits between two integers, begun ones included. -/
def turns (start stop step : ℤ) : ℕ := ⌈((stop : ℚ) - start) / step⌉₊

theorem lt_turns_iff (hpos : 1 ≤ step) {start : ℤ} {k : ℕ} :
    k < turns start stop step ↔ start + k * step < stop := by
  have hstep : (0 : ℚ) < step := by exact_mod_cast hpos
  rw [turns, Nat.lt_ceil, lt_div_iff₀ hstep, lt_sub_iff_add_lt, add_comm]
  exact_mod_cast Iff.rfl

theorem turns_pos_iff (hpos : 1 ≤ step) : 0 < turns i stop step ↔ i < stop := by
  rw [lt_turns_iff hpos, Nat.cast_zero, zero_mul, add_zero]

theorem turns_succ (hpos : 1 ≤ step) (hlt : i < stop) :
    turns i stop step = turns (i + step) stop step + 1 := by
  refine eq_of_forall_lt_iff fun k => ?_
  cases k with
  | zero =>
      have hfirst := (turns_pos_iff hpos).mpr hlt
      simp [hfirst]
  | succ k =>
      have hsame : i + (k + 1 : ℕ) * step = i + step + k * step := by
        push_cast
        ring
      rw [Nat.succ_lt_succ_iff, lt_turns_iff hpos, lt_turns_iff hpos, hsame]

/-- The integers from a start on, a step apart. -/
def progression (start step : ℤ) (n : ℕ) : List Json :=
  (List.range n).map fun k : ℕ => Json.int (start + k * step)

theorem length_progression (start step : ℤ) (n : ℕ) : (progression start step n).length = n := by
  rw [progression, List.length_map, List.length_range]

theorem getElem?_progression {start step : ℤ} {n k : ℕ} {v : Json} :
    (progression start step n)[k]? = some v ↔ k < n ∧ v = Json.int (start + k * step) := by
  rw [progression, List.getElem?_map, Option.map_eq_some_iff]
  constructor
  · rintro ⟨j, hj, rfl⟩
    obtain ⟨hk, rfl⟩ := List.getElem?_eq_some_iff.mp hj
    rw [List.length_range] at hk
    exact ⟨hk, by rw [List.getElem_range]⟩
  · rintro ⟨hk, rfl⟩
    exact ⟨k, List.getElem?_range hk, rfl⟩

theorem progression_succ (start step : ℤ) (n : ℕ) :
    progression start step (n + 1) = Json.int start :: progression (start + step) step n := by
  unfold progression
  rw [List.range_succ_eq_map, List.map_cons, List.map_map]
  congr 1
  · simp
  · refine List.map_congr_left fun k _ => ?_
    simp only [Function.comp_apply, Nat.cast_succ]
    congr 1
    ring

/-- **Between integers a loop goes through the integers from its start on, a step apart.** -/
theorem counts_of_isInt (hstop : IsInt b.stop stop) (hstep : IsInt b.step step)
    (hbound : stop ≤ 2 ^ 53) (hpos : 1 ≤ step) (hstep' : step ≤ 2 ^ 53) (hi : -2 ^ 53 < i)
    (h : At stop i index) : b.Counts index (progression i step (turns i stop step)) := by
  induction hn : turns i stop step generalizing i index with
  | zero =>
      refine .past ((isOver_iff hstop hstep hpos h).mpr ?_)
      rw [← not_lt, ← turns_pos_iff hpos, hn]
      exact lt_irrefl 0
  | succ n ih =>
      have hlt : i < stop := (turns_pos_iff hpos).mp (by omega)
      have hover : b.isOver index = false := by
        rw [← Bool.not_eq_true, isOver_iff hstop hstep hpos h]
        omega
      have hvalue : indexValue index = Json.int i :=
        indexValue_of_isInt ⟨h.finite, h.exact hlt⟩ (abs_lt.mpr ⟨hi, by omega⟩)
      rw [turns_succ hpos hlt, Nat.succ.injEq] at hn
      have hrest := ih (by omega) (h.next hstep hi hlt hbound hpos hstep') hn
      rw [progression_succ, ← hvalue]
      exact .next hover hrest

end Bounds

/-! ### Settings -/

/-- A number is an integer, whichever kind it is of. -/
def Number.IsInteger : Number → ℤ → Prop
  | .int j, i => j = i
  | .float x, i => IsInt x i

theorem Number.IsInteger.toFloat {n : Number} {i : ℤ} (h : n.IsInteger i) (hi : |i| ≤ 2 ^ 53) :
    IsInt n.toFloat i := by
  cases n with
  | int j =>
      obtain rfl := h
      exact isInt_ofInt hi
  | float x => exact h

/-- A setting stands for an integer: it is a number, or a script that evaluates to one.  A script
may leave another state. -/
inductive Bounds.Given (params : Json) (ctx : Context δ χ) : Json → ℤ → Context δ χ → Prop
  | number {n : Number} {i : ℤ} (h : n.IsInteger i) : Given params ctx (.number n) i ctx
  | script {text : String} {n : Number} {i : ℤ} {mid : Context δ χ}
      (hrun : ctx.evaluate [] params (Template.unmarked text) = (.ok (.number n), mid))
      (h : n.IsInteger i) : Given params ctx (.str text) i mid

/-- The settings of a loop stand for integers, one evaluated after the other. -/
inductive CountConfig.Gives (c : CountConfig) (params : Json) (ctx : Context δ χ)
    (start stop step : ℤ) (mid : Context δ χ) : Prop
  | intro {started stopped : Context δ χ} (hstart : Bounds.Given params ctx c.start start started)
      (hstop : Bounds.Given params started c.stop stop stopped)
      (hstep : Bounds.Given params stopped c.step step mid)

section Settings

variable {c : CountConfig} {params setting : Json} {ctx mid : Context δ χ} {i start stop step : ℤ}

theorem resolveBound_of_given (h : Bounds.Given params ctx setting i mid) (hi : |i| ≤ 2 ^ 53)
    (name : String) :
    ∃ x, (resolveBound params name setting).run ctx = (.ok x, mid) ∧ IsInt x i := by
  cases h with
  | number h => exact ⟨_, rfl, h.toFloat hi⟩
  | @script text n _ _ hrun h =>
      refine ⟨n.toFloat, ?_, h.toFloat hi⟩
      have hscript : ((Act.script params (Template.unmarked text)).adapt
          fun f => name ++ ": " ++ f.message).run ctx = (.ok (.number n), mid) := by
        show ((ctx.evaluate [] params (Template.unmarked text)).1.mapError _,
          (ctx.evaluate [] params (Template.unmarked text)).2) = _
        rw [hrun]
        rfl
      unfold resolveBound
      rw [Act.run_bind_apply, hscript]
      rfl

/-- A loop between integers has them for its bounds. -/
theorem resolveBounds_of_gives (h : c.Gives params ctx start stop step mid)
    (hstart : |start| ≤ 2 ^ 53) (hstop : |stop| ≤ 2 ^ 53) (hstep : |step| ≤ 2 ^ 53) :
    ∃ b : Bounds, (resolveBounds c params).run ctx = (.ok b, mid) ∧ IsInt b.start start ∧
      IsInt b.stop stop ∧ IsInt b.step step := by
  obtain ⟨hfirst, hsecond, hthird⟩ := h
  obtain ⟨x, hx, hxint⟩ := resolveBound_of_given hfirst hstart "start"
  obtain ⟨y, hy, hyint⟩ := resolveBound_of_given hsecond hstop "end"
  obtain ⟨z, hz, hzint⟩ := resolveBound_of_given hthird hstep "step"
  refine ⟨⟨x, y, z⟩, ?_, hxint, hyint, hzint⟩
  unfold resolveBounds
  simp only [Act.run_bind_apply, hx, hy, hz]
  rfl

end Settings

/-! ### Blocks -/

section Blocks

variable [Client χ] {id entry : String} {next : Option String} {inner : BlockMap} {c : CountConfig}
  {params : Json} {ctx mid last : Context δ χ} {b : Bounds} {values : List Json}
  {r : Except BlockError Output} {o : Outset δ χ}

theorem count_ends_iff {body : Option (String × BlockMap)}
    (hbounds : (resolveBounds c params).run ctx = (.ok b, mid)) :
    Visit.Ends ⟨.nested id next (.count c) body, params, ctx⟩ r last ↔
      (∃ turns left, CountLoopEnds b body b.start 0 mid (.ok turns) left ∧
        r = .ok (.success next params) ∧ last = left.note (.countCompleted id turns)) ∨
      ∃ e, CountLoopEnds b body b.start 0 mid (.error e) last ∧ r = .error (.run e) := by
  constructor
  · intro hends
    obtain ⟨fuel, hends⟩ := hends.succ
    rw [Block.execute_succ_iff] at hends
    cases hends with
    | countUnset h => exact nomatch (Prod.mk.inj (hbounds.symm.trans h)).1
    | countDone h hloop =>
        obtain ⟨hsame, rfl⟩ := Prod.mk.inj (hbounds.symm.trans h)
        obtain rfl := Except.ok.inj hsame
        exact Or.inl ⟨_, _, ⟨fuel, hloop⟩, rfl, rfl⟩
    | countFailed h hloop =>
        obtain ⟨hsame, rfl⟩ := Prod.mk.inj (hbounds.symm.trans h)
        obtain rfl := Except.ok.inj hsame
        exact Or.inr ⟨_, ⟨fuel, hloop⟩, rfl⟩
  · rintro (⟨turns, left, ⟨fuel, hloop⟩, rfl, rfl⟩ | ⟨e, ⟨fuel, hloop⟩, rfl⟩)
    · exact ⟨fuel + 1, Block.execute_succ_iff.mpr (.countDone hbounds hloop)⟩
    · exact ⟨fuel + 1, Block.execute_succ_iff.mpr (.countFailed hbounds hloop)⟩

/-- A block around a counting loop ends after all turns, or with the first one that goes wrong. -/
theorem count_ends_turned_iff (hbounds : (resolveBounds c params).run ctx = (.ok b, mid))
    (h : b.Counts b.start values) :
    Visit.Ends ⟨.nested id next (.count c) (some (entry, inner)), params, ctx⟩ r last ↔
      (∃ states, Turned entry inner values mid states values.length ∧
        r = .ok (.success next params) ∧
        last = (states values.length).note (.countCompleted id values.length)) ∨
      ∃ k v states e, values[k]? = some v ∧ Turned entry inner values mid states k ∧
        Outset.Ends ⟨inner, entry, v, states k⟩ (.error e) last ∧ r = .error (.run e) := by
  rw [count_ends_iff hbounds]
  simp only [h.ends_iff, loopEnds_iff, Nat.zero_add]
  constructor
  · rintro (⟨turns, left, ⟨looped, hloop, hturns⟩, rfl, rfl⟩ | ⟨e, ⟨looped, hloop, he⟩, rfl⟩)
    · rcases hloop with ⟨states, hturned, rfl, rfl⟩ | ⟨k, v, states, e, -, -, -, rfl⟩
      · obtain rfl := Except.ok.inj hturns
        exact Or.inl ⟨states, hturned, rfl, rfl⟩
      · exact nomatch hturns
    · rcases hloop with ⟨states, -, rfl, -⟩ | ⟨k, v, states, e', hk, hturned, hv, rfl⟩
      · exact nomatch he
      · obtain rfl := Except.error.inj he
        exact Or.inr ⟨k, v, states, e, hk, hturned, hv, rfl⟩
  · rintro (⟨states, hturned, rfl, rfl⟩ | ⟨k, v, states, e, hk, hturned, hv, rfl⟩)
    · exact Or.inl ⟨_, _, ⟨.ok (), Or.inl ⟨states, hturned, rfl, rfl⟩, rfl⟩, rfl, rfl⟩
    · exact Or.inr ⟨e, ⟨.error e, Or.inr ⟨k, v, states, e, hk, hturned, hv, rfl⟩, rfl⟩, rfl⟩

theorem count_ends_idle_iff (hbounds : (resolveBounds c params).run ctx = (.ok b, mid))
    (h : b.Counts b.start values) :
    Visit.Ends ⟨.nested id next (.count c) none, params, ctx⟩ r last ↔
      r = .ok (.success next params) ∧ last = mid.note (.countCompleted id values.length) := by
  rw [count_ends_iff hbounds]
  simp only [h.idle_ends_iff, Nat.zero_add]
  constructor
  · rintro (⟨turns, left, ⟨hturns, rfl⟩, rfl, rfl⟩ | ⟨e, ⟨he, -⟩, -⟩)
    · obtain rfl := Except.ok.inj hturns
      exact ⟨rfl, rfl⟩
    · exact nomatch he
  · rintro ⟨rfl, rfl⟩
    exact Or.inl ⟨_, _, ⟨rfl, rfl⟩, rfl, rfl⟩

/-- What a block around a counting loop starts. -/
theorem count_opens_iff (hbounds : (resolveBounds c params).run ctx = (.ok b, mid))
    (h : b.Counts b.start values) :
    Visit.Opens ⟨.nested id next (.count c) (some (entry, inner)), params, ctx⟩ o ↔
      Turns entry inner values mid o := by
  rw [← h.turns_iff]
  constructor
  · rintro (⟨n, hbounds', hturns⟩ | _)
    obtain ⟨hsame, rfl⟩ := Prod.mk.inj (hbounds.symm.trans hbounds')
    obtain rfl := Except.ok.inj hsame
    exact ⟨n, hturns⟩
  · rintro ⟨n, hturns⟩
    exact .count n hbounds hturns

end Blocks

/-- **A counting loop takes the integers from its start to its end in order, a step apart.**  Let
the settings of a block stand for integers of at most 53 bits, as numbers or as what their scripts
give, the start not the least of these, and the step positive.  The block starts its body with the
`k`th integer after as many turns, in the state that the turn before has left, and in no other way;
so nothing that a turn does to the variables changes the integers or their number.  It ends with its
input after all turns, or raises the error of the first turn that ends with one, in the state of
that turn.  A block that has no body ends with its input as well, after as many turns that do
nothing. -/
theorem Block.count_in_order [Client χ] {c : CountConfig} {params : Json} {ctx mid : Context δ χ}
    {start stop step : ℤ} (hgives : c.Gives params ctx start stop step mid)
    (hstart : -2 ^ 53 < start ∧ start < 2 ^ 53) (hstop : -2 ^ 53 ≤ stop ∧ stop ≤ 2 ^ 53)
    (hstep : 1 ≤ step ∧ step ≤ 2 ^ 53) (id entry : String) (target : String → Option String)
    (inner : BlockMap) :
    let turns := ⌈((stop : ℚ) - start) / step⌉₊
    let values := (List.range turns).map fun k : ℕ => Json.int (start + k * step)
    let loop : Visit δ χ := ⟨.ofSettings id target (some (entry, inner)) .count c, params, ctx⟩
    (∀ o, loop.Opens o ↔ ∃ k < turns, ∃ states, Turned entry inner values mid states k ∧
      o = ⟨inner, entry, Json.int (start + k * step), states k⟩) ∧
    (∀ r last, loop.Ends r last ↔
      (∃ states, Turned entry inner values mid states turns ∧
        r = .ok (.success (target Slot.source) params) ∧
        last = (states turns).note (.countCompleted id turns)) ∨
      ∃ k < turns, ∃ states e, Turned entry inner values mid states k ∧
        Outset.Ends ⟨inner, entry, Json.int (start + k * step), states k⟩ (.error e) last ∧
        r = .error (.run e)) ∧
    ∀ r last, Visit.Ends ⟨.ofSettings id target none .count c, params, ctx⟩ r last ↔
      r = .ok (.success (target Slot.source) params) ∧
      last = mid.note (.countCompleted id turns) := by
  intro turns values loop
  obtain ⟨b, hbounds, hfirst, hend, hby⟩ := resolveBounds_of_gives hgives
    (abs_le.mpr ⟨by omega, by omega⟩) (abs_le.mpr hstop) (abs_le.mpr ⟨by omega, hstep.2⟩)
  have hcounts : b.Counts b.start values :=
    Bounds.counts_of_isInt hend hby hstop.2 hstep.1 hstep.2 hstart.1 (.of_isInt hfirst stop)
  have hlength : values.length = turns := Bounds.length_progression start step turns
  have hvalue (k : ℕ) (v : Json) :
      values[k]? = some v ↔ k < turns ∧ v = Json.int (start + k * step) :=
    Bounds.getElem?_progression
  refine ⟨fun o => ?_, fun r last => ?_, fun r last => ?_⟩
  · refine (count_opens_iff hbounds hcounts).trans (turns_iff.trans ?_)
    constructor
    · rintro ⟨k, v, states, hk, hturned, rfl⟩
      obtain ⟨hlt, rfl⟩ := (hvalue k v).mp hk
      exact ⟨k, hlt, states, hturned, rfl⟩
    · rintro ⟨k, hlt, states, hturned, rfl⟩
      exact ⟨k, _, states, (hvalue k _).mpr ⟨hlt, rfl⟩, hturned, rfl⟩
  · refine (count_ends_turned_iff hbounds hcounts).trans ?_
    rw [hlength]
    refine or_congr Iff.rfl ?_
    constructor
    · rintro ⟨k, v, states, e, hk, hturned, he, rfl⟩
      obtain ⟨hlt, rfl⟩ := (hvalue k v).mp hk
      exact ⟨k, hlt, states, e, hturned, he, rfl⟩
    · rintro ⟨k, hlt, states, e, hturned, he, rfl⟩
      exact ⟨k, _, states, e, (hvalue k _).mpr ⟨hlt, rfl⟩, hturned, he, rfl⟩
  · refine (count_ends_idle_iff hbounds hcounts).trans ?_
    rw [hlength]

/-- A body that shows its input and then lowers a number that is counted up to. -/
def BlockMap.lowering : BlockMap :=
  [("lower", .task "lower" none (.setVar ⟨"n", Json.nat 0, false⟩)),
    ("show", .task "show" (some "lower") (.interceptor ⟨none⟩))]

/-- A context with a number in a variable, where scripts are names of variables. -/
def Context.lowering : Context Store.Memory Offline :=
  { vars := [("n", Json.nat 2)], intercepted := some #[]
    scripts := ⟨fun _ scope code => .done (.ok ((Entries.find? code scope).getD .null))⟩ }

/-- The second turn comes although the first one has lowered the end below its integer. -/
theorem Block.count_in_order_lowering :
    let c : CountConfig := ⟨.int (-1), .str "js:n", Json.nat 2⟩
    let all : Block := .ofSettings "all" (fun _ => some "after") (some ("show", .lowering)) .count c
    c.Gives .null Context.lowering (-1) 2 2 .lowering ∧
    (∃ o : Outset Store.Memory Offline, Visit.Opens ⟨all, .null, .lowering⟩ o ∧
      o.params = Json.int 1 ∧ Entries.find? "n" o.ctx.vars = some (Json.nat 0)) ∧
    ∃ last : Context Store.Memory Offline,
      Visit.Ends ⟨all, .null, .lowering⟩ (.ok (.success (some "after") .null)) last ∧
      last.intercepted.map (paramsUnder none) = some [Json.int (-1), Json.int 1] := by
  have hgives : CountConfig.Gives ⟨.int (-1), .str "js:n", Json.nat 2⟩ .null Context.lowering
      (-1) 2 2 .lowering := ⟨.number rfl, .script rfl rfl, .number rfl⟩
  have hturns : ⌈(((2 : ℤ) : ℚ) - ((-1 : ℤ) : ℚ)) / ((2 : ℤ) : ℚ)⌉₊ = 2 := by
    rw [Nat.ceil_eq_iff (by decide)]
    norm_num
  obtain ⟨hopens, hends, -⟩ := count_in_order hgives (by decide) (by decide) (by decide) "all"
    "show" (fun _ => some "after") .lowering
  rw [hturns] at hopens hends
  exact ⟨hgives, ⟨_, (hopens _).mpr ⟨1, by decide, _, .cons ⟨3, rfl⟩ (.none _), rfl⟩, rfl, rfl⟩,
    _, (hends _ _).mpr (Or.inl ⟨_, .cons ⟨3, rfl⟩ (.cons ⟨3, rfl⟩ (.none _)), rfl, rfl⟩), rfl⟩

end FlowGraph
