/-
What a walk has run.

A walk goes where its blocks lead it.  `Trail` says what it means that blocks were run one
after the other: the first one at the start and with the input, and every other one at the
successor that the one before it named, with the output and in the state that the one
before it left.  `Ending` says what the last of them leads to.  A walk has a result just if
there is a trail with an ending, and the result is that of the ending.

That nothing else is run cannot be read off a result.  `watched` therefore puts an observer
into the state, who writes down every block that is run.  Its walk is the same walk, and in
the end the observer holds exactly the trail.

Blocks are arbitrary here: any map of ids, any behaviour, any state.  The induction is on
the budget in the one direction and on the trail in the other, and `Follows` is what the
step of both is about.
-/
import FlowGraph.Proofs.Run.Steps
import Mathlib.Data.List.Chain

namespace FlowGraph.Walk

variable {σ : Type}

/-- A block that was run, where, with what, and what came of it. -/
structure Stop (σ : Type) where
  /-- The id under which the block was looked up. -/
  key : String
  station : Station σ
  params : Json
  before : σ
  result : Except BlockError Output
  left : σ

/-- The block is the one under its key, and this came of it. -/
structure Stop.Happens (find : String → Option (Station σ)) (p : Stop σ) : Prop where
  found : find p.key = some p.station
  ran : p.station.run p.params p.before = some (p.result, p.left)

variable [Journaling σ]

/-- The state in which a walk goes on. -/
def Stop.after (p : Stop σ) : σ := record p.station.id p.station.kind p.result p.left

/-- The output of the first block leads to the second one. -/
structure Stop.Precedes (p q : Stop σ) : Prop where
  onward : ∃ o, p.result = .ok o ∧ o.isFatal = false ∧ o.next = some q.key ∧
    q.params = o.output.getD .null
  state : q.before = p.after

/-- Blocks were run one after the other, from a start on. -/
structure Trail (find : String → Option (Station σ)) (start : String) (params : Json) (s : σ)
    (stops : List (Stop σ)) : Prop where
  happens : ∀ p ∈ stops, p.Happens find
  begins : ∀ p ∈ stops.head?, p.key = start ∧ p.params = params ∧ p.before = s
  onward : stops.IsChain Stop.Precedes

/-- What a walk ends with after the last block that was run, if one was. -/
inductive Ending (find : String → Option (Station σ)) (start : String) (s : σ) :
    Option (Stop σ) → Except RunError Output → σ → Prop
  /-- There is no block at the start. -/
  | nowhere (hmissing : find start = none) :
      Ending find start s none (.error (.blockNotFound start)) s
  /-- The last output names no successor. -/
  | finished {p : Stop σ} {o : Output} (hr : p.result = .ok o) (hgood : o.isFatal = false)
      (hnext : o.next = none) : Ending find start s (some p) (.ok o) p.after
  /-- The last output names a successor that is not there. -/
  | dangling {p : Stop σ} {o : Output} {next : String} (hr : p.result = .ok o)
      (hgood : o.isFatal = false) (hnext : o.next = some next) (hmissing : find next = none) :
      Ending find start s (some p) (.error (.blockNotFound next)) p.after
  /-- The last block raises an error. -/
  | raised {p : Stop σ} {e : BlockError} (hr : p.result = .error e) :
      Ending find start s (some p) (.error (.raised p.station.id e)) p.after
  /-- The last output is fatal.  The successor that it may name plays no part. -/
  | failed {p : Stop σ} {o : Output} (hr : p.result = .ok o) (hfatal : o.isFatal = true) :
      Ending find start s (some p) (.error (.failed p.station.id (o.error.getD "block failed")))
        p.after

/-- A whole walk: the blocks that were run, and what it ended with. -/
structure Course (find : String → Option (Station σ)) (start : String) (params : Json) (s : σ)
    (stops : List (Stop σ)) (r : Except RunError Output) (s' : σ) : Prop where
  trail : Trail find start params s stops
  ending : Ending find start s stops.getLast? r s'

/-! ### The observer -/

/-- A state with an observer, who has seen blocks being run. -/
structure Watched (σ : Type) where
  state : σ
  seen : List (Stop σ)

instance : Journaling (Watched σ) := ⟨fun e w => { w with state := Journaling.note e w.state }⟩

/-- The blocks, each of which is seen when it is run. -/
def watched (find : String → Option (Station σ)) (key : String) : Option (Station (Watched σ)) :=
  (find key).map fun b =>
    { id := b.id, kind := b.kind
      run := fun params w =>
        (b.run params w.state).map fun out =>
          (out.1, ⟨out.2, w.seen ++ [⟨key, b, params, w.state, out.1, out.2⟩]⟩) }

theorem record_watched (id : String) (kind : Kind) (r : Except BlockError Output) (s : σ)
    (seen : List (Stop σ)) :
    record id kind r (⟨s, seen⟩ : Watched σ) = ⟨record id kind r s, seen⟩ := by
  rw [record, record]
  induction events id kind r generalizing s with
  | nil => rfl
  | cons e rest ih => exact ih _

variable {find : String → Option (Station σ)} {start : String} {params : Json} {s s' : σ}
variable {p : Stop σ} {stops : List (Stop σ)} {r : Except RunError Output}

/-- One step of a walk that is watched. -/
theorem watched_succ (fuel : Nat) (seen : List (Stop σ)) :
    from? (watched find) (fuel + 1) start params ⟨s, seen⟩
      = match find start with
        | none => some (.error (.blockNotFound start), ⟨s, seen⟩)
        | some b =>
          match b.run params s with
          | none => none
          | some (result, left) =>
            let p : Stop σ := ⟨start, b, params, s, result, left⟩
            match after b.id result with
            | .finished o => some (.ok o, ⟨p.after, seen ++ [p]⟩)
            | .aborted e => some (.error e, ⟨p.after, seen ++ [p]⟩)
            | .onward next params =>
              from? (watched find) fuel next params ⟨p.after, seen ++ [p]⟩ := by
  rw [from?, watched]
  cases find start with
  | none => rfl
  | some b =>
      simp only [Option.map_some]
      cases b.run params s with
      | none => rfl
      | some out =>
          simp only [Option.map_some, record_watched]
          rfl

/-- The observer changes nothing. -/
theorem from?_watched (fuel : Nat) (seen : List (Stop σ)) :
    (from? (watched find) fuel start params ⟨s, seen⟩).map (fun out => (out.1, out.2.state))
      = from? find fuel start params s := by
  induction fuel generalizing start params s seen with
  | zero => rfl
  | succ fuel ih =>
      rw [watched_succ, from?]
      cases find start with
      | none => rfl
      | some b =>
          simp only
          cases b.run params s with
          | none => rfl
          | some out =>
              simp only
              cases after b.id out.1 with
              | finished o => rfl
              | aborted e => rfl
              | onward next params' => exact ih _

/-! ### A course, block by block -/

theorem after_error (id : String) (e : BlockError) :
    after id (.error e) = .aborted (.raised id e) := rfl

theorem after_fatal {o : Output} (id : String) (h : o.isFatal = true) :
    after id (.ok o) = .aborted (.failed id (o.error.getD "block failed")) := by
  rw [after, afterOutput, if_pos h]

theorem after_last {o : Output} (id : String) (h : o.isFatal = false) (hnext : o.next = none) :
    after id (.ok o) = .finished o := by
  rw [after, afterOutput, if_neg (Bool.eq_false_iff.mp h), hnext]

theorem after_next {o : Output} {next : String} (id : String) (h : o.isFatal = false)
    (hnext : o.next = some next) :
    after id (.ok o) = .onward next (o.output.getD .null) := by
  rw [after, afterOutput, if_neg (Bool.eq_false_iff.mp h), hnext]

/-- Once a block was run, the start plays no part in how a walk ends. -/
theorem Ending.of_cons {start' : String} {t : σ}
    (h : Ending find start s (p :: stops).getLast? r s') :
    Ending find start' t (p :: stops).getLast? r s' := by
  rw [List.getLast?_eq_some_getLast (List.cons_ne_nil p stops)] at h ⊢
  cases h with
  | finished hr hgood hnext => exact .finished hr hgood hnext
  | dangling hr hgood hnext hmissing => exact .dangling hr hgood hnext hmissing
  | raised hr => exact .raised hr
  | failed hr hfatal => exact .failed hr hfatal

theorem course_nil_iff :
    Course find start params s [] r s'
      ↔ find start = none ∧ r = .error (.blockNotFound start) ∧ s' = s := by
  constructor
  · rintro ⟨-, hending⟩
    cases hending with
    | nowhere hmissing => exact ⟨hmissing, rfl, rfl⟩
  · rintro ⟨hmissing, rfl, rfl⟩
    exact ⟨⟨by simp, by simp, .nil⟩, .nowhere hmissing⟩

/-- What follows a block. -/
def Follows (find : String → Option (Station σ)) (p : Stop σ) (stops : List (Stop σ))
    (r : Except RunError Output) (s' : σ) : Prop :=
  match after p.station.id p.result with
  | .finished o => stops = [] ∧ r = .ok o ∧ s' = p.after
  | .aborted e => stops = [] ∧ r = .error e ∧ s' = p.after
  | .onward next params => Course find next params p.after stops r s'

theorem Course.follows (h : Course find start params s (p :: stops) r s') :
    Follows find p stops r s' := by
  obtain ⟨⟨hhappens, -, honward⟩, hending⟩ := h
  rw [Follows]
  cases stops with
  | nil =>
      rw [List.getLast?_singleton] at hending
      cases hending with
      | finished hr hgood hnext =>
          rw [hr, after_last _ hgood hnext]
          exact ⟨rfl, rfl, rfl⟩
      | dangling hr hgood hnext hmissing =>
          rw [hr, after_next _ hgood hnext]
          exact course_nil_iff.mpr ⟨hmissing, rfl, rfl⟩
      | raised hr =>
          rw [hr, after_error]
          exact ⟨rfl, rfl, rfl⟩
      | failed hr hfatal =>
          rw [hr, after_fatal _ hfatal]
          exact ⟨rfl, rfl, rfl⟩
  | cons q rest =>
      obtain ⟨⟨⟨o, hr, hgood, hnext, hparams⟩, hstate⟩, hrest⟩ := List.isChain_cons_cons.mp honward
      rw [hr, after_next _ hgood hnext, ← hparams]
      refine ⟨⟨(List.forall_mem_cons.mp hhappens).2, ?_, hrest⟩, ?_⟩
      · intro q' hq'
        obtain rfl : q = q' := Option.some.inj hq'
        exact ⟨rfl, rfl, hstate⟩
      · rw [List.getLast?_cons_cons] at hending
        exact hending.of_cons

theorem Stop.Happens.course (hp : p.Happens find) (h : Follows find p stops r s') :
    Course find p.key p.params p.before (p :: stops) r s' := by
  have single : ∀ {r s'}, Ending find p.key p.before (some p) r s' →
      Course find p.key p.params p.before [p] r s' := fun hending =>
    ⟨⟨by simpa using hp, by simp, .singleton p⟩, hending⟩
  rw [Follows] at h
  cases hr : p.result with
  | error e =>
      rw [hr, after_error] at h
      obtain ⟨rfl, rfl, rfl⟩ := h
      exact single (.raised hr)
  | ok o =>
      rw [hr] at h
      cases hgood : o.isFatal with
      | true =>
          rw [after_fatal _ hgood] at h
          obtain ⟨rfl, rfl, rfl⟩ := h
          exact single (.failed hr hgood)
      | false =>
          cases hnext : o.next with
          | none =>
              rw [after_last _ hgood hnext] at h
              obtain ⟨rfl, rfl, rfl⟩ := h
              exact single (.finished hr hgood hnext)
          | some next =>
              rw [after_next _ hgood hnext] at h
              cases stops with
              | nil =>
                  obtain ⟨hmissing, rfl, rfl⟩ := course_nil_iff.mp h
                  exact single (.dangling hr hgood hnext hmissing)
              | cons q rest =>
                  obtain ⟨⟨hhappens, hbegins, honward⟩, hending⟩ := h
                  obtain ⟨hkey, hparams, hbefore⟩ := hbegins q rfl
                  have hpq : p.Precedes q := ⟨⟨o, hr, hgood, hkey ▸ hnext, hparams⟩, hbefore⟩
                  refine ⟨⟨List.forall_mem_cons.mpr ⟨hp, hhappens⟩, by simp,
                    .cons_cons hpq honward⟩, ?_⟩
                  rw [List.getLast?_cons_cons]
                  exact hending.of_cons

/-! ### Walks and courses -/

/-- A walk that ends has gone along a course, and the observer has seen it. -/
theorem course_of_watched :
    ∀ (fuel : Nat) (start : String) (params : Json) (s : σ) (seen : List (Stop σ))
      {r : Except RunError Output} {w : Watched σ},
      from? (watched find) fuel start params ⟨s, seen⟩ = some (r, w) →
      ∃ stops, w.seen = seen ++ stops ∧ Course find start params s stops r w.state := by
  intro fuel
  induction fuel with
  | zero => intro start params s seen r w h; exact nomatch h
  | succ fuel ih =>
      intro start params s seen r w h
      rw [watched_succ] at h
      cases hfind : find start with
      | none =>
          simp only [hfind, Option.some.injEq, Prod.mk.injEq] at h
          obtain ⟨rfl, rfl⟩ := h
          exact ⟨[], by simp, course_nil_iff.mpr ⟨hfind, rfl, rfl⟩⟩
      | some b =>
          simp only [hfind] at h
          cases hrun : b.run params s with
          | none => simp [hrun] at h
          | some out =>
              simp only [hrun] at h
              let p : Stop σ := ⟨start, b, params, s, out.1, out.2⟩
              have hp : p.Happens find := ⟨hfind, hrun⟩
              cases hafter : after b.id out.1 with
              | finished o =>
                  simp only [hafter, Option.some.injEq, Prod.mk.injEq] at h
                  obtain ⟨rfl, rfl⟩ := h
                  refine ⟨[p], rfl, hp.course ?_⟩
                  rw [Follows, hafter]
                  exact ⟨rfl, rfl, rfl⟩
              | aborted e =>
                  simp only [hafter, Option.some.injEq, Prod.mk.injEq] at h
                  obtain ⟨rfl, rfl⟩ := h
                  refine ⟨[p], rfl, hp.course ?_⟩
                  rw [Follows, hafter]
                  exact ⟨rfl, rfl, rfl⟩
              | onward next params' =>
                  simp only [hafter] at h
                  obtain ⟨stops, hseen, hcourse⟩ := ih _ _ _ _ h
                  refine ⟨p :: stops, by rw [hseen, List.append_assoc, List.singleton_append],
                    hp.course ?_⟩
                  rw [Follows, hafter]
                  exact hcourse

/-- Along a course there is a walk. -/
theorem Course.watched :
    ∀ {stops : List (Stop σ)} {start : String} {params : Json} {s : σ} (seen : List (Stop σ)),
      Course find start params s stops r s' →
      from? (watched find) (stops.length + 1) start params ⟨s, seen⟩
        = some (r, ⟨s', seen ++ stops⟩) := by
  intro stops
  induction stops with
  | nil =>
      intro start params s seen h
      obtain ⟨hmissing, rfl, rfl⟩ := course_nil_iff.mp h
      rw [watched_succ, hmissing, List.append_nil]
  | cons p stops ih =>
      intro start params s seen h
      have hfollows := h.follows
      obtain ⟨hfind, hrun⟩ := h.trail.happens p (List.mem_cons_self ..)
      obtain ⟨rfl, rfl, rfl⟩ := h.trail.begins p rfl
      rw [watched_succ, hfind]
      simp only [hrun]
      rw [Follows] at hfollows
      cases hafter : after p.station.id p.result with
      | finished o =>
          rw [hafter] at hfollows
          obtain ⟨rfl, rfl, rfl⟩ := hfollows
          rfl
      | aborted e =>
          rw [hafter] at hfollows
          obtain ⟨rfl, rfl, rfl⟩ := hfollows
          rfl
      | onward next params' =>
          rw [hafter] at hfollows
          have hrest := ih (seen ++ [p]) hfollows
          rwa [List.append_assoc, List.singleton_append] at hrest

/-- **How walks end.**  A walk ends with a result just if the blocks that are run one after the
other, each on the output and the state of the one before it, come to that result; and these blocks
are all that is run. -/
theorem from?_iff_course (find : String → Option (Station σ)) (start : String) (params : Json)
    (s s' : σ) (r : Except RunError Output) :
    ((∃ fuel, from? find fuel start params s = some (r, s'))
      ↔ ∃ stops, Course find start params s stops r s') ∧
    ∀ stops, (∃ fuel, from? (watched find) fuel start params ⟨s, []⟩ = some (r, ⟨s', stops⟩))
      ↔ Course find start params s stops r s' := by
  have hseen : ∀ stops,
      (∃ fuel, from? (Walk.watched find) fuel start params ⟨s, []⟩ = some (r, ⟨s', stops⟩))
        ↔ Course find start params s stops r s' := by
    intro stops
    constructor
    · rintro ⟨fuel, h⟩
      obtain ⟨stops', hstops, hcourse⟩ := course_of_watched fuel start params s [] h
      obtain rfl : stops = stops' := hstops
      exact hcourse
    · intro h
      exact ⟨_, h.watched []⟩
  refine ⟨⟨?_, ?_⟩, hseen⟩
  · rintro ⟨fuel, h⟩
    rw [← from?_watched fuel []] at h
    obtain ⟨⟨r', w⟩, hwalk, heq⟩ := Option.map_eq_some_iff.mp h
    obtain ⟨rfl, rfl⟩ := Prod.mk.inj heq
    exact ⟨w.seen, (hseen w.seen).mp ⟨fuel, hwalk⟩⟩
  · rintro ⟨stops, h⟩
    obtain ⟨fuel, hwalk⟩ := (hseen stops).mpr h
    exact ⟨fuel, by rw [← from?_watched fuel [], hwalk]; rfl⟩

end FlowGraph.Walk
