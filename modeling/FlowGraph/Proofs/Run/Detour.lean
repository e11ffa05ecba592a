/-
A stop on the way.

An interceptor shows its input to whoever watches and hands it on.  Where nobody watches, it
makes no difference to a walk whether it takes an edge or comes by an interceptor on the way
to the same block.  Nor does it to a body, whose entry may be such an interceptor.

So two graphs run alike if one of them has such a detour and the other has not.  `Place` says
where the two walks may be at the same time: at the same block, or the one at the interceptor
and the other at the block after it.  `Detoured` says it of whole bodies, whichever of the two
has the detour.  That makes it symmetric, and one simulation serves both directions.
-/
import FlowGraph.Proofs.Compile.Detour
import FlowGraph.Proofs.Run.Missing
import FlowGraph.Proofs.Run.Twins

namespace FlowGraph

section Simulation

/-! ### Walks with and without a stop -/

/-- The block with this id is an interceptor that leads goal `goal`. -/
def BlockMap.StopsAt (stop goal : String) (blocks : BlockMap) : Prop :=
  ∃ c, Entries.find? stop blocks = some (.task stop (some goal) (.interceptor c))

/-- Where two walks are at the same time, of which one comes by the interceptor `stop`. -/
inductive Place (stop goal : String) (blocks blocks' : BlockMap) : String → String → Prop
  | same {id : String} (h : id ≠ stop) : Place stop goal blocks blocks' id id
  | left (h : blocks.StopsAt stop goal) : Place stop goal blocks blocks' stop goal
  | right (h : blocks'.StopsAt stop goal) : Place stop goal blocks blocks' goal stop

/-- Pairs of bodies of which one has the detour and the other has not. -/
structure Detoured (stop goal : String) (Pair : String × BlockMap → String × BlockMap → Prop) :
    Prop where
  ne : goal ≠ stop
  entries : ∀ p p', Pair p p' → Place stop goal p.2 p'.2 p.1 p'.1
  blocks : ∀ p p', Pair p p' → ∀ id, id ≠ stop →
    Option.Rel (Block.Twins (Place stop goal p.2 p'.2) Pair)
      (Entries.find? id p.2) (Entries.find? id p'.2)

variable {stop goal : String} {blocks blocks' : BlockMap}
  {Pair : String × BlockMap → String × BlockMap → Prop}

theorem Place.flip {x y : String} (h : Place stop goal blocks blocks' x y) :
    Place stop goal blocks' blocks y x := by
  cases h with
  | same h => exact .same h
  | left h => exact .right h
  | right h => exact .left h

theorem Block.Twins.flip {P P' : String → String → Prop} {b b' : Block}
    (hP : ∀ x y, P x y → P' y x) (h : b.Twins P Pair b') : b'.Twins P' (flip Pair) b := by
  have hrel : ∀ next next', Option.Rel P next next' → Option.Rel P' next' next := by
    rintro _ _ (⟨h⟩ | _)
    · exact .some (hP _ _ h)
    · exact .none
  cases h with
  | task hnext => exact .task (hrel _ _ hnext)
  | branch hs hf => exact .branch (hrel _ _ hs) (hrel _ _ hf)
  | nested hnext hbody =>
      refine .nested (hrel _ _ hnext) ?_
      cases hbody with
      | none => exact .none
      | some h => exact .some h

/-- It does not matter which of the two has the detour. -/
theorem Detoured.flip (h : Detoured stop goal Pair) : Detoured stop goal (flip Pair) where
  ne := h.ne
  entries p p' hp := (h.entries p' p hp).flip
  blocks p p' hp id hid := by
    have hrel := h.blocks p' p hp id hid
    revert hrel
    generalize Entries.find? id p'.2 = found
    generalize Entries.find? id p.2 = found'
    rintro (⟨hb⟩ | _)
    · exact .some (hb.flip fun _ _ => Place.flip)
    · exact .none

variable {δ χ : Type} [Store.Database δ] [Client χ] {a a' last : Context δ χ} {params : Json}
  {r : Except RunError Output}

/-- An interceptor hands its input on, and nothing else happens where nobody watches. -/
theorem execute_stop (stop goal : String) (c : InterceptorConfig) (fuel : Nat) (params : Json)
    (ha : a.Twins a') :
    ∃ mid, (Block.task stop (some goal) (.interceptor c)).execute (fuel + 1) params a'
        = some (.ok (.success (some goal) params), mid) ∧
      a.Twins (Walk.record stop .interceptor (.ok (.success (some goal) params)) mid) := by
  let shown (ctx : Context δ χ) : Context δ χ := { ctx with
    intercepted := ctx.intercepted.map fun seen => seen.push ⟨stop, c.label, params⟩ }
  have hshown : a.Twins (shown (a'.note (.intercepted stop c.label))) := by
    obtain ⟨hnone, journal, rfl⟩ := ha
    refine ⟨hnone, ?_⟩
    simp only [shown, Context.note, hnone, Option.map_none]
    exact ⟨_, rfl⟩
  exact ⟨_, rfl, hshown.notes_right _⟩

/-- A walk that comes to the stop goes on to the block after it. -/
theorem Outset.Ends.of_stop (hstop : blocks'.StopsAt stop goal) (ha : a.Twins a')
    (h : ∀ mid, a.Twins mid →
      ∃ last', Outset.Ends ⟨blocks', goal, params, mid⟩ r last' ∧ last.Twins last') :
    ∃ last', Outset.Ends ⟨blocks', stop, params, a'⟩ r last' ∧ last.Twins last' := by
  obtain ⟨c, hc⟩ := hstop
  obtain ⟨mid, hexec, hmid⟩ := execute_stop stop goal c 0 params ha
  obtain ⟨last', hends, hlast⟩ := h _ hmid
  exact ⟨last', .onward hc ⟨1, hexec⟩ rfl hends, hlast⟩

/-- A walk that ends from the stop ends from the block after it, with a smaller budget. -/
theorem walk_stop {fuel n : Nat} (hstop : blocks.StopsAt stop goal) (ha : a.Twins a')
    (h : BlockMap.walk (Block.execute (fuel + 1)) blocks (n + 1) stop params a = some (r, last)) :
    ∃ mid, mid.Twins a' ∧
      BlockMap.walk (Block.execute (fuel + 1)) blocks n goal params mid = some (r, last) := by
  obtain ⟨c, hc⟩ := hstop
  obtain ⟨mid, hexec, hmid⟩ := execute_stop stop goal c fuel params ha.symm
  obtain ⟨o, last', hr, honward⟩ := BlockMap.walk_found hc h
  obtain ⟨rfl, rfl⟩ := Prod.mk.inj (Option.some.inj (hexec.symm.trans hr))
  exact ⟨_, hmid.symm, honward _ _ rfl⟩

/-! ### The simulation -/

/-- Away from the stop both walks come to blocks that end alike, or both come to none. -/
theorem Detoured.turn (hdetour : Detoured stop goal Pair) {fuel : Nat}
    (hless : ∀ p p', Pair p p' → BlockMap.Followed δ χ fuel p p') {p p' : String × BlockMap}
    (hp : Pair p p') {x : String} (hx : x ≠ stop) (ha : a.Twins a') {b : Block}
    (hb : Entries.find? x p.2 = some b) {r : Except BlockError Output}
    (hr : b.execute (fuel + 1) params a = some (r, last)) :
    ∃ b' r' step last', Entries.find? x p'.2 = some b' ∧ Visit.Ends ⟨b', params, a'⟩ r' last' ∧
      Walk.after b'.id r' = step ∧
      Walk.StepsTwin (Place stop goal p.2 p'.2) (Walk.after b.id r) step ∧ last.Twins last' := by
  have hfound := hdetour.blocks p p' hp x hx
  rw [hb] at hfound
  generalize Entries.find? x p'.2 = found at hfound
  cases hfound with
  | some htwin =>
      obtain ⟨r', last', hends, hsame, hlast⟩ :=
        htwin.executes hless ha (Block.execute_succ_iff.mp hr)
      exact ⟨_, r', _, last', rfl, hends, rfl, htwin.id ▸ hsame.after _, hlast⟩

theorem Detoured.missing (hdetour : Detoured stop goal Pair) {p p' : String × BlockMap}
    (hp : Pair p p') {x : String} (hx : x ≠ stop) (hb : Entries.find? x p.2 = none) :
    Entries.find? x p'.2 = none := by
  have hfound := hdetour.blocks p p' hp x hx
  rw [hb] at hfound
  generalize Entries.find? x p'.2 = found at hfound ⊢
  cases hfound with
  | none => rfl

/-- Bodies with and without the detour end alike, if that goes for smaller budgets. -/
theorem Detoured.walk (hdetour : Detoured stop goal Pair) {fuel : Nat}
    (hless : ∀ p p', Pair p p' → BlockMap.Followed δ χ fuel p p') {p p' : String × BlockMap}
    (hp : Pair p p') {r : Except RunError Output} {last : Context δ χ} :
    ∀ (n : Nat) {x y : String} (params : Json) {a a' : Context δ χ},
      Place stop goal p.2 p'.2 x y → a.Twins a' →
      BlockMap.walk (Block.execute (fuel + 1)) p.2 n x params a = some (r, last) →
      ∃ last', Outset.Ends ⟨p'.2, y, params, a'⟩ r last' ∧ last.Twins last' := by
  intro n
  induction n with
  | zero => intro x y params a a' _ _ h; simp [BlockMap.walk_zero] at h
  | succ n ih =>
      -- A walk without the stop spends no budget on it, so this is needed for `n + 1` itself.
      have hsame : ∀ (x : String) (params : Json) (a a' : Context δ χ), x ≠ stop → a.Twins a' →
          BlockMap.walk (Block.execute (fuel + 1)) p.2 (n + 1) x params a = some (r, last) →
          ∃ last', Outset.Ends ⟨p'.2, x, params, a'⟩ r last' ∧ last.Twins last' := by
        intro x params a a' hx ha h
        rw [BlockMap.walk_succ_iff] at h
        cases h with
        | missing hb => exact ⟨a', .missing (hdetour.missing hp hx hb), ha⟩
        | finished hb hr hafter =>
            obtain ⟨b', r', step, mid', hb', hr', hafter', hstep, hmid⟩ :=
              hdetour.turn hless hp hx ha hb hr
            rw [hafter] at hstep
            cases hstep with
            | finished => exact ⟨_, .finished hb' hr' hafter', hmid.record ..⟩
        | aborted hb hr hafter =>
            obtain ⟨b', r', step, mid', hb', hr', hafter', hstep, hmid⟩ :=
              hdetour.turn hless hp hx ha hb hr
            rw [hafter] at hstep
            cases hstep with
            | aborted => exact ⟨_, .aborted hb' hr' hafter', hmid.record ..⟩
        | onward hb hr hafter h =>
            obtain ⟨b', r', step, mid', hb', hr', hafter', hstep, hmid⟩ :=
              hdetour.turn hless hp hx ha hb hr
            rw [hafter] at hstep
            cases hstep with
            | onward _ hplace =>
                obtain ⟨last', hends, hlast⟩ := ih _ hplace (hmid.record ..) h
                exact ⟨last', .onward hb' hr' hafter' hends, hlast⟩
      intro x y params a a' hplace ha h
      cases hplace with
      | same hx => exact hsame x params a a' hx ha h
      | left hstop =>
          obtain ⟨mid, hmid, h⟩ := walk_stop hstop ha h
          exact ih params (.same hdetour.ne) hmid h
      | right hstop =>
          exact Outset.Ends.of_stop hstop ha fun mid hmid =>
            hsame goal params a mid hdetour.ne hmid h

/-- **Bodies with and without the detour end alike**, whichever of the two has it. -/
theorem Detoured.followed (hdetour : Detoured stop goal Pair) :
    ∀ (fuel : Nat) (p p' : String × BlockMap), Pair p p' → BlockMap.Followed δ χ fuel p p' := by
  intro fuel
  induction fuel with
  | zero => intro p p' _ params a a' r last _ h; simp [BlockMap.run, BlockMap.walk_zero] at h
  | succ fuel ih =>
      intro p p' hp params a a' r last ha h
      exact hdetour.walk ih hp (fuel + 1) params (hdetour.entries p p' hp) ha h

end Simulation

/-! ### Compiled graphs -/

/-- What corresponds in one way does so in another one, if that goes for the values that there
are. -/
theorem rel_of_map {α β γ γ' : Type} {f : α → γ} {f' : β → γ'} {R : γ → γ' → Prop}
    {S : α → β → Prop} {o : Option α} {o' : Option β} (h : Option.Rel R (o.map f) (o'.map f'))
    (hS : ∀ x x', o = some x → o' = some x' → R (f x) (f' x') → S x x') : Option.Rel S o o' := by
  cases o with
  | none =>
      cases o' with
      | none => exact .none
      | some x' => exact nomatch h
  | some x =>
      cases o' with
      | none => exact nomatch h
      | some x' =>
          cases h with
          | some h => exact .some (hS x x' rfl rfl h)

namespace Block

variable {P : String → String → Prop} {B : String × BlockMap → String × BlockMap → Prop}
  {target target' : String → Option String}

/-- A block is put together from its settings. -/
theorem eq_ofSettings (b : Block) (h : b.WiredTo target) :
    b = ofSettings b.id target b.body? b.kind b.settings := by
  cases b with
  | task id next t =>
      obtain rfl := h
      cases t with
      | store action c => cases action <;> rfl
      | read part c => cases part <;> rfl
      | _ => rfl
  | branch id c onSuccess onFailure =>
      obtain ⟨rfl, rfl⟩ := h
      rfl
  | nested id next frame body =>
      obtain rfl := h
      cases frame <;> rfl

theorem Realizes.eq_ofSettings {b : Block} {d : BlockDef} (h : b.Realizes d target) :
    ∃ s, Json.readValue d.kind.reads d.told = .ok s ∧
      b = ofSettings d.id target b.body? d.kind s := by
  obtain ⟨hid, hkind, hsettings, hwired⟩ := h
  rw [← hkind, ← hid]
  exact ⟨b.settings, hsettings, b.eq_ofSettings hwired⟩

theorem ofSettings_twins {body body' : Option (String × BlockMap)} (id : String) (k : Kind)
    (s : k.Settings) (htarget : ∀ slot, Option.Rel P (target slot) (target' slot))
    (hbody : Option.Rel B body body') :
    (ofSettings id target body k s).Twins P B (ofSettings id target' body' k s) := by
  cases k with
  | branch => exact .branch (htarget _) (htarget _)
  | count | each | transaction => exact .nested (htarget _) hbody
  | _ => exact .task (htarget _)

/-- Blocks with one definition are twins, if their slots and bodies correspond. -/
theorem Realizes.twins {b b' : Block} {d : BlockDef} (h : b.Realizes d target)
    (h' : b'.Realizes d target') (htarget : ∀ slot, Option.Rel P (target slot) (target' slot))
    (hbody : Option.Rel B b.body? b'.body?) : b.Twins P B b' := by
  obtain ⟨s, hs, hb⟩ := h.eq_ofSettings
  obtain ⟨s', hs', hb'⟩ := h'.eq_ofSettings
  obtain rfl := Except.ok.inj (hs.symm.trans hs')
  rw [hb, hb']
  exact ofSettings_twins d.id d.kind s htarget hbody

theorem eq_of_interceptor {b : Block} (h : b.kind = .interceptor) :
    ∃ next c, b = .task b.id next (.interceptor c) := by
  cases b with
  | task id next t =>
      cases t with
      | interceptor c => exact ⟨next, c, rfl⟩
      | store action c => cases action <;> exact nomatch h
      | read part c => cases part <;> exact nomatch h
      | _ => exact nomatch h
  | branch => exact nomatch h
  | nested id next frame body => cases frame <;> exact nomatch h

end Block

/-- Bodies that were compiled with and without the detour, from starts that correspond. -/
structure Compiler.Abreast (c c' : Compiler) (stop goal : String) (p p' : String × BlockMap) :
    Prop where
  entries : Net.Via stop goal p.1 p'.1
  layered : c.Layered p.1 p.2
  layered' : c'.Layered p'.1 p'.2

section Compiled

variable {c c' : Compiler} {stop goal : String} {p p' : String × BlockMap}

/-- The new block is compiled wherever something leads to it. -/
theorem Net.Detour.stopsAt (hd : c.wiring.net.Detour c'.wiring.net stop goal)
    (hs : c'.wiring.Sound) {start : String} {blocks : BlockMap} (h : c'.Layered start blocks)
    (hreach : c'.wiring.net.Reaches start stop) : blocks.StopsAt stop goal := by
  have hcompiled := h start blocks .self
  obtain ⟨b, hb⟩ := Entries.contains_iff.mp ((hcompiled.contains_iff stop).mpr hreach)
  obtain ⟨d, -, hdef, hrealizes⟩ := Compiler.Layered.realizes hs .self h hb
  obtain ⟨d', hdef', hkind⟩ := hd.defined
  obtain rfl := Option.some.inj (hdef'.symm.trans hdef)
  obtain ⟨next, conf, hblock⟩ := Block.eq_of_interceptor (hrealizes.kind.trans hkind)
  have hid : b.id = stop := hrealizes.id.trans (hs.ids stop _ hdef)
  have hwired := hrealizes.wired
  rw [hblock] at hwired
  have hnext : next = some goal := hwired.trans ((hd.leads _ _).mpr ⟨rfl, rfl⟩)
  rw [hnext, hid] at hblock
  exact ⟨conf, hblock ▸ hb⟩

theorem Net.Detour.place (hd : c.wiring.net.Detour c'.wiring.net stop goal)
    (hs : c'.wiring.Sound) (h : c.Abreast c' stop goal p p') {x x' : String}
    (hvia : Net.Via stop goal x x')
    (hreach : c'.wiring.net.Defines x' → c'.wiring.net.Reaches p'.1 x') :
    Place stop goal p.2 p'.2 x x' := by
  cases hvia with
  | same hx => exact .same hx
  | stop =>
      obtain ⟨d, hstop, -⟩ := hd.defined
      exact .right (hd.stopsAt hs h.layered' (hreach ⟨d, hstop⟩))

/-- Blocks that were built on both sides from one definition are twins. -/
theorem Net.Detour.twins (hd : c.wiring.net.Detour c'.wiring.net stop goal)
    (hs : c.wiring.Sound) (hs' : c'.wiring.Sound) (h : c.Abreast c' stop goal p p') {id : String}
    (hid : id ≠ stop) {b b' : Block} (hb : Entries.find? id p.2 = some b)
    (hb' : Entries.find? id p'.2 = some b') :
    b.Twins (Place stop goal p.2 p'.2) (c.Abreast c' stop goal) b' := by
  have hcompiled' := h.layered' _ _ .self
  have hreach := (hcompiled'.contains_iff id).mp (Entries.contains_of_find? hb')
  obtain ⟨d, hdef, hbuilds⟩ := (h.layered _ _ .self).built id b hb
  obtain ⟨d', hdef', hbuilds'⟩ := hcompiled'.built id b' hb'
  rw [hd.blocks id hid, hdef] at hdef'
  obtain rfl := Option.some.inj hdef'
  have hname : d.id = id := hs.ids id d hdef
  refine hbuilds.realizes.twins hbuilds'.realizes (fun slot => ?_) ?_
  · rw [hname]
    have htargets : Option.Rel (Via stop goal) ((c.wiring.net.target? id slot).map fun x => x)
        ((c'.wiring.net.target? id slot).map fun x => x) := by
      simpa only [Option.map_id'] using hd.targets id slot hid
    refine rel_of_map htargets fun x x' _ ht' hvia => ?_
    exact hd.place hs' h hvia fun hdef => hreach.step ht' hdef
  · have hentries : Option.Rel (Via stop goal) (b.body?.map Prod.fst) (b'.body?.map Prod.fst) := by
      rw [hbuilds.entry, hbuilds'.entry, Compiler.bodyEntry, Compiler.bodyEntry, hname]
      split
      · exact hd.targets id Slot.executor hid
      · exact .none
    exact rel_of_map hentries fun inner inner' hbody hbody' hvia =>
      ⟨hvia, h.layered.body hb hbody, h.layered'.body hb' hbody'⟩

/-- **Bodies that were compiled with and without the detour differ by the detour only.** -/
theorem Net.Detour.detoured (hd : c.wiring.net.Detour c'.wiring.net stop goal)
    (hs : c.wiring.Sound) (hs' : c'.wiring.Sound) :
    Detoured stop goal (c.Abreast c' stop goal) where
  ne := hd.ne
  entries p p' h := hd.place hs' h h.entries .start
  blocks p p' h id hid := by
    have hsame : Entries.contains id p'.2 = Entries.contains id p.2 := by
      rw [Bool.eq_iff_iff, (h.layered _ _ .self).contains_iff, (h.layered' _ _ .self).contains_iff,
        hd.reaches_iff h.entries hid]
    cases hb : Entries.find? id p.2 with
    | none =>
        rw [Entries.not_contains_iff.mpr hb] at hsame
        rw [Entries.not_contains_iff.mp hsame]
        exact .none
    | some b =>
        rw [Entries.contains_of_find? hb] at hsame
        obtain ⟨b', hb'⟩ := Entries.contains_iff.mp hsame
        rw [hb']
        exact .some (hd.twins hs hs' h hid hb hb')

end Compiled

/-! ### Runs -/

namespace Program

/-- Where there is no interceptor, whatever a run of the one program ends with, a run of the other
one ends with, and it leaves everything behind in the same state but the journal. -/
def Followed (p p' : Program) : Prop :=
  ∀ (δ χ : Type) [Store.Database δ] [Client χ] (fuel : Nat) (params : Json) (ctx last : Context δ χ)
    (r : Except RunError Output), ctx.intercepted = none → p.run fuel params ctx = some (r, last) →
    ∃ fuel' last', p'.run fuel' params ctx = some (r, last') ∧ last.Twins last'

theorem followed_of_blocks {p p' : Program}
    (h : ∀ (δ χ : Type) [Store.Database δ] [Client χ] (fuel : Nat),
      BlockMap.Followed δ χ fuel (p.entrypoint, p.blocks) (p'.entrypoint, p'.blocks)) :
    p.Followed p' := by
  intro δ χ _ _ fuel params ctx last r hnone hrun
  obtain ⟨left, hwalk, rfl⟩ := run_iff.mp hrun
  have hset : (p.outset params ctx).ctx.Twins (p'.outset params ctx).ctx := ⟨hnone, _, rfl⟩
  obtain ⟨left', ⟨fuel', hwalk'⟩, hnone', journal, rfl⟩ := h δ χ fuel params _ _ r left hset hwalk
  exact ⟨fuel', _, run_iff.mpr ⟨_, hwalk', rfl⟩, hnone', _, rfl⟩

/-- **An interceptor on an edge makes no difference where there is no interception.**  If an edge
of a graph that compiles is led over a new interceptor, the graph compiles as well, and both end
their runs alike.  The edge may be one of a body, of a cycle, or lead to no block. -/
theorem run_detour {g g' : Graph} {e onward : EdgeDef} {b : BlockDef}
    (h : g.Detour g' e onward b) {validate : Bool} (hb : b.Accepted validate)
    {from? : Option String} {log : BuildLog} {p : Program}
    (hp : Build.result (compileGraph g validate from?) log = .ok p) (log' : BuildLog) :
    ∃ p', Build.result (compileGraph g' validate from?) log' = .ok p' ∧
      p.Followed p' ∧ p'.Followed p := by
  obtain ⟨w, w', start, p', hs, hs', hd, hp', hfrom, hfrom'⟩ := h.compiles hb hp log'
  have hpair : Compiler.Abreast ⟨w, validate⟩ ⟨w', validate⟩ b.id e.target
      (p.entrypoint, p.blocks) (p'.entrypoint, p'.blocks) := by
    rw [hfrom.entrypoint, hfrom'.entrypoint]
    exact ⟨hd.via_of_defines hfrom.defines, hfrom.layered, hfrom'.layered⟩
  have hdetour : Detoured b.id e.target
      (Compiler.Abreast ⟨w, validate⟩ ⟨w', validate⟩ b.id e.target) := Net.Detour.detoured hd hs hs'
  exact ⟨p', hp', followed_of_blocks fun δ χ _ _ fuel => hdetour.followed fuel _ _ hpair,
    followed_of_blocks fun δ χ _ _ fuel => hdetour.flip.followed fuel _ _ hpair⟩

end Program

/-- A graph with a loop, whose body leads into nothing. -/
def Graph.looping : Graph :=
  (((((Graph.empty.addBlock "in" .entrypoint .null).addBlock "loop" .each
    (.obj [("values", .arr [.null, .bool true])])).addBlock "show" .logger .null).link
    "in" "loop").link "show" "ghost").addEdge "loop" "show" Slot.executor

/-- The program that it compiles to. -/
def Program.looping : Program :=
  ⟨[("in", .task "in" (some "loop") .entrypoint),
    ("loop", .nested "loop" none (.each ⟨.arr [.null, .bool true], false⟩)
      (some ("show", [("show", .task "show" (some "ghost") (.logger ⟨none, .info⟩))]))),
    ("show", .task "show" (some "ghost") (.logger ⟨none, .info⟩))], "in"⟩

/-- The edge that leads into its body. -/
def EdgeDef.looping : EdgeDef := ⟨"loop-executor-show", "loop", "show", none, Slot.executor⟩

/-- The edge from the interceptor to the body. -/
def EdgeDef.hooked : EdgeDef := ⟨"hook-source-show", "hook", "show", none, Slot.source⟩

def BlockDef.hook : BlockDef := ⟨"hook", .interceptor, .null, none⟩

/-- The same graph with an interceptor at the start of the body. -/
def Graph.hooked : Graph :=
  ⟨Graph.looping.blocks ++ [.hook],
    (Graph.looping.edges.take 2 ++ [{ EdgeDef.looping with target := "hook" }]) ++ [.hooked]⟩

theorem Program.run_detour_looping :
    Graph.looping.Detour .hooked .looping .hooked .hook ∧
      BlockDef.hook.Accepted true ∧
      Build.result (compileGraph .looping true none) {} = .ok .looping ∧
      ∃ p', Build.result (compileGraph .hooked true none) {} = .ok p' ∧
        Program.looping.Followed p' ∧ p'.Followed .looping ∧
        ∃ fuel last, p'.run fuel .null Context.bodiless
          = some (.error (.raised "loop" (.run (.blockNotFound "ghost"))), last) := by
  have hdetour : Graph.looping.Detour .hooked .looping .hooked .hook :=
    ⟨rfl, List.perm_append_singleton _ _, ⟨_, [], rfl, _, [], rfl, rfl⟩, ⟨rfl, rfl⟩, rfl, by decide⟩
  have haccepted : BlockDef.hook.Accepted true := ⟨_, rfl, fun _ => rfl⟩
  have hcompiled : Build.result (compileGraph .looping true none) {} = .ok .looping := rfl
  have hrun : ∃ last, Program.looping.run 3 .null Context.bodiless
      = some (.error (.raised "loop" (.run (.blockNotFound "ghost"))), last) := ⟨_, rfl⟩
  obtain ⟨p', hcompiled', hthere, hback⟩ := Program.run_detour hdetour haccepted hcompiled {}
  obtain ⟨last, hlast⟩ := hrun
  obtain ⟨fuel, last', hlast', -⟩ := hthere _ _ _ _ _ _ _ rfl hlast
  exact ⟨hdetour, haccepted, hcompiled, p', hcompiled', hthere, hback, fuel, last', hlast'⟩

end FlowGraph
