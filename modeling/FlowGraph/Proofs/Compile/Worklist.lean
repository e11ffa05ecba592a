/-
What the list of waiting ids builds.

The list may hold an id twice, ids that lead nowhere and ids of blocks that are built
already, and the graph may be cyclic.  `Frontier` says what holds all the same: built
blocks are reached, waiting ids are reached if they are defined, and whatever a built
block leads to is built or waits.  Once nothing waits, the built blocks are exactly those
that are reached.

A block is built once, so its slots make ids wait once.  The ids that wait, together with
the slots of blocks that are not built, therefore lose one in every round, and the number
of edges is budget enough for all of them.

How a single block is built is left open here.  `gives` and `fails` say what is known of
it, for the blocks that are reached, so the same result serves the graph itself and the
bodies inside of it.
-/
import FlowGraph.Proofs.Compile.Outcome
import FlowGraph.Proofs.Loading

namespace FlowGraph

variable {n : Net} {gives : BlockDef → Block → Prop} {fails : BuildError → Prop}
variable {start id : String} {blocks : BlockMap} {pending : List String}

/-- Exactly the reached blocks are built, and each is as it should be. -/
structure Compiled (n : Net) (gives : BlockDef → Block → Prop) (start : String)
    (blocks : BlockMap) : Prop where
  distinct : (Entries.keys blocks).Nodup
  contains_iff : ∀ id, Entries.contains id blocks = true ↔ n.Reaches start id
  built : ∀ id b, Entries.find? id blocks = some b → ∃ d, n.block? id = some d ∧ gives d b

/-- What holds of the built blocks and the waiting ids in every round. -/
structure Frontier (n : Net) (gives : BlockDef → Block → Prop) (start : String)
    (blocks : BlockMap) (pending : List String) : Prop where
  distinct : (Entries.keys blocks).Nodup
  reached : ∀ id, Entries.contains id blocks = true → n.Reaches start id
  built : ∀ id b, Entries.find? id blocks = some b → ∃ d, n.block? id = some d ∧ gives d b
  waiting : ∀ id ∈ pending, n.Defines id → n.Reaches start id
  begun : n.Defines start → Entries.contains start blocks = true ∨ start ∈ pending
  closed : ∀ id, Entries.contains id blocks = true → ∀ slot next, n.target? id slot = some next →
    n.Defines next → Entries.contains next blocks = true ∨ next ∈ pending

namespace Frontier

theorem init : Frontier n gives start [] [start] where
  distinct := List.nodup_nil
  reached id h := by simp [Entries.contains] at h
  built id b h := by simp at h
  waiting id h hd := by
    rw [List.mem_singleton] at h
    subst h
    exact .start hd
  begun _ := Or.inr (List.mem_singleton.mpr rfl)
  closed id h := by simp [Entries.contains] at h

/-- An id that is built or leads nowhere need not wait. -/
theorem skip (h : Frontier n gives start blocks (id :: pending))
    (hid : Entries.contains id blocks = true ∨ ¬ n.Defines id) :
    Frontier n gives start blocks pending := by
  have settle : ∀ other, n.Defines other →
      Entries.contains other blocks = true ∨ other ∈ id :: pending →
      Entries.contains other blocks = true ∨ other ∈ pending := by
    rintro other hd (hb | hmem)
    · exact Or.inl hb
    · rcases List.mem_cons.mp hmem with rfl | hmem
      · exact Or.inl (hid.resolve_right (not_not_intro hd))
      · exact Or.inr hmem
  exact ⟨h.distinct, h.reached, h.built,
    fun other hmem => h.waiting other (List.mem_cons_of_mem _ hmem),
    fun hd => settle start hd (h.begun hd),
    fun other hb slot next ht hd => settle next hd (h.closed other hb slot next ht hd)⟩

/-- A block that is built makes the targets of its slots wait. -/
theorem add {d : BlockDef} {b : Block} {found : List String}
    (h : Frontier n gives start blocks (id :: pending)) (hnew : Entries.contains id blocks = false)
    (hd : n.block? id = some d) (hb : gives d b)
    (hfound : ∀ t ∈ found, ∃ slot, n.target? id slot = some t)
    (hall : ∀ slot t, n.target? id slot = some t →
      Entries.contains t (Entries.insert id b blocks) = true ∨ t ∈ found) :
    Frontier n gives start (Entries.insert id b blocks) (found ++ pending) := by
  have hreach : n.Reaches start id := h.waiting id (List.mem_cons_self ..) ⟨d, hd⟩
  have grow : ∀ other, Entries.contains other blocks = true ∨ other ∈ id :: pending →
      Entries.contains other (Entries.insert id b blocks) = true ∨ other ∈ found ++ pending := by
    rintro other (hother | hmem)
    · exact Or.inl (by simp [Entries.contains_insert, hother])
    · rcases List.mem_cons.mp hmem with rfl | hmem
      · exact Or.inl (by simp [Entries.contains_insert])
      · exact Or.inr (List.mem_append_right _ hmem)
  refine ⟨?_, ?_, ?_, ?_, fun hs => grow start (h.begun hs), ?_⟩
  · refine (Entries.keys_insert_perm hnew).nodup_iff.mpr (List.nodup_cons.mpr ⟨?_, h.distinct⟩)
    exact fun hmem => absurd (Entries.contains_iff_mem_keys.mpr hmem) (by simp [hnew])
  · intro other hother
    rw [Entries.contains_insert] at hother
    by_cases hid : other = id
    · exact hid ▸ hreach
    · exact h.reached other (by simpa [hid] using hother)
  · intro other b' hb'
    rw [Entries.find?_insert] at hb'
    split at hb'
    · rename_i hid
      simp only [Option.some.injEq] at hb'
      exact ⟨d, hid ▸ hd, hb' ▸ hb⟩
    · exact h.built other b' hb'
  · intro other hmem hdef
    rcases List.mem_append.mp hmem with hnew | hold
    · obtain ⟨slot, ht⟩ := hfound other hnew
      exact hreach.step ht hdef
    · exact h.waiting other (List.mem_cons_of_mem _ hold) hdef
  · intro other hother slot next ht hnext
    rw [Entries.contains_insert] at hother
    by_cases hid : other = id
    · subst hid
      rcases hall slot next ht with hin | hin
      · exact Or.inl hin
      · exact Or.inr (List.mem_append_left _ hin)
    · exact grow next (h.closed other (by simpa [hid] using hother) slot next ht hnext)

/-- When nothing waits any more, everything that is reached is built. -/
theorem done (h : Frontier n gives start blocks []) : Compiled n gives start blocks := by
  refine ⟨h.distinct, fun id => ⟨h.reached id, ?_⟩, h.built⟩
  intro hr
  induction hr with
  | start hd => exact (h.begun hd).resolve_right (by simp)
  | step _ ht hd ih => exact (h.closed _ ih _ _ ht hd).resolve_right (by simp)

end Frontier

/-! ### The budget -/

/-- The number of slots of blocks that are not built. -/
def Wiring.slotsOutside (w : Wiring) (blocks : BlockMap) : Nat :=
  ((w.edges.filter fun e => !Entries.contains e.1 blocks).flatMap Prod.snd).length

theorem Wiring.edgeCount_eq (w : Wiring) : w.edgeCount = w.slotsOutside [] := by
  have hall : ∀ (es : Entries (Entries String)) (k : Nat),
      es.foldl (fun n e => n + e.2.length) k = k + (es.flatMap Prod.snd).length := by
    intro es
    induction es with
    | nil => intro k; rfl
    | cons e rest ih =>
        intro k
        rw [List.foldl_cons, ih, List.flatMap_cons, List.length_append, Nat.add_assoc]
  have hfilter : (w.edges.filter fun e => !Entries.contains e.1 ([] : BlockMap)) = w.edges :=
    List.filter_eq_self.mpr fun e _ => rfl
  rw [slotsOutside, edgeCount, hall, hfilter, Nat.zero_add]

/-- Building a block takes its slots out of those that are outside. -/
theorem Wiring.slotsOutside_insert (w : Wiring) (b : Block)
    (h : Entries.contains id blocks = false) :
    w.slotsOutside (Entries.insert id b blocks) + (w.targets id).length
      ≤ w.slotsOutside blocks := by
  rw [slotsOutside, slotsOutside, targets]
  generalize w.edges = es
  have fewer : ∀ es : Entries (Entries String),
      ((es.filter fun e => !Entries.contains e.1 (Entries.insert id b blocks)).flatMap
          Prod.snd).length
        ≤ ((es.filter fun e => !Entries.contains e.1 blocks).flatMap Prod.snd).length := by
    intro es
    induction es with
    | nil => simp
    | cons e rest ih =>
        rw [List.filter_cons, List.filter_cons, Entries.contains_insert]
        by_cases he : e.1 = id
        · simp [he, h, -List.length_flatMap]
          omega
        · by_cases hc : Entries.contains e.1 blocks = true
          · simpa [he, hc, -List.length_flatMap] using ih
          · simpa [he, hc, -List.length_flatMap] using ih
  induction es with
  | nil => simp
  | cons e rest ih =>
      obtain ⟨k, out⟩ := e
      rw [List.filter_cons, List.filter_cons, Entries.contains_insert, Entries.find?_cons]
      by_cases hk : k = id
      · subst hk
        have := fewer rest
        simp [h, Entries.values, -List.length_flatMap]
        omega
      · by_cases hc : Entries.contains k blocks = true
        · simpa [hk, hc, -List.length_flatMap] using ih
        · simp [hk, hc, -List.length_flatMap]
          omega

/-- The slots of a new block pay for the ids that it makes wait. -/
theorem Wiring.found_length_le (w : Wiring) (b : Block) (h : Entries.contains id blocks = false)
    (pending : List String) :
    (((w.targets id).filter fun t => !Entries.contains t (Entries.insert id b blocks)).reverse
        ++ pending).length + w.slotsOutside (Entries.insert id b blocks)
      ≤ pending.length + w.slotsOutside blocks := by
  have hpay := w.slotsOutside_insert b h
  have hle := List.length_filter_le
    (fun t => !Entries.contains t (Entries.insert id b blocks)) (w.targets id)
  rw [List.length_append, List.length_reverse]
  omega

/-- The number of edges is budget enough to build from a block. -/
theorem Wiring.start_length_lt (w : Wiring) (start : String) :
    [start].length + w.slotsOutside [] < w.edgeCount + 2 := by
  rw [edgeCount_eq, List.length_singleton]
  omega

/-! ### The rounds -/

namespace Compiler

variable {c : Compiler} {child : BodyBuilder}

theorem buildPending_ends (hs : c.wiring.Sound)
    (hbuild : ∀ id d, c.wiring.net.Reaches start id → c.wiring.net.block? id = some d →
      Build.Ends (c.build child d) (gives d) fails) :
    ∀ (fuel : Nat) (blocks : BlockMap) (pending : List String),
      Frontier c.wiring.net gives start blocks pending →
      pending.length + c.wiring.slotsOutside blocks < fuel →
      Build.Ends (c.buildPending child fuel blocks pending)
        (Compiled c.wiring.net gives start) fails := by
  intro fuel
  induction fuel with
  | zero => intro blocks pending _ hlt; omega
  | succ fuel ih =>
      intro blocks pending hf hlt
      cases pending with
      | nil => exact .pure hf.done
      | cons id pending =>
          rw [List.length_cons] at hlt
          rw [buildPending]
          by_cases hc : Entries.contains id blocks = true
          · rw [if_pos hc]
            exact ih _ _ (hf.skip (Or.inl hc)) (by omega)
          · rw [if_neg hc]
            cases hd : Entries.find? id c.wiring.definitions with
            | none =>
                have hundefined : ¬ c.wiring.net.Defines id := by
                  rintro ⟨d, hd'⟩
                  rw [show c.wiring.net.block? id = none from hd] at hd'
                  simp at hd'
                exact .bind (.noted _) fun _ _ => ih _ _ (hf.skip (Or.inr hundefined)) (by omega)
            | some d =>
                have hreach := hf.waiting id (List.mem_cons_self ..) ⟨d, hd⟩
                refine .bind (hbuild id d hreach hd) fun b hb => .bind (.noted _) fun _ _ => ?_
                refine ih _ _ (hf.add (Bool.eq_false_iff.mpr hc) hd hb ?_ ?_) ?_
                · intro t ht
                  rw [List.mem_reverse, List.mem_filter] at ht
                  exact hs.mem_targets.mp ht.1
                · intro slot t ht
                  rw [List.mem_reverse, List.mem_filter]
                  by_cases hin : Entries.contains t (Entries.insert id b blocks) = true
                  · exact Or.inl hin
                  · exact Or.inr ⟨hs.mem_targets.mpr ⟨slot, ht⟩, by simp [hin]⟩
                · have hpay := c.wiring.found_length_le b (Bool.eq_false_iff.mpr hc) pending
                  omega

/-- **Building from a block builds what it reaches and nothing else.** -/
theorem buildFrom_ends (hs : c.wiring.Sound)
    (hbuild : ∀ id d, c.wiring.net.Reaches start id → c.wiring.net.block? id = some d →
      Build.Ends (c.build child d) (gives d) fails) :
    Build.Ends (c.buildFrom child start) (Compiled c.wiring.net gives start) fails :=
  buildPending_ends hs hbuild _ _ _ Frontier.init (c.wiring.start_length_lt start)

end Compiler

end FlowGraph
