/-
What scripts cannot change.

A script starts with constants: one for every variable whose name is an identifier, and `vars` for
all of them.  It may hide them behind names of its own, move them into cells by capturing them, and
lose sight of them in functions, but the slots of the constants stay at the bottom of the script's
own variables, each with its value or with a cell that holds the value as a constant
(`Constants.Stands`).  Every action keeps that, so it holds at every point of an evaluation.

Where such a name is in sight it is read as what it was bound to, and to assign to it, or to
something in it, is a fault.
-/
import FlowGraph.Proofs.Entries
import FlowGraph.Proofs.Script.Budgets

namespace FlowGraph.Script

variable {α β : Type}

/-! ### Slots -/

namespace Machine

variable {name x : String} {v : Val} {s : Slot} {slots above base : List Slot}

theorem findSlot_of_mem (hnames : (slots.map Slot.name).Nodup) (h : s ∈ slots) :
    findSlot s.name slots = some s := by
  induction slots with
  | nil => cases h
  | cons t rest ih =>
      obtain ⟨hfresh, hrest⟩ := List.nodup_cons.mp hnames
      rw [findSlot]
      rcases List.mem_cons.mp h with rfl | h
      · rw [if_pos rfl]
      · have hne : ¬ t.name = s.name := fun heq => hfresh (heq ▸ List.mem_map_of_mem h)
        rw [if_neg hne]
        exact ih hrest h

theorem findSlot_append : findSlot name (above ++ base) =
    (findSlot name above).or (findSlot name base) := by
  induction above with
  | nil => rfl
  | cons t rest ih =>
      rw [List.cons_append, findSlot, findSlot]
      split
      · rfl
      · exact ih

theorem findSlot_eq_none (h : ∀ s ∈ slots, s.name ≠ name) : findSlot name slots = none := by
  induction slots with
  | nil => rfl
  | cons t rest ih =>
      obtain ⟨ht, hrest⟩ := List.forall_mem_cons.mp h
      rw [findSlot, if_neg ht]
      exact ih hrest

theorem length_replaceSlot (name : String) (v : Val) (slots : List Slot) :
    (replaceSlot name v slots).length = slots.length := by
  induction slots with
  | nil => rfl
  | cons t rest ih =>
      rw [replaceSlot]
      split
      · rfl
      · exact congrArg Nat.succ ih

theorem findSlot_replaceSlot (h : findSlot name slots = some s) :
    findSlot name (replaceSlot name v slots) = some { s with value := v } := by
  induction slots with
  | nil => cases h
  | cons t rest ih =>
      rw [findSlot] at h
      rw [replaceSlot]
      split at h
      · rename_i hname
        obtain rfl := Option.some.inj h
        rw [if_pos hname]
        exact if_pos hname
      · rename_i hname
        rw [if_neg hname, findSlot, if_neg hname]
        exact ih h

theorem replaceSlot_append_of_some (h : findSlot name above = some s) :
    replaceSlot name v (above ++ base) = replaceSlot name v above ++ base := by
  induction above with
  | nil => cases h
  | cons t rest ih =>
      rw [findSlot] at h
      rw [List.cons_append, replaceSlot, replaceSlot]
      split
      · rfl
      · rename_i hne
        rw [if_neg hne] at h
        rw [ih h, List.cons_append]

theorem replaceSlot_append_of_none (h : findSlot name above = none) :
    replaceSlot name v (above ++ base) = above ++ replaceSlot name v base := by
  induction above with
  | nil => rfl
  | cons t rest ih =>
      rw [findSlot] at h
      split at h
      · cases h
      · rename_i hne
        rw [List.cons_append, replaceSlot, if_neg hne, ih h, List.cons_append]

end Machine

theorem Val.ofJson_ne_shared (j : Json) (c : Nat) : Val.ofJson j ≠ .shared c := by
  intro h
  cases j with
  | number n =>
      rw [Val.ofJson] at h
      cases n with
      | int i =>
          rw [ofNumber] at h
          split at h <;> cases h
      | float x => cases h
  | _ => cases h

/-! ### The constants of a script -/

/-- The slot is that of the constant: its value is there, or in a cell that holds a constant. -/
structure Slot.Keeps (cells : Array Cell) (s constant : Slot) : Prop where
  name : s.name = constant.name
  fixed : s.constant = true
  value : s.value = constant.value ∨
    ∃ c, s.value = .shared c ∧ cells[c]? = some ⟨constant.value, true⟩

/-- The constants stand at the bottom of the script's own variables. -/
def Stands (constants : List Slot) (place : Place) (m : Machine) : Prop :=
  ∃ above base, place.outermost m = above ++ base ∧
    List.Forall₂ (Slot.Keeps m.cells) base constants

/-- The name is in sight and not hidden by a name that the script has introduced.  Outside of
functions this means that there is no such name above the constants.  A function sees what it has
captured: the slot of the name shares its cell with the constant. -/
def Shows (constants : List Slot) (place : Place) (m : Machine) (x : String) : Prop :=
  match place with
  | none => ∀ s ∈ m.slots.take (m.slots.length - constants.length), s.name ≠ x
  | some outer =>
    ∃ s t c, Machine.findSlot x m.slots = some s ∧ s.value = .shared c ∧
      Machine.findSlot x (outer.drop (outer.length - constants.length)) = some t ∧
      t.value = .shared c

/-- What the constant cells hold, they still hold. -/
def Holding (cells cells' : Array Cell) : Prop :=
  ∀ (c : Nat) (v : Val), cells[c]? = some ⟨v, true⟩ → cells'[c]? = some ⟨v, true⟩

theorem Slot.Keeps.mono {cells cells' : Array Cell} {s b : Slot} (h : s.Keeps cells b)
    (hcells : Holding cells cells') : s.Keeps cells' b :=
  ⟨h.name, h.fixed, h.value.imp_right fun ⟨c, hc, hcell⟩ => ⟨c, hc, hcells c _ hcell⟩⟩

theorem holding_modify (cells : Array Cell) (c : Nat) (v : Val) :
    Holding cells (cells.modify c (Cell.put v)) := by
  intro d w hd
  rw [Array.getElem?_modify, hd]
  split <;> rfl

theorem holding_push (cells : Array Cell) (cell : Cell) : Holding cells (cells.push cell) := by
  intro d w hd
  obtain ⟨hlt, -⟩ := Array.getElem?_eq_some_iff.mp hd
  rw [Array.getElem?_push_lt hlt, ← Array.getElem?_eq_getElem hlt, hd]

namespace Stands

variable {constants above base : List Slot} {place : Place} {m m' : Machine} {name x : String}
  {v : Val} {s b : Slot}

/-- What leaves the script's own variables and the constant cells alone. -/
theorem of_same (h : Stands constants place m) (hslots : place.outermost m' = place.outermost m)
    (hcells : Holding m.cells m'.cells) : Stands constants place m' := by
  obtain ⟨above, base, hsplit, hbase⟩ := h
  exact ⟨above, base, hslots.trans hsplit, hbase.imp fun _ _ hs => hs.mono hcells⟩

/-- In a function the script's own variables stand by. -/
theorem of_inside {outer : List Slot} (h : Stands constants (some outer) m)
    (hcells : Holding m.cells m'.cells) : Stands constants (some outer) m' :=
  h.of_same rfl hcells

theorem declare (h : Stands constants place m) (constant : Bool) :
    Stands constants place (m.declare name v constant) := by
  cases place with
  | some outer => exact h.of_inside fun _ _ => id
  | none =>
      obtain ⟨above, base, hsplit, hbase⟩ := h
      exact ⟨⟨name, v, constant⟩ :: above, base, congrArg _ hsplit, hbase⟩

/-- Among the slots that stand a name is found where it is found among the constants. -/
theorem findSlot_rel {cells : Array Cell} (hbase : List.Forall₂ (Slot.Keeps cells) base constants)
    (x : String) : Option.Rel (Slot.Keeps cells) (Machine.findSlot x base)
      (Machine.findSlot x constants) := by
  induction hbase with
  | nil => exact .none
  | cons hhead _ ih =>
      rw [Machine.findSlot, Machine.findSlot, hhead.name]
      split
      · exact .some hhead
      · exact ih

theorem fixed_of_findSlot {cells : Array Cell}
    (hbase : List.Forall₂ (Slot.Keeps cells) base constants)
    (hs : Machine.findSlot x base = some s) : s.constant = true := by
  have hrel := findSlot_rel hbase x
  rw [hs] at hrel
  generalize Machine.findSlot x constants = found at hrel
  cases hrel with
  | some hkeeps => exact hkeeps.fixed

/-- Each constant has its slot among those that stand. -/
theorem exists_keeps {cells : Array Cell} (hbase : List.Forall₂ (Slot.Keeps cells) base constants)
    (hb : Machine.findSlot x constants = some b) :
    ∃ s, Machine.findSlot x base = some s ∧ s.Keeps cells b := by
  have hrel := findSlot_rel hbase x
  rw [hb] at hrel
  generalize Machine.findSlot x base = found at hrel
  cases hrel with
  | some hkeeps => exact ⟨_, rfl, hkeeps⟩

theorem write (h : Stands constants place m) : Stands constants place (m.write name v) := by
  rw [Machine.write]
  split
  · exact h
  · rename_i s hs
    split
    · exact h.of_same (by cases place <;> rfl) (holding_modify _ _ v)
    · split
      · exact h
      · rename_i hfree
        cases place with
        | some outer => exact h.of_inside fun _ _ => id
        | none =>
            obtain ⟨above, base, hsplit, hbase⟩ := h
            have hslots : m.slots = above ++ base := hsplit
            cases habove : Machine.findSlot name above with
            | some t =>
                refine ⟨Machine.replaceSlot name v above, base, ?_, hbase⟩
                show Machine.replaceSlot name v m.slots = _
                rw [hslots, Machine.replaceSlot_append_of_some habove]
            | none =>
                rw [hslots, Machine.findSlot_append, habove, Option.none_or] at hs
                exact absurd (fixed_of_findSlot hbase hs) hfree

/-- A constant that moves into a cell stands. -/
theorem keeps_replaceSlot {cells cells' : Array Cell} {c : Nat}
    (hbase : List.Forall₂ (Slot.Keeps cells) base constants) (hcells : Holding cells cells')
    (hs : Machine.findSlot name base = some s)
    (hc : ∀ b, s.Keeps cells b → cells'[c]? = some ⟨b.value, true⟩) :
    List.Forall₂ (Slot.Keeps cells') (Machine.replaceSlot name (.shared c) base) constants := by
  induction hbase with
  | nil => cases hs
  | cons hhead hrest ih =>
      rw [Machine.findSlot] at hs
      rw [Machine.replaceSlot]
      split at hs
      · obtain rfl := Option.some.inj hs
        rw [if_pos ‹_›]
        exact .cons ⟨hhead.name, hhead.fixed, .inr ⟨c, rfl, hc _ hhead⟩⟩
          (hrest.imp fun _ _ h => h.mono hcells)
      · rw [if_neg ‹_›]
        exact .cons (hhead.mono hcells) (ih hs)

theorem share (h : Stands constants place m) : (m.share name).All (Stands constants place) := by
  rw [Machine.share]
  split
  · exact h
  · rename_i s hs
    split
    · exact h
    · rename_i hplain
      have hcells := holding_push m.cells ⟨s.value, s.constant⟩
      cases place with
      | some outer => exact h.of_inside hcells
      | none =>
          obtain ⟨above, base, hsplit, hbase⟩ := h
          have hslots : m.slots = above ++ base := hsplit
          cases habove : Machine.findSlot name above with
          | some t =>
              refine ⟨Machine.replaceSlot name (.shared m.cells.size) above, base, ?_,
                hbase.imp fun _ _ hs => hs.mono hcells⟩
              show Machine.replaceSlot name _ m.slots = _
              rw [hslots, Machine.replaceSlot_append_of_some habove]
          | none =>
              rw [hslots, Machine.findSlot_append, habove, Option.none_or] at hs
              refine ⟨above, Machine.replaceSlot name (.shared m.cells.size) base, ?_,
                keeps_replaceSlot hbase hcells hs fun b hkeeps => ?_⟩
              · show Machine.replaceSlot name _ m.slots = _
                rw [hslots, Machine.replaceSlot_append_of_none habove]
              · have hvalue : s.value = b.value := hkeeps.value.resolve_right
                  fun ⟨c, hc, _⟩ => hplain c hc
                rw [Array.getElem?_push_size, hvalue, hkeeps.fixed]

/-- The variables that are dropped were added to those that stand. -/
theorem dropTo (h : Stands constants place m) (h' : Stands constants place m') :
    Stands constants place (m'.dropTo m.slots.length) := by
  cases place with
  | some outer => exact h'.of_inside fun _ _ => id
  | none =>
      obtain ⟨above, base, hsplit, hbase⟩ := h
      obtain ⟨above', base', hsplit', hbase'⟩ := h'
      have hslots : m.slots = above ++ base := hsplit
      have hslots' : m'.slots = above' ++ base' := hsplit'
      have hlength : base'.length = base.length := hbase'.length_eq.trans hbase.length_eq.symm
      refine ⟨above'.drop (m'.slots.length - m.slots.length), base', ?_, hbase'⟩
      show m'.slots.drop (m'.slots.length - m.slots.length) = _
      rw [hslots', hslots, ← List.drop_append_of_le_length]
      simp only [List.length_append]
      omega

/-- **The constants stand at every point.** -/
theorem lasting (constants : List Slot) : Lasting (Stands constants) where
  act a place m h := by
    cases a with
    | look => exact h
    | count limit =>
        rw [Action.run, Machine.count]
        split <;> exact h.of_same (by cases place <;> rfl) fun _ _ => id
    | read name =>
        rw [Action.run, Machine.read]
        split
        · exact h
        · split <;> exact h
    | write name v => exact h.write
    | declare name v constant => exact h.declare constant
    | share name => exact h.share
  drop := dropTo
  enter _ h := h
  leave _ h' := h'

end Stands

/-! ### Reading -/

section Reading

variable {constants base outer : List Slot} {place : Place} {m : Machine} {x : String} {s b : Slot}

theorem lookup?_shared {c : Nat} {cell : Cell} (hs : Machine.findSlot x m.slots = some s)
    (hvalue : s.value = .shared c) (hcell : m.cells[c]? = some cell) :
    m.lookup? x = some (cell.value, cell.constant) := by
  simp only [Machine.lookup?, hs, hvalue, hcell]

theorem lookup?_of_keeps (hs : Machine.findSlot x m.slots = some s) (hkeeps : s.Keeps m.cells b)
    (hplain : ∀ c, b.value ≠ .shared c) : m.lookup? x = some (b.value, true) := by
  rcases hkeeps.value with hvalue | ⟨c, hvalue, hcell⟩
  · simp only [Machine.lookup?, hs]
    split
    · rename_i c hshared
      exact absurd (hvalue.symm.trans hshared) (hplain c)
    · rw [hvalue, hkeeps.fixed]
  · exact lookup?_shared hs hvalue hcell

/-- Outside of functions a name that is in sight is found among the slots that stand. -/
theorem Stands.exists_split (h : Stands constants none m) (hshows : Shows constants none m x) :
    ∃ above base, m.slots = above ++ base ∧ List.Forall₂ (Slot.Keeps m.cells) base constants ∧
      m.slots.length - constants.length = above.length ∧ Machine.findSlot x above = none := by
  obtain ⟨above, base, hsplit, hbase⟩ := h
  have hslots : m.slots = above ++ base := hsplit
  have hlength : m.slots.length - constants.length = above.length := by
    rw [hslots, List.length_append, hbase.length_eq]
    omega
  rw [Shows, hlength, hslots, List.take_left] at hshows
  exact ⟨above, base, hslots, hbase, hlength, Machine.findSlot_eq_none hshows⟩

/-- **A name that is in sight is what it was bound to**, and is a constant. -/
theorem Stands.lookup? (h : Stands constants place m) (hshows : Shows constants place m x)
    (hb : Machine.findSlot x constants = some b) (hplain : ∀ c, b.value ≠ .shared c) :
    m.lookup? x = some (b.value, true) := by
  cases place with
  | none =>
      obtain ⟨above, base, hslots, hbase, -, hunseen⟩ := h.exists_split hshows
      obtain ⟨s, hs, hkeeps⟩ := Stands.exists_keeps hbase hb
      refine lookup?_of_keeps ?_ hkeeps hplain
      rw [hslots, Machine.findSlot_append, hunseen, Option.none_or, hs]
  | some outer =>
      obtain ⟨above, base, hsplit, hbase⟩ := h
      obtain ⟨s, hs, hkeeps⟩ := Stands.exists_keeps hbase hb
      have houter : outer = above ++ base := hsplit
      have hlength : outer.length - constants.length = above.length := by
        rw [houter, List.length_append, hbase.length_eq]
        omega
      obtain ⟨t, t', c, ht, hvalue, ht', hvalue'⟩ := hshows
      rw [hlength, houter, List.drop_left] at ht'
      obtain rfl := Option.some.inj (hs.symm.trans ht')
      rcases hkeeps.value with hplace | ⟨d, hd, hcell⟩
      · exact absurd (hplace.symm.trans hvalue') (hplain c)
      · obtain rfl := Val.shared.inj (hd.symm.trans hvalue')
        exact lookup?_shared ht hvalue hcell

/-- **A function that has captured a name sees it.**  The name is in sight where it is captured, and
the function is entered with the cell in a slot of that name. -/
theorem Stands.shows_captured (h : Stands constants place m) (hshows : Shows constants place m x)
    (hb : Machine.findSlot x constants = some b) {w : Val} {m' : Machine}
    (hshare : m.share x = .value w m') {slots : List Slot} {s : Slot}
    (hs : Machine.findSlot x slots = some s) (hw : s.value = w) :
    Shows constants (place.inside m') { m' with slots := slots } x := by
  cases place with
  | some outer =>
      obtain ⟨t, t', c, ht, hvalue, ht', hvalue'⟩ := hshows
      simp only [Machine.share, ht, hvalue] at hshare
      obtain ⟨rfl, rfl⟩ := Ending.value.inj hshare
      exact ⟨s, t', c, hs, hw, ht', hvalue'⟩
  | none =>
      obtain ⟨above, base, hslots, hbase, hlength, hunseen⟩ := h.exists_split hshows
      obtain ⟨t, ht, hkeeps⟩ := Stands.exists_keeps hbase hb
      have hfound : Machine.findSlot x m.slots = some t := by
        rw [hslots, Machine.findSlot_append, hunseen, Option.none_or, ht]
      rw [Machine.share] at hshare
      simp only [hfound] at hshare
      split at hshare
      · rename_i c hshared
        obtain ⟨rfl, rfl⟩ := Ending.value.inj hshare
        refine ⟨s, t, c, hs, hw, ?_, hshared⟩
        show Machine.findSlot x (m.slots.drop (m.slots.length - constants.length)) = some t
        rw [hlength, hslots, List.drop_left, ht]
      · obtain ⟨rfl, rfl⟩ := Ending.value.inj hshare
        let c := m.cells.size
        have hmoved : Machine.replaceSlot x (.shared c) m.slots
            = above ++ Machine.replaceSlot x (.shared c) base := by
          rw [hslots, Machine.replaceSlot_append_of_none hunseen]
        refine ⟨s, { t with value := .shared c }, c, hs, hw, ?_, rfl⟩
        show Machine.findSlot x ((Machine.replaceSlot x (.shared c) m.slots).drop
          ((Machine.replaceSlot x (.shared c) m.slots).length - constants.length)) = _
        rw [Machine.length_replaceSlot, hlength, hmoved, List.drop_left]
        exact Machine.findSlot_replaceSlot ht

end Reading

/-! ### Steps that come to a value -/

section Steps

variable {a : Allowance} {m m' : Machine} {fuel level : Nat} {x : String}

/-- The machine with one operation more. -/
def Machine.counted (m : Machine) : Machine := { m with operations := m.operations + 1 }

@[simp] theorem lookup?_counted (m : Machine) (x : String) :
    m.counted.lookup? x = m.lookup? x := rfl

/-- A step that counts an operation first, where there is room for one. -/
theorem run_tick (h : a.operations = 0 ∨ m.operations + 1 ≤ a.operations) (f : Unit → Run α) :
    (Run.tick a >>= f).run m = (f ()).run m.counted := by
  have hcount : m.count a.operations = .value () m.counted := by
    rw [Machine.count]
    refine if_neg fun hover => ?_
    rw [Bool.and_eq_true, decide_eq_true_eq, decide_eq_true_eq] at hover
    omega
  show (Session.done (m.count a.operations)).andThen _ = _
  rw [hcount]
  rfl

/-- A step that counts an operation first, where there is no room for one. -/
theorem run_tick_over (h : a.operations ≠ 0) (hover : a.operations < m.operations + 1)
    (f : Unit → Run α) :
    (Run.tick a >>= f).run m = .done (.signal (.fault .tooManyOperations) m.counted) := by
  have hcount : m.count a.operations = .signal (.fault .tooManyOperations) m.counted := by
    rw [Machine.count]
    refine if_pos ?_
    rw [Bool.and_eq_true, decide_eq_true_eq, decide_eq_true_eq]
    exact ⟨h, hover⟩
  show (Session.done (m.count a.operations)).andThen _ = _
  rw [hcount]
  rfl

/-- A step that goes on with the value of another. -/
theorem run_bind {s : Run α} {v : α} (hs : s.run m = .done (.value v m')) (f : α → Run β) :
    (s >>= f).run m = (f v).run m' := by
  show (s.run m).andThen _ = _
  rw [hs]
  rfl

theorem run_readVar {w : Val × Bool} (hx : m.lookup? x = some w) :
    (Run.readVar x).run m = .done (.value w m) := by
  show Session.done (m.read x) = _
  rw [Machine.read, hx]

theorem reach_property (name : String) :
    (reach (fuel + 1 + 1) ⟨a, level⟩ [.property name false]).run m
      = .done (.value [.property name false] m) := by
  rw [reach.eq_def]
  dsimp only
  rw [reach.eq_def]
  rfl

end Steps

/-! ### Assigning -/

/-- The operations are used up: with one more the script is stopped. -/
def Machine.Spent (m : Machine) (a : Allowance) : Prop :=
  a.operations ≠ 0 ∧ a.operations < m.operations + 1

/-- A step that is taken on the machine faults, because the name is that of a constant, unless the
script is stopped before that. -/
inductive Ending.Refused (a : Allowance) (m : Machine) (x : String) : Ending α → Prop
  | constant (m' : Machine) : Refused a m x (.signal (.fault (.constantAssigned x)) m')
  | operations (h : m.Spent a) : Refused a m x (.signal (.fault .tooManyOperations) m.counted)

section Assigning

variable {m : Machine} {x : String}

/-- A step that counts an operation first goes on from there, or the script is stopped. -/
theorem tick_cases (a : Allowance) (m : Machine) (f : Unit → Run α) :
    (Run.tick a >>= f).run m = (f ()).run m.counted ∨
      m.Spent a ∧
        (Run.tick a >>= f).run m = .done (.signal (.fault .tooManyOperations) m.counted) := by
  by_cases h : m.Spent a
  · exact .inr ⟨h, run_tick_over h.1 h.2 f⟩
  · rw [Machine.Spent] at h
    exact .inl (run_tick (by omega) f)

/-- A variable is read, or the script is stopped. -/
theorem eval_var_cases {w : Val × Bool} (hx : m.lookup? x = some w) (fuel : Nat) (env : Env) :
    (eval (fuel + 1) env (.var x)).run m = .done (.value w.1 m.counted) ∨
      m.Spent env.allowance ∧ (eval (fuel + 1) env (.var x)).run m
        = .done (.signal (.fault .tooManyOperations) m.counted) := by
  rw [eval.eq_def]
  refine (tick_cases env.allowance m _).imp_left fun h => h.trans ?_
  exact run_bind (run_readVar ((lookup?_counted m x).trans hx)) _

/-- To assign to a constant is a fault. -/
theorem assign_var_refused {v : Val} (hx : m.lookup? x = some (v, true)) (fuel : Nat) (env : Env)
    (a : Assignment) :
    ∃ r, (assign (fuel + 1) env (.var x) a).run m = .done r ∧ r.Refused env.allowance m x := by
  rw [assign.eq_def]
  rcases tick_cases env.allowance m _ with h | ⟨hspent, h⟩
  · exact ⟨_, h.trans (run_bind (run_readVar ((lookup?_counted m x).trans hx)) _), .constant _⟩
  · exact ⟨_, h, .operations hspent⟩

/-- To go along a chain into a constant, in order to assign, is a fault. -/
theorem chainOn_refused {v : Val} (fuel : Nat) (env : Env) (path : List Reached) (a : Assignment) :
    (chainOn (fuel + 1) env x v true path (some a)).run m
      = .done (.signal (.fault (.constantAssigned x)) m) := by
  rw [chainOn.eq_def]
  rfl

section Chains

variable {σ : Type} {host : Request → σ → Reply × σ} {s : σ} {fuel : Nat} {env : Env}
  {steps : List Step}

/-- A chain is assigned to when the keys of its steps have been computed. -/
theorem assign_chain_cases (fuel : Nat) (env : Env) (steps : List Step) (a : Assignment)
    (host : Request → σ → Reply × σ) (s : σ) :
    ((assign (fuel + 2) env (.chain (.var x) steps) a).endingWith host s m).Refused
        env.allowance m x ∨
      (assign (fuel + 2) env (.chain (.var x) steps) a).endingWith host s m
        = (reach fuel env steps >>= fun path => Run.readVar x >>= fun w =>
            chainOn fuel env x w.1 w.2 path (some a)).endingWith host s m.counted := by
  rw [assign.eq_def]
  rcases tick_cases env.allowance m _ with h | ⟨hspent, h⟩
  · refine .inr ?_
    rw [Run.endingWith, h]
    dsimp only
    rw [evalChain.eq_def]
    rfl
  · rw [Run.endingWith_of_done h]
    exact .inl (.operations hspent)

/-- With the keys computed and the name in sight, the assignment is refused. -/
theorem assign_chain_refused {path : List Reached} {mid : Machine} {v : Val}
    (hkeys : (reach fuel env steps).endingWith host s m.counted = .value path mid)
    (hx : mid.lookup? x = some (v, true)) (a : Assignment) :
    ((assign (fuel + 2) env (.chain (.var x) steps) a).endingWith host s m).Refused
      env.allowance m x := by
  rcases assign_chain_cases fuel env steps a host s with h | h
  · exact h
  · cases fuel with
    | zero =>
        rw [reach.eq_def] at hkeys
        exact nomatch hkeys
    | succ fuel =>
        obtain ⟨s', hnext⟩ := Run.endingWith_bind_of_value hkeys
        rw [h, hnext, Run.endingWith_of_done
          ((run_bind (run_readVar hx) _).trans (chainOn_refused fuel env path a))]
        exact .constant mid

/-- Where the keys are not computed, the assignment is not made. -/
theorem assign_chain_exhausted
    (hkeys : (reach fuel env steps).endingWith host s m.counted = .exhausted) (a : Assignment) :
    ((assign (fuel + 2) env (.chain (.var x) steps) a).endingWith host s m).Refused
        env.allowance m x ∨
      (assign (fuel + 2) env (.chain (.var x) steps) a).endingWith host s m = .exhausted :=
  (assign_chain_cases fuel env steps a host s).imp_right fun h =>
    h.trans (Run.endingWith_bind_of_exhausted hkeys)

/-- Where the keys break off, so does the assignment. -/
theorem assign_chain_signal {t : Signal} {mid : Machine}
    (hkeys : (reach fuel env steps).endingWith host s m.counted = .signal t mid) (a : Assignment) :
    ((assign (fuel + 2) env (.chain (.var x) steps) a).endingWith host s m).Refused
        env.allowance m x ∨
      (assign (fuel + 2) env (.chain (.var x) steps) a).endingWith host s m = .signal t mid :=
  (assign_chain_cases fuel env steps a host s).imp_right fun h =>
    h.trans (Run.endingWith_bind_of_signal hkeys)

/-- An outcome of the keys is their outcome with every larger budget. -/
theorem reach_endingWith_of_le {fuel' : Nat} (h : fuel ≤ fuel') {r : Ending (List Reached)}
    (hkeys : (reach fuel env steps).endingWith host s m = r) (hr : r ≠ .exhausted) :
    (reach fuel' env steps).endingWith host s m = r :=
  (((Cuts.all env.allowance h).reach env.level steps).endingWith_eq (hkeys ▸ hr)).trans hkeys

end Chains

end Assigning

/-! ### The bindings of a script -/

/-- What a name is bound to in the beginning: its variable, or all of them. -/
def boundTo (scope : Entries Json) (x : String) : Option Json :=
  if x = scopeName then some (.obj scope)
  else if isIdentifier x then Entries.find? x scope
  else none

/-- The variables, and one more binding on top of them. -/
def layered (vars : Entries Json) (layer : Option (String × Json)) : Entries Json :=
  layer.elim vars fun l => Entries.insert l.1 l.2 vars

theorem sorted_layered {vars : Entries Json} (h : Entries.Sorted vars)
    (layer : Option (String × Json)) : Entries.Sorted (layered vars layer) := by
  cases layer with
  | none => exact h
  | some l => exact h.insert

section Bindings

variable {scope : Entries Json} {x : String} {j : Json}

/-- Each variable comes once. -/
theorem nodup_bindings (h : Entries.Sorted scope) : ((bindings scope).map Slot.name).Nodup := by
  rw [bindings, List.map_cons, List.map_reverse, List.map_map]
  refine List.nodup_cons.mpr ⟨fun hmem => ?_, List.nodup_reverse.mpr ?_⟩
  · obtain ⟨e, he, hname⟩ := List.mem_map.mp (List.mem_reverse.mp hmem)
    have hbound := (List.mem_filter.mp he).2
    rw [isBound, show e.1 = scopeName from hname] at hbound
    exact absurd hbound (by simp)
  · exact h.nodup_keys.sublist (List.filter_sublist.map Prod.fst)

theorem findSlot_bindings (h : Entries.Sorted scope) (hx : boundTo scope x = some j) :
    Machine.findSlot x (bindings scope) = some ⟨x, Val.ofJson j, true⟩ := by
  rw [boundTo] at hx
  split at hx
  · rename_i hname
    obtain rfl := Option.some.inj hx
    subst hname
    exact if_pos rfl
  · rename_i hname
    split at hx
    · rename_i hident
      have hmem : (⟨x, Val.ofJson j, true⟩ : Slot) ∈ bindings scope := by
        refine List.mem_cons_of_mem _ (List.mem_reverse.mpr (List.mem_map.mpr ⟨(x, j), ?_, rfl⟩))
        refine List.mem_filter.mpr ⟨Entries.mem_of_find? hx, ?_⟩
        simp [isBound, hname, hident]
      exact Machine.findSlot_of_mem (nodup_bindings h) hmem
    · cases hx

theorem stands_start (scope : Entries Json) (p : Program) (closures : Nat) :
    Stands (bindings scope) none (Machine.start scope p closures) := by
  refine ⟨[], bindings scope, rfl, List.forall₂_same.mpr fun s hs => ⟨rfl, ?_, .inl rfl⟩⟩
  rcases List.mem_cons.mp hs with rfl | hs
  · rfl
  · obtain ⟨e, -, rfl⟩ := List.mem_map.mp (List.mem_reverse.mp hs)
    rfl

end Bindings

/-- The evaluation of a script comes to where a step is begun. -/
def Comes (limits : Limits) (granted : List String) (scope : Entries Json) (code : String)
    (fuel : Nat) (place : Place) (y : Run β) (m : Machine) : Prop :=
  ∃ p closures, Program.parse? (limits.allowance granted).depths 0 code = some (p, closures) ∧
    Run.Reaches none (execAll fuel ⟨limits.allowance granted, 0⟩ p.body)
      (Machine.start scope p closures) place y m

/-- **Scripts read what they are bound to and cannot change it.**  Take any point of an evaluation,
in blocks, loops, functions and handlers at any depth, and behind whatever has been run before, and
a bound name that is in sight there.  It is read as it was bound.  To assign to it is a fault, with
an operator or without.  To assign to something in it is a fault as soon as the keys on the way have
been computed, however much budget there is, unless what computes them hides the name; and if the
keys break off, the assignment comes to nothing else. -/
theorem bound_names_stand {limits : Limits} {granted : List String} {vars : Entries Json}
    (hvars : Entries.Sorted vars) (layer : Option (String × Json)) {code : String} {fuel : Nat}
    {place : Place} {y : Run β} {m : Machine}
    (hcomes : Comes limits granted (layered vars layer) code fuel place y m)
    {x : String} {j : Json} (hx : boundTo (layered vars layer) x = some j)
    (hshows : Shows (bindings (layered vars layer)) place m x) :
    (Run.readVar x).run m = .done (.value (Val.ofJson j, true) m) ∧
      (∀ n env, (eval (n + 1) env (.var x)).run m = .done (.value (Val.ofJson j) m.counted) ∨
        m.Spent env.allowance ∧ (eval (n + 1) env (.var x)).run m
          = .done (.signal (.fault .tooManyOperations) m.counted)) ∧
      (∀ n env a, ∃ r, (assign (n + 1) env (.var x) a).run m = .done r ∧
        r.Refused env.allowance m x) ∧
      ∀ {σ : Type} (host : Request → σ → Reply × σ) (s : σ) n k env steps a, n ≤ k →
        (∀ path mid, (reach n env steps).endingWith host s m.counted = .value path mid →
          Shows (bindings (layered vars layer)) place mid x →
            ((assign (k + 2) env (.chain (.var x) steps) a).endingWith host s m).Refused
              env.allowance m x) ∧
        (∀ t mid, (reach n env steps).endingWith host s m.counted = .signal t mid →
          ((assign (k + 2) env (.chain (.var x) steps) a).endingWith host s m).Refused
              env.allowance m x ∨
            (assign (k + 2) env (.chain (.var x) steps) a).endingWith host s m = .signal t mid) ∧
        ((reach k env steps).endingWith host s m.counted = .exhausted →
          ((assign (k + 2) env (.chain (.var x) steps) a).endingWith host s m).Refused
              env.allowance m x ∨
            (assign (k + 2) env (.chain (.var x) steps) a).endingWith host s m = .exhausted) := by
  obtain ⟨p, closures, -, hreach⟩ := hcomes
  have hlasting := Stands.lasting (bindings (layered vars layer))
  have hstands := hlasting.reaches hreach (stands_start _ p closures)
  have hb := findSlot_bindings (sorted_layered hvars layer) hx
  have hplain : ∀ c, Val.ofJson j ≠ .shared c := Val.ofJson_ne_shared j
  have hlookup := hstands.lookup? hshows hb hplain
  refine ⟨run_readVar hlookup, fun n env => eval_var_cases hlookup n env,
    fun n env a => assign_var_refused hlookup n env a, fun host s n k env steps a hnk =>
      ⟨fun path mid hkeys hmid => ?_, fun t mid hkeys => ?_, fun h => assign_chain_exhausted h a⟩⟩
  · have hcounted : Stands (bindings (layered vars layer)) place m.counted :=
      hstands.of_same (by cases place <;> rfl) fun _ _ => id
    have hends : (reach n env steps).Ends m.counted (.value path mid) := hkeys ▸ Run.ends_endingWith
    have hthere : Stands _ place mid := hlasting.ends _ hcounted hends
    exact assign_chain_refused (reach_endingWith_of_le hnk hkeys nofun)
      (hthere.lookup? hmid hb hplain) a
  · exact assign_chain_signal (reach_endingWith_of_le hnk hkeys nofun) a

/-- A script that tries to change what it is bound to, and reads it. -/
def intruding : String := "try \x7b x.k = 5 \x7d catch \x7b \x7d x"

/-- The statement that tries. -/
def Stmt.intruding : Stmt :=
  .guarded [.assign (.chain (.var "x") [.property "k" false]) none (.lit (.int 5))] none []

theorem parse_intruding :
    Program.parse? (Limits.allowance {} []).depths 0 intruding
      = some (⟨[.intruding, .expr (.var "x")], []⟩, 0) := by
  have htokens : Token.ofScript intruding = some
      [.word "try", .mark "\x7b", .ident "x", .mark ".", .ident "k", .mark "=", .int 5,
        .mark "\x7d", .word "catch", .mark "\x7b", .mark "\x7d", .ident "x"] := by
    decide +kernel
  rw [Program.parse?, htokens]
  rfl

/-- A statement that others follow. -/
theorem execAll_cons (n : Nat) (env : Env) (s t : Stmt) (rest : List Stmt) :
    execAll (n + 1) env (s :: t :: rest) = exec n env s >>= fun _ => execAll n env (t :: rest) := by
  rw [execAll.eq_def]

/-- What the script is bound to. -/
def intruded : Entries Json := [("x", .obj [("k", Json.nat 1)])]

/-- The machine when the first statement has been run. -/
def Machine.intruded : Machine :=
  { Machine.start (layered Script.intruded (some ("params", .null)))
      ⟨[.intruding, .expr (.var "x")], []⟩ 0 with operations := 4 }

theorem comes_intruding :
    Comes {} [] (layered intruded (some ("params", .null))) intruding 9 none
      (execAll 8 ⟨Limits.allowance {} [], 0⟩ [.expr (.var "x")]) Machine.intruded := by
  refine ⟨_, 0, parse_intruding, ?_⟩
  have hends : (exec 8 ⟨Limits.allowance {} [], 0⟩ .intruding).Ends
      (Machine.start (layered intruded (some ("params", .null)))
        ⟨[.intruding, .expr (.var "x")], []⟩ 0)
      (.value .unit Machine.intruded) := by
    rw [Run.Ends]
    with_unfolding_all exact .done _
  dsimp only
  rw [execAll_cons]
  exact .further hends .here

/-- Behind the assignment that was caught, the variable is what it was, and the assignment would be
refused again. -/
theorem bound_names_stand_intruding :
    (Run.readVar "x").run Machine.intruded
        = .done (.value (Val.ofJson (.obj [("k", Json.nat 1)]), true) Machine.intruded) ∧
      (∀ n env a, ∃ r, (assign (n + 1) env (.var "x") a).run Machine.intruded = .done r ∧
        r.Refused env.allowance Machine.intruded "x") ∧
      ∀ (host : Request → Unit → Reply × Unit) k env a, 2 ≤ k →
        ((assign (k + 2) env (.chain (.var "x") [.property "k" false]) a).endingWith host ()
          Machine.intruded).Refused env.allowance Machine.intruded "x" := by
  have hsorted : Entries.Sorted intruded := List.pairwise_singleton _ _
  have hbound : boundTo (layered intruded (some ("params", .null))) "x"
      = some (.obj [("k", Json.nat 1)]) := rfl
  have hshows : Shows (bindings (layered intruded (some ("params", .null)))) none
      Machine.intruded "x" := by
    show ∀ s ∈ ([] : List Slot), s.name ≠ "x"
    exact nofun
  obtain ⟨hread, -, hassign, hchain⟩ :=
    bound_names_stand hsorted _ comes_intruding hbound hshows
  refine ⟨hread, hassign, fun host k env a hk => ?_⟩
  exact (hchain host () 2 k env _ a hk).1 _ _ (Run.endingWith_of_done (reach_property "k")) hshows

end FlowGraph.Script
