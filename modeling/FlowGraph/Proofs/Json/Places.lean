/-
Places inside of a value.

A place is a way into a value, step by step: to an item of a list by its index, to a field of an
object by its name.  Lists and objects have much in common then.  Both have `children`, each behind
a step of its own, and both are put together again from as many values (`rebuild`).  So what holds
of all values is proved for nodes, once for both kinds, and for leaves, which have no children
(`byChildren`).

Values that are `Alike` differ in what they hold and not from outside: in lists of one length, in
objects with the same names.
-/
import FlowGraph.Proofs.Json.Legal
import FlowGraph.Condition.Loose

namespace FlowGraph.Json

/-- One step into a value. -/
inductive Step where
  | item (i : Nat)
  | field (name : String)
  deriving DecidableEq, Repr

/-- A way into a value. -/
abbrev Place := List Step

/-- What stands at a place. -/
def at? : Place → Json → Option Json
  | [], j => some j
  | .item i :: p, .arr items => items[i]?.bind (at? p)
  | .field name :: p, .obj fields => (Entries.find? name fields).bind (at? p)
  | _ :: _, _ => none

/-- An item stands before those with a greater index, a field before those with a greater name. -/
inductive Step.Before : Step → Step → Prop
  | item {i k : Nat} (h : i < k) : Before (.item i) (.item k)
  | field {name other : String} (h : name < other) : Before (.field name) (.field other)

/-- The first step at which two places differ says which is before the other. -/
def Before : Place → Place → Prop := List.Lex Step.Before

/-! ### Children -/

/-- What is inside of a value, behind the step that leads there. -/
def children : Json → List (Step × Json)
  | .arr items => items.mapIdx fun i j => (.item i, j)
  | .obj fields => fields.map fun (name, j) => (.field name, j)
  | _ => []

/-- The value of the same kind and with the same steps that has other children. -/
def rebuild : Json → List Json → Json
  | .arr _, vs => .arr vs
  | .obj fields, vs => .obj ((Entries.keys fields).zip vs)
  | j, _ => j

/-- Values that look the same from outside: the same leaf, lists of one length, or objects with the
same names. -/
inductive Alike : Json → Json → Prop
  | leaf {j : Json} (h : j.isComposite = false) : Alike j j
  | arr {items others : List Json} (h : items.length = others.length) :
      Alike (.arr items) (.arr others)
  | obj {fields others : List (String × Json)} (h : Entries.keys fields = Entries.keys others) :
      Alike (.obj fields) (.obj others)

variable {j w c : Json} {vs : List Json} {step : Step} {p : Place}

mutual

/-- What holds of a value as soon as it holds of all its children holds of every value. -/
theorem byChildren {P : Json → Prop} (h : ∀ j, (∀ c ∈ children j, P c.2) → P j) : ∀ j, P j
  | .null | .bool _ | .number _ | .str _ => h _ nofun
  | .arr items => h _ fun c hc => by
      obtain ⟨i, hi, rfl⟩ := List.mem_mapIdx.mp hc
      exact byItems h items _ (List.getElem_mem hi)
  | .obj fields => h _ fun c hc => by
      obtain ⟨e, he, rfl⟩ := List.mem_map.mp hc
      exact byFields h fields e he

theorem byItems {P : Json → Prop} (h : ∀ j, (∀ c ∈ children j, P c.2) → P j) :
    ∀ items : List Json, ∀ j ∈ items, P j
  | [], _, hj => nomatch hj
  | j :: rest, _, hj =>
      (List.mem_cons.mp hj).elim (fun heq => heq ▸ byChildren h j) (byItems h rest _)

theorem byFields {P : Json → Prop} (h : ∀ j, (∀ c ∈ children j, P c.2) → P j) :
    ∀ fields : List (String × Json), ∀ e ∈ fields, P e.2
  | [], _, he => nomatch he
  | (_, j) :: rest, _, he =>
      (List.mem_cons.mp he).elim (fun heq => heq ▸ byChildren h j) (byFields h rest _)

end

theorem children_leaf (h : j.isComposite = false) : children j = [] := by
  cases j with
  | arr items => cases h
  | obj fields => cases h
  | _ => rfl

theorem children_pairwise (hj : j.Legal) :
    (children j).Pairwise fun c d => Step.Before c.1 d.1 := by
  cases j with
  | arr items =>
      rw [children, List.pairwise_iff_getElem]
      intro i k hi hk hik
      simp only [List.getElem_mapIdx]
      exact .item hik
  | obj fields =>
      have hsorted : fields.Pairwise fun e e' => e.1 < e'.1 := List.pairwise_map.mp hj.1
      rw [children, List.pairwise_map]
      exact hsorted.imp .field
  | _ => exact List.Pairwise.nil

theorem Step.Before.ne {step other : Step} (h : step.Before other) : step ≠ other := by
  rintro rfl
  cases h with
  | item h => exact Nat.lt_irrefl _ h
  | field h => exact String.lt_irrefl _ h

/-- No step leads to two children. -/
theorem children_nodup (hj : j.Legal) : ((children j).map Prod.fst).Nodup :=
  List.pairwise_map.mpr ((children_pairwise hj).imp Step.Before.ne)

theorem legal_of_mem_children (hj : j.Legal) : ∀ c ∈ children j, c.2.Legal := by
  intro c hc
  cases j with
  | arr items =>
      obtain ⟨i, hi, rfl⟩ := List.mem_mapIdx.mp hc
      exact legalItems_iff.mp hj _ (List.getElem_mem hi)
  | obj fields =>
      obtain ⟨e, he, rfl⟩ := List.mem_map.mp hc
      exact legalFields_iff.mp hj.2 e he
  | _ => cases hc

/-! ### Places and children -/

theorem mem_children_of_at? {a : Json} (h : at? (step :: p) j = some a) :
    ∃ c, (step, c) ∈ children j ∧ at? p c = some a := by
  cases j with
  | arr items =>
      cases step with
      | item i =>
          obtain ⟨c, hc, ha⟩ := Option.bind_eq_some_iff.mp h
          obtain ⟨hi, rfl⟩ := List.getElem?_eq_some_iff.mp hc
          exact ⟨_, List.mem_mapIdx.mpr ⟨i, hi, rfl⟩, ha⟩
      | field name => cases h
  | obj fields =>
      cases step with
      | item i => cases h
      | field name =>
          obtain ⟨c, hc, ha⟩ := Option.bind_eq_some_iff.mp h
          exact ⟨c, List.mem_map.mpr ⟨_, Entries.mem_of_find? hc, rfl⟩, ha⟩
  | _ => cases step <;> cases h

/-- Behind a step there is what stands in the child. -/
theorem at?_child (hnodup : ((children j).map Prod.fst).Nodup) (h : (step, c) ∈ children j)
    (p : Place) : at? (step :: p) j = at? p c := by
  cases j with
  | arr items =>
      obtain ⟨i, hi, heq⟩ := List.mem_mapIdx.mp h
      obtain ⟨rfl, rfl⟩ := Prod.mk.inj heq
      rw [at?, List.getElem?_eq_getElem hi, Option.bind_some]
  | obj fields =>
      obtain ⟨e, he, heq⟩ := List.mem_map.mp h
      obtain ⟨rfl, rfl⟩ := Prod.mk.inj heq
      have hkeys : (Entries.keys fields).Nodup := by
        rw [children, List.map_map] at hnodup
        exact List.Nodup.of_map Step.field (by rw [Entries.keys, List.map_map]; exact hnodup)
      rw [at?, Entries.find?_of_mem hkeys he, Option.bind_some]
  | _ => cases h

/-! ### Other children -/

theorem children_rebuild (h : vs.length = (children j).length) :
    children (rebuild j vs) = ((children j).map Prod.fst).zip vs := by
  cases j with
  | arr items =>
      rw [children, List.length_mapIdx] at h
      refine List.ext_getElem (by simp [rebuild, children, h]) fun i hi hi' => ?_
      simp [rebuild, children]
  | obj fields =>
      rw [rebuild, children, children, List.map_map, Entries.keys, List.zip_map_left,
        List.zip_map_left, List.map_map]
      rfl
  | _ =>
      obtain rfl := List.length_eq_zero_iff.mp h
      rfl

/-- A value is put together again from its own children. -/
theorem rebuild_self (j : Json) : rebuild j ((children j).map Prod.snd) = j := by
  cases j with
  | arr items =>
      rw [rebuild, children]
      refine congrArg Json.arr (List.ext_getElem (by simp) fun i hi hi' => ?_)
      simp
  | obj fields =>
      have hvalues : (children (.obj fields)).map Prod.snd = fields.map Prod.snd := by
        rw [children, List.map_map]
        rfl
      rw [rebuild, hvalues, Entries.keys, ← List.unzip_fst, ← List.unzip_snd, List.zip_unzip]
  | _ => rfl

theorem alike_iff : Alike j w ↔ ∃ vs, vs.length = (children j).length ∧ w = rebuild j vs := by
  constructor
  · intro h
    cases h with
    | leaf hleaf =>
        refine ⟨[], by rw [children_leaf hleaf]; rfl, ?_⟩
        cases j with
        | arr items => cases hleaf
        | obj fields => cases hleaf
        | _ => rfl
    | @arr items others hlength => exact ⟨others, by simp [children, hlength], rfl⟩
    | @obj fields others hkeys =>
        refine ⟨others.map Prod.snd, ?_, ?_⟩
        · have hlength := congrArg List.length hkeys
          simpa [children, Entries.keys] using hlength.symm
        · rw [rebuild, hkeys, Entries.keys, ← List.unzip_fst, ← List.unzip_snd, List.zip_unzip]
  · rintro ⟨vs, hlength, rfl⟩
    cases j with
    | arr items => exact .arr (by simpa [children] using hlength.symm)
    | obj fields =>
        have hkeys : (Entries.keys fields).length ≤ vs.length := by
          rw [hlength, children, Entries.keys, List.length_map, List.length_map]
        exact .obj (List.map_fst_zip hkeys).symm
    | _ => exact .leaf rfl

end FlowGraph.Json
