/-
Lists that blocks change.

A block that changes a list first computes what it puts in, if it puts in anything, then looks at
the variable, and looks at it once more to change it.  `ListChange` says what that is to a list,
with the value that is put in, and what the block hands on.  Whatever blocks are run one after
another on a variable that holds a list, they do to it what their changes do: that is one step lemma
(`Task.runList_changes`) and an induction over the blocks, each of which computes its value in the
state that the ones before it leave.

Between the two looks nothing happens.  So the block never complains that the list has changed in
between: the second look finds what the first one did, and the only operations without a value are
those that need none.
-/
import Mathlib.Data.List.Induction
import FlowGraph.Proofs.Entries
import FlowGraph.Proofs.Run.Keeps
import FlowGraph.Store.Memory
import FlowGraph.Web.Offline

namespace FlowGraph

variable {δ χ : Type}

/-! ### Changes -/

/-- A change of a list. -/
inductive ListChange where
  | push (v : Json)
  | unshift (v : Json)
  | pop
  | shift

namespace ListChange

def operation : ListChange → ListOperation
  | push _ => .push
  | unshift _ => .unshift
  | pop => .pop
  | shift => .shift

/-- The value that is put in. -/
def operand : ListChange → Option Json
  | push v | unshift v => some v
  | pop | shift => none

def apply : ListChange → List Json → List Json
  | push v, items => items ++ [v]
  | unshift v, items => v :: items
  | pop, items => items.dropLast
  | shift, items => items.tail

/-- The new list where something is put in, else what is taken out, or `null`. -/
def output : ListChange → List Json → Json
  | push v, items => .arr (items ++ [v])
  | unshift v, items => .arr (v :: items)
  | pop, items => items.getLast?.getD .null
  | shift, items => items.head?.getD .null

/-- One change after another. -/
def applyAll (changes : List ListChange) (items : List Json) : List Json :=
  changes.foldl (fun items change => change.apply items) items

/-- The output of each. -/
def outputs : List ListChange → List Json → List Json
  | [], _ => []
  | change :: rest, items => change.output items :: outputs rest (change.apply items)

theorem changeList_eq (change : ListChange) (items : List Json) :
    Task.changeList items change.operation change.operand
      = some (change.apply items, change.output items) := by
  cases change with
  | shift => simp [operation, operand, apply, output, Task.changeList]
  | _ => rfl

theorem length_outputs (changes : List ListChange) (items : List Json) :
    (outputs changes items).length = changes.length := by
  induction changes generalizing items with
  | nil => rfl
  | cons change rest ih => exact congrArg Nat.succ (ih _)

theorem outputs_append (changes changes' : List ListChange) (items : List Json) :
    outputs (changes ++ changes') items
      = outputs changes items ++ outputs changes' (applyAll changes items) := by
  induction changes generalizing items with
  | nil => rfl
  | cons change rest ih => exact congrArg (change.output items :: ·) (ih _)

theorem applyAll_append (changes changes' : List ListChange) (items : List Json) :
    applyAll (changes ++ changes') items = applyAll changes' (applyAll changes items) :=
  List.foldl_append

/-! ### There and back -/

theorem applyAll_pushes (vs items : List Json) : applyAll (vs.map push) items = items ++ vs := by
  induction vs generalizing items with
  | nil => exact (List.append_nil items).symm
  | cons v rest ih =>
      show applyAll (rest.map push) (items ++ [v]) = _
      rw [ih, List.append_assoc, List.singleton_append]

/-- What is taken out at the end is what was put in last. -/
theorem pops (vs items : List Json) :
    applyAll (List.replicate vs.length pop) (items ++ vs) = items ∧
      outputs (List.replicate vs.length pop) (items ++ vs) = vs.reverse := by
  -- From the end of what was put in, since this is what the first operation takes out.
  induction vs using List.reverseRecOn with
  | nil => exact ⟨List.append_nil items, rfl⟩
  | append_singleton vs v ih =>
      have hlast : pop.output (items ++ (vs ++ [v])) = v := by
        rw [output, ← List.append_assoc, List.getLast?_concat]
        rfl
      have hrest : pop.apply (items ++ (vs ++ [v])) = items ++ vs := by
        rw [apply, ← List.append_assoc, List.dropLast_concat]
      rw [List.length_append, List.length_singleton, List.replicate_succ, outputs, hlast, hrest,
        List.reverse_concat, ih.2]
      refine ⟨?_, rfl⟩
      show applyAll (List.replicate vs.length pop) (pop.apply (items ++ (vs ++ [v]))) = items
      rw [hrest, ih.1]

/-- What is taken out at the front is what was put in first. -/
theorem shifts (vs : List Json) :
    applyAll (List.replicate vs.length shift) vs = [] ∧
      outputs (List.replicate vs.length shift) vs = vs := by
  induction vs with
  | nil => exact ⟨rfl, rfl⟩
  | cons v rest ih => exact ⟨ih.1, congrArg (v :: ·) ih.2⟩

end ListChange

/-! ### Blocks -/

section Blocks

variable [Store.Database δ]

namespace Task

/-- A block that puts in a value has computed it, and what kept it from that is a missing setting or
a script. -/
theorem operand_tried (params : Json) (c : ListConfig) :
    Act.Tried (Act.Scripts params) (fun v => v.isSome = c.operation.takesValue)
      (fun text => text = "arrayOps " ++ c.operation.label ++ " requires a value" ∨
        ∃ f : Script.Failure, text = f.message)
      (operand c params : ExceptT _ (Act δ χ) _) := by
  unfold operand
  split
  · rename_i hvalue
    exact .pure ((Bool.not_eq_true' _).mp hvalue).symm
  · rename_i hvalue
    have htakes : c.operation.takesValue = true := by simpa using hvalue
    dsimp only
    split
    · exact .throw (.inl rfl)
    · refine ((Act.resolve_evaluates params _).adapt fun f _ => ?_).map fun v _ => ?_
      · exact .inr ⟨f, rfl⟩
      · exact htakes.symm

/-- How a block ends that changes a list. -/
inductive ListEnds (c : ListConfig) (id : String) (next : Option String) (params : Json)
    (ctx : Context δ χ) : Output × Context δ χ → Prop
  | unresolved {text : String} {mid : Context δ χ}
      (hoperand : (operand c params).run ctx = (.error text, mid)) :
      ListEnds c id next params ctx (.failure text, mid)
  | missing {v : Option Json} {mid : Context δ χ}
      (hoperand : (operand c params).run ctx = (.ok v, mid))
      (hfind : Entries.find? c.var mid.vars = none) :
      ListEnds c id next params ctx (.failure ("datasource " ++ c.var ++ " not found"), mid)
  | misshaped {v : Option Json} {mid : Context δ χ} {held : Json}
      (hoperand : (operand c params).run ctx = (.ok v, mid))
      (hfind : Entries.find? c.var mid.vars = some held) (hheld : ∀ items, held ≠ .arr items) :
      ListEnds c id next params ctx
        (.failure ("datasource " ++ c.var ++ " is not an array, got " ++ held.kind), mid)
  | changed {v : Option Json} {mid : Context δ χ} {items items' : List Json} {output : Json}
      (hoperand : (operand c params).run ctx = (.ok v, mid))
      (hfind : Entries.find? c.var mid.vars = some (.arr items))
      (hlist : changeList items c.operation v = some (items', output)) :
      ListEnds c id next params ctx
        (.success next output,
          { mid with vars := Entries.insert c.var (.arr items') mid.vars }.note
            (.listChanged id c.var c.operation))

/-- An operation that has its value, if it takes one, changes every list. -/
theorem exists_changeList {operation : ListOperation} {v : Option Json}
    (hv : v.isSome = operation.takesValue) (items : List Json) :
    ∃ changed, changeList items operation v = some changed := by
  cases operation with
  | push | unshift =>
      obtain ⟨v, rfl⟩ := Option.isSome_iff_exists.mp hv
      exact ⟨_, rfl⟩
  | pop | shift => exact ⟨_, rfl⟩

omit [Store.Database δ] in
/-- What is looked up and has a change is changed. -/
theorem updateVar_changes {α : Type} {key : String} {change : Json → Option (Json × α)}
    {ctx : Context δ χ} {held v : Json} {a : α} (hfind : Entries.find? key ctx.vars = some held)
    (hchange : change held = some (v, a)) :
    updateVar key change ctx = (some a, { ctx with vars := Entries.insert key v ctx.vars }) := by
  rw [updateVar, Act.bind_apply, Act.get_apply, hfind, Option.bind_some, hchange]
  rfl

/-- **A block that changes a list does so, or it has no value to put in, or there is no list.** -/
theorem runList_ends (c : ListConfig) (id : String) (next : Option String) (params : Json)
    (ctx : Context δ χ) :
    ListEnds c id next params ctx (runList c id next params ctx) := by
  have htried := (operand_tried params c).result ctx
  rw [runList, orFail, Act.bind_apply]
  cases hoperand : (operand c params).run ctx with
  | mk r mid =>
      rw [hoperand] at htried
      cases r with
      | error text => exact .unresolved hoperand
      | ok v =>
          simp only [Act.bind_apply, Act.get_apply]
          cases hfind : Entries.find? c.var mid.vars with
          | none => exact .missing hoperand hfind
          | some held =>
              cases held with
              | arr items =>
                  obtain ⟨⟨items', output⟩, hlist⟩ := exists_changeList htried items
                  have hchange : changeValue c.operation v (.arr items)
                      = some (.arr items', output) := by
                    rw [changeValue, hlist]
                    rfl
                  simp only [Act.bind_apply, updateVar_changes hfind hchange]
                  exact .changed hoperand hfind hlist
              | _ => exact .misshaped hoperand hfind nofun

/-- Where there is a list and the value has been computed, a block does its change and nothing else
to what scripts can read. -/
theorem runList_changes (c : ListConfig) (id : String) (next : Option String) (params : Json)
    {ctx : Context δ χ} {items : List Json} {change : ListChange}
    (hfind : Entries.find? c.var ctx.vars = some (.arr items))
    (hoperation : c.operation = change.operation)
    (hoperand : ((operand c params).run ctx).1 = .ok change.operand) :
    ∃ after, runList c id next params ctx = (.success next (change.output items), after) ∧
      after.vars = Entries.insert c.var (.arr (change.apply items)) ctx.vars := by
  obtain ⟨database, journal, hleaves⟩ := Act.Evaluates.leaves (operand_evaluates params c) ctx
  have hmid : ∀ {r mid}, (operand c params).run ctx = (r, mid) →
      r = .ok change.operand ∧ mid.vars = ctx.vars := by
    intro r mid hrun
    rw [hrun] at hoperand hleaves
    obtain rfl : mid = _ := hleaves
    exact ⟨hoperand, rfl⟩
  have hends := runList_ends c id next params ctx
  generalize runList c id next params ctx = out at hends ⊢
  cases hends with
  | unresolved hrun => exact nomatch (hmid hrun).1
  | missing hrun hnone =>
      rw [(hmid hrun).2, hfind] at hnone
      cases hnone
  | misshaped hrun hheld hshape =>
      rw [(hmid hrun).2, hfind] at hheld
      exact absurd (Option.some.inj hheld).symm (hshape items)
  | changed hrun hheld hlist =>
      obtain ⟨hv, hvars⟩ := hmid hrun
      rw [hvars, hfind] at hheld
      obtain rfl := Json.arr.inj (Option.some.inj hheld)
      obtain rfl := Except.ok.inj hv
      rw [hoperation, change.changeList_eq] at hlist
      obtain ⟨rfl, rfl⟩ := Prod.mk.inj (Option.some.inj hlist)
      exact ⟨_, rfl, congrArg (Entries.insert c.var _) hvars⟩

/-! ### A complaint that is never made -/

/-- The complaint that a list has changed under way. -/
def changedText (key : String) : String := "datasource " ++ key ++ " changed during arrayOps"

theorem failureMessage_ne_changedText (f : Script.Failure) (key : String) :
    f.message ≠ changedText key := by
  have hs : f.message.toList.head? = some 's' := by
    cases f with
    | evaluation text =>
        have h : ("script evaluation failed: " ++ text).toList.head? = some 's' := by simp
        exact h
    | conversion text =>
        have h : ("script value conversion failed: " ++ text).toList.head? = some 's' := by simp
        exact h
    | task text =>
        have h : ("script task failed: " ++ text).toList.head? = some 's' := by simp
        exact h
  intro h
  rw [h, changedText] at hs
  simp at hs

/-- Whatever a block complains about, it is never that the list has changed under way. -/
theorem runList_never_changed (c : ListConfig) (id : String) (next : Option String) (params : Json)
    (ctx : Context δ χ) :
    (runList c id next params ctx).1 ≠ .failure (changedText c.var) := by
  have htext : ∀ {text}, text ≠ changedText c.var →
      Output.failure text ≠ .failure (changedText c.var) :=
    fun hne h => hne (Option.some.inj (congrArg Output.error h))
  have htried := (operand_tried params c).result ctx
  have hends := runList_ends c id next params ctx
  generalize runList c id next params ctx = out at hends ⊢
  cases hends with
  | unresolved hoperand =>
      refine htext ?_
      rw [hoperand] at htried
      rcases htried with rfl | ⟨f, rfl⟩
      · intro h
        simpa [changedText] using congrArg (fun s => s.toList.head?) h
      · exact failureMessage_ne_changedText f c.var
  | missing =>
      refine htext ?_
      rw [changedText, Ne, String.append_right_inj]
      decide
  | misshaped =>
      refine htext ?_
      rw [changedText, String.append_assoc, Ne, String.append_right_inj]
      intro h
      -- The texts part at the second character behind the name of the variable.
      simpa using congrArg (fun s => (s.toList.drop 1).head?) h
  | changed => exact nofun

end Task

/-! ### One block after another -/

variable [Client χ]

/-- A block that changes a list, and its input. -/
structure ListBlock where
  config : ListConfig
  id : String
  next : Option String
  params : Json

def ListBlock.run (b : ListBlock) : Act δ χ Output := (Task.list b.config).run b.id b.next b.params

/-- The blocks do these changes to one variable: each is of its operation and computes its value
when its turn comes. -/
inductive ListBlock.Do (key : String) :
    List ListBlock → List ListChange → Context δ χ → Prop
  | nil (ctx : Context δ χ) : Do key [] [] ctx
  | cons {b : ListBlock} {change : ListChange} {blocks : List ListBlock}
      {changes : List ListChange} {ctx : Context δ χ} (hkey : b.config.var = key)
      (hoperation : b.config.operation = change.operation)
      (hoperand : ((Task.operand b.config b.params).run ctx).1 = .ok change.operand)
      (hrest : Do key blocks changes (b.run ctx).2) :
      Do key (b :: blocks) (change :: changes) ctx

namespace ListBlock

variable {key : String} {blocks : List ListBlock} {changes : List ListChange}
  {ctx : Context δ χ} {items : List Json}

/-- The outputs of blocks that hand on these values. -/
def handOn (blocks : List ListBlock) (values : List Json) : List Output :=
  List.zipWith (fun b v => .success b.next v) blocks values

/-- What blocks do to a list is what their changes do to it. -/
theorem Do.mapM_run (h : Do key blocks changes ctx)
    (hfind : Entries.find? key ctx.vars = some (.arr items)) :
    ∃ after, (blocks.mapM run : Act δ χ (List Output)) ctx
        = (handOn blocks (ListChange.outputs changes items), after) ∧
      Entries.find? key after.vars = some (.arr (ListChange.applyAll changes items)) ∧
      ∀ other, other ≠ key → Entries.find? other after.vars = Entries.find? other ctx.vars := by
  induction h generalizing items with
  | nil ctx => exact ⟨ctx, rfl, hfind, fun _ _ => rfl⟩
  | @cons b change blocks changes ctx hkey hoperation hoperand hrest ih =>
      subst hkey
      obtain ⟨mid, hrun, hvars⟩ :=
        Task.runList_changes b.config b.id b.next b.params hfind hoperation hoperand
      have hblock : b.run ctx = (.success b.next (change.output items), mid) := hrun
      have hmid : Entries.find? b.config.var mid.vars = some (.arr (change.apply items)) := by
        rw [hvars, Entries.find?_insert_self]
      -- The other blocks compute their values in the state that this one leaves.
      rw [hblock] at ih
      obtain ⟨after, hafter, hlist, hothers⟩ := ih hmid
      refine ⟨after, ?_, hlist, fun other hother => ?_⟩
      · rw [List.mapM_cons, Act.bind_apply, hblock, Act.bind_apply, hafter]
        rfl
      · rw [hothers other hother, hvars, Entries.find?_insert_ne _ hother]

theorem Do.length (h : Do key blocks changes ctx) : blocks.length = changes.length := by
  induction h with
  | nil => rfl
  | cons _ _ _ _ ih => exact congrArg Nat.succ ih

theorem map_output_handOn : ∀ {blocks : List ListBlock} {values : List Json},
    blocks.length = values.length → (handOn blocks values).map Output.output = values.map some
  | [], [], _ => rfl
  | _ :: _, v :: _, h => congrArg (some v :: ·) (map_output_handOn (Nat.succ.inj h))

/-- What the later blocks hand on depends on the list that the first ones leave. -/
theorem Do.mapM_run_rest {first rest : List ListChange} (h : Do key blocks (first ++ rest) ctx)
    (hfind : Entries.find? key ctx.vars = some (.arr items)) :
    ∃ outputs after, (blocks.mapM run : Act δ χ (List Output)) ctx = (outputs, after) ∧
      (outputs.drop first.length).map Output.output
        = (ListChange.outputs rest (ListChange.applyAll first items)).map some ∧
      Entries.find? key after.vars
        = some (.arr (ListChange.applyAll rest (ListChange.applyAll first items))) := by
  obtain ⟨after, hrun, hlist, -⟩ := h.mapM_run hfind
  rw [ListChange.applyAll_append] at hlist
  refine ⟨_, after, hrun, ?_, hlist⟩
  have hlength : blocks.length = (ListChange.outputs (first ++ rest) items).length := by
    rw [h.length, ListChange.length_outputs]
  rw [List.map_drop, map_output_handOn hlength, ListChange.outputs_append, List.map_append,
    List.drop_left' (by rw [List.length_map, ListChange.length_outputs])]

end ListBlock

/-- **Blocks that change a list do to it what their changes do, one after another.**  Each succeeds
with the output of its change, and no other variable is touched.  No block ever complains that the
list has changed under way.  So what is put in at the end comes back from there in reverse, and the
list is what it was; and what is put in at the end of an empty list comes back from its front as it
was put in. -/
theorem lists_follow_changes :
    (∀ {key : String} {blocks : List ListBlock} {changes : List ListChange} {ctx : Context δ χ}
      {items : List Json}, ListBlock.Do key blocks changes ctx →
      Entries.find? key ctx.vars = some (.arr items) →
      ∃ after, (blocks.mapM ListBlock.run : Act δ χ (List Output)) ctx
          = (ListBlock.handOn blocks (ListChange.outputs changes items), after) ∧
        Entries.find? key after.vars = some (.arr (ListChange.applyAll changes items)) ∧
        ∀ other, other ≠ key → Entries.find? other after.vars = Entries.find? other ctx.vars) ∧
    (∀ (b : ListBlock) (ctx : Context δ χ),
      (b.run ctx).1 ≠ .failure (Task.changedText b.config.var)) ∧
    (∀ {key : String} {blocks : List ListBlock} {ctx : Context δ χ} {items vs : List Json},
      ListBlock.Do key blocks (vs.map .push ++ List.replicate vs.length .pop) ctx →
      Entries.find? key ctx.vars = some (.arr items) →
      ∃ outputs after, (blocks.mapM ListBlock.run : Act δ χ (List Output)) ctx = (outputs, after) ∧
        (outputs.drop vs.length).map Output.output = vs.reverse.map some ∧
        Entries.find? key after.vars = some (.arr items)) ∧
    ∀ {key : String} {blocks : List ListBlock} {ctx : Context δ χ} {vs : List Json},
      ListBlock.Do key blocks (vs.map .push ++ List.replicate vs.length .shift) ctx →
      Entries.find? key ctx.vars = some (.arr []) →
      ∃ outputs after, (blocks.mapM ListBlock.run : Act δ χ (List Output)) ctx = (outputs, after) ∧
        (outputs.drop vs.length).map Output.output = vs.map some ∧
        Entries.find? key after.vars = some (.arr []) := by
  refine ⟨fun h => h.mapM_run, fun b ctx => ?_, ?_, ?_⟩
  · exact Task.runList_never_changed b.config b.id b.next b.params ctx
  · intro key blocks ctx items vs h hfind
    obtain ⟨outputs, after, hrun, hvalues, hlist⟩ := h.mapM_run_rest hfind
    obtain ⟨hrestored, hreversed⟩ := ListChange.pops vs items
    rw [ListChange.applyAll_pushes, hreversed, List.length_map] at hvalues
    rw [ListChange.applyAll_pushes, hrestored] at hlist
    exact ⟨outputs, after, hrun, hvalues, hlist⟩
  · intro key blocks ctx vs h hfind
    obtain ⟨outputs, after, hrun, hvalues, hlist⟩ := h.mapM_run_rest hfind
    obtain ⟨hempty, hsame⟩ := ListChange.shifts vs
    rw [ListChange.applyAll_pushes, List.nil_append, hsame, List.length_map] at hvalues
    rw [ListChange.applyAll_pushes, List.nil_append, hempty] at hlist
    exact ⟨outputs, after, hrun, hvalues, hlist⟩

end Blocks

/-! ### A stack -/

/-- A block that puts its input in at the end, under a name. -/
def ListBlock.putting (v : Json) : ListBlock :=
  ⟨⟨"stack", .push, none, true⟩, "put", some "take", v⟩

/-- A block that takes out what is at the end. -/
def ListBlock.taking : ListBlock := ⟨⟨"stack", .pop, none, false⟩, "take", none, .null⟩

/-- A context with a list of one item. -/
def Context.stacking : Context Store.Memory Offline :=
  { vars := [("stack", .arr [Json.nat 1])], scripts := .standard {} }

theorem lists_follow_changes_stacking :
    ListBlock.Do "stack" [.putting (Json.nat 2), .putting (.str "three"), .taking, .taking]
        ([Json.nat 2, .str "three"].map .push ++ List.replicate 2 .pop) Context.stacking ∧
      ∃ outputs after,
        ([.putting (Json.nat 2), .putting (.str "three"), .taking, .taking].mapM ListBlock.run
          : Act Store.Memory Offline (List Output)) .stacking = (outputs, after) ∧
        (outputs.drop 2).map Output.output = [some (.str "three"), some (Json.nat 2)] ∧
        Entries.find? "stack" after.vars = some (.arr [Json.nat 1]) := by
  have hdo : ListBlock.Do "stack"
      [.putting (Json.nat 2), .putting (.str "three"), .taking, .taking]
      ([Json.nat 2, .str "three"].map .push ++ List.replicate 2 .pop) Context.stacking :=
    .cons rfl rfl rfl (.cons rfl rfl rfl (.cons rfl rfl rfl (.cons rfl rfl rfl (.nil _))))
  obtain ⟨-, -, hstack, -⟩ := lists_follow_changes (δ := Store.Memory) (χ := Offline)
  exact ⟨hdo, hstack hdo rfl⟩

end FlowGraph
