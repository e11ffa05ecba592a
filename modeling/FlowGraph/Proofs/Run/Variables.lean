/-
Variables that scripts read by their names.

A block may store a value under any name.  If the name is an identifier, it is bound for the scripts
of later blocks, and then there are two cases.  Either the name is one that scripts take for the
name of a variable, and the script that consists of it gives the value.  Or the language uses the
word itself, or no letter comes before its first digit, and then the script comes to one and the
same result whatever is stored.  Such a variable is still read by its quoted name.

Two names are not free: one stands for all variables, the other for the input of a block.
-/
import FlowGraph.Proofs.Run.Keeps
import FlowGraph.Proofs.Script.Reading
import FlowGraph.Store.Memory
import FlowGraph.Web.Offline

namespace FlowGraph

variable {δ χ : Type}

/-! ### Names in a script -/

namespace Script

variable {limits : Limits} {granted : List String} {vars : Entries Json} {k : String} {j : Json}

/-- A layer on top of the variables hides the variable of its own name only. -/
theorem find?_layered {layer : Option (String × Json)} (hlayer : ∀ l ∈ layer, l.1 ≠ k) :
    Entries.find? k (layered vars layer) = Entries.find? k vars := by
  cases layer with
  | none => rfl
  | some l => exact Entries.find?_insert_ne _ (hlayer l rfl).symm

theorem run_layered_name (hlimits : limits.Allow 2 4) (hvars : Entries.Sorted vars)
    {layer : Option (String × Json)} (hlayer : ∀ l ∈ layer, l.1 ≠ k)
    (hfind : Entries.find? k vars = some j) (hj : j.Legal) (hk : isIdentifier k = true)
    (hown : k ≠ scopeName) (hname : isNameable k = true) :
    (Engine.standard limits).run granted (layered vars layer) k = .done (.ok j.inScript) := by
  have hbound : boundTo (layered vars layer) k = some j := by
    rw [boundTo, if_neg hown, if_pos hk, find?_layered hlayer, hfind]
  exact run_name hlimits (sorted_layered hvars layer) hbound hk hname hj

theorem run_layered_key (hlimits : limits.Allow 4 8) (hvars : Entries.Sorted vars)
    {layer : Option (String × Json)} (hlayer : ∀ l ∈ layer, l.1 ≠ k)
    (hfind : Entries.find? k vars = some j) (hj : j.Legal) (hk : isIdentifier k = true) :
    (Engine.standard limits).run granted (layered vars layer) (keyScript k)
      = .done (.ok j.inScript) :=
  run_key hlimits (sorted_layered hvars layer) ((find?_layered hlayer).trans hfind)
    (isPlain_of_isIdentifier hk) hj

end Script

/-! ### Names in a run -/

section Runs

variable [Store.Database δ] {ctx after : Context δ χ}

/-- Whatever the input of a block, the script gives this value and leaves everything as it was, in
a block that evaluates it where it stands and in one that evaluates it apart. -/
def Context.Reads (ctx : Context δ χ) (code : String) (v : Json) : Prop :=
  ∀ granted params, ctx.evaluate granted params code = (.ok v, ctx) ∧
    ctx.evaluateApart granted params code = (.ok v, ctx)

theorem Context.reads_of_run {code : String} {v : Json}
    (h : ∀ granted params, ctx.scripts.run granted (ctx.scope params) code = .done (.ok v)) :
    ctx.Reads code v := by
  intro granted params
  have hrun : ∀ c : Context δ χ, c.scripts = ctx.scripts → c.vars = ctx.vars →
      c.evaluate granted params code = (.ok v, c) := by
    intro c hscripts hvars
    rw [evaluate, scope, hscripts, hvars]
    exact congrArg (fun s => s.run host c) (h granted params)
  refine ⟨hrun ctx rfl rfl, ?_⟩
  rw [evaluateApart, hrun { ctx with span := none } rfl rfl]

/-- A block that stores a value fails, or its output is the value and nothing that a script could
read has changed but the variable. -/
theorem Task.runSetVar_stores (c : SetVarConfig) (id : String) (next : Option String)
    (params : Json) {ctx : Context δ χ}
    (hfatal : (runSetVar c id next params ctx).1.isFatal = false) :
    ∃ v after, runSetVar c id next params ctx = (.success next v, after) ∧
      after.scripts = ctx.scripts ∧ after.vars = Entries.insert c.key v ctx.vars := by
  have hleaves := Act.Evaluates.leaves
    (Act.resolve_evaluates params (if c.useParam then params else c.value)) ctx
  rw [runSetVar, orFail, Act.bind_apply] at hfatal ⊢
  cases hresolve : (Act.resolve params (if c.useParam then params else c.value)).run ctx with
  | mk r mid =>
      rw [hresolve] at hfatal hleaves
      obtain ⟨database, journal, rfl⟩ := hleaves
      cases r with
      | error e => cases hfatal
      | ok v => exact ⟨v, _, rfl, rfl, rfl⟩

end Runs

/-- **A variable is read by its name if the name is one.**  In all variables with one more on top, a
script that is an identifier gives the value that the variable of this name has, as it comes back
from a script, if scripts take the identifier for a name, and else it comes to the same result
whatever the variables are.  Its quoted name gives the value in any case.  So it is for what a block
has stored, in every script that is run later, as long as nothing else is stored there. -/
theorem variables_read_by_name [Store.Database δ] [Client χ] {limits : Script.Limits}
    (hlimits : limits.Allow 4 8) :
    (∀ (granted : List String) {vars : Entries Json} {layer : Option (String × Json)} {k : String}
      {j : Json}, Entries.Sorted vars → (∀ l ∈ layer, l.1 ≠ k) → Entries.find? k vars = some j →
      j.Legal → Script.isIdentifier k = true → k ≠ Script.scopeName →
      (Script.isNameable k = true → (Script.Engine.standard limits).run granted
        (Script.layered vars layer) k = .done (.ok j.inScript)) ∧
      (Script.isNameable k = false → ∃ r, ∀ scope,
        (Script.Engine.standard limits).run granted scope k = .done r) ∧
      (Script.Engine.standard limits).run granted (Script.layered vars layer) (Script.keyScript k)
        = .done (.ok j.inScript)) ∧
    ∀ (ctx : Context δ χ) (c : SetVarConfig) (id : String) (next : Option String) (params : Json),
      ctx.scripts = .standard limits → Entries.Sorted ctx.vars →
      Script.isIdentifier c.key = true → c.key ≠ Script.scopeName → c.key ≠ "params" →
      ((Task.setVar c).run id next params ctx).1.isFatal = false →
      ∃ v after, (Task.setVar c).run id next params ctx = (.success next v, after) ∧
        Entries.Sorted after.vars ∧ (v.Legal → ∀ later : Context δ χ,
          later.scripts = after.scripts → Entries.Sorted later.vars →
          Entries.find? c.key later.vars = Entries.find? c.key after.vars →
          (Script.isNameable c.key = true → later.Reads c.key v.inScript) ∧
            later.Reads (Script.keyScript c.key) v.inScript) := by
  have hname : limits.Allow 2 4 := hlimits.mono (by decide) (by decide)
  refine ⟨fun granted vars layer k j hvars hlayer hfind hj hk hown => ⟨?_, ?_, ?_⟩, ?_⟩
  · exact Script.run_layered_name hname hvars hlayer hfind hj hk hown
  · exact fun hunnameable => Script.run_unnameable hk hunnameable limits granted
  · exact Script.run_layered_key hlimits hvars hlayer hfind hj hk
  · intro ctx c id next params hscripts hvars hk hown hparams hfatal
    obtain ⟨v, after, hrun, hafter, hstored⟩ := Task.runSetVar_stores c id next params hfatal
    refine ⟨v, after, hrun, hstored ▸ hvars.insert, fun hv later hengine hlater hfind => ?_⟩
    have hstandard : later.scripts = .standard limits := hengine.trans (hafter.trans hscripts)
    have hvalue : Entries.find? c.key later.vars = some v := by
      rw [hfind, hstored, Entries.find?_insert_self]
    -- The input lies on top of the variables, under a name that the block has not used.
    have hlayer : ∀ params : Json, ∀ l ∈ some ("params", params), l.1 ≠ c.key := by
      intro params l hl hsame
      obtain rfl := Option.some.inj hl
      exact hparams hsame.symm
    refine ⟨fun hnameable => ?_, ?_⟩
    · refine Context.reads_of_run fun granted params => ?_
      rw [hstandard]
      exact Script.run_layered_name hname hlater (hlayer params) hvalue hv hk hown hnameable
    · refine Context.reads_of_run fun granted params => ?_
      rw [hstandard]
      exact Script.run_layered_key hlimits hlater (hlayer params) hvalue hv hk

/-- Settings of a block that stores a number under a name with digits. -/
def SetVarConfig.counting : SetVarConfig := ⟨"_count2", Json.nat 7, false⟩

/-- A context with the scripts of this language. -/
def Context.counting : Context Store.Memory Offline := { scripts := .standard {} }

theorem variables_read_by_name_counting :
    Script.Limits.Allow {} 4 8 ∧
      (∃ after, (Task.setVar .counting).run "count" none .null Context.counting
          = (.success none (Json.nat 7), after) ∧
        after.Reads "_count2" (Json.nat 7)) ∧
      (Script.Engine.standard {}).run [] [("new", Json.nat 7)] (Script.keyScript "new")
        = .done (.ok (Json.nat 7)) := by
  have hlimits : Script.Limits.Allow {} 4 8 := ⟨.inr (by decide), .inr (by decide)⟩
  have hseven : (Json.nat 7).Legal := by
    show Number.inRange 7 = true
    decide
  have hsorted : Entries.Sorted [("new", Json.nat 7)] := List.pairwise_singleton _ _
  obtain ⟨hscopes, hblocks⟩ := variables_read_by_name (δ := Store.Memory) (χ := Offline) hlimits
  refine ⟨hlimits, ?_, ?_⟩
  · obtain ⟨v, after, hrun, hafter, hreads⟩ := hblocks .counting .counting "count" none .null
      rfl .nil rfl (by decide) (by decide) rfl
    obtain ⟨houtput, rfl⟩ := Prod.mk.inj hrun
    obtain rfl : Json.nat 7 = v := Option.some.inj (congrArg Output.output houtput)
    exact ⟨_, rfl, (hreads hseven _ rfl hafter rfl).1 rfl⟩
  · have hnone : ∀ l ∈ (none : Option (String × Json)), l.1 ≠ "new" := nofun
    exact (hscopes [] hsorted hnone rfl hseven rfl (by decide)).2.2

/-- A word that the language has set aside is no name, whatever is stored under it. -/
theorem reserved_word_is_not_read :
    Script.isIdentifier "new" = true ∧ "new" ≠ Script.scopeName ∧
      Entries.find? "new" [("new", Json.nat 7)] = some (Json.nat 7) ∧
      (Script.Engine.standard {}).run [] [("new", Json.nat 7)] "new"
        = .done (.error (.evaluation Script.Fault.unreadable.message)) := by
  have hparse : Script.Program.parse? (Script.Limits.allowance {} []).depths 0 "new" = none := by
    have htokens : Script.Token.ofScript "new" = some [.reserved "new"] := by decide +kernel
    rw [Script.Program.parse?, htokens]
    rfl
  exact ⟨rfl, by decide, rfl, Script.run_unreadable hparse _⟩

end FlowGraph
