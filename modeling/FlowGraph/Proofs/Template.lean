/-
Scripts inside of values.

To compute a value is to run the scripts that stand in it, one after the other in the order of their
places, and to put what each of them is answered where it stood.  `sites` lists the scripts with
their places before anything is run.  So an answer cannot add to what is run: it may look like a
script itself and is still taken as it is.  The first script that fails is the failure of the whole,
and the scripts behind it are not run.

The induction is over the children of a value, for lists and objects alike.  Of each child it is
known what its scripts are answered by a function of the places inside of it.  Behind different
steps these are different places, so the functions are parts of one (`exists_joined`).
-/
import FlowGraph.Proofs.Condition.Chains
import FlowGraph.Proofs.Json.Places

namespace FlowGraph

open Json

/-! ### Answers -/

namespace Evaluator

variable {ε σ : Type} {run : Evaluator ε σ} {codes more : List String} {vs : List Json} {s s' : σ}

/-- Scripts are answered one after the other, and these are the answers. -/
inductive Answers (run : Evaluator ε σ) : List String → σ → List Json → σ → Prop
  | nil {s : σ} : Answers run [] s [] s
  | cons {code : String} {rest : List String} {v : Json} {vs : List Json} {s s₁ s₂ : σ}
      (hrun : outcome (run code) s = (.ok v, s₁)) (hrest : Answers run rest s₁ vs s₂) :
      Answers run (code :: rest) s (v :: vs) s₂

theorem answers_nil_iff : Answers run [] s vs s' ↔ vs = [] ∧ s = s' := by
  constructor
  · rintro ⟨⟩
    exact ⟨rfl, rfl⟩
  · rintro ⟨rfl, rfl⟩
    exact .nil

theorem answers_singleton_iff {code : String} :
    Answers run [code] s vs s' ↔ ∃ v, vs = [v] ∧ outcome (run code) s = (.ok v, s') := by
  constructor
  · intro h
    cases h with
    | cons hrun hrest =>
        obtain ⟨rfl, rfl⟩ := answers_nil_iff.mp hrest
        exact ⟨_, rfl, hrun⟩
  · rintro ⟨v, rfl, hrun⟩
    exact .cons hrun .nil

theorem Answers.append {ws : List Json} {s₁ : σ} (h : Answers run codes s vs s₁)
    (hmore : Answers run more s₁ ws s') : Answers run (codes ++ more) s (vs ++ ws) s' := by
  induction h with
  | nil => exact hmore
  | cons hrun _ ih => exact .cons hrun (ih hmore)

theorem Answers.of_append {ws : List Json} (h : Answers run (codes ++ more) s (vs ++ ws) s')
    (hlength : codes.length = vs.length) :
    ∃ s₁, Answers run codes s vs s₁ ∧ Answers run more s₁ ws s' := by
  induction codes generalizing s vs with
  | nil =>
      obtain rfl := List.length_eq_zero_iff.mp hlength.symm
      exact ⟨s, .nil, h⟩
  | cons code codes ih =>
      cases vs with
      | nil => cases hlength
      | cons v vs =>
          cases h with
          | cons hrun hrest =>
              obtain ⟨s₁, hfirst, hmore⟩ := ih hrest (Nat.succ.inj hlength)
              exact ⟨s₁, .cons hrun hfirst, hmore⟩

end Evaluator

namespace Template

open Evaluator

/-! ### Where scripts stand -/

/-- A place inside of a child, seen from outside. -/
def behind (step : Step) (site : Place × String) : Place × String := (step :: site.1, site.2)

mutual

/-- The scripts in a value and the places where they stand. -/
def sites : Json → List (Place × String)
  | .str text => (scriptText? text).toList.map ([], ·)
  | .arr items => itemSites 0 items
  | .obj fields => fieldSites fields
  | _ => []

def itemSites (i : Nat) : List Json → List (Place × String)
  | [] => []
  | j :: rest => (sites j).map (behind (.item i)) ++ itemSites (i + 1) rest

def fieldSites : List (String × Json) → List (Place × String)
  | [] => []
  | (name, j) :: rest => (sites j).map (behind (.field name)) ++ fieldSites rest

end

/-- The scripts of some children, each seen from outside. -/
def sitesOf (children : List (Step × Json)) : List (Place × String) :=
  children.flatMap fun c => (sites c.2).map (behind c.1)

/-- A list has all scripts of a value with their places, in the order of these. -/
structure Lists (j : Json) (found : List (Place × String)) : Prop where
  mem_iff : ∀ p code, (p, code) ∈ found ↔ (at? p j).bind script? = some code
  inOrder : found.Pairwise fun site later => Before site.1 later.1

/-- A value is another one with what stands for its scripts in their places. -/
structure Replaced (j : Json) (answers : Place → Json) (w : Json) : Prop where
  answered : ∀ p a code, at? p j = some a → script? a = some code → at? p w = some (answers p)
  kept : ∀ p a, at? p j = some a → script? a = none → ∃ b, at? p w = some b ∧ Alike a b

variable {j w : Json} {p : Place} {code : String}

theorem itemSites_eq (i : Nat) (items : List Json) :
    itemSites i items = sitesOf (items.mapIdx fun k j => (.item (i + k), j)) := by
  induction items generalizing i with
  | nil => rfl
  | cons j rest ih =>
      rw [itemSites, ih, List.mapIdx_cons, sitesOf, sitesOf, List.flatMap_cons]
      simp only [Nat.add_zero, Nat.add_right_comm, Nat.add_assoc]

theorem fieldSites_eq (fields : List (String × Json)) :
    fieldSites fields = sitesOf (fields.map fun (name, j) => (.field name, j)) := by
  induction fields with
  | nil => rfl
  | cons e rest ih =>
      rw [fieldSites, ih]
      rfl

/-- A value that is no script has the scripts of its children. -/
theorem sites_plain (h : script? j = none) : sites j = sitesOf (children j) := by
  cases j with
  | str text =>
      have htext : scriptText? text = none := h
      rw [sites, htext]
      rfl
  | arr items =>
      rw [sites, itemSites_eq, children]
      simp only [Nat.zero_add]
  | obj fields => rw [sites, fieldSites_eq, children]
  | _ => rfl

theorem sites_script (h : script? j = some code) : sites j = [([], code)] := by
  cases j with
  | str text =>
      have htext : scriptText? text = some code := h
      rw [sites, htext]
      rfl
  | _ => cases h

/-- A script has nothing inside. -/
theorem children_script (h : script? j = some code) : children j = [] := by
  cases j with
  | str text => rfl
  | _ => cases h

theorem mem_sitesOf {children : List (Step × Json)} {site : Place × String} :
    site ∈ sitesOf children ↔ ∃ c ∈ children, ∃ inner ∈ sites c.2, behind c.1 inner = site := by
  rw [sitesOf, List.mem_flatMap]
  simp only [List.mem_map]

theorem lists_script (h : script? j = some code) : Lists j (sites j) := by
  rw [sites_script h]
  refine ⟨fun p found => ?_, List.pairwise_singleton _ _⟩
  cases p with
  | nil => simp [at?, h, eq_comm]
  | cons step p =>
      have hnone : at? (step :: p) j = none := by
        cases hat : at? (step :: p) j with
        | none => rfl
        | some a =>
            obtain ⟨c, hc, -⟩ := mem_children_of_at? hat
            rw [children_script h] at hc
            cases hc
      simp [hnone]

/-- **All scripts are listed, and in order.** -/
theorem lists_sites : ∀ j : Json, j.Legal → Lists j (sites j) := by
  refine byChildren fun j ih hj => ?_
  cases hscript : script? j with
  | some code => exact lists_script hscript
  | none =>
      have hnodup := children_nodup hj
      have hchild : ∀ c ∈ children j, Lists c.2 (sites c.2) := fun c hc =>
        ih c hc (legal_of_mem_children hj c hc)
      rw [sites_plain hscript]
      refine ⟨fun p code => ?mem, ?order⟩
      case mem =>
        rw [mem_sitesOf]
        constructor
        · rintro ⟨⟨step, c⟩, hc, ⟨inner, text⟩, hinner, hsite⟩
          obtain ⟨rfl, rfl⟩ := Prod.mk.inj hsite
          rw [at?_child hnodup hc]
          exact ((hchild _ hc).mem_iff inner text).mp hinner
        · intro h
          obtain ⟨a, hat, ha⟩ := Option.bind_eq_some_iff.mp h
          cases p with
          | nil =>
              obtain rfl := Option.some.inj hat
              rw [hscript] at ha
              cases ha
          | cons step inner =>
              obtain ⟨c, hc, hinner⟩ := mem_children_of_at? hat
              have hlisted : (inner, code) ∈ sites c := by
                rw [(hchild _ hc).mem_iff, hinner]
                exact ha
              exact ⟨(step, c), hc, _, hlisted, rfl⟩
      case order =>
        rw [sitesOf, List.pairwise_flatMap]
        constructor
        · intro c hc
          rw [List.pairwise_map]
          exact (hchild c hc).inOrder.imp .cons
        · refine (children_pairwise hj).imp fun hbefore site hsite later hlater => ?_
          obtain ⟨inner, -, rfl⟩ := List.mem_map.mp hsite
          obtain ⟨inner', -, rfl⟩ := List.mem_map.mp hlater
          exact .rel hbefore

/-! ### Values with their answers -/

/-- Of a value that is no script, the children have their answers behind their steps. -/
theorem replaced_plain_iff {answers : Place → Json} (hj : j.Legal) (hscript : script? j = none) :
    Replaced j answers w ↔ ∃ vs, w = rebuild j vs ∧
      List.Forall₂ (fun c v => Replaced c.2 (fun p => answers (c.1 :: p)) v) (children j) vs := by
  have hnodup := children_nodup hj
  -- The same steps lead to the children of both values.
  have hpair : ∀ {vs}, vs.length = (children j).length → ∀ {c v}, (c, v) ∈ (children j).zip vs →
      ∀ p, at? (c.1 :: p) j = at? p c.2 ∧ at? (c.1 :: p) (rebuild j vs) = at? p v := by
    intro vs hlength c v hcv p
    have hrebuild := children_rebuild hlength
    refine ⟨at?_child hnodup (List.of_mem_zip hcv).1 p, at?_child ?_ ?_ p⟩
    · rw [hrebuild, List.map_fst_zip (by rw [List.length_map, hlength])]
      exact hnodup
    · rw [hrebuild, List.zip_map_left, List.mem_map]
      exact ⟨(c, v), hcv, rfl⟩
  constructor
  · intro h
    obtain ⟨b, hb, halike⟩ := h.kept [] j rfl hscript
    obtain rfl := Option.some.inj hb
    obtain ⟨vs, hlength, rfl⟩ := alike_iff.mp halike
    refine ⟨vs, rfl, List.forall₂_iff_zip.mpr ⟨hlength.symm, fun {c v} hcv => ⟨?_, ?_⟩⟩⟩
    · intro p a code hat ha
      obtain ⟨hleft, hright⟩ := hpair hlength hcv p
      rw [← hright]
      exact h.answered (c.1 :: p) a code (hleft.trans hat) ha
    · intro p a hat ha
      obtain ⟨hleft, hright⟩ := hpair hlength hcv p
      rw [← hright]
      exact h.kept (c.1 :: p) a (hleft.trans hat) ha
  · rintro ⟨vs, rfl, hall⟩
    obtain ⟨hlength, hchildren⟩ := List.forall₂_iff_zip.mp hall
    -- Behind a step into the value there is a child, and what has become of it.
    have hinside : ∀ step p a, at? (step :: p) j = some a → ∃ c v,
        Replaced c (fun p => answers (step :: p)) v ∧ at? p c = some a ∧
        at? (step :: p) (rebuild j vs) = at? p v := by
      intro step p a hat
      obtain ⟨c, hc, hinner⟩ := mem_children_of_at? hat
      obtain ⟨i, hi, hci⟩ := List.getElem_of_mem hc
      have hiv : i < vs.length := hlength ▸ hi
      have hcv : ((step, c), vs[i]) ∈ (children j).zip vs := by
        rw [List.mem_iff_getElem]
        exact ⟨i, by simp [hi, hiv], by simp [hci]⟩
      exact ⟨c, vs[i], hchildren hcv, hinner, (hpair hlength.symm hcv p).2⟩
    refine ⟨?_, ?_⟩
    · intro p a code hat ha
      cases p with
      | nil =>
          obtain rfl := Option.some.inj hat
          rw [hscript] at ha
          cases ha
      | cons step p =>
          obtain ⟨c, v, hc, hinner, hv⟩ := hinside step p a hat
          rw [hv]
          exact hc.answered p a code hinner ha
    · intro p a hat ha
      cases p with
      | nil =>
          obtain rfl := Option.some.inj hat
          exact ⟨_, rfl, alike_iff.mpr ⟨vs, hlength.symm, rfl⟩⟩
      | cons step p =>
          obtain ⟨c, v, hc, hinner, hv⟩ := hinside step p a hat
          rw [hv]
          exact hc.kept p a hinner ha

theorem replaced_script_iff {answers : Place → Json} (hscript : script? j = some code) :
    Replaced j answers w ↔ w = answers [] := by
  have hnone : ∀ step p a, at? (step :: p) j ≠ some a := by
    intro step p a hat
    obtain ⟨c, hc, -⟩ := mem_children_of_at? hat
    rw [children_script hscript] at hc
    cases hc
  constructor
  · intro h
    exact Option.some.inj (h.answered [] j code rfl hscript)
  · rintro rfl
    refine ⟨?_, ?_⟩
    · intro p a code' hat _
      cases p with
      | nil => rfl
      | cons step p => exact absurd hat (hnone step p a)
    · intro p a hat ha
      cases p with
      | nil =>
          obtain rfl := Option.some.inj hat
          rw [hscript] at ha
          cases ha
      | cons step p => exact absurd hat (hnone step p a)

/-! ### The walk -/

section Walk

variable {m : Type → Type} [Monad m] [LawfulMonad m] (run : String → m Json)

theorem resolveFields_eq (fields : List (String × Json)) :
    resolveFields run fields = do
      let vs ← resolveItems run (fields.map Prod.snd)
      return (Entries.keys fields).zip vs := by
  induction fields with
  | nil => simp [resolveFields, resolveItems, Entries.keys]
  | cons e rest ih =>
      obtain ⟨name, j⟩ := e
      rw [resolveFields, ih, List.map_cons, resolveItems]
      simp [Entries.keys]

/-- A value that is no script is put together from its children. -/
theorem resolveDeep_plain (h : script? j = none) :
    resolveDeep run j = do
      let vs ← resolveItems run ((children j).map Prod.snd)
      return rebuild j vs := by
  cases j with
  | arr items =>
      have hitems : (children (.arr items)).map Prod.snd = items :=
        Json.arr.inj (rebuild_self (.arr items))
      rw [resolveDeep, hitems]
      rfl
  | obj fields =>
      have hfields : (children (.obj fields)).map Prod.snd = fields.map Prod.snd := by
        rw [children, List.map_map]
        rfl
      rw [resolveDeep, resolveFields_eq, hfields]
      simp [rebuild]
  | _ =>
      rw [resolveDeep, resolve, h]
      · simp [children, resolveItems, rebuild]
      all_goals
        intro _ hother
        cases hother

omit [LawfulMonad m] in
theorem resolveDeep_script (h : script? j = some code) : resolveDeep run j = run code := by
  cases j with
  | str text =>
      rw [resolveDeep, resolve, h]
      all_goals
        intro _ hother
        cases hother
  | _ => cases h

/-- Without scripts nothing is run. -/
theorem resolveDeep_pure : ∀ j : Json, j.Legal →
    (∀ p a, at? p j = some a → script? a = none) → resolveDeep run j = pure j := by
  refine byChildren fun j ih hj hplain => ?_
  have hall : ∀ children : List (Step × Json),
      (∀ c ∈ children, resolveDeep run c.2 = pure c.2) →
      resolveItems run (children.map Prod.snd) = pure (children.map Prod.snd) := by
    intro children hchildren
    induction children with
    | nil => rfl
    | cons c rest ihrest =>
        obtain ⟨hc, hrest⟩ := List.forall_mem_cons.mp hchildren
        rw [List.map_cons, resolveItems, hc, ihrest hrest]
        simp
  have hchildren : resolveItems run ((children j).map Prod.snd)
      = pure ((children j).map Prod.snd) := by
    refine hall (children j) fun c hc => ih c hc (legal_of_mem_children hj c hc) fun p a hat => ?_
    exact hplain (c.1 :: p) a ((at?_child (children_nodup hj) hc p).trans hat)
  rw [resolveDeep_plain run (hplain [] j rfl), hchildren]
  simp [rebuild_self]

end Walk

section Outcomes

variable {ε σ : Type} {run : Evaluator ε σ} {s s' : σ} {e : ε}

/-- The scripts of a value. -/
def scripts (j : Json) : List String := (sites j).map Prod.snd

/-- The scripts of some children. -/
def scriptsOf (children : List (Step × Json)) : List String := children.flatMap fun c => scripts c.2

theorem scripts_sitesOf (children : List (Step × Json)) :
    (sitesOf children).map Prod.snd = scriptsOf children := by
  rw [sitesOf, scriptsOf, List.map_flatMap]
  refine congrArg (List.flatMap · children) (funext fun c => ?_)
  rw [scripts, List.map_map]
  rfl

theorem scripts_plain (h : script? j = none) : scripts j = scriptsOf (children j) := by
  rw [scripts, sites_plain h, scripts_sitesOf]

theorem scripts_script (h : script? j = some code) : scripts j = [code] := by
  rw [scripts, sites_script h]
  rfl

/-- What the scripts of a value are answered, by their places. -/
def atSites (answers : Place → Json) (found : List (Place × String)) : List Json :=
  found.map fun site => answers site.1

theorem atSites_behind (answers : Place → Json) (step : Step) (found : List (Place × String)) :
    atSites answers (found.map (behind step)) = atSites (fun p => answers (step :: p)) found := by
  rw [atSites, atSites, List.map_map]
  rfl

/-- Answers for the places behind one step and answers for all other places are answers for all
places. -/
theorem exists_joined (step : Step) (first others : Place → Json) :
    ∃ answers : Place → Json, (∀ p, answers (step :: p) = first p) ∧
      ∀ other, other ≠ step → ∀ p, answers (other :: p) = others (other :: p) := by
  refine ⟨fun | head :: p => if head = step then first p else others (head :: p)
              | [] => others [], ?_, ?_⟩
  · intro p
    simp
  · intro other hne p
    simp [hne]

/-- A child is computed as its scripts are answered. -/
def Computes (run : Evaluator ε σ) (j : Json) : Prop :=
  ∀ s w s', outcome (resolveDeep run j) s = (.ok w, s') ↔
    ∃ answers : Place → Json, Answers run (scripts j) s (atSites answers (sites j)) s' ∧
      Replaced j answers w

theorem resolveItems_ok_iff {children : List (Step × Json)}
    (hnodup : (children.map Prod.fst).Nodup) (h : ∀ c ∈ children, Computes run c.2)
    {vs : List Json} :
    outcome (resolveItems run (children.map Prod.snd)) s = (.ok vs, s') ↔
      ∃ answers : Place → Json,
        Answers run (scriptsOf children) s (atSites answers (sitesOf children)) s' ∧
        List.Forall₂ (fun c v => Replaced c.2 (fun p => answers (c.1 :: p)) v) children vs := by
  induction children generalizing s vs with
  | nil =>
      refine pure_ok_iff.trans ⟨?_, ?_⟩
      · rintro ⟨rfl, rfl⟩
        exact ⟨fun _ => .null, .nil, .nil⟩
      · rintro ⟨answers, hanswers, hall⟩
        cases hall
        exact ⟨rfl, (answers_nil_iff.mp hanswers).2⟩
  | cons c rest ih =>
      obtain ⟨step, j⟩ := c
      obtain ⟨hfresh, hrest⟩ := List.nodup_cons.mp hnodup
      obtain ⟨hj, hothers⟩ := List.forall_mem_cons.mp h
      have hsplit : ∀ answers : Place → Json, atSites answers (sitesOf ((step, j) :: rest))
          = atSites (fun p => answers (step :: p)) (sites j) ++ atSites answers (sitesOf rest) := by
        intro answers
        rw [sitesOf, List.flatMap_cons, atSites, List.map_append, ← atSites, atSites_behind]
        rfl
      have hscripts : scriptsOf ((step, j) :: rest) = scripts j ++ scriptsOf rest := rfl
      rw [List.map_cons, resolveItems]
      simp only [bind_ok_iff, pure_ok_iff, hsplit, hscripts]
      constructor
      · rintro ⟨v, s₁, hv, ws, s₂, hws, rfl, rfl⟩
        obtain ⟨first, hfirst, hreplaced⟩ := (hj s v s₁).mp hv
        obtain ⟨others, hanswers, hall⟩ := (ih hrest hothers).mp hws
        obtain ⟨answers, hstep, hother⟩ := exists_joined step first others
        have hsame : ∀ c ∈ rest, ∀ p, answers (c.1 :: p) = others (c.1 :: p) := by
          intro c hc p
          exact hother c.1 (fun heq => hfresh (List.mem_map.mpr ⟨c, hc, heq⟩)) p
        refine ⟨answers, ?_, .cons ?_ ?_⟩
        · have hleft : (fun p => answers (step :: p)) = first := funext hstep
          have hright : atSites answers (sitesOf rest) = atSites others (sitesOf rest) := by
            refine List.map_congr_left fun site hsite => ?_
            obtain ⟨c, hc, inner, -, rfl⟩ := mem_sitesOf.mp hsite
            exact hsame c hc inner.1
          rw [hleft, hright]
          exact hfirst.append hanswers
        · rw [funext hstep]
          exact hreplaced
        · refine List.forall₂_iff_zip.mpr ⟨hall.length_eq, fun {c v} hcv => ?_⟩
          have hc := (List.forall₂_iff_zip.mp hall).2 hcv
          rw [funext (hsame c (List.of_mem_zip hcv).1)]
          exact hc
      · rintro ⟨answers, hanswers, hall⟩
        cases hall with
        | cons hv hall =>
            have hlength : (scripts j).length
                = (atSites (fun p => answers (step :: p)) (sites j)).length := by
              rw [scripts, atSites, List.length_map, List.length_map]
            obtain ⟨s₁, hfirst, hmore⟩ := hanswers.of_append hlength
            exact ⟨_, s₁, (hj s _ s₁).mpr ⟨_, hfirst, hv⟩, _, s',
              (ih hrest hothers).mpr ⟨answers, hmore, hall⟩, rfl, rfl⟩

/-- **A value is computed as its scripts are answered**, and the answers stand in their places. -/
theorem resolveDeep_ok_iff (run : Evaluator ε σ) : ∀ j : Json, j.Legal → Computes run j := by
  refine byChildren fun j ih hj s w s' => ?_
  cases hscript : script? j with
  | some code =>
      rw [resolveDeep_script run hscript, sites_script hscript, scripts_script hscript]
      simp only [replaced_script_iff hscript, atSites, List.map_cons, List.map_nil]
      constructor
      · intro hrun
        exact ⟨fun _ => w, answers_singleton_iff.mpr ⟨w, rfl, hrun⟩, rfl⟩
      · rintro ⟨answers, hanswers, rfl⟩
        obtain ⟨v, hv, hrun⟩ := answers_singleton_iff.mp hanswers
        rw [(List.cons.inj hv).1]
        exact hrun
  | none =>
      have hchildren : ∀ c ∈ children j, Computes run c.2 := fun c hc =>
        ih c hc (legal_of_mem_children hj c hc)
      rw [resolveDeep_plain run hscript, sites_plain hscript, scripts_plain hscript]
      simp only [bind_ok_iff, pure_ok_iff, replaced_plain_iff hj hscript,
        resolveItems_ok_iff (children_nodup hj) hchildren]
      grind

/-- A value has a result or an error as its scripts say, all of them or the first that fails. -/
structure Settles (run : Evaluator ε σ) (j : Json) : Prop where
  ok_iff : ∀ s s', (∃ w, outcome (resolveDeep run j) s = (.ok w, s')) ↔
    Answered run (scripts j) s s'
  error_iff : ∀ s e s', outcome (resolveDeep run j) s = (.error e, s') ↔
    FirstFails run (scripts j) s e s'

theorem resolveItems_answered_iff {children : List (Step × Json)}
    (h : ∀ c ∈ children, Settles run c.2) :
    (∃ vs, outcome (resolveItems run (children.map Prod.snd)) s = (.ok vs, s')) ↔
      Answered run (scriptsOf children) s s' := by
  induction children generalizing s with
  | nil =>
      have hnil : outcome (resolveItems run []) s = (.ok [], s) := rfl
      rw [scriptsOf, List.flatMap_nil, answered_nil_iff, List.map_nil, hnil]
      simp
  | cons c rest ih =>
      obtain ⟨hc, hrest⟩ := List.forall_mem_cons.mp h
      have hscripts : scriptsOf (c :: rest) = scripts c.2 ++ scriptsOf rest := rfl
      rw [List.map_cons, resolveItems, hscripts, answered_append_iff]
      simp only [bind_ok_iff, pure_ok_iff, ← hc.ok_iff, ← ih hrest]
      grind

theorem resolveItems_error_iff {children : List (Step × Json)}
    (h : ∀ c ∈ children, Settles run c.2) :
    outcome (resolveItems run (children.map Prod.snd)) s = (.error e, s') ↔
      FirstFails run (scriptsOf children) s e s' := by
  induction children generalizing s with
  | nil => exact iff_of_false pure_error not_firstFails_nil
  | cons c rest ih =>
      obtain ⟨hc, hrest⟩ := List.forall_mem_cons.mp h
      have hscripts : scriptsOf (c :: rest) = scripts c.2 ++ scriptsOf rest := rfl
      rw [List.map_cons, resolveItems, hscripts, firstFails_append_iff]
      simp only [bind_error_iff, pure_error, hc.error_iff, ← hc.ok_iff, ih hrest]
      grind

/-- **Of all scripts in a value, the first that fails is the failure.** -/
theorem resolveDeep_settles (run : Evaluator ε σ) : ∀ j : Json, Settles run j := by
  refine byChildren fun j ih => ?_
  cases hscript : script? j with
  | some code =>
      refine ⟨fun s s' => ?_, fun s e s' => ?_⟩
      · rw [resolveDeep_script run hscript, scripts_script hscript, answered_cons_iff]
        simp only [answered_nil_iff, exists_eq_right]
      · rw [resolveDeep_script run hscript, scripts_script hscript, firstFails_cons_iff]
        simp only [not_firstFails_nil, and_false, exists_false, or_false]
  | none =>
      refine ⟨fun s s' => ?_, fun s e s' => ?_⟩
      · rw [resolveDeep_plain run hscript, scripts_plain hscript, ← resolveItems_answered_iff ih]
        simp only [bind_ok_iff, pure_ok_iff]
        grind
      · rw [resolveDeep_plain run hscript, scripts_plain hscript, ← resolveItems_error_iff ih]
        simp only [bind_error_iff, pure_error, and_false, exists_false, or_false]

end Outcomes

/-- **The scripts in a value are run in the order of their places, each once, until one fails.**
`sites` lists them: everything that stands at some place and is a script, an item before those with
a greater index, a field before those with a greater name.  If all of them are answered, the value
is computed, and if one fails, its error is that of the whole.  What is computed has the answer
where the script stood, as it is, and everything else as it was.  Without scripts the evaluator is
not asked. -/
theorem resolveDeep_in_order {v : Json} (hv : v.Legal) :
    Lists v (sites v) ∧
      (∀ {ε σ : Type} (run : Evaluator ε σ) (s : σ),
        (∀ w s', outcome (resolveDeep run v) s = (.ok w, s') ↔
          ∃ answers : Place → Json,
            Answers run ((sites v).map Prod.snd) s ((sites v).map fun site => answers site.1) s' ∧
            Replaced v answers w) ∧
        (∀ s', (∃ w, outcome (resolveDeep run v) s = (.ok w, s')) ↔
          Answered run ((sites v).map Prod.snd) s s') ∧
        ∀ e s', outcome (resolveDeep run v) s = (.error e, s') ↔
          FirstFails run ((sites v).map Prod.snd) s e s') ∧
      ((∀ p a, at? p v = some a → script? a = none) →
        ∀ {ε σ : Type} (run : Evaluator ε σ), resolveDeep run v = pure v) := by
  refine ⟨lists_sites v hv, fun run s => ⟨?computed, ?answered, ?failed⟩,
    fun hplain _ _ run => resolveDeep_pure run v hv hplain⟩
  case computed => exact resolveDeep_ok_iff run v hv s
  case answered => exact (resolveDeep_settles run v).ok_iff s
  case failed => exact (resolveDeep_settles run v).error_iff s

/-- An evaluator that remembers what it was asked.  It answers with a list that has a script in it,
and fails at one word. -/
def echoing : Evaluator String (List String) := fun code => do
  modify (· ++ [code])
  if code = "boom" then throw "no answer" else return .arr [.str ("js:" ++ code)]

/-- Two scripts with an empty list between them. -/
def lines : Json := .arr [.str "js:first", .arr [], .str "js:last"]

/-- Scripts in a list and behind it, and what looks like one is a name. -/
def letter : Json :=
  .obj [("js:title", .str "plain"), ("lines", lines), ("sign", .str "js:boom")]

/-- The scripts are run in order, and the answers to the first two are not. -/
theorem resolveDeep_in_order_letter :
    letter.Legal ∧ lines.Legal ∧
      outcome (resolveDeep echoing letter) [] = (.error "no answer", ["first", "last", "boom"]) ∧
      ∃ w, outcome (resolveDeep echoing lines) [] = (.ok w, ["first", "last"]) ∧
        at? [.item 0] w = some (.arr [.str "js:first"]) ∧ at? [.item 1] w = some (.arr []) := by
  have hlines : lines.Legal := ⟨trivial, trivial, trivial, trivial⟩
  have hletter : letter.Legal := by
    refine ⟨?_, trivial, hlines, trivial, trivial⟩
    simp only [Entries.Sorted, Entries.keys, List.map_cons, List.map_nil]
    decide
  have hsites : (sites letter).map Prod.snd = ["first", "last", "boom"] := by decide +kernel
  have hinner : sites lines = [([.item 0], "first"), ([.item 2], "last")] := by decide +kernel
  obtain ⟨-, hruns, -⟩ := resolveDeep_in_order hletter
  obtain ⟨-, hinside, -⟩ := resolveDeep_in_order hlines
  obtain ⟨-, -, hfails⟩ := hruns echoing []
  obtain ⟨hcomputed, hanswered, -⟩ := hinside echoing []
  rw [hsites] at hfails
  rw [hinner] at hcomputed hanswered
  obtain ⟨w, hw⟩ := (hanswered ["first", "last"]).mpr (.cons rfl (.cons rfl .nil))
  obtain ⟨answers, hanswers, hreplaced⟩ := (hcomputed w _).mp hw
  refine ⟨hletter, hlines, (hfails _ _).mpr ?fails, w, hw, ?first, ?second⟩
  case fails => exact ⟨["first", "last"], "boom", [], _, rfl, .cons rfl (.cons rfl .nil), rfl⟩
  case first =>
    cases hanswers with
    | cons hrun _ =>
        have hfirst := Except.ok.inj (Prod.mk.inj hrun).1
        rw [hreplaced.answered [.item 0] (.str "js:first") "first" rfl (by decide +kernel)]
        exact congrArg some hfirst.symm
  case second =>
    obtain ⟨b, hb, halike⟩ := hreplaced.kept [.item 1] (.arr []) rfl rfl
    cases halike with
    | leaf hleaf => cases hleaf
    | arr hlength => rw [hb, List.length_eq_zero_iff.mp hlength.symm]

end Template

end FlowGraph
