/-
Loops over lists.

A loop over a list takes one turn for each element, in order, until a turn goes wrong.  `Turned`
lists the states between turns: each turn starts where the one before it has ended.  The list is
the one that the loop has set out with, so it does not matter what turns do to the place that the
list is from.

Two lists, one behind the other, are looped over as the first one and then the second one.  As two
blocks they leave one event more in the journal, where the loop over the first one has ended; and
since nothing reads the journal, that is all the difference (`Rejoined`).
-/
import FlowGraph.Proofs.Run.Indices
import FlowGraph.Proofs.Run.Unread
import FlowGraph.Proofs.Run.Faults
import FlowGraph.Web.Offline

namespace FlowGraph

variable {δ χ : Type} [Store.Database δ]

/-! ### Lists -/

/-- The list of a loop: its input, what it was told, or what its script gives.  A script may leave
another state. -/
inductive EachConfig.Gives (c : EachConfig) (params : Json) (ctx : Context δ χ) :
    List Json → Context δ χ → Prop
  | input {items : List Json} (huse : c.useParam = true) (hparams : params = .arr items) :
      Gives c params ctx items ctx
  | literal {items : List Json} (huse : c.useParam = false) (hvalues : c.values = .arr items) :
      Gives c params ctx items ctx
  | script {text code : String} {items : List Json} {mid : Context δ χ} (huse : c.useParam = false)
      (hvalues : c.values = .str text) (hcode : Template.scriptText? text = some code)
      (hrun : ctx.evaluate [] params code = (.ok (.arr items), mid)) : Gives c params ctx items mid

/-- A value stands for itself, or for what its script gives. -/
theorem resolve_run_eq (params setting : Json) (ctx : Context δ χ) :
    (Act.resolve params setting).run ctx
      = match Template.script? setting with
        | some code => ctx.evaluate [] params code
        | none => (.ok setting, ctx) := by
  rw [Act.resolve, Template.resolve]
  cases Template.script? setting <;> rfl

theorem resolveItems_values_iff {c : EachConfig} {params : Json} {ctx mid : Context δ χ}
    {items : List Json} (huse : c.useParam = false) :
    (resolveItems c params).run ctx = (.ok items, mid)
      ↔ (Act.resolve params c.values).run ctx = (.ok (.arr items), mid) := by
  have hadapt : ∀ x : ExceptT Script.Failure (Act δ χ) Json,
      (x.adapt Script.Failure.message).run ctx
        = ((x.run ctx).1.mapError Script.Failure.message, (x.run ctx).2) := fun _ => rfl
  unfold resolveItems
  simp only [huse, Bool.false_eq_true, if_false]
  rw [Act.run_bind_apply, hadapt]
  generalize (Act.resolve params c.values).run ctx = out
  constructor
  · intro h
    obtain ⟨f | v, mid'⟩ := out
    · exact nomatch (Prod.mk.inj h).1
    · cases v with
      | arr items' =>
          obtain ⟨hitems, rfl⟩ := Prod.mk.inj h
          rw [Except.ok.inj hitems]
      | _ => exact nomatch (Prod.mk.inj h).1
  · rintro rfl
    rfl

/-- **A loop has its list from one of three places.** -/
theorem resolveItems_ok_iff {c : EachConfig} {params : Json} {ctx mid : Context δ χ}
    {items : List Json} :
    (resolveItems c params).run ctx = (.ok items, mid) ↔ c.Gives params ctx items mid := by
  cases huse : c.useParam with
  | true =>
      unfold resolveItems
      simp only [huse, if_true]
      constructor
      · intro h
        cases params with
        | arr input =>
            obtain ⟨hitems, rfl⟩ := Prod.mk.inj h
            exact .input huse (congrArg Json.arr (Except.ok.inj hitems))
        | _ => exact nomatch (Prod.mk.inj h).1
      · intro h
        cases h with
        | input _ hparams => rw [hparams]; rfl
        | literal hnot | script hnot => exact nomatch huse.symm.trans hnot
  | false =>
      rw [resolveItems_values_iff huse, resolve_run_eq]
      constructor
      · intro h
        split at h
        · rename_i code hcode
          obtain ⟨text, hvalues⟩ : ∃ text, c.values = .str text := by
            cases hv : c.values with
            | str text => exact ⟨text, rfl⟩
            | _ => rw [hv] at hcode; exact nomatch hcode
          rw [hvalues] at hcode
          exact .script huse hvalues hcode h
        · obtain ⟨hitems, rfl⟩ := Prod.mk.inj h
          exact .literal huse (Except.ok.inj hitems)
      · intro h
        cases h with
        | input huse' => exact nomatch huse.symm.trans huse'
        | literal _ hvalues => rw [hvalues]; rfl
        | script _ hvalues hcode hrun => rw [hvalues, Template.script?, hcode]; exact hrun

/-! ### Turns -/

/-- The first turns of a loop, with the states before, between and after them.  Each turn has its
value, starts in the state that the turn before it has left, and comes to an end. -/
structure Turned [Client χ] (entry : String) (inner : BlockMap) (values : List Json)
    (ctx : Context δ χ) (states : Nat → Context δ χ) (k : Nat) : Prop where
  first : states 0 = ctx
  turn : ∀ j < k, ∃ v out, values[j]? = some v ∧
    Outset.Ends ⟨inner, entry, v, states j⟩ (.ok out) (states (j + 1))

variable [Client χ]

section Turns

variable {entry : String} {inner : BlockMap} {v : Json} {values : List Json} {ctx mid : Context δ χ}
  {states : Nat → Context δ χ} {k : Nat}

theorem Turned.none (ctx : Context δ χ) : Turned entry inner values ctx (fun _ => ctx) 0 :=
  ⟨rfl, fun _ hj => absurd hj (Nat.not_lt_zero _)⟩

theorem Turned.cons {out : Output} (hv : Outset.Ends ⟨inner, entry, v, ctx⟩ (.ok out) mid)
    (h : Turned entry inner values mid states k) :
    Turned entry inner (v :: values) ctx (fun | 0 => ctx | j + 1 => states j) (k + 1) := by
  refine ⟨rfl, fun j hj => ?_⟩
  cases j with
  | zero =>
      obtain rfl := h.first
      exact ⟨v, out, rfl, hv⟩
  | succ j => exact h.turn j (Nat.lt_of_succ_lt_succ hj)

theorem Turned.tail (h : Turned entry inner (v :: values) ctx states (k + 1)) :
    (∃ out, Outset.Ends ⟨inner, entry, v, ctx⟩ (.ok out) (states 1)) ∧
      Turned entry inner values (states 1) (fun j => states (j + 1)) k := by
  obtain ⟨v', out, hv', hends⟩ := h.turn 0 (Nat.succ_pos k)
  obtain rfl := Option.some.inj hv'
  exact ⟨⟨out, h.first ▸ hends⟩, rfl, fun j hj => h.turn (j + 1) (Nat.succ_lt_succ hj)⟩

/-- The turns that a loop takes. -/
theorem turns_iff {o : Outset δ χ} :
    Turns entry inner values ctx o ↔ ∃ k v states, values[k]? = some v ∧
      Turned entry inner values ctx states k ∧ o = ⟨inner, entry, v, states k⟩ := by
  constructor
  · intro h
    induction h with
    | @here v rest ctx => exact ⟨0, v, fun _ => ctx, rfl, .none ctx, rfl⟩
    | later hv _ ih =>
        obtain ⟨k, v, states, hk, hturned, rfl⟩ := ih
        exact ⟨k + 1, v, _, hk, hturned.cons hv, rfl⟩
  · rintro ⟨k, v, states, hk, hturned, rfl⟩
    induction k generalizing values ctx states with
    | zero =>
        obtain ⟨rest, rfl⟩ : ∃ rest, values = v :: rest := by
          cases values with
          | nil => exact nomatch hk
          | cons v' rest => exact ⟨rest, by rw [Option.some.inj hk]⟩
        rw [hturned.first]
        exact .here
    | succ k ih =>
        cases values with
        | nil => exact nomatch hk
        | cons v' rest =>
            obtain ⟨⟨out, hv⟩, hrest⟩ := hturned.tail
            exact .later hv (ih _ hk hrest)

/-- A loop ends with its first turn or goes on after it. -/
theorem LoopEnds.cons_iff {r : Except RunError Unit} {last : Context δ χ} :
    LoopEnds entry inner (v :: values) ctx r last ↔
      (∃ e, Outset.Ends ⟨inner, entry, v, ctx⟩ (.error e) last ∧ r = .error e) ∨
      ∃ out mid, Outset.Ends ⟨inner, entry, v, ctx⟩ (.ok out) mid ∧
        LoopEnds entry inner values mid r last := by
  constructor
  · rintro ⟨fuel, h⟩
    rw [eachLoop_cons_iff] at h
    cases h with
    | failed hr => exact Or.inl ⟨_, ⟨fuel, hr⟩, rfl⟩
    | passed hr h => exact Or.inr ⟨_, _, ⟨fuel, hr⟩, fuel, h⟩
  · rintro (⟨e, he, rfl⟩ | ⟨out, mid, hv, h⟩)
    · exact .failed he
    · exact .passed hv h

/-- A loop ends after all of its turns, or with the first one that goes wrong. -/
theorem loopEnds_iff {r : Except RunError Unit} {last : Context δ χ} :
    LoopEnds entry inner values ctx r last ↔
      (∃ states, Turned entry inner values ctx states values.length ∧ r = .ok () ∧
        last = states values.length) ∨
      ∃ k v states e, values[k]? = some v ∧ Turned entry inner values ctx states k ∧
        Outset.Ends ⟨inner, entry, v, states k⟩ (.error e) last ∧ r = .error e := by
  constructor
  · intro h
    induction values generalizing ctx with
    | nil =>
        obtain ⟨fuel, h⟩ := h
        obtain ⟨rfl, rfl⟩ := Prod.mk.inj (Option.some.inj h)
        exact Or.inl ⟨_, .none ctx, rfl, rfl⟩
    | cons v rest ih =>
        rcases LoopEnds.cons_iff.mp h with ⟨e, he, rfl⟩ | ⟨out, mid, hv, h⟩
        · exact Or.inr ⟨0, v, _, e, rfl, .none ctx, he, rfl⟩
        · rcases ih h with ⟨states, hturned, rfl, rfl⟩ | ⟨k, v', states, e, hk, hturned, he, rfl⟩
          · exact Or.inl ⟨_, hturned.cons hv, rfl, rfl⟩
          · exact Or.inr ⟨k + 1, v', _, e, hk, hturned.cons hv, he, rfl⟩
  · rintro (⟨states, hturned, rfl, rfl⟩ | ⟨k, v, states, e, hk, hturned, he, rfl⟩)
    · induction values generalizing ctx states with
      | nil => rw [List.length_nil, hturned.first]; exact .nil
      | cons v rest ih =>
          obtain ⟨⟨out, hv⟩, hrest⟩ := hturned.tail
          exact .passed hv (ih _ hrest)
    · exact Turns.error (turns_iff.mpr ⟨k, v, states, hk, hturned, rfl⟩) he

end Turns

/-! ### Blocks -/

section Blocks

variable {id entry : String} {next : Option String} {inner : BlockMap} {c : EachConfig}
  {params : Json} {ctx mid last : Context δ χ} {items : List Json} {r : Except BlockError Output}

omit [Store.Database δ] [Client χ] in
/-- The end of a loop depends on the state only in what it leaves. -/
theorem loopEnd_fst (next : Option String) (params : Json) (e e' : Event)
    (looped : Except RunError Unit) (ctx ctx' : Context δ χ) :
    (loopEnd next params e looped ctx).1 = (loopEnd next params e' looped ctx').1 := by
  cases looped <;> rfl

/-- How a block around a loop ends. -/
theorem each_ends_iff (hgives : c.Gives params ctx items mid) :
    Visit.Ends ⟨.nested id next (.each c) (some (entry, inner)), params, ctx⟩ r last ↔
      ∃ looped left, LoopEnds entry inner items mid looped left ∧
        (r, last) = loopEnd next params (.eachCompleted id items.length) looped left := by
  have hitems := resolveItems_ok_iff.mpr hgives
  constructor
  · intro hends
    obtain ⟨fuel, hends⟩ := hends.succ
    rw [Block.execute_succ_iff] at hends
    cases hends with
    | eachUnset h => exact nomatch (Prod.mk.inj (hitems.symm.trans h)).1
    | eachDone h hloop | eachFailed h hloop =>
        obtain ⟨hsame, rfl⟩ := Prod.mk.inj (hitems.symm.trans h)
        obtain rfl := Except.ok.inj hsame
        exact ⟨_, _, ⟨fuel, hloop⟩, rfl⟩
  · rintro ⟨looped, left, ⟨fuel, hloop⟩, hend⟩
    refine ⟨fuel + 1, Block.execute_succ_iff.mpr ?_⟩
    cases looped with
    | ok u =>
        obtain ⟨rfl, rfl⟩ := Prod.mk.inj hend
        exact .eachDone hitems hloop
    | error e =>
        obtain ⟨rfl, rfl⟩ := Prod.mk.inj hend
        exact .eachFailed hitems hloop

/-- What a block around a loop starts. -/
theorem each_opens_iff (hgives : c.Gives params ctx items mid) {o : Outset δ χ} :
    Visit.Opens ⟨.nested id next (.each c) (some (entry, inner)), params, ctx⟩ o ↔
      Turns entry inner items mid o := by
  have hitems := resolveItems_ok_iff.mpr hgives
  constructor
  · rintro (_ | ⟨h, hturns⟩)
    obtain ⟨hsame, rfl⟩ := Prod.mk.inj (hitems.symm.trans h)
    rwa [Except.ok.inj hsame]
  · exact .each hitems

end Blocks

/-! ### One list behind the other -/

section Append

variable {entry : String} {inner : BlockMap} {values rest : List Json} {ctx mid last : Context δ χ}
  {r r' : Except RunError Unit}

theorem LoopEnds.unique {last' : Context δ χ} (h : LoopEnds entry inner values ctx r last)
    (h' : LoopEnds entry inner values ctx r' last') : r = r' ∧ last = last' := by
  obtain ⟨fuel, hfuel⟩ := h
  obtain ⟨fuel', hfuel'⟩ := h'
  exact Prod.mk.inj (Bounded.unique
    (fun _ _ hle => eachLoop_grows (fun v => inner.run_grows hle entry v) values) hfuel hfuel')

/-- A loop does not read the journal, and writes behind what is there. -/
theorem LoopEnds.appends (h : LoopEnds entry inner values ctx r last) :
    ∃ entries : Array Journal.Entry, last.journal = ctx.journal ++ entries ∧ ∀ journal,
      LoopEnds entry inner values (ctx.withJournal journal) r
        (last.withJournal (journal ++ entries)) := by
  obtain ⟨fuel, hfuel⟩ := h
  obtain ⟨entries, hentries⟩ := eachLoop_appends (inner.run_appends fuel entry) values _ _ _ hfuel
  have hsame := hfuel.symm.trans (hentries ctx.journal)
  exact ⟨entries, congrArg Context.journal (Prod.mk.inj (Option.some.inj hsame)).2,
    fun journal => ⟨fuel, hentries journal⟩⟩

/-- A loop over two lists goes over the second one where the loop over the first one has ended. -/
theorem LoopEnds.append_iff :
    LoopEnds entry inner (values ++ rest) ctx r last ↔
      (∃ e, LoopEnds entry inner values ctx (.error e) last ∧ r = .error e) ∨
      ∃ mid, LoopEnds entry inner values ctx (.ok ()) mid ∧
        LoopEnds entry inner rest mid r last := by
  induction values generalizing ctx with
  | nil =>
      constructor
      · exact fun h => Or.inr ⟨ctx, .nil, h⟩
      · rintro (⟨e, h, rfl⟩ | ⟨mid, h, hrest⟩)
        · exact nomatch (h.unique .nil).1
        · obtain rfl := (h.unique .nil).2
          exact hrest
  | cons v values ih =>
      rw [List.cons_append, LoopEnds.cons_iff]
      simp only [ih, LoopEnds.cons_iff]
      constructor
      · rintro (⟨e, he, rfl⟩ | ⟨out, mid, hv, ⟨e, he, rfl⟩ | ⟨left, hfirst, hrest⟩⟩)
        · exact Or.inl ⟨e, Or.inl ⟨e, he, rfl⟩, rfl⟩
        · exact Or.inl ⟨e, Or.inr ⟨out, mid, hv, he⟩, rfl⟩
        · exact Or.inr ⟨left, Or.inr ⟨out, mid, hv, hfirst⟩, hrest⟩
      · rintro (⟨e, ⟨e', he, hsame⟩ | ⟨out, mid, hv, he⟩, rfl⟩ |
          ⟨left, ⟨e', he, hsame⟩ | ⟨out, mid, hv, hfirst⟩, hrest⟩)
        · exact Or.inl ⟨e', he, hsame⟩
        · exact Or.inr ⟨out, mid, hv, Or.inl ⟨e, he, rfl⟩⟩
        · exact nomatch hsame
        · exact Or.inr ⟨out, mid, hv, Or.inr ⟨left, hfirst, hrest⟩⟩

end Append

/-- The events at the end of a loop that took some turns. -/
def loopEvents {ε α : Type} (id : String) (turns : Nat) : Except ε α → List Event
  | .ok _ => [.eachCompleted id turns]
  | .error _ => []

/-- Two loops in a row, of `n` and of `m` turns, leave what one loop of all these turns leaves, but
for the end of the first loop and the numbers of turns in the journal. -/
def Rejoined (id : String) (n m : Nat) (r : Except BlockError Output)
    (start between apart together : Context δ χ) : Prop :=
  ∃ first second : Array Journal.Entry,
    between.journal = start.journal ++ first ++ between.entries [.eachCompleted id n] ∧
    apart.journal = between.journal ++ second ++ apart.entries (loopEvents id m r) ∧
    together = apart.withJournal
      (start.journal ++ first ++ second ++ apart.entries (loopEvents id (n + m) r))

omit [Store.Database δ] [Client χ] in
theorem Rejoined.unique {id : String} {n m : Nat} {r : Except BlockError Output}
    {start between apart together together' : Context δ χ}
    (h : Rejoined id n m r start between apart together)
    (h' : Rejoined id n m r start between apart together') : together = together' := by
  obtain ⟨first, second, hbetween, hapart, rfl⟩ := h
  obtain ⟨first', second', hbetween', hapart', rfl⟩ := h'
  have hfirst : start.journal ++ first = start.journal ++ first' :=
    (Array.append_left_inj _).mp (hbetween.symm.trans hbetween')
  have hsecond : between.journal ++ second = between.journal ++ second' :=
    (Array.append_left_inj _).mp (hapart.symm.trans hapart')
  rw [hfirst, (Array.append_right_inj _).mp hsecond]

section Rejoining

variable {id entry : String} {next : Option String} {inner : BlockMap} {c : EachConfig}
  {params : Json} {values rest : List Json} {ctx mid left last : Context δ χ}

/-- A loop over a list that it was told. -/
def EachConfig.literal (items : List Json) : EachConfig := ⟨.arr items, false⟩

omit [Client χ] in
theorem EachConfig.literal_gives (items : List Json) (params : Json) (ctx : Context δ χ) :
    (EachConfig.literal items).Gives params ctx items ctx := .literal rfl rfl

/-- Where a loop over two lists has ended, another loop over the second one ends in the same way
after a loop over the first one. -/
theorem exists_rejoined {looped : Except RunError Unit} {r : Except BlockError Output}
    (hfirst : LoopEnds entry inner values ctx (.ok ()) mid)
    (hrest : LoopEnds entry inner rest mid looped left)
    (hend : (r, last)
      = loopEnd next params (.eachCompleted id (values.length + rest.length)) looped left) :
    ∃ apart, Visit.Ends ⟨.nested id next (.each (.literal rest)) (some (entry, inner)), params,
        mid.note (.eachCompleted id values.length)⟩ r apart ∧
      Rejoined id values.length rest.length r ctx (mid.note (.eachCompleted id values.length))
        apart last := by
  obtain ⟨first, hmid, -⟩ := hfirst.appends
  obtain ⟨second, hleft, hsecond⟩ := hrest.appends
  have hjournal : (mid.note (.eachCompleted id values.length)).journal
      = ctx.journal ++ first ++ (mid.note (.eachCompleted id values.length)).entries
          [.eachCompleted id values.length] := by
    rw [← hmid]
    rfl
  have hagain := hsecond (mid.note (.eachCompleted id values.length)).journal
  rw [hmid] at hleft
  cases looped with
  | ok u =>
      obtain ⟨rfl, rfl⟩ := Prod.mk.inj hend
      refine ⟨_, (each_ends_iff (EachConfig.literal_gives rest params _)).mpr
        ⟨.ok (), _, hagain, rfl⟩, first, second, hjournal, rfl, ?_⟩
      rw [← hleft]
      rfl
  | error e =>
      obtain ⟨rfl, rfl⟩ := Prod.mk.inj hend
      refine ⟨_, (each_ends_iff (EachConfig.literal_gives rest params _)).mpr
        ⟨.error e, _, hagain, rfl⟩, first, second, hjournal, ?_, ?_⟩
      · exact Array.append_empty.symm
      · rw [← hleft]
        exact congrArg last.withJournal Array.append_empty.symm

/-- **A loop over two lists is a loop over the first one, and then over the second one.** -/
theorem each_append_iff {r : Except BlockError Output}
    (hgives : c.Gives params ctx (values ++ rest) mid) :
    Visit.Ends ⟨.nested id next (.each c) (some (entry, inner)), params, ctx⟩ r last ↔
      (∃ e,
        Visit.Ends ⟨.nested id next (.each (.literal values)) (some (entry, inner)), params, mid⟩
          (.error e) last ∧ r = .error e) ∨
      ∃ o between apart,
        Visit.Ends ⟨.nested id next (.each (.literal values)) (some (entry, inner)), params, mid⟩
          (.ok o) between ∧
        Visit.Ends ⟨.nested id next (.each (.literal rest)) (some (entry, inner)), params, between⟩
          r apart ∧
        Rejoined id values.length rest.length r mid between apart last := by
  rw [each_ends_iff hgives]
  constructor
  · rintro ⟨looped, left, hloop, hend⟩
    rw [List.length_append] at hend
    rcases LoopEnds.append_iff.mp hloop with ⟨e, he, rfl⟩ | ⟨turned, hfirst, hrest⟩
    · obtain ⟨rfl, rfl⟩ := Prod.mk.inj hend
      exact Or.inl ⟨.run e, (each_ends_iff (EachConfig.literal_gives values params mid)).mpr
        ⟨.error e, _, he, rfl⟩, rfl⟩
    · obtain ⟨apart, happart, hrejoined⟩ := exists_rejoined hfirst hrest hend
      exact Or.inr ⟨_, _, apart, (each_ends_iff (EachConfig.literal_gives values params mid)).mpr
        ⟨.ok (), _, hfirst, rfl⟩, happart, hrejoined⟩
  · rintro (⟨e, h, rfl⟩ | ⟨o, between, apart, hover, hagain, hrejoined⟩)
    · obtain ⟨looped, left, hfirst, hend⟩ :=
        (each_ends_iff (EachConfig.literal_gives values params mid)).mp h
      cases looped with
      | ok u => exact nomatch (Prod.mk.inj hend).1
      | error e' =>
          obtain ⟨hsame, rfl⟩ := Prod.mk.inj hend
          rw [Except.error.inj hsame]
          exact ⟨.error e', _, LoopEnds.append_iff.mpr (Or.inl ⟨e', hfirst, rfl⟩), rfl⟩
    · obtain ⟨looped, turned, hfirst, hend⟩ :=
        (each_ends_iff (EachConfig.literal_gives values params mid)).mp hover
      cases looped with
      | error e => exact nomatch (Prod.mk.inj hend).1
      | ok u =>
          obtain ⟨-, rfl⟩ := Prod.mk.inj hend
          obtain ⟨looped, left, hrest, hend⟩ :=
            (each_ends_iff (EachConfig.literal_gives rest params _)).mp hagain
          obtain ⟨entries, -, hentries⟩ := hrest.appends
          have hhere : LoopEnds entry inner rest turned looped _ := hentries turned.journal
          let whole := loopEnd next params (.eachCompleted id (values.length + rest.length)) looped
            (left.withJournal (turned.journal ++ entries))
          have htogether : (r, whole.2) = whole :=
            Prod.ext ((congrArg Prod.fst hend).trans (loopEnd_fst ..)) rfl
          obtain ⟨apart', hagain', hrejoined'⟩ := exists_rejoined hfirst hhere htogether
          obtain ⟨-, rfl⟩ := hagain.unique hagain'
          obtain rfl := hrejoined.unique hrejoined'
          rw [List.length_append]
          exact ⟨looped, _, LoopEnds.append_iff.mpr (Or.inr ⟨turned, hfirst, hhere⟩), htogether⟩

end Rejoining

/-! ### In order -/

section Order

variable {id : String} {next : Option String} {c : EachConfig} {params : Json}
  {ctx mid last : Context δ χ} {items : List Json} {r : Except BlockError Output}

/-- A block around a loop ends after all turns, or with the first one that goes wrong. -/
theorem each_ends_turned_iff {entry : String} {inner : BlockMap}
    (hgives : c.Gives params ctx items mid) :
    Visit.Ends ⟨.nested id next (.each c) (some (entry, inner)), params, ctx⟩ r last ↔
      (∃ states, Turned entry inner items mid states items.length ∧ r = .ok (.success next params) ∧
        last = (states items.length).note (.eachCompleted id items.length)) ∨
      ∃ k v states e, items[k]? = some v ∧ Turned entry inner items mid states k ∧
        Outset.Ends ⟨inner, entry, v, states k⟩ (.error e) last ∧ r = .error (.run e) := by
  rw [each_ends_iff hgives]
  constructor
  · rintro ⟨looped, left, hloop, hend⟩
    rcases loopEnds_iff.mp hloop with
      ⟨states, hturned, rfl, rfl⟩ | ⟨k, v, states, e, hk, hturned, he, rfl⟩
    · obtain ⟨rfl, rfl⟩ := Prod.mk.inj hend
      exact Or.inl ⟨states, hturned, rfl, rfl⟩
    · obtain ⟨rfl, rfl⟩ := Prod.mk.inj hend
      exact Or.inr ⟨k, v, states, e, hk, hturned, he, rfl⟩
  · rintro (⟨states, hturned, rfl, rfl⟩ | ⟨k, v, states, e, hk, hturned, he, rfl⟩)
    · exact ⟨.ok (), _, loopEnds_iff.mpr (Or.inl ⟨states, hturned, rfl, rfl⟩), rfl⟩
    · exact ⟨.error e, _, loopEnds_iff.mpr (Or.inr ⟨k, v, states, e, hk, hturned, he, rfl⟩), rfl⟩

/-- A block that has no body looks at its list only. -/
theorem each_ends_idle_iff (hgives : c.Gives params ctx items mid) :
    Visit.Ends ⟨.nested id next (.each c) none, params, ctx⟩ r last ↔
      r = .ok (.success next params) ∧ last = mid.note (.eachCompleted id items.length) := by
  have hitems := resolveItems_ok_iff.mpr hgives
  have hidle : Visit.Ends ⟨.nested id next (.each c) none, params, ctx⟩ (.ok (.success next params))
      (mid.note (.eachCompleted id items.length)) :=
    ⟨1, Block.execute_succ_iff.mpr (.eachIdle hitems)⟩
  constructor
  · exact fun h => h.unique hidle
  · rintro ⟨rfl, rfl⟩
    exact hidle

end Order

/-- **A loop over a list takes its elements in order.**  Let a block have a list, as what it was
told, what its script gives or its input, and let fewer than `2 ^ 53` elements be in it.  To be
driven by the indices of the list makes no difference to the block.  It starts its body with an
element after all elements before it, in the state that the turn before has left, and in no other
way.  It ends with its input and goes on to its successor after as many turns as there are elements,
or raises the error of the first turn that ends with one, in the state of that turn.  So one list
behind another one is looped over as the one and then, if that did not fail, as the other one. -/
theorem Block.each_in_order {c : EachConfig} {params : Json} {ctx mid : Context δ χ}
    {items : List Json} (hgives : c.Gives params ctx items mid) (hlength : items.length < 2 ^ 53)
    (id entry : String) (target : String → Option String) (inner : BlockMap) :
    let loop (c : EachConfig) (ctx : Context δ χ) : Visit δ χ :=
      ⟨.ofSettings id target (some (entry, inner)) .each c, params, ctx⟩
    (∀ body fuel, items.length < fuel →
      (ofSettings id target body .each c).execute (fuel + 1) params ctx
        = runEachByIndex c id (target Slot.source) (bodyRun fuel body) fuel params ctx) ∧
    (∀ o, (loop c ctx).Opens o ↔ ∃ k v states, items[k]? = some v ∧
      Turned entry inner items mid states k ∧ o = ⟨inner, entry, v, states k⟩) ∧
    (∀ r last, (loop c ctx).Ends r last ↔
      (∃ states, Turned entry inner items mid states items.length ∧
        r = .ok (.success (target Slot.source) params) ∧
        last = (states items.length).note (.eachCompleted id items.length)) ∨
      ∃ k v states e, items[k]? = some v ∧ Turned entry inner items mid states k ∧
        Outset.Ends ⟨inner, entry, v, states k⟩ (.error e) last ∧ r = .error (.run e)) ∧
    (∀ r last, Visit.Ends ⟨.ofSettings id target none .each c, params, ctx⟩ r last ↔
      r = .ok (.success (target Slot.source) params) ∧
      last = mid.note (.eachCompleted id items.length)) ∧
    (∀ goal, target Slot.source = some goal → ∀ o last, (loop c ctx).Ends (.ok o) last →
      Walk.after id (.ok o) = .onward goal params) ∧
    ∀ front back, items = front ++ back → ∀ r last, (loop c ctx).Ends r last ↔
      (∃ e, (loop (.literal front) mid).Ends (.error e) last ∧ r = .error e) ∨
      ∃ o between apart, (loop (.literal front) mid).Ends (.ok o) between ∧
        (loop (.literal back) between).Ends r apart ∧
        Rejoined id front.length back.length r mid between apart last := by
  refine ⟨fun body fuel hfuel => ?_, fun o => ?_, fun r last => each_ends_turned_iff hgives,
    fun r last => each_ends_idle_iff hgives, fun goal hgoal o last h => ?_, ?_⟩
  · exact runEach_eq_byIndex (resolveItems_ok_iff.mpr hgives) hlength id (target Slot.source)
      (bodyRun fuel body) hfuel
  · exact (each_opens_iff hgives).trans turns_iff
  · rcases (each_ends_turned_iff hgives).mp h with
      ⟨states, -, hr, -⟩ | ⟨k, v, states, e, -, -, -, hr⟩
    · rw [Except.ok.inj hr, hgoal]
      rfl
    · exact nomatch hr
  · rintro front back rfl r last
    exact each_append_iff hgives

/-- A body that shows its input and then takes all elements out of the list. -/
def BlockMap.emptying : BlockMap :=
  [("clear", .task "clear" none (.setVar ⟨"xs", .arr [], false⟩)),
    ("show", .task "show" (some "clear") (.interceptor ⟨none⟩))]

/-- A context with a list of two elements in a variable, where scripts are names of variables. -/
def Context.emptying : Context Store.Memory Offline :=
  { vars := [("xs", .arr [Json.nat 1, Json.nat 2])], intercepted := some #[]
    scripts := ⟨fun _ scope code => .done (.ok ((Entries.find? code scope).getD .null))⟩ }

/-- The second turn has its element, although there is none in the variable any more. -/
theorem Block.each_in_order_emptying :
    let c : EachConfig := ⟨.str "js:xs", false⟩
    let all : Block := .ofSettings "all" (fun _ => some "after") (some ("show", .emptying)) .each c
    c.Gives .null Context.emptying [Json.nat 1, Json.nat 2] .emptying ∧
    (∃ o : Outset Store.Memory Offline, Visit.Opens ⟨all, .null, .emptying⟩ o ∧
      o.params = Json.nat 2 ∧ Entries.find? "xs" o.ctx.vars = some (.arr [])) ∧
    ∃ last : Context Store.Memory Offline,
      Visit.Ends ⟨all, .null, .emptying⟩ (.ok (.success (some "after") .null)) last ∧
      last.intercepted.map (paramsUnder none) = some [Json.nat 1, Json.nat 2] := by
  have hgives : EachConfig.Gives ⟨.str "js:xs", false⟩ .null Context.emptying
      [Json.nat 1, Json.nat 2] .emptying := .script rfl rfl rfl rfl
  obtain ⟨-, hopens, hends, -⟩ := each_in_order hgives (by decide) "all" "show"
    (fun _ => some "after") .emptying
  exact ⟨hgives, ⟨_, (hopens _).mpr ⟨1, _, _, rfl, .cons ⟨3, rfl⟩ (.none _), rfl⟩, rfl, rfl⟩,
    _, (hends _ _).mpr (Or.inl ⟨_, .cons ⟨3, rfl⟩ (.cons ⟨3, rfl⟩ (.none _)), rfl, rfl⟩), rfl⟩

end FlowGraph
