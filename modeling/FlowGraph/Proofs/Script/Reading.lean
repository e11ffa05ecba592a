/-
Scripts that read a variable.

There are three ways to read a variable: by its name, as a property of all variables, and by its
quoted name from them.  Each is a script of a few words (`Words`), is read as one expression
whatever the name is, and takes a few operations.  So if the limits leave room for that, the script
comes to an end, and its result is the value that the variable has, as it comes back from a script
(`Values`).

The first two ways are open to names that the language does not use itself, and to no others: an
identifier that is not such a name is a script in which no variable occurs.  The third is open to
all names that are identifiers, and to others.
-/
import FlowGraph.Proofs.Script.Constants
import FlowGraph.Proofs.Script.Values
import FlowGraph.Proofs.Script.Words

namespace FlowGraph.Script

variable {α β : Type}

/-- The limits leave room for so many operations and for expressions that nest so deep. -/
structure Limits.Allow (l : Limits) (operations depth : Nat) : Prop where
  operations : (l.allowance []).operations = 0 ∨ operations ≤ (l.allowance []).operations
  depth : (l.allowance []).depths.outside = 0 ∨ depth ≤ (l.allowance []).depths.outside

theorem Limits.Allow.mono {l : Limits} {n n' d d' : Nat} (h : l.Allow n d) (hn : n' ≤ n)
    (hd : d' ≤ d) : l.Allow n' d' :=
  ⟨h.operations.imp_right hn.trans, h.depth.imp_right hd.trans⟩

/-! ### The form of the scripts -/

section Forms

variable {k : String} {depths : Depths}

theorem parse_name (hk : isIdentifier k = true) (hname : isNameable k = true)
    (hdepth : depths.outside = 0 ∨ 4 ≤ depths.outside) :
    Program.parse? depths 0 k = some (⟨[.expr (.var k)], []⟩, 0) := by
  obtain ⟨outside, inside⟩ := depths
  rw [Program.parse?, ofScript_name hk hname]
  rcases hdepth with rfl | hdepth
  · rfl
  · obtain ⟨outside, rfl⟩ := Nat.exists_eq_add_of_le' hdepth
    rfl

theorem parse_property (hk : isIdentifier k = true) (hname : isNameable k = true)
    (hdepth : depths.outside = 0 ∨ 4 ≤ depths.outside) :
    Program.parse? depths 0 (propertyScript k)
      = some (⟨[.expr (.chain (.var scopeName) [.property k false])], []⟩, 0) := by
  obtain ⟨outside, inside⟩ := depths
  rw [Program.parse?, ofScript_property hk hname]
  rcases hdepth with rfl | hdepth
  · rfl
  · obtain ⟨outside, rfl⟩ := Nat.exists_eq_add_of_le' hdepth
    rfl

section Words

variable {p : Parser.Place} {s s' : Parser.State}

/-- What reads on behind something that has been read. -/
theorem reads_bind {x : Parser.P α} {a : α} (h : x s = some (a, s')) (f : α → Parser.P β) :
    (x >>= f) s = f a s' := by
  show (x s).bind _ = _
  rw [h]
  rfl

theorem reads_deeper (h : p.maxLevel = 0 ∨ p.level < p.maxLevel) (s : Parser.State) :
    p.deeper s = some ({ p with level := p.level + 1 }, s) := by
  rw [Parser.Place.deeper, if_pos h]
  rfl

/-- A text between brackets is read as an expression of its own, three levels deeper. -/
theorem reads_text (p : Parser.Place) (hroom : p.maxLevel = 0 ∨ p.level + 3 ≤ p.maxLevel) (n : Nat)
    (s : Parser.State) (rest : List Token) :
    Parser.expr (n + 5) p { s with tokens := .str k :: .mark "]" :: rest }
      = some (.lit (.str k), { s with tokens := .mark "]" :: rest }) := by
  have hprimary : Parser.primary (n + 3) { p with level := p.level + 2 }
      { s with tokens := .str k :: .mark "]" :: rest }
        = some (.lit (.str k), { s with tokens := .mark "]" :: rest }) :=
    (reads_bind (reads_deeper hroom _) _).trans rfl
  have hunary : Parser.unary (n + 4) { p with level := p.level + 1 }
      { s with tokens := .str k :: .mark "]" :: rest }
        = some (.lit (.str k), { s with tokens := .mark "]" :: rest }) :=
    (reads_bind (reads_deeper (hroom.imp_right Nat.le_of_succ_le) _) _).trans hprimary
  exact (reads_bind (reads_deeper (hroom.imp_right fun h => by omega) _) _).trans
    ((reads_bind hunary _).trans rfl)

end Words

/-- The quoted name is an expression of its own, inside of the other.  The functions of the reader
are gone through from the key outwards, so that what has been read is not read again. -/
theorem parse_key (hk : ∀ c ∈ k.toList, Token.IsPlain c)
    (hdepth : depths.outside = 0 ∨ 8 ≤ depths.outside) :
    Program.parse? depths 0 (keyScript k)
      = some (⟨[.expr (.chain (.var scopeName) [.index (.lit (.str k)) false])], []⟩, 0) := by
  let words : List Token := [.ident scopeName, .mark "[", .str k, .mark "]"]
  let found : Expr := .chain (.var scopeName) [.index (.lit (.str k)) false]
  let place (level : Nat) : Parser.Place :=
    ⟨false, false, true, level, depths.outside, depths.inside, false⟩
  let stand (tokens : List Token) (outer : List String) : Parser.State := ⟨tokens, [], [], outer, 0⟩
  have hdeeper : ∀ level < 8, ∀ s, (place level).deeper s = some (place (level + 1), s) :=
    fun level hlevel => reads_deeper (hdepth.imp_right hlevel.trans_le)
  have hkey : Parser.expr 120 (place 5) (stand [.str k, .mark "]"] [scopeName])
      = some (.lit (.str k), stand [.mark "]"] [scopeName]) :=
    reads_text (place 5) hdepth 115 (stand [] [scopeName]) []
  have hstep : Parser.step 121 (place 4) (.var scopeName) [] false
      (stand [.str k, .mark "]"] [scopeName]) = some (found, stand [] [scopeName]) :=
    (reads_bind (hdeeper 4 (by decide) _) _).trans ((reads_bind hkey _).trans rfl)
  have hprimary : Parser.primary 123 (place 3) (stand words [])
      = some (found, stand [] [scopeName]) :=
    (reads_bind (hdeeper 3 (by decide) _) _).trans hstep
  have hunary : Parser.unary 124 (place 2) (stand words []) = some (found, stand [] [scopeName]) :=
    (reads_bind (hdeeper 2 (by decide) _) _).trans hprimary
  have hexpr : Parser.expr 125 (place 1) (stand words []) = some (found, stand [] [scopeName]) :=
    (reads_bind (hdeeper 1 (by decide) _) _).trans ((reads_bind hunary _).trans rfl)
  have hsimple : Parser.simple 126 (place 1) (stand words [])
      = some (.expr found, stand [] [scopeName]) :=
    (reads_bind hexpr _).trans rfl
  have hstmt : Parser.stmt 127 (place 0) (stand words [])
      = some (.expr found, stand [] [scopeName]) :=
    (reads_bind (hdeeper 0 (by decide) _) _).trans hsimple
  have hpeek : Parser.peek (stand words []) = some (some (.ident scopeName), stand words []) := rfl
  have htoplevel : Parser.toplevel 128 (place 0) [] (stand words [])
      = some ([.expr found], stand [] [scopeName]) :=
    (reads_bind hpeek _).trans ((reads_bind hstmt _).trans rfl)
  rw [Program.parse?, ofScript_key hk]
  exact congrArg (Option.bind · _) htoplevel

/-! ### Words that are no names -/

/-- The statement consists of words of the language alone. -/
def Stmt.isBare : Stmt → Bool
  | .give none | .raise none | .expr (.lit _) => true
  | _ => false

/-- The word is read as a statement by itself, or not at all. -/
def Token.isAlone (depths : Depths) (t : Token) : Bool :=
  ((Parser.toplevel 80 ⟨false, false, true, 0, depths.outside, depths.inside, false⟩ []).run
    ⟨[t], [], [], [], 0⟩).all fun r => match r.1 with | [s] => s.isBare | _ => false

/-- No word needs more than four levels. -/
theorem notNames_alone (depths : Depths) :
    Token.notNames.all (Token.isAlone depths) = true := by
  match depths with
  | ⟨0, _⟩ => rfl
  | ⟨1, _⟩ => rfl
  | ⟨2, _⟩ => rfl
  | ⟨3, _⟩ => rfl
  | ⟨_ + 4, _⟩ => rfl

theorem parse_notName {t : Token} (ht : t ∈ Token.notNames) {code : String}
    (hcode : Token.ofScript code = some [t]) {p : Program} {closures : Nat}
    (hparse : Program.parse? depths 0 code = some (p, closures)) :
    ∃ s : Stmt, s.isBare = true ∧ p.body = [s] := by
  have halone := List.all_eq_true.mp (notNames_alone depths) t ht
  rw [Program.parse?, hcode] at hparse
  obtain ⟨_, htokens, hparse⟩ := Option.bind_eq_some_iff.mp hparse
  obtain rfl := Option.some.inj htokens
  obtain ⟨r, hr, hp⟩ := Option.bind_eq_some_iff.mp hparse
  obtain ⟨rfl, -⟩ := Prod.mk.inj (Option.some.inj hp)
  have hbare : (match r.1 with | [s] => s.isBare | _ => false) = true :=
    (Option.all_eq_true _ _).mp halone r hr
  split at hbare
  · rename_i s hs
    exact ⟨s, hbare, hs⟩
  · cases hbare

end Forms

/-! ### Steps that come to a value -/

section Steps

variable {a : Allowance} {m m' : Machine} {fuel level : Nat} {x : String}

theorem eval_lit (v : Val) (h : a.operations = 0 ∨ m.operations + 1 ≤ a.operations) :
    (eval (fuel + 1) ⟨a, level⟩ (.lit v)).run m = .done (.value v m.counted) := by
  rw [eval.eq_def]
  exact run_tick h _

theorem eval_var {w : Val × Bool} (hx : m.lookup? x = some w)
    (h : a.operations = 0 ∨ m.operations + 1 ≤ a.operations) :
    (eval (fuel + 1) ⟨a, level⟩ (.var x)).run m = .done (.value w.1 m.counted) := by
  refine (eval_var_cases hx fuel ⟨a, level⟩).resolve_right fun ⟨hspent, _⟩ => ?_
  obtain ⟨hlimit, hover⟩ : a.operations ≠ 0 ∧ a.operations < m.operations + 1 := hspent
  omega

/-! ### Into a map -/

/-- The step leads to the field of a map. -/
inductive Reached.LeadsTo (name : String) : Reached → Prop
  | property : LeadsTo name (.property name false)
  | index : LeadsTo name (.index (.str name) false)

theorem walk_nil (env : Env) (v : Val) (constant : Bool) :
    (walk (fuel + 1) env v constant [] none).run m = .done (.value (v, none) m) := by
  rw [walk.eq_def]
  rfl

theorem walk_field {name : String} {s : Reached} (hs : s.LeadsTo name)
    (fields : List (String × Val)) (constant : Bool)
    (h : a.operations = 0 ∨ m.operations + 1 ≤ a.operations) :
    (walk (fuel + 1 + 1) ⟨a, level⟩ (.map fields) constant [s] none).run m
      = .done (.value ((Entries.find? name fields).getD .unit, none) m.counted) := by
  rw [walk.eq_def]
  dsimp only
  rw [run_tick h]
  cases hs with
  | property => exact run_bind (walk_nil _ _ _) _
  | index =>
      have helement : (Run.ofExcept (elementAt (.map fields) (.str name))).run m.counted
          = .done (.value ((Entries.find? name fields).getD .unit) m.counted) := rfl
      exact (run_bind helement _).trans (run_bind (walk_nil _ _ _) _)

/-- The variable is read when the keys of the chain have been computed. -/
theorem eval_chain {name : String} {step : Step} {s : Reached} (hs : s.LeadsTo name)
    {fields : List (String × Val)} {constant : Bool}
    (h : a.operations = 0 ∨ m.operations + 1 ≤ a.operations)
    (hreach : (reach (fuel + 1 + 1 + 1) ⟨a, level⟩ [step]).run m.counted = .done (.value [s] m'))
    (hx : m'.lookup? x = some (.map fields, constant))
    (h' : a.operations = 0 ∨ m'.operations + 1 ≤ a.operations) :
    (eval (fuel + 1 + 1 + 1 + 1 + 1) ⟨a, level⟩ (.chain (.var x) [step])).run m
      = .done (.value ((Entries.find? name fields).getD .unit) m'.counted) := by
  rw [eval.eq_def]
  dsimp only
  rw [run_tick h, evalChain.eq_def]
  dsimp only
  rw [run_bind hreach, run_bind (run_readVar hx), chainOn.eq_def]
  dsimp only [Option.isSome_none, Bool.false_and]
  exact run_bind (walk_field hs fields constant h') _

theorem reach_key (name : String) (h : a.operations = 0 ∨ m.operations + 1 ≤ a.operations) :
    (reach (fuel + 1 + 1) ⟨a, level⟩ [.index (.lit (.str name)) false]).run m
      = .done (.value [.index (.str name) false] m.counted) := by
  rw [reach.eq_def]
  dsimp only
  rw [reach.eq_def]
  exact run_bind (eval_lit _ h) _

/-! ### Statements without variables -/

/-- The ending with a value or a signal. -/
def Ending.of (r : Except Signal α) (m : Machine) : Ending α :=
  match r with
  | .ok v => .value v m
  | .error t => .signal t m

/-- What a statement without variables comes to depends on the limits alone. -/
theorem exec_bare {s : Stmt} (hs : s.isBare = true) (a : Allowance) (fuel level : Nat) :
    ∃ r : Except Signal Val, ∀ m : Machine, m.operations = 0 →
      ∃ m', (exec (fuel + 1 + 1) ⟨a, level⟩ s).run m = .done (.of r m') := by
  have hroom : ∀ m : Machine, m.operations = 0 →
      a.operations = 0 ∨ m.operations + 1 ≤ a.operations := fun m hm => by omega
  match s, hs with
  | .give none, _ =>
      refine ⟨.error (.give .unit), fun m hm => ⟨m.counted, ?_⟩⟩
      rw [exec.eq_def]
      exact run_tick (hroom m hm) _
  | .raise none, _ =>
      refine ⟨.error (.fault (.raised .unit)), fun m hm => ⟨m.counted, ?_⟩⟩
      rw [exec.eq_def]
      exact run_tick (hroom m hm) _
  | .expr (.lit v), _ =>
      -- Only here a second operation is counted, for which there may be no room.
      by_cases hsecond : a.operations = 0 ∨ 2 ≤ a.operations
      · refine ⟨.ok v, fun m hm => ⟨m.counted.counted, ?_⟩⟩
        rw [exec.eq_def]
        refine (run_tick (hroom m hm) _).trans (eval_lit v ?_)
        show a.operations = 0 ∨ m.operations + 1 + 1 ≤ a.operations
        omega
      · obtain ⟨hlimit, hone⟩ := not_or.mp hsecond
        refine ⟨.error (.fault .tooManyOperations), fun m hm => ⟨m.counted.counted, ?_⟩⟩
        rw [exec.eq_def]
        refine (run_tick (hroom m hm) _).trans ?_
        dsimp only
        rw [eval.eq_def]
        refine run_tick_over hlimit ?_ _
        show a.operations < m.operations + 1 + 1
        omega

end Steps

/-! ### From the script to its result -/

section Results

variable {limits : Limits} {granted : List String} {scope : Entries Json} {k : String} {j : Json}

/-- The machine where the first statement of a script has been begun. -/
def Machine.begun (scope : Entries Json) : Machine := ⟨bindings scope, #[], [], 1, 0⟩

theorem lookup?_begun (hscope : Entries.Sorted scope) (hk : boundTo scope k = some j) :
    (Machine.begun scope).lookup? k = some (Val.ofJson j, true) := by
  have hslot : Machine.findSlot k (Machine.begun scope).slots = some ⟨k, Val.ofJson j, true⟩ :=
    findSlot_bindings hscope hk
  exact lookup?_of_keeps hslot ⟨rfl, rfl, .inl rfl⟩ (Val.ofJson_ne_shared j)

/-- There is more than enough for a short script. -/
theorem exists_budget : ∃ fuel, budget = fuel + 7 := ⟨4611686018427387897, rfl⟩

theorem run_of_evaluate {code : String} {r : Except Failure Json}
    (h : evaluate limits granted scope code = .done (some r)) :
    (Engine.standard limits).run granted scope code = .done r := by
  show (evaluate limits granted scope code).bind _ = _
  rw [h]
  rfl

/-- The result of a script that is one expression. -/
theorem standard_run {code : String} {e : Expr} (hlimits : limits.Allow 1 0)
    (hparse : Program.parse? (limits.allowance granted).depths 0 code = some (⟨[.expr e], []⟩, 0))
    (heval : ∀ fuel, ∃ m, (eval (fuel + 5) ⟨limits.allowance granted, 0⟩ e).run
      (Machine.begun scope) = .done (.value (Val.ofJson j) m)) (hj : j.Legal) :
    (Engine.standard limits).run granted scope code = .done (.ok j.inScript) := by
  obtain ⟨fuel, hfuel⟩ := exists_budget
  obtain ⟨m, heval⟩ := heval fuel
  have hexec : (execAll budget ⟨limits.allowance granted, 0⟩ [.expr e]).run
      (Machine.start scope ⟨[.expr e], []⟩ 0) = .done (.value (Val.ofJson j) m) := by
    rw [hfuel, execAll.eq_def]
    dsimp only
    rw [exec.eq_def]
    dsimp only
    rw [run_tick hlimits.operations]
    exact heval
  refine run_of_evaluate ?_
  rw [evaluate, evaluateWithin, hparse]
  dsimp only
  rw [hexec]
  show Session.done (some (resultOf (.ok (Val.ofJson j)))) = _
  rw [resultOf, toJson_ofJson hj]

/-- A variable is read by its name. -/
theorem run_name (hlimits : limits.Allow 2 4) (hscope : Entries.Sorted scope)
    (hbound : boundTo scope k = some j) (hk : isIdentifier k = true) (hname : isNameable k = true)
    (hj : j.Legal) :
    (Engine.standard limits).run granted scope k = .done (.ok j.inScript) :=
  standard_run (hlimits.mono (by decide) (by decide)) (parse_name hk hname hlimits.depth)
    (fun _ => ⟨_, eval_var (lookup?_begun hscope hbound) hlimits.operations⟩) hj

/-- A step into all variables leads to the value of one, wherever the machine stands. -/
theorem eval_field {a : Allowance} {step : Step} {s : Reached} {m m' : Machine} {fuel level : Nat}
    (hfind : Entries.find? k scope = some j) (hs : s.LeadsTo k)
    (h : a.operations = 0 ∨ m.operations + 1 ≤ a.operations)
    (hreach : (reach (fuel + 1 + 1 + 1) ⟨a, level⟩ [step]).run m.counted = .done (.value [s] m'))
    (hx : m'.lookup? scopeName = some (Val.ofJson (.obj scope), true))
    (h' : a.operations = 0 ∨ m'.operations + 1 ≤ a.operations) :
    ∃ m'', (eval (fuel + 5) ⟨a, level⟩ (.chain (.var scopeName) [step])).run m
      = .done (.value (Val.ofJson j) m'') := by
  have heval := eval_chain hs h hreach hx h'
  rw [find?_ofFields, hfind] at heval
  exact ⟨_, heval⟩

/-- A variable is read as a property of all variables. -/
theorem run_property (hlimits : limits.Allow 3 4) (hscope : Entries.Sorted scope)
    (hfind : Entries.find? k scope = some j) (hk : isIdentifier k = true)
    (hname : isNameable k = true) (hj : j.Legal) :
    (Engine.standard limits).run granted scope (propertyScript k) = .done (.ok j.inScript) := by
  have hall : boundTo scope scopeName = some (.obj scope) := if_pos rfl
  refine standard_run (hlimits.mono (by decide) (by decide))
    (parse_property hk hname hlimits.depth) (fun fuel => ?_) hj
  refine eval_field hfind .property ?_ (reach_property k) ?_ hlimits.operations
  · exact (hlimits.mono (by decide) le_rfl : limits.Allow 2 4).operations
  · exact lookup?_begun hscope hall

/-- A variable is read by its quoted name. -/
theorem run_key (hlimits : limits.Allow 4 8) (hscope : Entries.Sorted scope)
    (hfind : Entries.find? k scope = some j) (hk : ∀ c ∈ k.toList, Token.IsPlain c)
    (hj : j.Legal) :
    (Engine.standard limits).run granted scope (keyScript k) = .done (.ok j.inScript) := by
  have hall : boundTo scope scopeName = some (.obj scope) := if_pos rfl
  refine standard_run (hlimits.mono (by decide) (by decide)) (parse_key hk hlimits.depth)
    (fun fuel => ?_) hj
  refine eval_field hfind .index ?_ (reach_key k ?_) ?_ hlimits.operations
  · exact (hlimits.mono (by decide) le_rfl : limits.Allow 2 8).operations
  · exact (hlimits.mono (by decide) le_rfl : limits.Allow 3 8).operations
  · exact lookup?_begun hscope hall

/-- A script that cannot be read. -/
theorem run_unreadable {code : String}
    (hparse : Program.parse? (limits.allowance granted).depths 0 code = none)
    (scope : Entries Json) : (Engine.standard limits).run granted scope code
      = .done (.error (.evaluation Fault.unreadable.message)) := by
  refine run_of_evaluate ?_
  rw [evaluate, evaluateWithin, hparse]

/-- A script that is one statement without variables. -/
theorem run_bare {code : String} {p : Program} {closures : Nat} {s : Stmt}
    (hparse : Program.parse? (limits.allowance granted).depths 0 code = some (p, closures))
    (hs : s.isBare = true) (hbody : p.body = [s]) :
    ∃ r, ∀ scope, (Engine.standard limits).run granted scope code = .done r := by
  obtain ⟨fuel, hfuel⟩ := exists_budget
  obtain ⟨r, hr⟩ := exec_bare hs (limits.allowance granted) (fuel + 4) 0
  refine ⟨resultOf r, fun scope => ?_⟩
  obtain ⟨m, hm⟩ := hr (Machine.start scope p closures) rfl
  have hexec : (execAll budget ⟨limits.allowance granted, 0⟩ p.body).run
      (Machine.start scope p closures) = .done (.of r m) := by
    rw [hbody, hfuel, execAll.eq_def]
    exact hm
  refine run_of_evaluate ?_
  rw [evaluate, evaluateWithin, hparse]
  dsimp only
  rw [hexec]
  cases r <;> rfl

/-- **An identifier that is not the name of a variable is a script that comes to the same result
whatever the variables are.** -/
theorem run_unnameable (hk : isIdentifier k = true) (hname : isNameable k = false)
    (limits : Limits) (granted : List String) :
    ∃ r, ∀ scope, (Engine.standard limits).run granted scope k = .done r := by
  cases hparse : Program.parse? (limits.allowance granted).depths 0 k with
  | none => exact ⟨_, run_unreadable hparse⟩
  | some read =>
      rcases ofScript_unnameable hk hname with hnone | ⟨t, ht, hone⟩
      · rw [Program.parse?, hnone] at hparse
        cases hparse
      · obtain ⟨s, hs, hbody⟩ := parse_notName ht hone hparse
        exact run_bare hparse hs hbody

end Results

/-! ### Values that are read -/

/-- The greatest integer of a script. -/
def greatest : Int := 9223372036854775807

theorem inScript_eq_self_iff {j : Json} (hj : j.Legal) :
    j.inScript = j ↔ ∀ p i, Json.at? p j = some (Json.int i) → i ≤ greatest := by
  rw [Json.inScript, Json.mapNumbers_eq_self_iff hj]
  constructor
  · intro h p i hi
    have hfits := (Number.inScript_eq_self_iff (.int i)).mp (h p _ hi) i rfl
    rw [fits, Bool.and_eq_true, decide_eq_true_eq, decide_eq_true_eq] at hfits
    exact hfits.2
  · intro h p n hn
    refine (Number.inScript_eq_self_iff n).mpr fun i hi => ?_
    subst hi
    have hlegal : (Json.number (.int i)).Legal := Json.legal_at? hj hn
    have hrange : Number.inRange i = true := hlegal
    rw [Number.inRange, Bool.and_eq_true, decide_eq_true_eq] at hrange
    rw [fits, Bool.and_eq_true, decide_eq_true_eq, decide_eq_true_eq]
    exact ⟨hrange.1, h p i hn⟩

/-- **A variable is read as what it holds.**  By its name and as a field of all variables a script
gives back the value, the same at every place but for the integers that no script has: an integer
above the greatest one comes back as a float.  So the value comes back as it is if and only if there
is none.  A value is never lost on the way: only `null` is bound as the unit. -/
theorem variables_come_back {limits : Limits} (hlimits : limits.Allow 4 8) (granted : List String)
    {scope : Entries Json} (hscope : Entries.Sorted scope) {k : String} {j : Json}
    (hfind : Entries.find? k scope = some j) (hj : j.Legal) :
    (isIdentifier k = true → isNameable k = true → k ≠ scopeName →
      (Engine.standard limits).run granted scope k = .done (.ok j.inScript) ∧
        (Engine.standard limits).run granted scope (propertyScript k) = .done (.ok j.inScript)) ∧
      ((∀ c ∈ k.toList, Token.IsPlain c) →
        (Engine.standard limits).run granted scope (keyScript k) = .done (.ok j.inScript)) ∧
      (Val.ofJson j = .unit ↔ j = .null) ∧
      (∀ p, Json.at? p j.inScript = (Json.at? p j).map Json.inScript) ∧
      (j.inScript = j ↔ ∀ p i, Json.at? p j = some (Json.int i) → i ≤ greatest) := by
  refine ⟨fun hk hname hown => ⟨?_, ?_⟩, fun hk => run_key hlimits hscope hfind hk hj,
    ofJson_eq_unit_iff j, fun p => Json.at?_mapNumbers p j, inScript_eq_self_iff hj⟩
  · have hbound : boundTo scope k = some j := by rw [boundTo, if_neg hown, if_pos hk, hfind]
    exact run_name (hlimits.mono (by decide) (by decide)) hscope hbound hk hname hj
  · exact run_property (hlimits.mono (by decide) (by decide)) hscope hfind hk hname hj

/-- A value with integers at and above the greatest of a script. -/
def extremes : Json :=
  .obj [("ends", .arr [Json.int greatest, Json.int (-greatest - 1), .null]),
    ("over", Json.int (greatest + 1))]

theorem extremes_legal : extremes.Legal := by
  rw [extremes, Json.Legal]
  refine ⟨List.pairwise_pair.mpr (by decide), ?_⟩
  simp [Json.Legal, Json.LegalFields, Json.LegalItems, Json.int, Number.inRange, greatest]

/-- Only the integer that is too large comes back as another number. -/
theorem variables_come_back_large :
    (Limits.Allow {} 4 8) ∧ Entries.Sorted [("v", extremes)] ∧ extremes.Legal ∧
      (Engine.standard {}).run [] [("v", extremes)] "v" = .done (.ok (.obj
        [("ends", .arr [Json.int greatest, Json.int (-greatest - 1), .null]),
          ("over", .number (.float (Float.ofInt (greatest + 1))))])) := by
  have hlimits : Limits.Allow {} 4 8 := ⟨.inr (by decide), .inr (by decide)⟩
  have hsorted : Entries.Sorted [("v", extremes)] := List.pairwise_singleton _ _
  obtain ⟨hread, -⟩ := variables_come_back hlimits [] hsorted (k := "v") rfl extremes_legal
  exact ⟨hlimits, hsorted, extremes_legal, (hread rfl rfl (by decide)).1⟩

/-- An integer that a script does not have does not come back. -/
theorem large_integer_is_lost :
    (Json.int (greatest + 1)).Legal ∧ isNameable "v" = true ∧
      (Engine.standard {}).run [] [("v", Json.int (greatest + 1))] "v"
        ≠ .done (.ok (Json.int (greatest + 1))) := by
  have hlimits : Limits.Allow {} 2 4 := ⟨.inr (by decide), .inr (by decide)⟩
  have hlegal : (Json.int (greatest + 1)).Legal := by
    show Number.inRange (greatest + 1) = true
    decide
  have hsorted : Entries.Sorted [("v", Json.int (greatest + 1))] := List.pairwise_singleton _ _
  have hrun : (Engine.standard {}).run [] [("v", Json.int (greatest + 1))] "v"
      = .done (.ok (Json.int (greatest + 1)).inScript) :=
    run_name hlimits hsorted rfl rfl rfl hlegal
  refine ⟨hlegal, rfl, ?_⟩
  rw [hrun]
  intro h
  cases Session.done.inj h

end FlowGraph.Script
