/-
Running scripts.

`eval` gives the value of an expression and `exec` the value of a statement.  Every call
of the recursion hands on its budget less one, and every turn of a loop takes one from
it, so the budget bounds both how deep the recursion goes and how long a loop runs.  A
larger budget never changes an outcome, it only makes room for one.

To change a part of a value is to build the changed value and to put it where the old one
was.  `walk` does this along a chain: it reports what the chain yields, and what its root
has become if that is something new.
-/
import FlowGraph.Script.Machine
import FlowGraph.Script.Parser
import FlowGraph.Script.Library
import FlowGraph.Script.Access
import FlowGraph.Script.Choice

namespace FlowGraph.Script

open Run

/-- Where a step is taken. -/
structure Env where
  allowance : Allowance
  /-- Calls that are open. -/
  level : Nat

/-- A step of a chain with its arguments computed. -/
inductive Reached where
  | property (name : String) (safe : Bool)
  | index (key : Val) (safe : Bool)
  | method (name : String) (args : List Val) (safe : Bool)

/-- The step ends the chain on a unit. -/
def Reached.isSafe : Reached → Bool
  | property _ safe | index _ safe | method _ _ safe => safe

/-- What is put at the end of a chain: the value, and the operator of `+=` and its like. -/
structure Assignment where
  op : Option String
  value : Val

/-- The value after an assignment to a place. -/
def Assignment.result (a : Assignment) (old : Val) : Except Fault Val :=
  match a.op with
  | none => .ok a.value
  | some op => assigned op old a.value

/-- A truth value. -/
def truth (v : Val) : Except Fault Bool :=
  match v with
  | .bool b => .ok b
  | v => .error (.wrongType v.typeName "bool")

/-- The types of arguments, as a message lists them. -/
def argumentTypes (args : List Val) : List String := args.map Val.argumentType

/-- Why a value has no JSON form, in words. -/
def NoJson.message : NoJson → String
  | ofType name => "Output type incorrect: " ++ name ++ " (expecting serde_json::value::Value)"
  | ofBytes => "Syntax error"

/-- The function of a name that takes so many arguments. -/
def findFunction (m : Machine) (name : String) (arity : Nat) : Option Function :=
  m.functions.find? fun f => f.name = name && f.params.length = arity

/-- The slot of the value that a function is called on.  No variable has this name. -/
def receiver : String := "(this)"

/-- The slots of a call: parameters, the last one latest, and the value it is called on,
which is a constant if that is what it was taken from. -/
def callSlots (f : Function) (args : List Val) (this : Option (Val × Bool)) : List Slot :=
  let own := (f.params.zip args).reverse.map fun (x, v) => Slot.mk x v false
  match this with
  | some (v, constant) => own ++ [⟨receiver, v, constant⟩]
  | none => own

/-- The functions that call back into the script. -/
def isHigherOrder (name : String) : Bool :=
  ["map", "filter", "find", "find_map", "reduce", "reduce_rev", "some", "all", "for_each",
   "index_of", "sort", "retain", "drain"].contains name

/-- The result of a function that may have changed its first argument. -/
def changeFirst (name : String) (this : Option Bool) (v : Val) (first : Option Val) :
    Run (Val × Option Val) :=
  match first, this with
  | some _, some true => fault (.constantMethod name)
  | first, _ => pure (v, first)

/-- Call a function that the host has granted. -/
def askHost (name : String) (v : Val) : Run Val := do
  match v.toJson with
  | .error e => fault (.raised (.str ("script value conversion failed: " ++ e.message)))
  | .ok j =>
    match ← ask (.call name j) with
    | .ok j => return Val.ofJson j
    | .error text => fault (.raised (.str text))

/-- The value counts as true where a library function asks. -/
def isTrue (v : Val) : Bool :=
  match v with
  | .bool b => b
  | _ => false

mutual

/-- The value of an expression. -/
def eval : Nat → Env → Expr → Run Val
  | 0, _, _ => exhausted
  | fuel + 1, env, e => do
    tick env.allowance
    match e with
    | .lit v => return v
    | .joined parts => joinParts fuel env parts ""
    | .list items => return .array (← evalAll fuel env items)
    | .record fields => return .map (← evalFields fuel env fields [])
    | .var name => return (← readVar name).1
    | .this =>
      match (← machine).lookup? receiver with
      | some (v, _) => return v
      | none => fault .unboundThis
    | .and a b =>
      if ← ofExcept (truth (← eval fuel env a)) then
        return .bool (← ofExcept (truth (← eval fuel env b)))
      else return .bool false
    | .or a b =>
      if ← ofExcept (truth (← eval fuel env a)) then return .bool true
      else return .bool (← ofExcept (truth (← eval fuel env b)))
    | .coalesce a b =>
      match ← eval fuel env a with
      | .unit => eval fuel env b
      | v => return v
    | .call name args => evalCall fuel env name args
    | .chain root steps => evalChain fuel env root steps none
    | .block body => locally (execAll fuel env body)
    | .closure name outer => return .fn name (← shareAll fuel outer)

/-- The texts of parts, joined. -/
def joinParts : Nat → Env → List Expr → String → Run Val
  | 0, _, _, _ => exhausted
  | _ + 1, _, [], acc => return .str acc
  | fuel + 1, env, e :: rest, acc => do
    let v ← eval fuel env e
    joinParts fuel env rest (acc ++ v.display)

/-- The values of expressions, in order. -/
def evalAll : Nat → Env → List Expr → Run (List Val)
  | 0, _, _ => exhausted
  | _ + 1, _, [] => return []
  | fuel + 1, env, e :: rest => do
    let v ← eval fuel env e
    return v :: (← evalAll fuel env rest)

/-- The values of fields, in order. -/
def evalFields : Nat → Env → List (String × Expr) → List (String × Val) → Run (List (String × Val))
  | 0, _, _, _ => exhausted
  | _ + 1, _, [], acc => return acc
  | fuel + 1, env, (k, e) :: rest, acc => do
    let v ← eval fuel env e
    evalFields fuel env rest (Entries.insert k v acc)

/-- Move variables into cells. -/
def shareAll : Nat → List String → Run (List Val)
  | 0, _ => exhausted
  | _ + 1, [] => return []
  | fuel + 1, x :: rest => do
    let c ← shareVar x
    return c :: (← shareAll fuel rest)

/-- A function written before its arguments.  A variable as first argument may be changed
by the function, unless it is a constant. -/
def evalCall : Nat → Env → String → List Expr → Run Val
  | 0, _, _, _ => exhausted
  | fuel + 1, env, name, args => do
    match args with
    | [a, b] =>
      if binaryOperators.contains name then
        let x ← eval fuel env a
        let y ← eval fuel env b
        tick env.allowance
        ofExcept (binary name x y)
      else evalNamed fuel env name [a, b]
    | args => evalNamed fuel env name args

/-- A function by its name, with arguments to compute. -/
def evalNamed : Nat → Env → String → List Expr → Run Val
  | 0, _, _, _ => exhausted
  | fuel + 1, env, name, args => do
    match args with
    | .var x :: rest =>
      if name = "is_shared" then
        let m ← machine
        return .bool (match Machine.findSlot x m.slots with
          | some ⟨_, .shared _, _⟩ => true
          | _ => false)
      else
        let vs ← evalAll fuel env rest
        let (v, constant) ← readVar x
        let (r, first) ← apply fuel env name (v :: vs) none
        match first with
        | some w =>
          unless constant do writeVar x w
          return r
        | none => return r
    | args =>
      let vs ← evalAll fuel env args
      return (← apply fuel env name vs none).1

/-- Apply a function to values.  `this` is the value of a method call, which is then the
first of the values, and tells whether that is a constant.  Gives the value, and what
the first argument has become. -/
def apply : Nat → Env → String → List Val → Option Bool → Run (Val × Option Val)
  | 0, _, _, _, _ => exhausted
  | fuel + 1, env, name, args, this => do
    tick env.allowance
    let m ← machine
    let scripted := match this with
      | none => findFunction m name args.length
      | some _ => findFunction m name (args.length - 1)
    match scripted, this, args with
    | some f, none, args => return ((← callFunction fuel env f args none).1, none)
    | some f, some constant, target :: rest =>
      callFunction fuel env f rest (some (target, constant))
    | _, _, _ =>
      if env.allowance.granted.contains name && args.length = 1 then
        return (← askHost name (args.headD .unit), none)
      else
        match ← special fuel env name args with
        | some v => return (v, none)
        | none =>
          let higher := isHigherOrder name && (args.drop 1).any fun | .fn _ _ => true | _ => false
          if higher then
            match ← callBack fuel { env with level := env.level + 1 } name args with
            | some (v, first) => changeFirst name this v first
            | none => fault (.functionNotFound name (argumentTypes args))
          else
            match libraryCall name args with
            | .absent => fault (.functionNotFound name (argumentTypes args))
            | .value v => return (v, none)
            | .changed v first => changeFirst name this v (some first)
            | .fault f => fault f

/-- The functions that look at the machine itself. -/
def special : Nat → Env → String → List Val → Run (Option Val)
  | 0, _, _, _ => exhausted
  | fuel + 1, env, name, args => do
    match name, args with
    | "print", [] =>
      let _ ← ask (.print "")
      return some .unit
    | "print", [v] =>
      let _ ← ask (.print v.display)
      return some .unit
    | "debug", [] =>
      let _ ← ask (.debug "")
      return some .unit
    | "debug", [v] =>
      let _ ← ask (.debug v.inspect)
      return some .unit
    | "type_of", [v] => return some (.str v.typeName)
    | "is_shared", [_] => return some (.bool false)
    | "Fn", [.str f] => return some (.fn f [])
    | "Fn", [v] => fault (.wrongType v.typeName "string")
    | "is_def_var", [.str x] => return some (.bool (Machine.findSlot x (← machine).slots).isSome)
    | "is_def_var", [v] => fault (.wrongType v.typeName "string")
    | "is_def_fn", [.str f, .int n] =>
      return some (.bool (findFunction (← machine) f n.toNat).isSome)
    | "call", .fn f given :: rest => return some (← callValue fuel env f (given ++ rest) none).1
    | "call", v :: _ => fault (.wrongType v.typeName "Fn")
    | "curry", .fn f given :: rest => return some (.fn f (given ++ rest))
    | "curry", v :: _ => fault (.wrongType v.typeName "Fn")
    | "eval", [.str code] => return some (← evalText fuel env code)
    | "eval", [v] => fault (.wrongType v.typeName "string")
    | _, _ => return none

/-- Run a text as part of the script.  It may not define functions. -/
def evalText : Nat → Env → String → Run Val
  | 0, _, _ => exhausted
  | fuel + 1, env, code => do
    let leaving (f : Fault) : Fault := .inCall "eval" false f
    match Program.parse? env.allowance.depths (← machine).closures code with
    | none => fault (leaving .unreadable)
    | some (p, _) =>
      if !p.functions.isEmpty then fault (leaving .unreadable)
      else
        match ← attempt (execAll fuel { env with level := env.level + 1 } p.body) with
        | .ok v => return v
        | .error (.give v) => return v
        | .error (.fault f) => fault (leaving f)
        | .error s => signal s

/-- Call a function of the script, on a value with a mark for constants.  Gives its value,
and what the value it was called on has become. -/
def callFunction : Nat → Env → Function → List Val → Option (Val × Bool) → Run (Val × Option Val)
  | 0, _, _, _, _ => exhausted
  | fuel + 1, env, f, args, this => do
    if env.allowance.calls < env.level + 1 then fault .stackOverflow
    else
      tick env.allowance
      let inner := { env with level := env.level + 1 }
      match ← attempt (isolated (callSlots f args this) (callBody fuel inner f)) with
      | .ok (v, slots) =>
        return (v, if this.isSome then (Machine.findSlot receiver slots).map Slot.value else none)
      | .error (.fault e) => fault (e.leaving f.name f.anonymous)
      | .error s => signal s

/-- The body of a function, with what it returns. -/
def callBody : Nat → Env → Function → Run Val
  | 0, _, _ => exhausted
  | fuel + 1, env, f => do
    match ← attempt (execAll fuel env f.body) with
    | .ok v => return v
    | .error (.give v) => return v
    | .error s => signal s

/-- Call a function value. -/
def callValue : Nat → Env → String → List Val → Option (Val × Bool) → Run (Val × Option Val)
  | 0, _, _, _, _ => exhausted
  | fuel + 1, env, name, args, this => do
    match findFunction (← machine) name args.length with
    | some f => callFunction fuel env f args this
    | none =>
      let m ← machine
      apply fuel env name (args.map m.content) none

/-- Call a function value from a library function: with the arguments, or with more if it
takes more, or on the first argument if it takes none. -/
def callWith : Nat → Env → Val → List Val → List Val → Run Val
  | 0, _, _, _, _ => exhausted
  | fuel + 1, env, f, args, more => do
    match f with
    | .fn name given =>
      let m ← machine
      match findFunction m name (given.length + args.length) with
      | some g => return (← callFunction fuel env g (given ++ args) none).1
      | none =>
        match findFunction m name (given.length + args.length + more.length) with
        | some g => return (← callFunction fuel env g (given ++ args ++ more) none).1
        | none =>
          match findFunction m name (given.length + args.length - 1), args with
          | some g, target :: rest =>
            return (← callFunction fuel env g (given ++ rest) (some (target, false))).1
          | _, _ => return (← apply fuel env name ((given ++ args).map m.content) none).1
    | v => fault (.wrongType v.typeName "Fn")

/-- Library functions that take a function: what they give, and what the first argument
has become. -/
def callBack : Nat → Env → String → List Val → Run (Option (Val × Option Val))
  | 0, _, _, _ => exhausted
  | fuel + 1, env, name, args => do
    match name, args with
    | "map", [.array xs, f] => return some (.array (← mapList fuel env f 0 xs), none)
    | "filter", [.array xs, f] => return some (.array (← filterList fuel env f true 0 xs), none)
    | "retain", [.array xs, f] =>
      let kept ← filterList fuel env f true 0 xs
      let gone ← filterList fuel env f false 0 xs
      return some (.array gone, some (.array kept))
    | "drain", [.array xs, f] =>
      let gone ← filterList fuel env f true 0 xs
      let kept ← filterList fuel env f false 0 xs
      return some (.array gone, some (.array kept))
    | "find", [.array xs, f] =>
      return some (((← searchList fuel env f true 0 xs).map Prod.snd).getD .unit, none)
    | "some", [.array xs, f] =>
      return some (.bool (← searchList fuel env f true 0 xs).isSome, none)
    | "all", [.array xs, f] =>
      return some (.bool (← searchList fuel env f false 0 xs).isNone, none)
    | "index_of", [.array xs, f] =>
      let found ← searchList fuel env f true 0 xs
      return some (.int ((found.map fun r => (r.1 : Int)).getD (-1)), none)
    | "find_map", [.array xs, f] => return some (← firstMapped fuel env f 0 xs, none)
    | "for_each", [.array xs, f] =>
      let _ ← mapList fuel env f 0 xs
      return some (.unit, none)
    | "reduce", [.array xs, f] => return some (← fold fuel env f .unit 0 xs, none)
    | "reduce", [.array xs, f, init] => return some (← fold fuel env f init 0 xs, none)
    | "reduce_rev", [.array xs, f] => return some (← fold fuel env f .unit 0 xs.reverse, none)
    | "reduce_rev", [.array xs, f, init] => return some (← fold fuel env f init 0 xs.reverse, none)
    | "sort", [.array xs, f] => return some (.unit, some (.array (← sortList fuel env f xs [])))
    | "filter", [.map fields, f] => return some (.map (← filterMap fuel env f fields), none)
    | _, _ => return none

/-- The results of a function on the elements. -/
def mapList : Nat → Env → Val → Nat → List Val → Run (List Val)
  | 0, _, _, _, _ => exhausted
  | _ + 1, _, _, _, [] => return []
  | fuel + 1, env, f, i, x :: rest => do
    let y ← callWith fuel env f [x] [.int i]
    return y :: (← mapList fuel env f (i + 1) rest)

/-- The elements for which a function has the wanted truth value. -/
def filterList : Nat → Env → Val → Bool → Nat → List Val → Run (List Val)
  | 0, _, _, _, _, _ => exhausted
  | _ + 1, _, _, _, _, [] => return []
  | fuel + 1, env, f, wanted, i, x :: rest => do
    let y ← callWith fuel env f [x] [.int i]
    let more ← filterList fuel env f wanted (i + 1) rest
    return if isTrue y == wanted then x :: more else more

/-- The first element for which a function has the wanted truth value, and where it is. -/
def searchList : Nat → Env → Val → Bool → Nat → List Val → Run (Option (Nat × Val))
  | 0, _, _, _, _, _ => exhausted
  | _ + 1, _, _, _, _, [] => return none
  | fuel + 1, env, f, wanted, i, x :: rest => do
    let y ← callWith fuel env f [x] [.int i]
    if isTrue y == wanted then return some (i, x)
    else searchList fuel env f wanted (i + 1) rest

/-- The first result that is not the unit. -/
def firstMapped : Nat → Env → Val → Nat → List Val → Run Val
  | 0, _, _, _, _ => exhausted
  | _ + 1, _, _, _, [] => return .unit
  | fuel + 1, env, f, i, x :: rest => do
    match ← callWith fuel env f [x] [.int i] with
    | .unit => firstMapped fuel env f (i + 1) rest
    | v => return v

/-- Take the elements into a value, one after the other. -/
def fold : Nat → Env → Val → Val → Nat → List Val → Run Val
  | 0, _, _, _, _, _ => exhausted
  | _ + 1, _, _, acc, _, [] => return acc
  | fuel + 1, env, f, acc, i, x :: rest => do
    let acc ← callWith fuel env f [acc, x] [.int i]
    fold fuel env f acc (i + 1) rest

/-- Put the elements into their places among those that are sorted. -/
def sortList : Nat → Env → Val → List Val → List Val → Run (List Val)
  | 0, _, _, _, _ => exhausted
  | _ + 1, _, _, [], done => return done
  | fuel + 1, env, f, x :: rest, done => do
    let done ← insertSorted fuel env f x done.reverse []
    sortList fuel env f rest done

/-- Put an element behind all that are not after it, looking from the end. -/
def insertSorted : Nat → Env → Val → Val → List Val → List Val → Run (List Val)
  | 0, _, _, _, _, _ => exhausted
  | _ + 1, _, _, x, [], after => return x :: after
  | fuel + 1, env, f, x, y :: before, after => do
    let later ← match ← attempt (callWith fuel env f [y, x] []) with
      | .ok (.int i) => pure (decide (0 < i))
      | .ok (.bool b) => pure !b
      | _ => pure false
    if later then insertSorted fuel env f x before (y :: after)
    else return before.reverse ++ y :: x :: after

/-- The fields that a function accepts. -/
def filterMap : Nat → Env → Val → List (String × Val) → Run (List (String × Val))
  | 0, _, _, _ => exhausted
  | _ + 1, _, _, [] => return []
  | fuel + 1, env, f, (k, v) :: rest => do
    let y ← callWith fuel env f [.str k, v] []
    let more ← filterMap fuel env f rest
    return if isTrue y then (k, v) :: more else more

/-- The arguments of the steps of a chain. -/
def reach : Nat → Env → List Step → Run (List Reached)
  | 0, _, _ => exhausted
  | _ + 1, _, [] => return []
  | fuel + 1, env, s :: rest => do
    let r ← match s with
      | .property name safe => pure (Reached.property name safe)
      | .index key safe => pure (Reached.index (← eval fuel env key) safe)
      | .method name args safe => pure (Reached.method name (← evalAll fuel env args) safe)
    return r :: (← reach fuel env rest)

/-- The value at the end of a chain, or an assignment to it. -/
def evalChain : Nat → Env → Expr → List Step → Option Assignment → Run Val
  | 0, _, _, _, _ => exhausted
  | fuel + 1, env, root, steps, set => do
    let path ← reach fuel env steps
    match root with
    | .var x =>
      let (v, constant) ← readVar x
      chainOn fuel env x v constant path set
    | .this =>
      match (← machine).lookup? receiver with
      | some (v, constant) =>
        if set.isSome && constant then fault (.constantAssigned "this")
        else chainOn fuel env receiver v constant path set
      | none => fault .unboundThis
    | root =>
      let v ← eval fuel env root
      return (← walk fuel env v false path set).1

/-- A chain on a variable. -/
def chainOn : Nat → Env → String → Val → Bool → List Reached → Option Assignment → Run Val
  | 0, _, _, _, _, _, _ => exhausted
  | fuel + 1, env, x, v, constant, path, set => do
    if set.isSome && constant then fault (.constantAssigned x)
    else
      let (r, changed) ← walk fuel env v constant path set
      match changed with
      | some w =>
        unless constant do writeVar x w
        return r
      | none => return r

/-- Follow a chain into a value.  Gives what is at its end, and what the value has become
if that is something new. -/
def walk : Nat → Env → Val → Bool → List Reached → Option Assignment → Run (Val × Option Val)
  | 0, _, _, _, _, _ => exhausted
  | _ + 1, _, v, _, [], _ => return (v, none)
  | fuel + 1, env, v, constant, s :: rest, set => do
    tick env.allowance
    match v, s.isSafe with
    | .unit, true => return (.unit, none)
    | _, _ =>
      match s with
      | .property name _ =>
        match v with
        | .map fields =>
          let old := (Entries.find? name fields).getD .unit
          match rest, set with
          | [], some a =>
            let new ← ofExcept (a.result old)
            return (.unit, some (.map (Entries.insert name new fields)))
          | rest, set =>
            let (r, changed) ← walk fuel env old constant rest set
            return (r, changed.map fun w => .map (Entries.insert name w fields))
        | v =>
          match rest, set with
          | [], some _ => fault (.noSetter name v.typeName)
          | rest, set =>
            match propertyOf name v with
            | .value w => return ((← walk fuel env w constant rest set).1, none)
            | .fault f => fault f
            | _ => fault (.noGetter name v.typeName)
      | .index key _ =>
        match rest, set with
        | [], some a =>
          let old ← match a.op with
            | none => pure .unit
            | some _ => ofExcept (elementAt v key)
          let new ← ofExcept (a.result old)
          return (.unit, some (← ofExcept (withElement v key new)))
        | rest, set =>
          let old ← ofExcept (elementAt v key)
          let (r, changed) ← walk fuel env old constant rest set
          match changed with
          | none => return (r, none)
          | some w => return (r, some (← ofExcept (withElement v key w)))
      | .method name args _ =>
        let (r, changed) ← callMethod fuel env name v args constant
        let (r, _) ← walk fuel env r false rest set
        return (r, changed)

/-- A function written after its first argument. -/
def callMethod : Nat → Env → String → Val → List Val → Bool → Run (Val × Option Val)
  | 0, _, _, _, _, _ => exhausted
  | fuel + 1, env, name, target, args, constant => do
    match name, target, args with
    | "call", .fn f given, args => return ((← callValue fuel env f (given ++ args) none).1, none)
    | "call", target, .fn f given :: args =>
      callValue fuel env f (given ++ args) (some (target, constant))
    | _, _, _ =>
      let held := match target with
        | .map fields => Entries.find? name fields
        | _ => none
      match held with
      | some (.fn f given) => callValue fuel env f (given ++ args) (some (target, constant))
      | _ => apply fuel env name (target :: args) (some constant)

/-- The value of the last of several statements. -/
def execAll : Nat → Env → List Stmt → Run Val
  | 0, _, _ => exhausted
  | _ + 1, _, [] => return .unit
  | fuel + 1, env, [s] => exec fuel env s
  | fuel + 1, env, s :: rest => do
    let _ ← exec fuel env s
    execAll fuel env rest

/-- The value of a statement. -/
def exec : Nat → Env → Stmt → Run Val
  | 0, _, _ => exhausted
  | fuel + 1, env, s => do
    tick env.allowance
    match s with
    | .nothing => return .unit
    | .expr e => eval fuel env e
    | .declare name constant e =>
      let v ← eval fuel env e
      declareVar name v constant
      return .unit
    | .assign target op e =>
      let v ← eval fuel env e
      assign fuel env target ⟨op, v⟩
    | .branch guard body other =>
      if ← ofExcept (truth (← eval fuel env guard)) then locally (execAll fuel env body)
      else locally (execAll fuel env other)
    | .choose subject cases other =>
      let v ← eval fuel env subject
      choose fuel env (candidates v cases) other
    | .loop guard body => whileLoop fuel env guard body
    | .again body guard wanted => untilLoop fuel env body guard wanted
    | .each x counter source body =>
      let v ← eval fuel env source
      match Source.of? v with
      | some src => eachLoop fuel env x counter 0 src body
      | none => fault .notIterable
    | .scope body => locally (execAll fuel env body)
    | .leave value =>
      match value with
      | some e => signal (.leave (← eval fuel env e))
      | none => signal (.leave .unit)
    | .skip => signal .skip
    | .give value =>
      match value with
      | some e => signal (.give (← eval fuel env e))
      | none => signal (.give .unit)
    | .raise value =>
      match value with
      | some e => fault (.raised (← eval fuel env e))
      | none => fault (.raised .unit)
    | .guarded body caught handler =>
      match ← attempt (locally (execAll fuel env body)) with
      | .ok _ => return .unit
      | .error (.fault f) =>
        if f.isCatchable then handle fuel env f caught handler else fault f
      | .error s => signal s

/-- Run a handler.  A handler that throws nothing passes the fault on. -/
def handle : Nat → Env → Fault → Option String → List Stmt → Run Val
  | 0, _, _, _, _ => exhausted
  | fuel + 1, env, f, caught, handler => do
    let body : Run Val := do
      if let some x := caught then declareVar x f.caught false
      execAll fuel env handler
    match ← attempt (locally body) with
    | .ok _ => return .unit
    | .error (.fault (.raised .unit)) => fault f
    | .error s => signal s

/-- Put a value into its target. -/
def assign : Nat → Env → Expr → Assignment → Run Val
  | 0, _, _, _ => exhausted
  | fuel + 1, env, target, a => do
    tick env.allowance
    match target with
    | .var x =>
      let (old, constant) ← readVar x
      if constant then fault (.constantAssigned x)
      else
        writeVar x (← ofExcept (a.result old))
        return .unit
    | .this =>
      match (← machine).lookup? receiver with
      | some (old, constant) =>
        if constant then fault (.constantAssigned "this")
        else
          writeVar receiver (← ofExcept (a.result old))
          return .unit
      | none => fault .unboundThis
    | .chain root steps => evalChain fuel env root steps (some a)
    | _ => fault .unboundThis

/-- Take the first case whose condition holds. -/
def choose : Nat → Env → List Case → Option Stmt → Run Val
  | 0, _, _, _ => exhausted
  | fuel + 1, env, [], other =>
    match other with
    | some s => locally (exec fuel env s)
    | none => return .unit
  | fuel + 1, env, .mk _ condition action :: rest, other => do
    let holds ← match condition with
      | some e => ofExcept (truth (← eval fuel env e))
      | none => pure true
    if holds then locally (exec fuel env action) else choose fuel env rest other

/-- The guard of a loop holds. -/
def holds : Nat → Env → Option Expr → Run Bool
  | 0, _, _ => exhausted
  | fuel + 1, env, guard =>
    match guard with
    | some e => do ofExcept (truth (← eval fuel env e))
    | none => pure true

/-- One turn of a loop: what it ends the loop with, if it does. -/
def turn : Nat → Env → List Stmt → Run (Option Val)
  | 0, _, _ => exhausted
  | fuel + 1, env, body => do
    tick env.allowance
    match ← attempt (locally (execAll fuel env body)) with
    | .ok _ => return none
    | .error .skip => return none
    | .error (.leave v) => return some v
    | .error s => signal s

/-- Loop as long as the guard holds. -/
def whileLoop : Nat → Env → Option Expr → List Stmt → Run Val
  | 0, _, _, _ => exhausted
  | fuel + 1, env, guard, body => do
    if ← holds fuel env guard then
      match ← turn fuel env body with
      | some v => return v
      | none => whileLoop fuel env guard body
    else return .unit

/-- Loop until the guard has not the wanted value. -/
def untilLoop : Nat → Env → List Stmt → Expr → Bool → Run Val
  | 0, _, _, _, _ => exhausted
  | fuel + 1, env, body, guard, wanted => do
    match ← turn fuel env body with
    | some v => return v
    | none =>
      if (← holds fuel env (some guard)) == wanted then untilLoop fuel env body guard wanted
      else return .unit

/-- Loop over the elements of a source. -/
def eachLoop : Nat → Env → String → Option String → Int → Source → List Stmt → Run Val
  | 0, _, _, _, _, _, _ => exhausted
  | fuel + 1, env, x, counter, i, src, body => do
    match src.next? with
    | none => return .unit
    | some (v, src) =>
      let once : Run (Option Val) := locally do
        if let some c := counter then declareVar c (.int i) false
        declareVar x v false
        turn fuel env body
      match ← once with
      | some v => return v
      | none => eachLoop fuel env x counter (i + 1) src body

end

end FlowGraph.Script
