/-
Reading scripts.

The reader is a recursive descent over the words of a script.  A script that cannot be
read has no further description here: all such scripts are told by the same message.

Every function of the descent takes a budget, which it passes on less one.  A script of
`n` words needs no more than a fixed multiple of `n`, so the budget of `Program.parse?`
is never the reason for refusing a script.
-/
import FlowGraph.Script.Parser.Form

namespace FlowGraph.Script

namespace Parser

mutual

/-- Names between bars or parentheses, up to the closing mark. -/
def parameters : Nat → String → List String → P (List String)
  | 0, _, _ => refuse
  | fuel + 1, close, names => do
    if ← takeMark close then return names.reverse
    else
      let name ← expectName
      if names.contains name then refuse
      else if ← takeMark close then return (name :: names).reverse
      else
        expectMark ","
        parameters fuel close (name :: names)

/-- Expressions up to a closing mark, a comma after each but perhaps the last. -/
def items : Nat → Place → String → List Expr → P (List Expr)
  | 0, _, _, _ => refuse
  | fuel + 1, p, close, done => do
    if ← takeMark close then return done.reverse
    else
      let e ← expr fuel (← p.enclosed)
      if ← takeMark close then return (e :: done).reverse
      else
        expectMark ","
        items fuel p close (e :: done)

/-- Fields of a map up to its closing brace. -/
def fields : Nat → Place → List (String × Expr) → P (List (String × Expr))
  | 0, _, _ => refuse
  | fuel + 1, p, done => do
    if ← takeMark "\x7d" then return done.reverse
    else
      let name ← match ← peek with
        | some (.ident name) => pure name
        | some (.str name) => pure name
        | _ => refuse
      advance
      if (done.lookup name).isSome then refuse
      else
        expectMark ":"
        let e ← expr fuel (← p.enclosed)
        let done := (name, e) :: done
        if ← takeMark "\x7d" then return done.reverse
        else
          expectMark ","
          fields fuel p done

/-- The pieces of an interpolated string after the first. -/
def pieces : Nat → Place → List Expr → P (List Expr)
  | 0, _, _ => refuse
  | fuel + 1, p, done => do
    let body ← block fuel p.inner
    match ← peek with
    | some (.piece s) =>
      advance
      pieces fuel p (.lit (.str s) :: .block body :: done)
    | some (.str s) =>
      advance
      return (.lit (.str s) :: .block body :: done).reverse
    | _ => refuse

/-- A closure after its parameters. -/
def closure : Nat → Place → List String → P Expr
  | 0, _, _ => refuse
  | fuel + 1, p, params => do
    let before ← get
    set { before with declared := params.map (·, false), outer := [] }
    let body ← stmt fuel p.function
    let after ← get
    let outer := after.outer
    let name := "anon$" ++ String.ofList (Decimal.numeral (after.closures + 1))
    set { after with
      declared := before.declared
      outer := before.outer
      closures := after.closures + 1
      functions := ⟨name, outer ++ params, [body], true⟩ :: after.functions }
    for x in outer do useName x
    return .closure name outer

/-- An operand without what may follow it. -/
def operand : Nat → Place → P Expr
  | 0, _ => refuse
  | fuel + 1, p => do
    match ← peek with
    | some (.int i) =>
      advance
      return .lit (.int i)
    | some (.float x) =>
      advance
      return .lit (.float x)
    | some (.char c) =>
      advance
      return .lit (.char c)
    | some (.str s) =>
      advance
      return .lit (.str s)
    | some (.piece s) =>
      advance
      return .joined (← pieces fuel p [.lit (.str s)])
    | some (.ident name) =>
      advance
      if ← takeMark "(" then return .call name (← items fuel p ")" [])
      else
        useName name
        return .var name
    | some (.reserved name) =>
      advance
      if name = "this" then
        if p.inFunction then return .this else refuse
      else if callableWords.contains name then
        expectMark "("
        return .call name (← items fuel p ")" [])
      else refuse
    | some (.mark "(") =>
      advance
      if ← takeMark ")" then return .lit .unit
      else
        let e ← expr fuel (← p.enclosed)
        expectMark ")"
        return e
    | some (.mark "[") =>
      advance
      return .list (← items fuel p "]" [])
    | some (.mark "#\x7b") =>
      advance
      return .record (← fields fuel p [])
    | some (.mark "|") =>
      advance
      closure fuel p (← parameters fuel "|" [])
    | some (.mark "||") =>
      advance
      closure fuel p []
    | some (.mark "\x7b") => return .block (← block fuel p.inner)
    | some (.word "true") =>
      advance
      return .lit (.bool true)
    | some (.word "false") =>
      advance
      return .lit (.bool false)
    | some (.word w) =>
      if ["if", "switch", "loop", "while", "do", "for"].contains w then
        return .block [← stmt fuel p.inner]
      else refuse
    | _ => refuse

/-- The steps that follow an operand. -/
def steps : Nat → Place → Expr → List Step → P Expr
  | 0, _, _, _ => refuse
  | fuel + 1, p, root, done => do
    match ← peek with
    | some (.mark "[") =>
      advance
      step fuel p root done false
    | some (.mark "?[") =>
      advance
      step fuel p root done true
    | some (.mark ".") =>
      advance
      member fuel p root done false
    | some (.mark "?.") =>
      advance
      member fuel p root done true
    | _ => return chainOf root done.reverse

/-- A key between brackets. -/
def step : Nat → Place → Expr → List Step → Bool → P Expr
  | 0, _, _, _, _ => refuse
  | fuel + 1, p, root, done, safe => do
    let key ← expr fuel (← p.enclosed)
    expectMark "]"
    if indexable root done key then steps fuel p root (.index key safe :: done) else refuse

/-- A property or a method after a point. -/
def member : Nat → Place → Expr → List Step → Bool → P Expr
  | 0, _, _, _, _ => refuse
  | fuel + 1, p, root, done, safe => do
    match ← peek with
    | some (.ident name) =>
      advance
      if ← takeMark "(" then
        steps fuel p root (.method name (← items fuel p ")" []) safe :: done)
      else steps fuel p root (.property name safe :: done)
    | some (.reserved name) =>
      advance
      if callableWords.contains name then
        expectMark "("
        steps fuel p root (.method name (← items fuel p ")" []) safe :: done)
      else refuse
    | _ => refuse

/-- An operand with its steps. -/
def primary : Nat → Place → P Expr
  | 0, _ => refuse
  | fuel + 1, p => do
    let p ← p.deeper
    let root ← operand fuel p
    steps fuel p root []

/-- An operand with the signs before it. -/
def unary : Nat → Place → P Expr
  | 0, _ => refuse
  | fuel + 1, p => do
    let p ← p.deeper
    match ← peek with
    | some (.mark "-") =>
      advance
      return negative (← unary fuel p)
    | some (.mark "+") =>
      advance
      match ← unary fuel p with
      | .lit (.int i) => return .lit (.int i)
      | .lit (.float x) => return .lit (.float x)
      | e => return .call "+" [e]
    | some (.mark "!") =>
      advance
      return .call "!" [← unary fuel p]
    | _ => primary fuel p

/-- Operations on what was read, down to the given strength. -/
def operations : Nat → Place → Nat → Expr → P Expr
  | 0, _, _, _ => refuse
  | fuel + 1, p, least, left => do
    match ← nextOperator p with
    | none => return left
    | some (op, here, toRight) =>
      if here < least || (here == least && !toRight) then return left
      else
        advance
        if op == "!in" then advance
        let right ← unary fuel p
        let right ← match ← nextOperator p with
          | some (_, next, _) =>
            if (here == next && toRight) || here < next then operations fuel p here right
            else pure right
          | none => pure right
        operations fuel p least (← operation op left right)

/-- An expression. -/
def expr : Nat → Place → P Expr
  | 0, _ => refuse
  | fuel + 1, p => do
    let p ← p.deeper
    let left ← unary fuel p
    operations fuel p 1 left

/-- Statements up to a closing brace, with their braces. -/
def block : Nat → Place → P (List Stmt)
  | 0, _ => refuse
  | fuel + 1, p => do
    expectMark "\x7b"
    locally (blockRest fuel p [])

/-- Statements up to a closing brace. -/
def blockRest : Nat → Place → List Stmt → P (List Stmt)
  | 0, _, _ => refuse
  | fuel + 1, p, done => do
    if ← takeMark "\x7d" then return done.reverse
    else
      let s ← stmt fuel p
      if ← takeMark "\x7d" then return (s :: done).reverse
      else if ← takeMark ";" then blockRest fuel p (s :: done)
      else if selfTerminated s then blockRest fuel p (s :: done)
      else refuse

/-- A guard before a block. -/
def guard : Nat → Place → P Expr
  | 0, _ => refuse
  | fuel + 1, p => do
    let e ← expr fuel { p with untilBar := false }
    condition e

/-- What follows the word `if`. -/
def branch : Nat → Place → P Stmt
  | 0, _ => refuse
  | fuel + 1, p => do
    let g ← guard fuel p
    let body ← block fuel p.inner
    if ← takeWord "else" then
      if ← takeWord "if" then
        let other ← branch fuel p
        return .branch g body [other]
      else return .branch g body (← block fuel p.inner)
    else return .branch g body []

/-- The labels of a case, and whether there was a range before them. -/
def labels : Nat → Place → Bool → List Label → P (List Label)
  | 0, _, _, _ => refuse
  | fuel + 1, p, seen, done => do
    match label? (seen || hasRange done) (← expr fuel { p with untilBar := true }) with
    | none => refuse
    | some l =>
      if ← takeMark "|" then labels fuel p seen (l :: done)
      else return (l :: done).reverse

/-- The cases of a choice up to its closing brace. -/
def cases : Nat → Place → List Case → Option Stmt → P (List Case × Option Stmt)
  | 0, _, _, _ => refuse
  | fuel + 1, p, done, other => do
    if ← takeMark "\x7d" then return (done.reverse, other)
    else
      let isOther ← takeMark "_"
      if other.isSome then refuse
      else
        let seen := done.any fun | .mk ls _ _ => hasRange ls
        let ls ← if isOther then pure [] else labels fuel p seen []
        let cond ← if ← takeWord "if" then
            if isOther then refuse else pure (some (← guard fuel p))
          else pure none
        expectMark "=>"
        let action ← stmt fuel p.inner
        let (done, other) := if isOther then (done, some action)
          else (.mk ls cond action :: done, other)
        if ← takeMark "," then cases fuel p done other
        else if ← atMark "\x7d" then cases fuel p done other
        else if selfTerminated action then cases fuel p done other
        else refuse

/-- What follows the word `for`. -/
def eachLoop : Nat → Place → P Stmt
  | 0, _ => refuse
  | fuel + 1, p => do
    let (x, counter) ← if ← takeMark "(" then
        let x ← expectName
        expectMark ","
        let i ← expectName
        expectMark ")"
        if x = i then refuse else pure (x, some i)
      else pure (← expectName, none)
    expectWord "in"
    let source ← expr fuel { p with untilBar := false }
    let source ← iterable source
    locally do
      if let some i := counter then declare i false
      declare x false
      return .each x counter source (← block fuel p.looping)

/-- What follows the word `try`. -/
def guarded : Nat → Place → P Stmt
  | 0, _ => refuse
  | fuel + 1, p => do
    let body ← block fuel p.inner
    expectWord "catch"
    let caught ← if ← takeMark "(" then
        let x ← expectName
        expectMark ")"
        pure (some x)
      else pure none
    locally do
      if let some x := caught then declare x false
      return .guarded body caught (← block fuel p.inner)

/-- A value after `return`, `throw` or `break`, if there is one. -/
def optionalValue : Nat → Place → P (Option Expr)
  | 0, _ => refuse
  | fuel + 1, p => do
    match ← peek with
    | none => return none
    | some (.mark ";") => return none
    | some (.mark "\x7d") => if p.atTop then refuse else return none
    | _ => return some (← expr fuel { p with untilBar := false })

/-- A declaration after its first word. -/
def declaration : Nat → Place → Bool → P Stmt
  | 0, _, _ => refuse
  | fuel + 1, p, constant => do
    let name ← expectName
    let value ← if ← takeMark "=" then expr fuel { p with untilBar := false } else pure (.lit .unit)
    declare name constant
    return .declare name constant value

/-- A function after the word `fn`. -/
def function : Nat → Place → P Unit
  | 0, _ => refuse
  | fuel + 1, p => do
    let name ← match ← peek with
      | some (.ident name) => pure name
      | _ => refuse
    advance
    expectMark "("
    let params ← parameters fuel ")" []
    let before ← get
    set { before with declared := params.map (·, false), outer := [] }
    let body ← block fuel p.function
    modify fun s => { s with declared := before.declared, outer := before.outer }
    define ⟨name, params, body, false⟩

/-- A statement. -/
def stmt : Nat → Place → P Stmt
  | 0, _ => refuse
  | fuel + 1, p => do
    let p ← p.deeper
    match ← peek with
    | some (.mark ";") => return .nothing
    | some (.mark "\x7b") => return .scope (← block fuel p.inner)
    | some (.word w) =>
      match w with
      | "if" =>
        advance
        branch fuel p
      | "switch" =>
        advance
        let subject ← expr fuel { p with untilBar := false }
        expectMark "\x7b"
        let (cs, other) ← cases fuel p [] none
        return .choose subject cs other
      | "while" =>
        advance
        let g ← guard fuel p
        return .loop (some g) (← block fuel p.looping)
      | "loop" =>
        advance
        return .loop none (← block fuel p.looping)
      | "do" =>
        advance
        let body ← block fuel p.looping
        let wanted ← if ← takeWord "while" then pure true
          else
            expectWord "until"
            pure false
        return .again body (← guard fuel p) wanted
      | "for" =>
        advance
        eachLoop fuel p
      | "continue" =>
        advance
        if p.inLoop then return .skip else refuse
      | "break" =>
        advance
        if p.inLoop then return .leave (← optionalValue fuel p) else refuse
      | "return" =>
        advance
        return .give (← optionalValue fuel p)
      | "throw" =>
        advance
        return .raise (← optionalValue fuel p)
      | "try" =>
        advance
        guarded fuel p
      | "let" =>
        advance
        declaration fuel p false
      | "const" =>
        advance
        declaration fuel p true
      | _ => simple fuel p
    | _ => simple fuel p

/-- An expression or an assignment. -/
def simple : Nat → Place → P Stmt
  | 0, _ => refuse
  | fuel + 1, p => do
    let target ← expr fuel p
    match (← peek).bind assignment? with
    | none => return .expr target
    | some op =>
      advance
      let value ← expr fuel { p with untilBar := false }
      checkTarget target
      return .assign target op value

/-- Statements and functions up to the end. -/
def toplevel : Nat → Place → List Stmt → P (List Stmt)
  | 0, _, _ => refuse
  | fuel + 1, p, done => do
    match ← peek with
    | none => return done.reverse
    | some (.word "fn") =>
      advance
      function fuel p
      toplevel fuel p done
    | some (.word "private") =>
      advance
      expectWord "fn"
      function fuel p
      toplevel fuel p done
    | _ =>
      let s ← stmt fuel p
      if ← takeMark ";" then toplevel fuel p (s :: done)
      else if (← peek).isNone then return (s :: done).reverse
      else if selfTerminated s then toplevel fuel p (s :: done)
      else refuse

end

end Parser

/-- Read a script.  `closures` is the number of closures that were read before, so that
each has a name of its own. -/
def Program.parse? (depths : Depths) (closures : Nat) (code : String) : Option (Program × Nat) := do
  let tokens ← Token.ofScript code
  let place : Parser.Place :=
    { inLoop := false, inFunction := false, atTop := true, level := 0
      maxLevel := depths.outside, maxFunctionLevel := depths.inside, untilBar := false }
  let start : Parser.State := ⟨tokens, [], [], [], closures⟩
  let (body, s) ← (Parser.toplevel (16 * tokens.length + 64) place []).run start
  return (⟨body, s.functions.reverse⟩, s.closures)

end FlowGraph.Script
