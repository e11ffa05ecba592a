/-
Looking into values.

A value may have elements: a list and a string by position, a map by name, an integer its
bits.  Positions below zero count from the end.  To read is to ask for the element under a
key; to write is to build the value that has another element there.
-/
import FlowGraph.Script.Library.Outcome

namespace FlowGraph.Script

/-- The elements that a loop runs over. -/
inductive Source where
  | list (items : List Val)
  | span (next last : Int)

/-- The elements of a value. -/
def Source.of? : Val → Option Source
  | .array items => some (.list items)
  | .str s => some (.list (s.toList.map .char))
  | .blob bytes => some (.list (bytes.map fun b => .int (Int.ofNat b)))
  | .range a b inclusive => some (.span a (if inclusive then b + 1 else b))
  | _ => none

/-- The first element and the rest. -/
def Source.next? : Source → Option (Val × Source)
  | list [] => none
  | list (v :: rest) => some (v, list rest)
  | span a b => if a < b then some (.int a, span (a + 1) b) else none

/-- The element of a value under a key, for reading. -/
def elementAt (v key : Val) : Except Fault Val :=
  match v, key with
  | .array xs, .int i =>
    match (index? xs.length i).bind fun n => xs[n]? with
    | some x => .ok x
    | none => .error (.arrayBounds xs.length i)
  | .array _, k => .error (.wrongType k.typeName "i64")
  | .map fields, .str k => .ok ((Entries.find? k fields).getD .unit)
  | .map _, k => .error (.wrongType k.typeName "string")
  | .str s, .int i =>
    match (index? s.length i).bind fun n => s.toList[n]? with
    | some c => .ok (.char c)
    | none => .error (.stringBounds s.length i)
  | .str s, .range a b inclusive =>
    let size := s.length
    let place (i : Int) : Except Fault Nat :=
      if 0 ≤ i then .ok i.toNat
      else
        match index? size i with
        | some n => .ok n
        | none => .error (.stringBounds size i)
    do
      let first ← place a
      let last ← place b
      let stop := if inclusive then last + 1 else last
      return .str (String.ofList ((s.toList.drop first).take (stop - first)))
  | .str _, k => .error (.wrongType k.typeName "i64")
  | .int i, .int n =>
    match index? 64 n with
    | some b => .ok (.bool ((toBits64 i).getLsbD b))
    | none => .error (.bitBounds n)
  | .int _, k => .error (.wrongType k.typeName "i64")
  | .blob bs, .int i =>
    match (index? bs.length i).bind fun n => bs[n]? with
    | some b => .ok (.int (Int.ofNat b))
    | none => .error (.arrayBounds bs.length i)
  | v, k => .error (.noIndexer v.typeName k.typeName)

/-- The value with another element under a key. -/
def withElement (v key x : Val) : Except Fault Val :=
  match v, key with
  | .array xs, .int i =>
    match index? xs.length i with
    | some n => .ok (.array (xs.set n x))
    | none => .error (.arrayBounds xs.length i)
  | .map fields, .str k => .ok (.map (Entries.insert k x fields))
  | .str s, .int i =>
    match index? s.length i, x with
    | none, _ => .error (.stringBounds s.length i)
    | some n, .char c => .ok (.str (String.ofList (s.toList.set n c)))
    | some _, x => .error (.wrongType x.typeName "char")
  | .int i, .int n =>
    match index? 64 n, x with
    | none, _ => .error (.bitBounds n)
    | some b, .bool on =>
      let mask : BitVec 64 := 1#64 <<< b
      .ok (.int (if on then toBits64 i ||| mask else toBits64 i &&& ~~~mask).toInt)
    | some _, x => .error (.wrongType x.typeName "bool")
  | v, k => (elementAt v k).bind fun _ => .error (.noIndexer v.typeName k.typeName)

end FlowGraph.Script
