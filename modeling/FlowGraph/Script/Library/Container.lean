/-
Library functions on lists, maps, ranges and lists of bytes.

Reading outside of a list gives the unit, and taking from an empty one leaves it empty.
Functions that call back into the script are not here: they need the machine.
-/
import FlowGraph.Script.Library.Outcome

namespace FlowGraph.Script

/-- The position of the first equal element. -/
def findEqual (v : Val) : Nat → List Val → Except Fault (Option Nat)
  | _, [] => .ok none
  | i, x :: xs =>
    match equal x v with
    | .error e => .error e
    | .ok true => .ok (some i)
    | .ok false => findEqual v (i + 1) xs

/-- Sort a list of one type in place. -/
def sorted (xs : List Val) : Except Fault (List Val) :=
  match xs with
  | [] => .ok []
  | x :: rest =>
    if rest.any fun y => !sameType x y then .error .mixedSort
    else
      let le (a b : Val) : Bool :=
        match a, b with
        | .int i, .int j => i ≤ j
        | .float x, .float y => x ≤ y
        | .str s, .str t => s ≤ t
        | .char c, .char d => c ≤ d
        | .bool p, .bool q => !p || q
        | _, _ => true
      .ok (xs.mergeSort le)

/-- Drop the elements that are equal to the one before. -/
def deduplicated : List Val → List Val
  | [] => []
  | [x] => [x]
  | x :: y :: rest =>
    match equal x y with
    | .ok true => deduplicated (x :: rest)
    | _ => x :: deduplicated (y :: rest)

/-- Functions on a list alone. -/
def listUnary (name : String) (xs : List Val) : Outcome :=
  match name with
  | "len" => .value (.int xs.length)
  | "is_empty" => .value (.bool xs.isEmpty)
  | "pop" =>
    match xs.getLast? with
    | some v => .changed v (.array xs.dropLast)
    | none => .changed .unit (.array [])
  | "shift" =>
    match xs with
    | v :: rest => .changed v (.array rest)
    | [] => .changed .unit (.array [])
  | "reverse" => .changed .unit (.array xs.reverse)
  | "clear" => .changed .unit (.array [])
  | "dedup" => .changed .unit (.array (deduplicated xs))
  | "sort" =>
    match sorted xs with
    | .ok ys => .changed .unit (.array ys)
    | .error f => .fault f
  | _ => .absent

/-- Functions on a list and an integer that is a position or a count. -/
def listWithInt (name : String) (xs : List Val) (i : Int) : Outcome :=
  match name with
  | "get" =>
    .value (match index? xs.length i with
      | some n => (xs[n]?).getD .unit
      | none => .unit)
  | "remove" =>
    match (index? xs.length i).bind fun n => xs[n]?.map (n, ·) with
    | some (n, v) => .changed v (.array (xs.eraseIdx n))
    | none => .changed .unit (.array xs)
  | "truncate" => .changed .unit (.array (if i ≤ 0 then [] else xs.take i.toNat))
  | "chop" => .changed .unit (.array (if i ≤ 0 then [] else xs.drop (xs.length - i.toNat)))
  | "extract" => .value (.array (xs.drop (offset xs.length i)))
  | "split" =>
    let n := offset xs.length i
    .changed (.array (xs.drop n)) (.array (xs.take n))
  | _ => .absent

/-- Functions on a list and one other value. -/
def listWithValue (name : String) (xs : List Val) (v : Val) : Outcome :=
  match name with
  | "push" => .changed .unit (.array (xs ++ [v]))
  | "append" =>
    match v with
    | .array ys => .changed .unit (.array (xs ++ ys))
    | _ => .absent
  | "contains" => .ofExcept ((findEqual v 0 xs).map fun i => .bool i.isSome)
  | "index_of" =>
    .ofExcept ((findEqual v 0 xs).map fun i => .int ((i.map Int.ofNat).getD (-1)))
  | _ => .absent

/-- Library functions whose first argument is a list. -/
def listFunction (name : String) (xs : List Val) (rest : List Val) : Outcome :=
  match rest with
  | [] => listUnary name xs
  | [v] =>
    let byInt := match v with
      | .int i => listWithInt name xs i
      | .range a b inclusive =>
        let (start, count) := covered a b inclusive
        let (first, n) := part xs.length start count
        if name = "extract" then .value (.array ((xs.drop first).take n)) else .absent
      | _ => .absent
    byInt.orElse fun _ => listWithValue name xs v
  | [.int i, v] =>
    match name with
    | "insert" =>
      let n := offset xs.length i
      .changed .unit (.array (xs.take n ++ v :: xs.drop n))
    | "set" =>
      match index? xs.length i with
      | some n => .changed .unit (.array (xs.set n v))
      | none => .changed .unit (.array xs)
    | "pad" => .changed .unit (.array (xs ++ List.replicate (i.toNat - xs.length) v))
    | "extract" =>
      match v with
      | .int count =>
        let (first, n) := part xs.length i count
        .value (.array ((xs.drop first).take n))
      | _ => .absent
    | _ => .absent
  | _ => .absent

/-- Library functions whose first argument is a map. -/
def mapFunction (name : String) (fields : List (String × Val)) (rest : List Val) : Outcome :=
  match name, rest with
  | "len", [] => .value (.int fields.length)
  | "is_empty", [] => .value (.bool fields.isEmpty)
  | "keys", [] => .value (.array (fields.map fun f => .str f.1))
  | "values", [] => .value (.array (fields.map Prod.snd))
  | "clear", [] => .changed .unit (.map [])
  | "contains", [.str k] => .value (.bool (Entries.contains k fields))
  | "get", [.str k] => .value ((Entries.find? k fields).getD .unit)
  | "set", [.str k, v] => .changed .unit (.map (Entries.insert k v fields))
  | "remove", [.str k] =>
    .changed ((Entries.find? k fields).getD .unit) (.map (Entries.erase k fields))
  | "mixin", [.map more] => .changed .unit (.map (Entries.union fields more))
  | "fill_with", [.map more] => .changed .unit (.map (Entries.union more fields))
  | _, _ => .absent

/-- Library functions whose first argument is a range. -/
def rangeFunction (name : String) (first last : Int) (inclusive : Bool) (rest : List Val) :
    Outcome :=
  match name, rest with
  | "start", [] => .value (.int first)
  | "end", [] => .value (.int last)
  | "is_inclusive", [] => .value (.bool inclusive)
  | "is_exclusive", [] => .value (.bool !inclusive)
  | "is_empty", [] => .value (.bool (if inclusive then last < first else last ≤ first))
  | "contains", [.int i] => .value (.bool (first ≤ i && (i < last || (inclusive && i == last))))
  | _, _ => .absent

/-- Library functions whose first argument is a list of bytes. -/
def blobFunction (name : String) (bytes : List Nat) (rest : List Val) : Outcome :=
  match name, rest with
  | "len", [] => .value (.int bytes.length)
  | "is_empty", [] => .value (.bool bytes.isEmpty)
  | "contains", [.int i] => .value (.bool (bytes.any fun b => (b : Int) = i % 256))
  | _, _ => .absent

end FlowGraph.Script
