/-
Library functions on strings and characters.

Positions count characters.  `trim`, `replace` and their like change the string that
they are called on and give nothing.
-/
import FlowGraph.Script.Library.Outcome
import FlowGraph.Text.Case
import FlowGraph.Text.Blank

namespace FlowGraph.Script

/-- The pieces of a text between the occurrences of another; the empty text occurs before
and after every character. -/
def splitBy (sep s : String) : List String :=
  if sep = "" then "" :: (s.toList.map fun c => String.ofList [c]) ++ [""] else s.splitOn sep

/-- At most so many pieces of a text between the occurrences of another, the last one
whatever is left, but at least one. -/
def splitFirst (sep s : String) (count : Int) : List String :=
  let pieces := splitBy sep s
  let n := max count 1
  if pieces.length ≤ n then pieces
  else
    let first := pieces.take (n.toNat - 1)
    first ++ [sep.intercalate (pieces.drop (n.toNat - 1))]

/-- The position of the first occurrence at or after a position. -/
def findFrom (needle : List Char) : Nat → List Char → Option Nat
  | i, [] => if needle.isEmpty then some i else none
  | i, c :: cs => if needle.isPrefixOf (c :: cs) then some i else findFrom needle (i + 1) cs

/-- The position of an occurrence, or -1. -/
def positionOf (s needle : String) (start : Nat) : Val :=
  if s.length ≤ start then .int (-1)
  else
    match findFrom needle.toList start (s.toList.drop start) with
    | some i => .int i
    | none => .int (-1)

/-- A part of a string. -/
def subString (s : String) (start count : Int) : String :=
  let cs := s.toList
  if 0 ≤ start ∧ (cs.length : Int) ≤ start then ""
  else
    let (first, n) := part cs.length start count
    String.ofList ((cs.drop first).take n)

/-- The pieces of a text between blanks. -/
def splitBlanks (s : String) : List String :=
  let step (acc : List (List Char) × List Char) (c : Char) : List (List Char) × List Char :=
    if Text.isBlank c then (if acc.2.isEmpty then acc else (acc.2.reverse :: acc.1, []))
    else (acc.1, c :: acc.2)
  let (done, last) := s.toList.foldl step ([], [])
  let done := if last.isEmpty then done else last.reverse :: done
  done.reverse.map String.ofList

/-- The text without the blanks at its ends. -/
def trimmed (s : String) : String := Text.trim s

/-- The text of a character or a string. -/
def textOf? : Val → Option String
  | .str s => some s
  | .char c => some (String.ofList [c])
  | _ => none

/-- A list of strings. -/
def strings (ss : List String) : Val := .array (ss.map .str)

/-- Functions on a string alone. -/
def textUnary (name s : String) : Outcome :=
  match name with
  | "len" => .value (.int s.length)
  | "bytes" => .value (.int s.utf8ByteSize)
  | "is_empty" => .value (.bool (s = ""))
  | "to_upper" => .value (.str (Text.toUpper s))
  | "to_lower" => .value (.str (Text.toLower s))
  | "make_upper" => .changed .unit (.str (Text.toUpper s))
  | "make_lower" => .changed .unit (.str (Text.toLower s))
  | "trim" => .changed .unit (.str (trimmed s))
  | "clear" => .changed .unit (.str "")
  | "chars" => .value (.array (s.toList.map .char))
  | "split" => .value (strings (splitBlanks s))
  | "pop" =>
    match s.toList.reverse with
    | [] => .changed .unit (.str "")
    | c :: rest => .changed (.char c) (.str (String.ofList rest.reverse))
  | "to_blob" => .value (.blob (s.toUTF8.toList.map UInt8.toNat))
  | _ => .absent

/-- Functions on a string and a character or a string. -/
def textWithText (name s t : String) (isChar : Bool) : Outcome :=
  match name with
  | "contains" => .value (.bool ((findFrom t.toList 0 s.toList).isSome))
  | "starts_with" => if isChar then .absent else .value (.bool (t.toList.isPrefixOf s.toList))
  | "ends_with" =>
    if isChar then .absent else .value (.bool (t.toList.reverse.isPrefixOf s.toList.reverse))
  | "index_of" => .value (positionOf s t 0)
  | "split" => .value (strings (splitBy t s))
  | "split_rev" => .value (strings (splitBy t s).reverse)
  | "remove" => .changed .unit (.str (without s t))
  | "append" => .changed .unit (.str (s ++ t))
  | _ => .absent

/-- Functions on a string and an integer. -/
def textWithInt (name s : String) (i : Int) : Outcome :=
  let cs := s.toList
  match name with
  | "sub_string" => .value (.str (subString s i s.utf8ByteSize))
  | "crop" => .changed .unit (.str (subString s i s.utf8ByteSize))
  | "truncate" => .changed .unit (.str (if i ≤ 0 then "" else String.ofList (cs.take i.toNat)))
  | "get" =>
    match index? cs.length i with
    | some n => .value ((cs[n]?.map Val.char).getD .unit)
    | none => .value .unit
  | "split" =>
    let n := offset cs.length i
    .value (strings [String.ofList (cs.take n), String.ofList (cs.drop n)])
  | "pop" =>
    if i ≤ 0 then .changed (.str "") (.str s)
    else
      let n := cs.length - i.toNat
      .changed (.str (String.ofList (cs.drop n))) (.str (String.ofList (cs.take n)))
  | _ => .absent

/-- Pad a text on the right to a number of characters. -/
def padded (s pad : String) (count : Int) : String :=
  let missing := count.toNat - s.length
  if pad = "" || missing = 0 then s
  else
    let pieces := (missing + pad.length - 1) / pad.length
    let filler := String.join (List.replicate pieces pad)
    s ++ String.ofList (filler.toList.take missing)

/-- Library functions whose first argument is a string. -/
def textFunction (name s : String) (rest : List Val) : Outcome :=
  match rest with
  | [] => textUnary name s
  | [.str t] => textWithText name s t false
  | [.char c] => textWithText name s (String.ofList [c]) true
  | [.int i] => textWithInt name s i
  | [.range a b inclusive] =>
    let (start, count) := covered a b inclusive
    match name with
    | "sub_string" => .value (.str (subString s start count))
    | "crop" => .changed .unit (.str (subString s start count))
    | _ => .absent
  | [.int i, .int n] =>
    match name with
    | "sub_string" => .value (.str (subString s i n))
    | "crop" => .changed .unit (.str (subString s i n))
    | _ => .absent
  | [.int i, .char c] =>
    match name with
    | "set" =>
      match index? s.length i with
      | some n => .changed .unit (.str (String.ofList (s.toList.set n c)))
      | none => .changed .unit (.str s)
    | "pad" => .changed .unit (.str (padded s (String.ofList [c]) i))
    | _ => .absent
  | [.int i, .str t] =>
    match name with
    | "pad" => .changed .unit (.str (padded s t i))
    | _ => .absent
  | [a, .int i] =>
    match textOf? a, name with
    | some t, "index_of" => .value (positionOf s t (offset s.length i))
    | some t, "split" => .value (strings (splitFirst t s i))
    | _, _ => .absent
  | [a, b] =>
    match textOf? a, textOf? b, name with
    | some t, some u, "replace" =>
      .changed .unit (.str (if s = "" then s else u.intercalate (splitBy t s)))
    | _, _, _ => .absent
  | _ => .absent

/-- Library functions whose first argument is a character. -/
def charFunction (name : String) (c : Char) (rest : List Val) : Outcome :=
  match name, rest with
  | "to_upper", [] =>
    .value (match Text.upperOf c with
      | [d] => .char d
      | _ => .char c)
  | "to_lower", [] =>
    .value (match Text.lowerOf c with
      | [d] => .char d
      | _ => .char c)
  | "to_int", [] => .value (.int c.toNat)
  | _, _ => .absent

end FlowGraph.Script
