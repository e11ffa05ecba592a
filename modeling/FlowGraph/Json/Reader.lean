/-
Typed readers.

A reader turns a document into a value of a type of the domain, or says what does not
fit.  Records are read from objects and, field by field in their order, from lists.
The first thing wrong in the order of the text is the one that is reported: a field
that does not fit before a field that is missing, a missing field in the order in which
the record declares them.

The same readers serve texts and values.  They differ in two wordings only, for an
enumeration that is neither a string nor an object and for a list with items to spare.
-/
import FlowGraph.Json.Document
import FlowGraph.Json.Printer
import FlowGraph.Text.Quoted

namespace FlowGraph.Json

/-- What was found where something else was expected. -/
inductive Found where
  | null
  | bool (b : Bool)
  | int (i : Int)
  | float (x : Float)
  | str (s : String)
  | sequence
  | map

/-- Why a document does not fit a type. -/
inductive Mismatch where
  | fault (f : Fault)
  | invalidType (found : Found) (expected : String)
  | invalidValue (found : Found) (expected : String)
  | invalidLength (length : Nat) (expected : String)
  | missingField (name : String)
  | duplicateField (name : String)
  | unknownVariant (name : String) (known : List String)

/-- A text between backquotes. -/
def ticked (s : String) : String := "\x60" ++ s ++ "\x60"

/-- The wording for what was found. -/
def Found.describe : Found → String
  | null => "null"
  | bool b => "boolean " ++ ticked (if b then "true" else "false")
  | int i => "integer " ++ ticked (intText i)
  | float x => "floating point " ++ ticked (floatText x)
  | str s => "string " ++ Text.quoted s
  | sequence => "sequence"
  | map => "map"

/-- The names of an enumeration, as a message lists them. -/
def alternatives : List String → String
  | [] => "there are no variants"
  | [a] => "expected " ++ ticked a
  | [a, b] => "expected " ++ ticked a ++ " or " ++ ticked b
  | names => "expected one of " ++ ", ".intercalate (names.map ticked)

/-- The wording of a mismatch. -/
def Mismatch.message : Mismatch → String
  | fault f => f.message
  | invalidType found expected => "invalid type: " ++ found.describe ++ ", expected " ++ expected
  | invalidValue found expected => "invalid value: " ++ found.describe ++ ", expected " ++ expected
  | invalidLength n expected =>
    "invalid length " ++ String.ofList (Decimal.numeral n) ++ ", expected " ++ expected
  | missingField name => "missing field " ++ ticked name
  | duplicateField name => "duplicate field " ++ ticked name
  | unknownVariant name known =>
    "unknown variant " ++ ticked name ++ ", " ++ alternatives known

/-- Where a document comes from, and how deep it may still nest. -/
structure Source where
  ofText : Bool
  depth : Nat

/-- A document read from a text. -/
def Source.text : Source := ⟨true, nestingLimit⟩

/-- A document made from a value. -/
def Source.value : Source := ⟨false, 1000000000⟩

/-- Go one level deeper. -/
def Source.deeper (src : Source) : Except Mismatch Source :=
  match src.depth with
  | 0 => .error (.fault .recursionLimit)
  | depth + 1 => .ok ⟨src.ofText, depth⟩

abbrev Reader (α : Type) := Source → Document → Except Mismatch α

/-- The complaint about a document of the wrong kind. -/
def wrongType (expected : String) : Document → Mismatch
  | .null => .invalidType .null expected
  | .bool b => .invalidType (.bool b) expected
  | .number (.int i) => .invalidType (.int i) expected
  | .number (.float x) => .invalidType (.float x) expected
  | .str s => .invalidType (.str s) expected
  | .arr _ _ => .invalidType .sequence expected
  | .obj _ _ => .invalidType .map expected
  | .broken f => .fault f
  | .valueless f => .fault f

namespace Reader

/-! ### Plain values -/

def string : Reader String := fun _ d =>
  match d with
  | .str s => .ok s
  | d => .error (wrongType "a string" d)

def boolean : Reader Bool := fun _ d =>
  match d with
  | .bool b => .ok b
  | d => .error (wrongType "a boolean" d)

/-- An integer from 0 to `max`, of a type with the given name. -/
def natural (name : String) (max : Nat) : Reader Nat := fun _ d =>
  match d with
  | .number (.int i) =>
    if 0 ≤ i ∧ i ≤ max then .ok i.toNat else .error (.invalidValue (.int i) name)
  | d => .error (wrongType name d)

/-- A number of any kind, as a float. -/
def float : Reader Float := fun _ d =>
  match d with
  | .number n => .ok n.toFloat
  | d => .error (wrongType "f64" d)

/-- Any value. -/
def json : Reader Json := fun src d =>
  match d.value? src.depth with
  | .ok j => .ok j
  | .error f => .error (.fault f)

/-- Nothing but `null`. -/
def unit : Reader Unit := fun _ d =>
  match d with
  | .null => .ok ()
  | d => .error (wrongType "unit" d)

/-! ### Containers -/

/-- `null`, or what the reader takes. -/
def option {α : Type} (r : Reader α) : Reader (Option α) := fun src d =>
  match d with
  | .null => .ok none
  | d => (r src d).map some

def readAll {α : Type} (r : Reader α) (src : Source) : List Document → Except Mismatch (List α)
  | [] => .ok []
  | d :: rest =>
    match r src d with
    | .error e => .error e
    | .ok a => (readAll r src rest).map (a :: ·)

def list {α : Type} (r : Reader α) : Reader (List α) := fun src d =>
  match d with
  | .arr items stop => do
    let src ← src.deeper
    let as ← readAll r src items
    match stop with
    | some f => .error (.fault f)
    | none => .ok as
  | d => .error (wrongType "a sequence" d)

/-- A list of exactly two items. -/
def pair {α β : Type} (r : Reader α) (s : Reader β) : Reader (α × β) := fun src d =>
  match d with
  | .arr items stop => do
    let src ← src.deeper
    match items, stop with
    | a :: b :: rest, stop =>
      let a ← r src a
      let b ← s src b
      match rest, stop with
      | [], none => .ok (a, b)
      | [], some f => .error (.fault f)
      | _, _ =>
        if src.ofText then .error (.fault .trailingCharacters)
        else .error (.invalidLength items.length "fewer elements in array")
    | [a], none =>
      let _ ← r src a
      .error (.invalidLength 1 "a tuple of size 2")
    | [], none => .error (.invalidLength 0 "a tuple of size 2")
    | _, some f => .error (.fault f)
  | d => .error (wrongType "a tuple of size 2" d)

def readEach {α : Type} (r : Reader α) (src : Source) :
    List (String × Document) → Except Mismatch (List (String × α))
  | [] => .ok []
  | (k, d) :: rest =>
    match r src d with
    | .error e => .error e
    | .ok a => (readEach r src rest).map ((k, a) :: ·)

/-- An object whose fields all have one type; the last of several fields of one name
counts. -/
def table {α : Type} (r : Reader α) : Reader (Entries α) := fun src d =>
  match d with
  | .obj fields stop => do
    let src ← src.deeper
    let as ← readEach r src fields
    match stop with
    | some f => .error (.fault f)
    | none => .ok (Entries.ofList as)
  | d => .error (wrongType "a map" d)

/-! ### Enumerations -/

/-- The constant of a name; `other` stands for all names that are not known. -/
def variantOf {α : Type} (names : List (String × α)) (other : Option α) (name : String) :
    Except Mismatch α :=
  match names.lookup name, other with
  | some a, _ => .ok a
  | none, some a => .ok a
  | none, none => .error (.unknownVariant name (names.map Prod.fst))

/-- A constant of an enumeration: its name, or an object with that one field holding
`null`. -/
def variant {α : Type} (names : List (String × α)) (other : Option α) : Reader α := fun src d =>
  match d with
  | .str s => variantOf names other s
  | .valueless f => .error (.fault f)
  | .broken .expectedIdent => .error (.fault (if src.ofText then .expectedValue else .expectedIdent))
  | .broken f => .error (.fault f)
  | .obj fields stop => do
    let src ← src.deeper
    match fields, stop with
    | [], some .endInObject => .error (.fault .endInValue)
    | [], some .keyMustBeString => .error (.fault .expectedValue)
    | [], some f => .error (.fault f)
    | [], none =>
      if src.ofText then .error (.fault .expectedValue)
      else .error (.invalidValue .map "map with a single key")
    | (name, d) :: rest, stop =>
      if !src.ofText && !rest.isEmpty then .error (.invalidValue .map "map with a single key")
      else
        let a ← variantOf names other name
        unit src d
        match rest, stop with
        | [], none => .ok a
        | [], some .endInObject => .error (.fault .endInObject)
        | _, _ => .error (.fault .expectedValue)
  | d =>
    if src.ofText then .error (.fault .expectedValue)
    else .error (wrongType "string or map" d)

end Reader

/-! ### Records -/

/-- What stands for a field that is not there. -/
inductive Absent (α : Type) where
  /-- The field has to be there. -/
  | required
  /-- An object may leave the field out, a list may not. -/
  | inObject (a : α)
  /-- The field may be left out. -/
  | anywhere (a : α)

/-- What is left of a list whose items are read as the fields of a record. -/
structure Items where
  rest : List Document
  stop : Option Fault
  index : Nat

/-- A reader of the fields of a record, in their order. -/
structure Record (α : Type) where
  /-- The fields it knows, each with a check of its document. -/
  fields : List (String × Reader Unit)
  /-- The record from the fields of an object, which have passed their checks. -/
  ofFields : Source → List (String × Document) → Except Mismatch α
  /-- The record from the items of a list; the text is what is said of a list too short. -/
  ofItems : Source → String → Items → Except Mismatch (α × Items)

namespace Record

/-- A record without fields. -/
protected def pure {α : Type} (a : α) : Record α where
  fields := []
  ofFields _ _ := .ok a
  ofItems _ _ items := .ok (a, items)

/-- The fields of two records, one after the other. -/
protected def seq {α β : Type} (f : Record (α → β)) (x : Record α) : Record β where
  fields := f.fields ++ x.fields
  ofFields src doc := do
    let g ← f.ofFields src doc
    let a ← x.ofFields src doc
    return g a
  ofItems src expected items := do
    let (g, items) ← f.ofItems src expected items
    let (a, items) ← x.ofItems src expected items
    return (g a, items)

instance : Applicative Record where
  pure := Record.pure
  seq f x := Record.seq f (x ())

/-- One field. -/
def field {α : Type} (name : String) (r : Reader α) (absent : Absent α) : Record α where
  fields := [(name, fun src d => (r src d).map fun _ => ())]
  ofFields src doc :=
    match doc.lookup name, absent with
    | some d, _ => r src d
    | none, .required => .error (.missingField name)
    | none, .inObject a => .ok a
    | none, .anywhere a => .ok a
  ofItems src expected items :=
    match items.rest, items.stop, absent with
    | d :: rest, stop, _ => (r src d).map fun a => (a, ⟨rest, stop, items.index + 1⟩)
    | [], some f, _ => .error (.fault f)
    | [], none, .anywhere a => .ok (a, { items with index := items.index + 1 })
    | [], none, _ => .error (.invalidLength items.index expected)

/-- A field that has to be there. -/
def required {α : Type} (name : String) (r : Reader α) : Record α := field name r .required

/-- A field with a default. -/
def withDefault {α : Type} (name : String) (r : Reader α) (a : α) : Record α :=
  field name r (.anywhere a)

/-- A field that may be `null` or, in an object, left out. -/
def nullable {α : Type} (name : String) (r : Reader α) : Record (Option α) :=
  field name r.option (.inObject none)

/-- Check the fields of an object in the order of the text. -/
def checkFields (known : List (String × Reader Unit)) (src : Source) :
    List String → List (String × Document) → Except Mismatch Unit
  | _, [] => .ok ()
  | seen, (name, d) :: rest =>
    match known.lookup name with
    | some check =>
      if seen.contains name then .error (.duplicateField name)
      else
        match check src d with
        | .error e => .error e
        | .ok () => checkFields known src (name :: seen) rest
    | none =>
      match d.skip with
      | .error f => .error (.fault f)
      | .ok () => checkFields known src seen rest

/-- The fault of a list that ends after the last field of a record. -/
def endFault : Fault → Fault
  | .expectedListCommaOrEnd => .trailingCharacters
  | .endInValue => .trailingCharacters
  | f => f

/-- The number of fields, as a message gives it. -/
def elements (n : Nat) : String :=
  String.ofList (Decimal.numeral n) ++ (if n = 1 then " element" else " elements")

/-- Read a record of the given name. -/
def reader {α : Type} (name : String) (r : Record α) : Reader α := fun src d =>
  match d with
  | .obj fields stop => do
    let src ← src.deeper
    checkFields r.fields src [] fields
    match stop with
    | some f => .error (.fault f)
    | none => r.ofFields src fields
  | .arr items stop => do
    let src ← src.deeper
    let expected := "struct " ++ name ++ " with " ++ elements r.fields.length
    let (a, left) ← r.ofItems src expected ⟨items, stop, 0⟩
    if !left.rest.isEmpty then
      if src.ofText then .error (.fault .trailingCharacters)
      else .error (.invalidLength items.length "fewer elements in array")
    else
      match left.stop with
      | some f => .error (.fault (endFault f))
      | none => .ok a
  | d => .error (wrongType ("struct " ++ name) d)

end Record

/-- Read a whole text. -/
def readText {α : Type} (r : Reader α) (s : String) : Except Mismatch α :=
  let (d, more) := Document.ofText s
  match r Source.text d with
  | .error e => .error e
  | .ok a => if more then .error (.fault .trailingCharacters) else .ok a

/-- Read a value. -/
def readValue {α : Type} (r : Reader α) (j : Json) : Except Mismatch α :=
  r Source.value (Document.ofJson j)

end FlowGraph.Json
