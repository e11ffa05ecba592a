/-
Reading JSON text.

A text is read from left to right, and a fault stops the reading where it stands.  What
was read before the fault is still there, because a consumer that looks for particular
fields may find something to complain of in it first.  So the result of reading is a
tree in which a fault is a leaf, or the end of a list of items or of fields.

`Document.value?` turns a tree without faults into a value.  `Document.skip` passes over
a part that nobody asks for: there a number too large or half a surrogate pair does no
harm.
-/
import FlowGraph.Json.Value
import FlowGraph.Decimal.Reader

namespace FlowGraph.Json

/-- What can be wrong with a text. -/
inductive Fault where
  | endInValue
  | endInObject
  | endInList
  | endInString
  | expectedColon
  | expectedListCommaOrEnd
  | expectedObjectCommaOrEnd
  | expectedIdent
  | expectedValue
  | invalidEscape
  | invalidNumber
  | numberOutOfRange
  | invalidCodePoint
  | controlCharacter
  | keyMustBeString
  | loneSurrogate
  | trailingComma
  | trailingCharacters
  | endOfHexEscape
  | recursionLimit
  deriving Repr, DecidableEq

/-- The wording of a fault. -/
def Fault.message : Fault → String
  | endInValue => "EOF while parsing a value"
  | endInObject => "EOF while parsing an object"
  | endInList => "EOF while parsing a list"
  | endInString => "EOF while parsing a string"
  | expectedColon => "expected \x60:\x60"
  | expectedListCommaOrEnd => "expected \x60,\x60 or \x60]\x60"
  | expectedObjectCommaOrEnd => "expected \x60,\x60 or \x60\x7d\x60"
  | expectedIdent => "expected ident"
  | expectedValue => "expected value"
  | invalidEscape => "invalid escape"
  | invalidNumber => "invalid number"
  | numberOutOfRange => "number out of range"
  | invalidCodePoint => "invalid unicode code point"
  | controlCharacter => "control character (\\u0000-\\u001F) found while parsing a string"
  | keyMustBeString => "key must be a string"
  | loneSurrogate => "lone leading surrogate in hex escape"
  | trailingComma => "trailing comma"
  | trailingCharacters => "trailing characters"
  | endOfHexEscape => "unexpected end of hex escape"
  | recursionLimit => "recursion limit exceeded"

/-- A text as far as it could be read. -/
inductive Document where
  | null
  | bool (b : Bool)
  | number (n : Number)
  | str (s : String)
  | arr (items : List Document) (stop : Option Fault)
  | obj (fields : List (String × Document)) (stop : Option Fault)
  /-- The text breaks off here. -/
  | broken (f : Fault)
  /-- Well-formed text that no value belongs to. -/
  | valueless (f : Fault)
  deriving Inhabited

namespace Document

/-- A blank between tokens. -/
def isSpace (c : Char) : Bool := c = ' ' || c = '\n' || c = '\t' || c = '\r'

def skipSpace (cs : List Char) : List Char := cs.dropWhile isSpace

/-! ### Strings -/

/-- The value of four hexadecimal digits and what follows them. -/
def hex4 : List Char → Except Fault (Nat × List Char)
  | a :: b :: c :: d :: rest =>
    match hexDigit? a, hexDigit? b, hexDigit? c, hexDigit? d with
    | some a, some b, some c, some d => .ok (((a * 16 + b) * 16 + c) * 16 + d, rest)
    | _, _, _, _ => .error .invalidEscape
  | _ => .error .endInString
where
  hexDigit? (c : Char) : Option Nat :=
    if c.isDigit then some (c.toNat - '0'.toNat)
    else if 'a' ≤ c ∧ c ≤ 'f' then some (c.toNat - 'a'.toNat + 10)
    else if 'A' ≤ c ∧ c ≤ 'F' then some (c.toNat - 'A'.toNat + 10)
    else none

/-- The character that a backslash and a letter stand for. -/
def escape? : Char → Option Char
  | '"' => some '"'
  | '\\' => some '\\'
  | '/' => some '/'
  | 'b' => some '\x08'
  | 'f' => some '\x0c'
  | 'n' => some '\n'
  | 'r' => some '\r'
  | 't' => some '\t'
  | _ => none

/-- A character read from an escape of four digits, perhaps with its second half. -/
inductive Escaped where
  | char (c : Char) (rest : List Char)
  /-- A surrogate without its other half: harmless in a part that is skipped. -/
  | unpaired (f : Fault) (rest : List Char)
  | fault (f : Fault)

/-- Read after `\u`. -/
def unicodeEscape (cs : List Char) : Escaped :=
  match hex4 cs with
  | .error f => .fault f
  | .ok (n, rest) =>
    if 0xDC00 ≤ n ∧ n ≤ 0xDFFF then .unpaired .loneSurrogate rest
    else if 0xD800 ≤ n ∧ n ≤ 0xDBFF then
      match rest with
      | '\\' :: 'u' :: tail =>
        match hex4 tail with
        | .error f => .fault f
        | .ok (m, rest) =>
          if 0xDC00 ≤ m ∧ m ≤ 0xDFFF then
            .char (Char.ofNat (0x10000 + (n - 0xD800) * 0x400 + (m - 0xDC00))) rest
          else .unpaired .loneSurrogate rest
      | [] => .fault .endInString
      | ['\\'] => .fault .endInString
      | rest => .unpaired .endOfHexEscape rest
    else .char (Char.ofNat n) rest

/-- A string after its opening quote: its text, or the fault in it.  `flaw` remembers the
first escape that stands for no character. -/
def readString (fuel : Nat) (acc : List Char) (flaw : Option Fault) (cs : List Char) :
    Except Fault ((Except Fault String) × List Char) :=
  match fuel with
  | 0 => .error .endInString
  | fuel + 1 =>
    match cs with
    | [] => .error (flaw.getD .endInString)
    | '"' :: rest =>
      match flaw with
      | some f => .ok (.error f, rest)
      | none => .ok (.ok (String.ofList acc.reverse), rest)
    | ['\\'] => .error (flaw.getD .endInString)
    | '\\' :: 'u' :: rest =>
      match unicodeEscape rest with
      | .char c rest => readString fuel (c :: acc) flaw rest
      | .unpaired f rest => readString fuel acc (flaw.orElse fun _ => some f) rest
      | .fault f => .error (flaw.getD f)
    | '\\' :: c :: rest =>
      match escape? c with
      | some c => readString fuel (c :: acc) flaw rest
      | none => .error (flaw.getD .invalidEscape)
    | c :: rest =>
      if c.toNat < 0x20 then .error (flaw.getD .controlCharacter)
      else readString fuel (c :: acc) flaw rest

/-! ### Numbers -/

/-- A float from the pieces of a numeral; a value beyond all floats is out of range. -/
def floatOf (negative : Bool) (n : Decimal.Numeral) : Document :=
  let x := n.value
  if x.isFinite then .number (.float (if negative then -x else x)) else .valueless .numberOutOfRange

/-- The number that digits without point and exponent stand for: an integer if it is in
range and not minus zero, else a float. -/
def integerOf (negative : Bool) (digits : List Char) : Document :=
  let n : Int := Decimal.digitsValue digits
  if negative then
    if n ≠ 0 ∧ Number.inRange (-n) then .number (.int (-n)) else floatOf true ⟨digits, [], 0⟩
  else if Number.inRange n then .number (.int n) else floatOf false ⟨digits, [], 0⟩

/-- Read the exponent of a numeral, if there is one. -/
def readTail (negative : Bool) (whole fraction : List Char) (isFloat : Bool) (cs : List Char) :
    Except Fault (Document × List Char) :=
  match cs with
  | c :: rest =>
    if c = 'e' ∨ c = 'E' then
      let body := match rest with
        | '+' :: r => r
        | '-' :: r => r
        | r => r
      match body with
      | [] => .error .endInValue
      | _ =>
        match Decimal.readExponent rest with
        | some (e, rest) => .ok (floatOf negative ⟨whole, fraction, e⟩, rest)
        | none => .error .invalidNumber
    else if isFloat then .ok (floatOf negative ⟨whole, fraction, 0⟩, cs)
    else .ok (integerOf negative whole, cs)
  | [] =>
    if isFloat then .ok (floatOf negative ⟨whole, fraction, 0⟩, [])
    else .ok (integerOf negative whole, [])

/-- Read a number after its sign. -/
def readNumber (negative : Bool) (cs : List Char) : Except Fault (Document × List Char) :=
  let (whole, rest) := Decimal.spanDigits cs
  match whole, rest with
  | [], [] => .error .endInValue
  | [], _ => .error .invalidNumber
  | '0' :: _ :: _, _ => .error .invalidNumber
  | whole, '.' :: rest =>
    match Decimal.spanDigits rest, rest with
    | ([], _), [] => .error .endInValue
    | ([], _), _ => .error .invalidNumber
    | (fraction, rest), _ => readTail negative whole fraction true rest
  | whole, rest => readTail negative whole [] false rest

/-! ### Values -/

/-- The rest of a word whose first letter was seen. -/
def readWord (word : List Char) (value : Document) (cs : List Char) :
    Document × Option (List Char) :=
  match word, cs with
  | [], rest => (value, some rest)
  | _, [] => (.broken .endInValue, none)
  | w :: ws, c :: rest => if w = c then readWord ws value rest else (.broken .expectedIdent, none)

/-- How a list or an object goes on: it is over, or another item or field begins. -/
inductive Next where
  | finished (rest : List Char)
  | further (rest : List Char)

/-- What stands between the items of a list.  `first` holds before the first item. -/
def nextItem (first : Bool) (cs : List Char) : Except Fault Next :=
  match cs with
  | [] => .error .endInList
  | ']' :: rest => .ok (.finished rest)
  | ',' :: rest =>
    if first then .ok (.further cs)
    else
      match skipSpace rest with
      | [] => .error .endInValue
      | ']' :: _ => .error .trailingComma
      | rest => .ok (.further rest)
  | _ => if first then .ok (.further cs) else .error .expectedListCommaOrEnd

/-- What stands between the fields of an object, up to the opening quote of a name. -/
def nextField (first : Bool) (cs : List Char) : Except Fault Next :=
  match cs with
  | [] => .error .endInObject
  | '}' :: rest => .ok (.finished rest)
  | ',' :: rest =>
    if first then .error .keyMustBeString
    else
      match skipSpace rest with
      | [] => .error .endInValue
      | '"' :: rest => .ok (.further rest)
      | '}' :: _ => .error .trailingComma
      | _ => .error .keyMustBeString
  | '"' :: rest => if first then .ok (.further rest) else .error .expectedObjectCommaOrEnd
  | _ => if first then .error .keyMustBeString else .error .expectedObjectCommaOrEnd

/-- What was read of a number, and what follows it. -/
def numberStep : Except Fault (Document × List Char) → Document × Option (List Char)
  | .ok (d, rest) => (d, some rest)
  | .error f => (.broken f, none)

mutual

/-- Read one value.  The second part is what follows it, if the reading goes on. -/
def readValue : Nat → List Char → Document × Option (List Char)
  | 0, _ => (.broken .endInValue, none)
  | fuel + 1, cs =>
    match skipSpace cs with
    | [] => (.broken .endInValue, none)
    | 'n' :: rest => readWord ['u', 'l', 'l'] .null rest
    | 't' :: rest => readWord ['r', 'u', 'e'] (.bool true) rest
    | 'f' :: rest => readWord ['a', 'l', 's', 'e'] (.bool false) rest
    | '-' :: rest => numberStep (readNumber true rest)
    | '"' :: rest =>
      match readString (rest.length + 1) [] none rest with
      | .error f => (.broken f, none)
      | .ok (.ok s, rest) => (.str s, some rest)
      | .ok (.error f, rest) => (.valueless f, some rest)
    | '[' :: rest =>
      let (items, stop, rest) := readItems fuel true rest
      (.arr items stop, rest)
    | '{' :: rest =>
      let (fields, stop, rest) := readFields fuel true rest
      (.obj fields stop, rest)
    | c :: rest =>
      if c.isDigit then numberStep (readNumber false (c :: rest)) else (.broken .expectedValue, none)

/-- Read the items of a list up to its end.  `first` holds before the first item. -/
def readItems : Nat → Bool → List Char → List Document × Option Fault × Option (List Char)
  | 0, _, _ => ([], some .endInList, none)
  | fuel + 1, first, cs =>
    match nextItem first (skipSpace cs) with
    | .error f => ([], some f, none)
    | .ok (.finished rest) => ([], none, some rest)
    | .ok (.further rest) =>
      match readValue fuel rest with
      | (d, none) => ([d], none, none)
      | (d, some rest) =>
        let (ds, stop, rest) := readItems fuel false rest
        (d :: ds, stop, rest)

/-- Read the fields of an object up to its end.  `first` holds before the first field. -/
def readFields : Nat → Bool → List Char →
    List (String × Document) × Option Fault × Option (List Char)
  | 0, _, _ => ([], some .endInObject, none)
  | fuel + 1, first, cs =>
    match nextField first (skipSpace cs) with
    | .error f => ([], some f, none)
    | .ok (.finished rest) => ([], none, some rest)
    | .ok (.further rest) =>
      match readString (rest.length + 1) [] none rest with
      | .error f => ([], some f, none)
      | .ok (.error f, _) => ([], some f, none)
      | .ok (.ok key, rest) =>
        match skipSpace rest with
        | [] => ([(key, .broken .endInObject)], none, none)
        | ':' :: rest =>
          match readValue fuel rest with
          | (d, none) => ([(key, d)], none, none)
          | (d, some rest) =>
            let (fs, stop, rest) := readFields fuel false rest
            ((key, d) :: fs, stop, rest)
        | _ => ([(key, .broken .expectedColon)], none, none)

end

/-- Read a text.  The second part tells whether anything but blanks follows the value. -/
def ofText (s : String) : Document × Bool :=
  let cs := s.toList
  match readValue (cs.length + 2) cs with
  | (d, none) => (d, false)
  | (d, some rest) => (d, !(skipSpace rest).isEmpty)

/-! ### From and to values -/

mutual

/-- A value as a document without faults. -/
def ofJson : Json → Document
  | .null => .null
  | .bool b => .bool b
  | .number n => .number n
  | .str s => .str s
  | .arr items => .arr (ofItems items) none
  | .obj fields => .obj (ofFields fields) none

def ofItems : List Json → List Document
  | [] => []
  | j :: rest => ofJson j :: ofItems rest

def ofFields : List (String × Json) → List (String × Document)
  | [] => []
  | (k, j) :: rest => (k, ofJson j) :: ofFields rest

end

mutual

/-- The value of a document, or its first fault.  `depth` bounds how deep lists and
objects may nest; the last of several fields of one name counts. -/
def value? (depth : Nat) : Document → Except Fault Json
  | .null => .ok .null
  | .bool b => .ok (.bool b)
  | .number n => .ok (.number n)
  | .str s => .ok (.str s)
  | .broken f => .error f
  | .valueless f => .error f
  | .arr items stop =>
    match depth with
    | 0 => .error .recursionLimit
    | depth + 1 =>
      match values? depth items with
      | .error f => .error f
      | .ok js =>
        match stop with
        | some f => .error f
        | none => .ok (.arr js)
  | .obj fields stop =>
    match depth with
    | 0 => .error .recursionLimit
    | depth + 1 =>
      match fieldValues? depth fields with
      | .error f => .error f
      | .ok fs =>
        match stop with
        | some f => .error f
        | none => .ok (Json.object fs)

def values? (depth : Nat) : List Document → Except Fault (List Json)
  | [] => .ok []
  | d :: rest =>
    match value? depth d with
    | .error f => .error f
    | .ok j => (values? depth rest).map (j :: ·)

def fieldValues? (depth : Nat) : List (String × Document) → Except Fault (List (String × Json))
  | [] => .ok []
  | (k, d) :: rest =>
    match value? depth d with
    | .error f => .error f
    | .ok j => (fieldValues? depth rest).map ((k, j) :: ·)

end

/-- The fault at the end of a list that is skipped. -/
def skippedListFault : Fault → Fault
  | .trailingComma => .expectedValue
  | f => f

/-- The fault at the end of an object that is skipped. -/
def skippedObjectFault : Fault → Fault
  | .trailingComma => .keyMustBeString
  | .endInValue => .endInObject
  | f => f

mutual

/-- Pass over a part of a document: its first fault, if it has one that matters. -/
def skip : Document → Except Fault Unit
  | .broken f => .error f
  | .arr items stop =>
    match skipItems items with
    | .error f => .error f
    | .ok () =>
      match stop with
      | some f => .error (skippedListFault f)
      | none => .ok ()
  | .obj fields stop =>
    match skipFields fields with
    | .error f => .error f
    | .ok () =>
      match stop with
      | some f => .error (skippedObjectFault f)
      | none => .ok ()
  | _ => .ok ()

def skipItems : List Document → Except Fault Unit
  | [] => .ok ()
  | d :: rest =>
    match skip d with
    | .error f => .error f
    | .ok () => skipItems rest

def skipFields : List (String × Document) → Except Fault Unit
  | [] => .ok ()
  | (_, d) :: rest =>
    match skip d with
    | .error f => .error f
    | .ok () => skipFields rest

end

end Document

/-- How deep the lists and objects of a text may nest. -/
def nestingLimit : Nat := 127

/-- Read a text as one value, with nothing but blanks around it. -/
def parse (depth : Nat) (s : String) : Except Fault Json :=
  let (d, more) := Document.ofText s
  match d.value? depth with
  | .error f => .error f
  | .ok j => if more then .error .trailingCharacters else .ok j

end FlowGraph.Json
