/-
The words of a script.

A script is cut into words from left to right, the longest word first.  Blanks and
comments separate words.  A minus sign directly before a digit belongs to the numeral
unless the word before it ends an operand, so that the least integer can be written.

A text between backquotes may hold expressions.  It is cut into its pieces: the word
`piece` is text up to an expression, whose words follow between braces, and the last
piece is an ordinary string.
-/
import FlowGraph.Decimal.Reader

namespace FlowGraph.Script

/-- A word of a script. -/
inductive Token where
  | int (i : Int)
  | float (x : Float)
  | char (c : Char)
  | str (s : String)
  /-- Text of an interpolated string, before an expression in braces. -/
  | piece (s : String)
  | ident (name : String)
  /-- A word of the language. -/
  | word (name : String)
  /-- A word that is set aside and can only be called, if that. -/
  | reserved (name : String)
  /-- An operator, a bracket or a separator. -/
  | mark (text : String)
  deriving Inhabited, BEq, DecidableEq

namespace Token

/-- The words of the language. -/
def words : List String :=
  ["true", "false", "let", "const", "if", "else", "switch", "do", "while", "until", "loop", "for",
   "in", "continue", "break", "return", "throw", "try", "catch", "fn", "private", "import",
   "export", "as"]

/-- Words set aside, which are no names. -/
def reservedWords : List String :=
  ["var", "static", "shared", "goto", "match", "case", "public", "protected", "new", "use",
   "with", "is", "module", "package", "super", "thread", "spawn", "go", "await", "async", "sync",
   "yield", "default", "void", "null", "nil", "this", "print", "debug", "type_of", "eval", "Fn",
   "call", "curry", "is_def_var", "is_def_fn", "is_shared"]

/-- Operators and separators, longer ones first. -/
def marks : List String :=
  ["<<=", ">>=", "**=", "..=", "...", "===", "!==", "::<",
   "#\x7b", "=>", "==", "!=", "<=", ">=", "&&", "||", "??", "?.", "?[", "..", "**", "<<", ">>",
   "+=", "-=", "*=", "/=", "%=", "&=", "|=", "^=", "::", "->", "<-", ":=", "++", "--", "(*", "*)",
   "#!", "|>", "<|",
   "\x7b", "\x7d", "(", ")", "[", "]", "+", "-", "*", "/", "%", "<", ">", "=", "!", "&", "|", "^",
   ";", ":", ",", ".", "_", "~", "#", "@", "$", "?"]

/-- A numeral may follow here with a sign of its own. -/
def allowsSign : Option Token → Bool
  | none => true
  | some (mark m) => !(m = ")" || m = "]" || m = "\x7d" || m = "." || m = "?." || m = "_")
  | some (word w) =>
    w = "if" || w = "do" || w = "while" || w = "until" || w = "in" || w = "return" || w = "throw"
  | some _ => false

def isNameStart (c : Char) : Bool := c.isAlpha || c = '_'

def isNamePart (c : Char) : Bool := c.isAlphanum || c = '_'

/-- A name has a letter, and none but underscores before the first one. -/
def isName (cs : List Char) : Bool :=
  match cs.dropWhile (· = '_') with
  | [] => false
  | c :: _ => c.isAlpha

/-! ### Strings -/

def hexDigit? (c : Char) : Option Nat :=
  if c.isDigit then some (c.toNat - '0'.toNat)
  else if 'a' ≤ c ∧ c ≤ 'f' then some (c.toNat - 'a'.toNat + 10)
  else if 'A' ≤ c ∧ c ≤ 'F' then some (c.toNat - 'A'.toNat + 10)
  else none

/-- The character with the given code, in `count` hexadecimal digits. -/
def hexChar (count : Nat) (cs : List Char) (acc : Nat) : Option (Char × List Char) :=
  match count, cs with
  | 0, rest => if acc.isValidChar then some (Char.ofNat acc, rest) else none
  | _ + 1, [] => none
  | count + 1, c :: rest =>
    match hexDigit? c with
    | some d => hexChar count rest (acc * 16 + d)
    | none => none

/-- The character that a backslash and what follows it stand for. -/
def escape? : List Char → Option (Char × List Char)
  | '\\' :: r => some ('\\', r)
  | 't' :: r => some ('\t', r)
  | 'n' :: r => some ('\n', r)
  | 'r' :: r => some ('\r', r)
  | '"' :: r => some ('"', r)
  | '\'' :: r => some ('\'', r)
  | 'x' :: r => hexChar 2 r 0
  | 'u' :: r => hexChar 4 r 0
  | 'U' :: r => hexChar 8 r 0
  | _ => none

/-- A string up to the given quote.  A quote written twice stands for itself, and a
backslash at the end of a line joins the next line without its leading blanks. -/
def quotedText (quote : Char) : Nat → List Char → List Char → Option (List Char × List Char)
  | 0, _, _ => none
  | fuel + 1, acc, cs =>
    match cs with
    | [] => none
    | '\\' :: '\n' :: r =>
      if quote = '"' then
        quotedText quote fuel acc (r.dropWhile fun c => c = ' ' || c = '\t')
      else none
    | '\\' :: r =>
      match escape? r with
      | some (c, r) => quotedText quote fuel (c :: acc) r
      | none => none
    | c :: r =>
      if c = quote then
        match r with
        | d :: r' => if d = quote then quotedText quote fuel (c :: acc) r' else some (acc.reverse, r)
        | [] => some (acc.reverse, [])
      else if c = '\n' then none
      else quotedText quote fuel (c :: acc) r

/-- How a piece of an interpolated string ends. -/
inductive PieceEnd where
  | closed
  | expression

/-- Text of an interpolated string up to its end or to an expression. -/
def pieceText : Nat → List Char → List Char → Option (List Char × PieceEnd × List Char)
  | 0, _, _ => none
  | fuel + 1, acc, cs =>
    match cs with
    | [] => none
    | '$' :: '{' :: r => some (acc.reverse, .expression, '{' :: r)
    | c :: r =>
      if c.toNat = 0x60 then
        match r with
        | d :: r' => if d = c then pieceText fuel (c :: acc) r' else some (acc.reverse, .closed, r)
        | [] => some (acc.reverse, .closed, [])
      else pieceText fuel (c :: acc) r

/-! ### Numerals -/

/-- The value of digits in a base. -/
def baseValue (base : Nat) (ds : List Char) : Option Nat :=
  ds.foldl (fun n c =>
    match n, hexDigit? c with
    | some n, some d => if d < base then some (n * base + d) else none
    | _, _ => none) (if ds.isEmpty then none else some 0)

/-- An integer written in a base other than ten: sixty-four bits, the highest for the sign. -/
def basedInt (base : Nat) (ds : List Char) : Option Token :=
  match baseValue base (ds.filter (· ≠ '_')) with
  | some n =>
    if n < 9223372036854775808 then some (int n)
    else if n < 18446744073709551616 then some (int ((n : Int) - 18446744073709551616))
    else none
  | none => none

/-- The base that a letter after a leading zero names. -/
def baseOf : Char → Option Nat
  | 'x' | 'X' => some 16
  | 'o' | 'O' => some 8
  | 'b' | 'B' => some 2
  | _ => none

/-- Digits and separators at the front. -/
def spanDigits (cs : List Char) : List Char × List Char :=
  let (ds, rest) := cs.span fun c => c.isDigit || c = '_'
  (ds.filter (· ≠ '_'), rest)

/-- A point after whole digits belongs to the numeral unless a second point, a separator
or a name follows it. -/
def fractionOf (cs : List Char) : List Char × Bool × List Char :=
  match cs with
  | '.' :: r =>
    match r with
    | [] => ([], true, [])
    | c :: _ =>
      if c.isDigit then
        let (ds, rest) := spanDigits r
        (ds, true, rest)
      else if c = '.' || isNameStart c then ([], false, cs)
      else ([], true, r)
  | _ => ([], false, cs)

/-- An exponent, if one follows. -/
def exponentOf (cs : List Char) : Option (Int × List Char) :=
  match cs with
  | 'e' :: '_' :: _ => none
  | 'e' :: r => Decimal.readExponent r
  | _ => none

/-- A numeral in base ten: an integer if it has neither point nor exponent and fits. -/
def decimal (negative : Bool) (cs : List Char) : Token × List Char :=
  let (whole, rest) := spanDigits cs
  let (fraction, point, rest) := fractionOf rest
  let signed (x : Float) : Float := if negative then -x else x
  match exponentOf rest with
  | some (e, rest) => (float (signed (Decimal.Numeral.value ⟨whole, fraction, e⟩)), rest)
  | none =>
    let n : Int := Decimal.digitsValue whole
    let n := if negative then -n else n
    if !point && -9223372036854775808 ≤ n && n ≤ 9223372036854775807 then (int n, rest)
    else (float (signed (Decimal.Numeral.value ⟨whole, fraction, 0⟩)), rest)

/-- A numeral; `none` if it is none. -/
def numeral (negative : Bool) (cs : List Char) : Option (Token × List Char) :=
  match cs with
  | '0' :: b :: rest =>
    match baseOf b with
    | some base =>
      let (ds, rest) := rest.span fun c => (hexDigit? c).any (· < base) || c = '_'
      match basedInt base ds with
      | some (int i) => some (int (if negative then -i else i), rest)
      | _ => none
    | none => some (decimal negative cs)
  | _ => some (decimal negative cs)

/-! ### Blanks and comments -/

/-- The rest after a comment between marks, which may hold others. -/
def closeComment : Nat → Nat → List Char → List Char
  | 0, _, cs => cs
  | _, 0, cs => cs
  | fuel + 1, depth + 1, cs =>
    match cs with
    | [] => []
    | '*' :: '/' :: r => closeComment fuel depth r
    | '/' :: '*' :: r => closeComment fuel (depth + 2) r
    | _ :: r => closeComment fuel (depth + 1) r

def isSpace (c : Char) : Bool := c = ' ' || c = '\t' || c = '\n' || c = '\r'

/-- The rest after blanks and comments. -/
def skipBlanks : Nat → List Char → List Char
  | 0, cs => cs
  | fuel + 1, cs =>
    match cs with
    | '/' :: '/' :: r => skipBlanks fuel (r.dropWhile (· ≠ '\n'))
    | '/' :: '*' :: r => skipBlanks fuel (closeComment (r.length + 1) 1 r)
    | c :: r => if isSpace c then skipBlanks fuel r else cs
    | [] => []

/-! ### Words -/

/-- The rest of a text after a mark at its front. -/
def stripMark : List Char → List Char → Option (List Char)
  | [], rest => some rest
  | m :: ms, c :: cs => if m = c then stripMark ms cs else none
  | _ :: _, [] => none

/-- The mark at the front of a text. -/
def markAt (cs : List Char) : List String → Option (String × List Char)
  | [] => none
  | m :: ms =>
    match stripMark m.toList cs with
    | some rest => some (m, rest)
    | none => markAt cs ms

/-- A word made of letters. -/
def ofName (cs : List Char) : Option Token :=
  let name := String.ofList cs
  if name = "_" then some (mark "_")
  else if !isName cs then none
  else if words.contains name then some (word name)
  else if reservedWords.contains name then some (reserved name)
  else some (ident name)

/-- Where the braces of expressions inside interpolated strings stand: how many braces
are open in each of them, innermost first. -/
abbrev Nesting := List Nat

/-- Keep count of the braces, and tell whether one closes an expression. -/
def track (m : String) (nesting : Nesting) : Nesting × Bool :=
  match nesting with
  | [] => ([], false)
  | n :: outer =>
    if m = "\x7b" || m = "#\x7b" then ((n + 1) :: outer, false)
    else if m = "\x7d" then
      if n ≤ 1 then (outer, true) else ((n - 1) :: outer, false)
    else (n :: outer, false)

/-- A line break directly after the opening backquote is dropped. -/
def dropLineBreak : List Char → List Char
  | '\n' :: r => r
  | '\r' :: '\n' :: r => r
  | r => r

/-- One step of cutting: the next words, the rest, and the braces.  `none` marks a text
that holds no word. -/
def next (last : Option Token) (nesting : Nesting) (cs : List Char) :
    Option (List Token × List Char × Nesting) :=
  let size := cs.length + 1
  match cs with
  | [] => some ([], [], nesting)
  | '"' :: r => (quotedText '"' size [] r).map fun (s, r) => ([str (String.ofList s)], r, nesting)
  | '\'' :: r =>
    match quotedText '\'' size [] r with
    | some ([c], r) => some ([char c], r, nesting)
    | _ => none
  | c :: r =>
    if c.toNat = 0x60 then
      match pieceText size [] (dropLineBreak r) with
      | some (s, .closed, r) => some ([str (String.ofList s)], r, nesting)
      | some (s, .expression, r) => some ([piece (String.ofList s)], r, 0 :: nesting)
      | none => none
    else if c.isDigit then
      (numeral false cs).map fun (t, r) => ([t], r, nesting)
    else if c = '-' && (r.head?.any Char.isDigit) && allowsSign last then
      (numeral true r).map fun (t, r) => ([t], r, nesting)
    else if isNameStart c then
      let (name, r) := cs.span isNamePart
      (ofName name).map fun t => ([t], r, nesting)
    else
      match markAt cs marks with
      | none => none
      | some (m, r) =>
        match track m nesting with
        | (nesting, false) => some ([mark m], r, nesting)
        | (nesting, true) =>
          match pieceText size [] r with
          | some (s, .closed, r) => some ([mark m, str (String.ofList s)], r, nesting)
          | some (s, .expression, r) =>
            some ([mark m, piece (String.ofList s)], r, 0 :: nesting)
          | none => none

/-- Cut a text into words; `none` if some part of it is no word. -/
def cut : Nat → List Token → Nesting → List Char → Option (List Token)
  | 0, _, _, _ => none
  | fuel + 1, done, nesting, cs =>
    match skipBlanks (cs.length + 1) cs with
    | [] => if nesting.isEmpty then some done.reverse else none
    | cs =>
      match next done.head? nesting cs with
      | none => none
      | some (ts, rest, nesting) => cut fuel (ts.reverse ++ done) nesting rest

/-- The words of a script. -/
def ofScript (code : String) : Option (List Token) :=
  let cs := code.toList
  cut (cs.length + 1) [] [] cs

end Token

end FlowGraph.Script
