/-
Upper and lower case of texts.

Case is not a map on characters: `ß` becomes two characters, and a capital sigma at the
end of a word becomes another letter than inside one.  Both are decided here; which
single characters change is the table's matter.
-/
import FlowGraph.Text.CaseTable

namespace FlowGraph.Text

/-- The character after a stretch's shift, or itself where no stretch holds it. -/
def shifted (table : List Stretch) (c : Char) : Char :=
  match table.find? (fun s => s.holds c.toNat) with
  | some s => Char.ofNat (c.toNat + s.shift).toNat
  | none => c

/-- The upper case of one character. -/
def upperOf (c : Char) : List Char :=
  if c.toNat < 0x80 then [c.toUpper]
  else
    match upperExpansions.lookup c.toNat with
    | some ns => ns.map Char.ofNat
    | none => [shifted upperTable c]

/-- The lower case of one character on its own. -/
def lowerOf (c : Char) : List Char :=
  if c.toNat < 0x80 then [c.toLower]
  else if c.toNat = 0x130 then ['i', Char.ofNat 0x307]
  else [shifted lowerTable c]

/-- The character has a case. -/
def isCased (c : Char) : Bool := upperOf c != [c] || lowerOf c != [c]

/-- Characters that a word runs through when the end of a word is looked for. -/
def isCaseIgnorable (c : Char) : Bool :=
  c == '\'' || c == '.' || c == ':' || c == '^' || c.toNat == 0x60 || c.toNat == 0xA8 ||
    c.toNat == 0xAD || c.toNat == 0xAF || c.toNat == 0xB4 || c.toNat == 0xB7 || c.toNat == 0xB8 ||
    (0x2B0 ≤ c.toNat && c.toNat ≤ 0x36F) || c.toNat == 0x2019

/-- The first character that is not ignorable has a case. -/
def casedFirst : List Char → Bool
  | [] => false
  | c :: rest => if isCaseIgnorable c then casedFirst rest else isCased c

/-- Lower case of a text, `before` holding the characters already read, last first. -/
def lowerFrom (before : List Char) : List Char → List Char
  | [] => []
  | c :: rest =>
    let here :=
      if c.toNat = 0x3A3 then
        if casedFirst before && !casedFirst rest then [Char.ofNat 0x3C2] else [Char.ofNat 0x3C3]
      else lowerOf c
    here ++ lowerFrom (c :: before) rest

def toUpper (s : String) : String := String.ofList (s.toList.flatMap upperOf)

def toLower (s : String) : String := String.ofList (lowerFrom [] s.toList)

end FlowGraph.Text
