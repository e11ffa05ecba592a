/-
The words of short scripts.

A script that names a variable, or a field of all variables, is cut into the words that one expects
whatever the name is, as long as it is a name at all.  Two notions of a name meet here.  A variable
is bound if its name is an identifier, of ASCII letters, digits and underscores; a script takes such
a word for the name of a variable only if a letter comes before the first digit and if it is not set
aside for the language (`isNameable`).  A name that is quoted only has to have no mark that a string
would not take as it stands.
-/
import Mathlib.Data.List.TakeDrop
import FlowGraph.Script.Evaluation

namespace FlowGraph.Script

/-- The word may be the name of a variable: a letter comes before the first digit, and the language
does not use it. -/
def isNameable (name : String) : Bool :=
  Token.isName name.toList && !Token.words.contains name && !Token.reservedWords.contains name

namespace Token

variable {c d : Char} {cs rest : List Char} {last : Option Token} {nesting : Nesting}

/-! ### Names -/

theorem isNameStart_ne (h : isNameStart c = true) (hd : isNameStart d = false) : c ≠ d := by
  rintro rfl
  rw [h] at hd
  cases hd

theorem isDigit_of_isNameStart (h : isNameStart c = true) : c.isDigit = false := by
  rw [isNameStart, Bool.or_eq_true, decide_eq_true_eq] at h
  rcases h with h | rfl
  · delta Char.isAlpha Char.isUpper Char.isLower at h
    grind [Char.isDigit]
  · rfl

theorem isNamePart_of_isNameStart (h : isNameStart c = true) : isNamePart c = true := by
  simp only [isNameStart, isNamePart, Bool.or_eq_true, Char.isAlphanum] at h ⊢
  exact h.imp_left .inl

theorem isSpace_of_isNameStart (h : isNameStart c = true) : isSpace c = false := by
  by_contra hspace
  simp only [isSpace, Bool.or_eq_true, Bool.not_eq_false, decide_eq_true_eq] at hspace
  rcases hspace with ((rfl | rfl) | rfl) | rfl <;> exact absurd h (by decide)

theorem ofName_nameable {name : String} (h : isNameable name = true) :
    ofName name.toList = some (ident name) := by
  rw [isNameable, Bool.and_eq_true, Bool.and_eq_true, Bool.not_eq_true', Bool.not_eq_true'] at h
  obtain ⟨⟨hname, hword⟩, hreserved⟩ := h
  have hline : name ≠ "_" := by
    rintro rfl
    exact absurd hname (by decide)
  simp only [ofName, String.ofList_toList, hline, hname, hword, hreserved, if_false, Bool.not_true,
    Bool.false_eq_true]

/-- What a script takes the other identifiers for, if for anything. -/
def notNames : List Token := .mark "_" :: (words.map .word ++ reservedWords.map .reserved)

theorem ofName_unnameable {name : String} (h : isNameable name = false) :
    ofName name.toList = none ∨ ∃ t ∈ notNames, ofName name.toList = some t := by
  have hwords : ∀ {w}, w ∈ words → word w ∈ notNames := fun hw =>
    List.mem_cons_of_mem _ (List.mem_append_left _ (List.mem_map_of_mem hw))
  have hreserved : ∀ {w}, w ∈ reservedWords → reserved w ∈ notNames := fun hw =>
    List.mem_cons_of_mem _ (List.mem_append_right _ (List.mem_map_of_mem hw))
  rw [ofName, String.ofList_toList]
  split
  · exact .inr ⟨_, List.mem_cons_self, rfl⟩
  · split
    · exact .inl rfl
    · rename_i hname
      split
      · rename_i hw
        exact .inr ⟨_, hwords (List.contains_iff_mem.mp hw), rfl⟩
      · rename_i hword
        split
        · rename_i hw
          exact .inr ⟨_, hreserved (List.contains_iff_mem.mp hw), rfl⟩
        · rename_i hfree
          rw [isNameable] at h
          simp_all

/-! ### One word -/

theorem skipBlanks_cons (n : Nat) (hslash : c ≠ '/') (hspace : isSpace c = false) :
    skipBlanks (n + 1) (c :: cs) = c :: cs := by
  rw [skipBlanks.eq_def]
  dsimp only
  split
  · rename_i h
    exact absurd (List.cons.inj h).1 hslash
  · rename_i h
    exact absurd (List.cons.inj h).1 hslash
  · rename_i h
    obtain ⟨rfl, rfl⟩ := List.cons.inj h
    rw [hspace, if_neg Bool.false_ne_true]
  · rename_i h
    cases h

/-- Cutting goes on behind the words that come first, if there are any. -/
theorem cut_cons {fuel : Nat} {done : List Token}
    {found : Option (List Token × List Char × Nesting)}
    (hslash : c ≠ '/') (hspace : isSpace c = false) (hlast : done.head? = last)
    (h : next last nesting (c :: cs) = found) :
    cut (fuel + 1) done nesting (c :: cs)
      = found.bind fun ⟨ts, rest, nesting⟩ => cut fuel (ts.reverse ++ done) nesting rest := by
  rw [cut, skipBlanks_cons _ hslash hspace]
  simp only [hlast, h]
  cases found <;> rfl

/-- The text does not go on with a part of a name. -/
def EndsName : List Char → Prop
  | [] => True
  | d :: _ => isNamePart d = false

/-- A name is cut off whole. -/
theorem next_name (hstart : isNameStart c = true) (hpart : ∀ d ∈ cs, isNamePart d = true)
    (hrest : EndsName rest) :
    next last nesting (c :: cs ++ rest)
      = (ofName (c :: cs)).map fun t => ([t], rest, nesting) := by
  have hspan : (c :: cs ++ rest).span isNamePart = (c :: cs, rest) := by
    have hall : ∀ d ∈ c :: cs, isNamePart d = true :=
      List.forall_mem_cons.mpr ⟨isNamePart_of_isNameStart hstart, hpart⟩
    have hends : rest.takeWhile isNamePart = [] ∧ rest.dropWhile isNamePart = rest := by
      cases rest with
      | nil => exact ⟨rfl, rfl⟩
      | cons d r => simp [show isNamePart d = false from hrest]
    rw [List.span_eq_takeWhile_dropWhile, List.takeWhile_append_of_pos hall,
      List.dropWhile_append_of_pos hall, hends.1, hends.2, List.append_nil]
  -- Words of the other kinds begin with characters that no name begins with.
  have hquote : c ≠ '"' := isNameStart_ne hstart (by decide)
  have hapostrophe : c ≠ '\'' := isNameStart_ne hstart (by decide)
  have hminus : c ≠ '-' := isNameStart_ne hstart (by decide)
  have hback : c.toNat ≠ 0x60 := fun h =>
    isNameStart_ne hstart (d := Char.ofNat 0x60) (by decide) (Char.toNat_inj.mp h)
  have hdigit : c.isDigit = false := isDigit_of_isNameStart hstart
  rw [List.cons_append, next.eq_def]
  dsimp only
  split
  · rename_i h
    cases h
  · rename_i h
    exact absurd (List.cons.inj h).1 hquote
  · rename_i h
    exact absurd (List.cons.inj h).1 hapostrophe
  · rename_i h
    obtain ⟨rfl, rfl⟩ := List.cons.inj h
    rw [List.cons_append] at hspan
    simp only [hback, hdigit, hminus, hstart, hspan, if_false, if_true, Bool.false_eq_true,
      decide_false, Bool.false_and]

/-- A point between names is a word. -/
theorem next_point (h : isNameStart c = true) :
    next last [] ('.' :: c :: rest) = some ([mark "."], c :: rest, []) := by
  have hc : '.' ≠ c := (isNameStart_ne h (by decide)).symm
  have hmark : markAt ('.' :: c :: rest) marks = some (".", c :: rest) := by
    simp [markAt, marks, stripMark, hc]
  have hname : isNameStart '.' = false := rfl
  rw [next.eq_def]
  simp [hmark, hname, track]

theorem next_bracket : next last [] ('[' :: rest) = some ([mark "["], rest, []) := rfl

/-! ### Quoted texts -/

/-- The character stands for itself between quotes. -/
def IsPlain (c : Char) : Prop := c ≠ '"' ∧ c ≠ '\\' ∧ c ≠ '\n'

theorem quotedText_plain (hrest : rest.head? ≠ some '"') : ∀ {cs : List Char} {fuel : Nat}
    (acc : List Char), cs.length < fuel → (∀ c ∈ cs, IsPlain c) →
      quotedText '"' fuel acc (cs ++ '"' :: rest) = some (acc.reverse ++ cs, rest)
  | [], fuel + 1, acc, _, _ => by
      rw [List.nil_append, List.append_nil, quotedText.eq_def]
      cases rest with
      | nil => rfl
      | cons d r =>
          have hd : d ≠ '"' := fun h => hrest (by rw [h]; rfl)
          show (if d = '"' then _ else some (acc.reverse, d :: r)) = _
          rw [if_neg hd]
  | c :: cs, fuel + 1, acc, hfuel, hcs => by
      obtain ⟨⟨hquote, hescape, hbreak⟩, hcs⟩ := List.forall_mem_cons.mp hcs
      have ih := quotedText_plain hrest (c :: acc) (Nat.lt_of_succ_lt_succ hfuel) hcs
      rw [List.cons_append, quotedText.eq_def]
      dsimp only
      split
      · rename_i h
        cases h
      · rename_i h
        exact absurd (List.cons.inj h).1 hescape
      · rename_i h
        exact absurd (List.cons.inj h).1 hescape
      · rename_i h
        obtain ⟨rfl, rfl⟩ := List.cons.inj h
        rw [if_neg hquote, if_neg hbreak, ih, List.reverse_cons, List.append_assoc,
          List.singleton_append]

/-- A text between quotes is one word. -/
theorem next_quoted (hrest : rest.head? ≠ some '"') (hcs : ∀ c ∈ cs, IsPlain c) :
    next last nesting ('"' :: (cs ++ '"' :: rest))
      = some ([str (String.ofList cs)], rest, nesting) := by
  have hfuel : cs.length < ('"' :: (cs ++ '"' :: rest)).length + 1 := by
    simp only [List.length_cons, List.length_append]
    omega
  show (quotedText '"' (('"' :: (cs ++ '"' :: rest)).length + 1) [] (cs ++ '"' :: rest)).map _ = _
  rw [quotedText_plain hrest [] hfuel hcs]
  rfl

end Token

/-! ### Scripts that name a variable -/

section Scripts

variable {k : String}

theorem isIdentifier_iff : isIdentifier k = true ↔
    ∃ c cs, k.toList = c :: cs ∧ Token.isNameStart c = true ∧
      ∀ d ∈ cs, Token.isNamePart d = true := by
  rw [isIdentifier]
  cases k.toList with
  | nil => exact iff_of_false Bool.false_ne_true nofun
  | cons c cs =>
      rw [Bool.and_eq_true, List.all_eq_true]
      constructor
      · exact fun h => ⟨c, cs, rfl, h⟩
      · rintro ⟨_, _, heq, h⟩
        obtain ⟨rfl, rfl⟩ := List.cons.inj heq
        exact h

theorem isPlain_of_isIdentifier (hk : isIdentifier k = true) : ∀ c ∈ k.toList, Token.IsPlain c := by
  obtain ⟨c, cs, hchars, hstart, hpart⟩ := isIdentifier_iff.mp hk
  have hplain : ∀ {d}, Token.isNamePart d = true → Token.IsPlain d := by
    refine fun hd => ⟨?_, ?_, ?_⟩ <;>
    · rintro rfl
      exact absurd hd (by decide)
  rw [hchars]
  exact List.forall_mem_cons.mpr ⟨hplain (Token.isNamePart_of_isNameStart hstart),
    fun d hd => hplain (hpart d hd)⟩

/-- A name before what cannot be part of it. -/
theorem cut_name (hk : isIdentifier k = true) (hname : isNameable k = true) {rest : List Char}
    (hrest : Token.EndsName rest) (fuel : Nat) (done : List Token) (nesting : Token.Nesting) :
    Token.cut (fuel + 1) done nesting (k.toList ++ rest)
      = Token.cut fuel (.ident k :: done) nesting rest := by
  have hname := Token.ofName_nameable hname
  obtain ⟨c, cs, hchars, hstart, hpart⟩ := isIdentifier_iff.mp hk
  rw [hchars] at hname ⊢
  have hnext : Token.next done.head? nesting (c :: cs ++ rest)
      = some ([.ident k], rest, nesting) := by
    rw [Token.next_name hstart hpart hrest, hname]
    rfl
  exact Token.cut_cons (Token.isNameStart_ne hstart (by decide))
    (Token.isSpace_of_isNameStart hstart) rfl hnext

/-- A script that is an identifier is one word at most. -/
theorem ofScript_identifier (hk : isIdentifier k = true) :
    Token.ofScript k = (Token.ofName k.toList).map fun t => [t] := by
  obtain ⟨c, cs, hchars, hstart, hpart⟩ := isIdentifier_iff.mp hk
  have hnext : Token.next none [] (c :: cs)
      = (Token.ofName (c :: cs)).map fun t => ([t], [], []) := by
    simpa only [List.append_nil] using
      Token.next_name hstart hpart (show Token.EndsName [] from trivial)
  calc Token.ofScript k
      = Token.cut ((c :: cs).length + 1) [] [] (c :: cs) := by rw [Token.ofScript, hchars]
    _ = ((Token.ofName (c :: cs)).map fun t => ([t], [], [])).bind fun ⟨ts, rest, nesting⟩ =>
          Token.cut (c :: cs).length (ts.reverse ++ []) nesting rest :=
        Token.cut_cons (Token.isNameStart_ne hstart (by decide))
          (Token.isSpace_of_isNameStart hstart) rfl hnext
    _ = (Token.ofName k.toList).map fun t => [t] := by
        rw [hchars]
        cases Token.ofName (c :: cs) <;> rfl

/-- A script that is the name of a variable. -/
theorem ofScript_name (hk : isIdentifier k = true) (hname : isNameable k = true) :
    Token.ofScript k = some [.ident k] := by
  rw [ofScript_identifier hk, Token.ofName_nameable hname]
  rfl

/-- A script that is an identifier, but not the name of a variable. -/
theorem ofScript_unnameable (hk : isIdentifier k = true) (hname : isNameable k = false) :
    Token.ofScript k = none ∨ ∃ t ∈ Token.notNames, Token.ofScript k = some [t] := by
  rw [ofScript_identifier hk]
  rcases Token.ofName_unnameable hname with hnone | ⟨t, ht, hsome⟩
  · rw [hnone]
    exact .inl rfl
  · rw [hsome]
    exact .inr ⟨t, ht, rfl⟩

/-- The script that reads a variable as a property of all variables. -/
def propertyScript (k : String) : String := scopeName ++ "." ++ k

/-- The script that reads a variable by its quoted name from all variables. -/
def keyScript (k : String) : String := scopeName ++ "[\"" ++ k ++ "\"]"

theorem ofScript_property (hk : isIdentifier k = true) (hname : isNameable k = true) :
    Token.ofScript (propertyScript k) = some [.ident scopeName, .mark ".", .ident k] := by
  obtain ⟨c, cs, hk', hstart, -⟩ := isIdentifier_iff.mp hk
  have hchars : (propertyScript k).toList = scopeName.toList ++ '.' :: k.toList := by
    simp [propertyScript]
  have hlength : (propertyScript k).toList.length + 1 = (k.toList.length + 3) + 1 + 1 + 1 := by
    simp [hchars, scopeName]
  have hpoint : Token.next (some (.ident scopeName)) [] ('.' :: k.toList)
      = some ([.mark "."], k.toList, []) := by
    rw [hk']
    exact Token.next_point hstart
  calc Token.ofScript (propertyScript k)
      = Token.cut ((k.toList.length + 3) + 1 + 1 + 1) [] []
          (scopeName.toList ++ '.' :: k.toList) := by
        rw [Token.ofScript, hlength, hchars]
    _ = Token.cut ((k.toList.length + 3) + 1 + 1) [.ident scopeName] [] ('.' :: k.toList) :=
        cut_name (by decide) (by decide) (show Token.EndsName ('.' :: _) from rfl) _ _ _
    _ = Token.cut ((k.toList.length + 3) + 1) [.mark ".", .ident scopeName] [] k.toList :=
        Token.cut_cons (c := '.') (by decide) (by decide) rfl hpoint
    _ = Token.cut (k.toList.length + 3) [.ident k, .mark ".", .ident scopeName] [] [] := by
        have hcut := cut_name hk hname (show Token.EndsName [] from trivial)
        simpa only [List.append_nil] using hcut _ _ _
    _ = some [.ident scopeName, .mark ".", .ident k] := rfl

theorem ofScript_key (hk : ∀ c ∈ k.toList, Token.IsPlain c) :
    Token.ofScript (keyScript k) = some [.ident scopeName, .mark "[", .str k, .mark "]"] := by
  have hchars : (keyScript k).toList
      = scopeName.toList ++ '[' :: '"' :: (k.toList ++ '"' :: [']']) := by
    simp [keyScript]
  have hlength : (keyScript k).toList.length + 1 = (k.toList.length + 5) + 1 + 1 + 1 + 1 := by
    simp [hchars, scopeName, Nat.add_assoc]
  have hquoted : Token.next (some (.mark "[")) [] ('"' :: (k.toList ++ '"' :: [']']))
      = some ([.str k], [']'], []) := by
    rw [Token.next_quoted (by decide) hk, String.ofList_toList]
  calc Token.ofScript (keyScript k)
      = Token.cut ((k.toList.length + 5) + 1 + 1 + 1 + 1) [] []
          (scopeName.toList ++ '[' :: '"' :: (k.toList ++ '"' :: [']'])) := by
        rw [Token.ofScript, hlength, hchars]
    _ = Token.cut ((k.toList.length + 5) + 1 + 1 + 1) [.ident scopeName] []
          ('[' :: '"' :: (k.toList ++ '"' :: [']'])) :=
        cut_name (by decide) (by decide) (show Token.EndsName ('[' :: _) from rfl) _ _ _
    _ = Token.cut ((k.toList.length + 5) + 1 + 1) [.mark "[", .ident scopeName] []
          ('"' :: (k.toList ++ '"' :: [']'])) :=
        Token.cut_cons (by decide) (by decide) rfl Token.next_bracket
    _ = Token.cut ((k.toList.length + 5) + 1) [.str k, .mark "[", .ident scopeName] [] [']'] :=
        Token.cut_cons (c := '"') (by decide) (by decide) rfl hquoted
    _ = some [.ident scopeName, .mark "[", .str k, .mark "]"] := rfl

end Scripts

end FlowGraph.Script
