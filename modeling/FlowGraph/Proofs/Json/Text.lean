/-
Reading what was printed.

A legal value is printed without blanks and with all that is needed to read it again: strings with
their escapes, integers with their sign, floats with as many digits as identify them.  Reading
takes exactly the text of the value and leaves what follows it, and it gives the value as a
document without a fault (`ofText_compact`).

The induction is on the value.  What it hands on is that the budget of the reading lasts: no
value takes more steps than its text has characters.
-/
import FlowGraph.Proofs.Decimal.Numeral
import FlowGraph.Proofs.Json.Legal

namespace FlowGraph.Json

namespace Document

open Decimal (AllDigits NoDigit IsWhole Spells exponentText numeral spanDigits)

/-! ### Blanks -/

theorem skipSpace_cons {c : Char} (hc : isSpace c = false) (cs : List Char) :
    skipSpace (c :: cs) = c :: cs := by
  rw [skipSpace, List.dropWhile_cons_of_neg (by simp [hc])]

/-- What may follow a value: the end, or what closes or separates. -/
def Closes (rest : List Char) : Prop := ∀ c ∈ rest.head?, c = ',' ∨ c = ']' ∨ c = '\x7d'

theorem Closes.noDigit {rest : List Char} (h : Closes rest) : NoDigit rest := by
  intro c hc
  rcases h c hc with rfl | rfl | rfl <;> rfl

/-! ### Strings -/

/-- The escape of a control character. -/
theorem unicodeEscape_control {n : Nat} (hn : n < 0x20) (cs : List Char) :
    unicodeEscape ('0' :: '0' :: Nat.digitChar (n / 16) :: Nat.digitChar (n % 16) :: cs)
      = .char (Char.ofNat n) cs := by
  interval_cases n <;> rfl

/-- A character is read from its escape, or as itself. -/
theorem readString_escapedChar (c : Char) (fuel : Nat) (acc cs : List Char) :
    readString (fuel + 1) acc none (escapedChar c ++ cs) = readString fuel (c :: acc) none cs := by
  rw [escapedChar.eq_def]
  split
  · rfl
  · rfl
  · rfl
  · rfl
  · rfl
  · rfl
  · rfl
  · rename_i hquote hbackslash _ _ _ _ _
    split
    · rename_i hcontrol
      have hescape := unicodeEscape_control hcontrol cs
      rw [Char.ofNat_toNat] at hescape
      simp only [List.cons_append, List.nil_append, readString, hescape]
    · rename_i hplain
      rw [List.singleton_append, readString]
      · rw [if_neg hplain]
      · exact hquote
      all_goals intros; exact hbackslash ‹_›

theorem escapedChar_ne_nil (c : Char) : escapedChar c ≠ [] := by
  rw [escapedChar.eq_def]
  split
  any_goals simp only [ne_eq, List.cons_ne_nil, not_false_eq_true]
  split <;> simp

/-- A string is read up to its quote. -/
theorem readString_escaped (s : List Char) (fuel : Nat) (acc rest : List Char)
    (hfuel : (s.flatMap escapedChar).length < fuel) :
    readString fuel acc none (s.flatMap escapedChar ++ '"' :: rest)
      = .ok (.ok (String.ofList (acc.reverse ++ s)), rest) := by
  induction s generalizing fuel acc with
  | nil =>
      obtain ⟨fuel, rfl⟩ : ∃ k, fuel = k + 1 := ⟨fuel - 1, by omega⟩
      simp [readString]
  | cons c s ih =>
      obtain ⟨fuel, rfl⟩ : ∃ k, fuel = k + 1 := ⟨fuel - 1, by omega⟩
      have hlength := List.length_pos_of_ne_nil (escapedChar_ne_nil c)
      rw [List.flatMap_cons, List.length_append] at hfuel
      rw [List.flatMap_cons, List.append_assoc, readString_escapedChar, ih _ _ (by omega)]
      simp

/-! ### Numbers -/

section Numbers

variable {whole fraction rest : List Char} (negative : Bool)

theorem readExponent_text (plus : Bool) (e : Int) (hrest : NoDigit rest) :
    Decimal.readExponent ((if e < 0 then ['-'] else if plus then ['+'] else [])
      ++ numeral e.natAbs ++ rest) = some (e, rest) := by
  have hspan := Decimal.spanDigits_append (Decimal.allDigits_numeral e.natAbs) hrest
  have hdigits := Decimal.allDigits_numeral e.natAbs
  have hvalue := Decimal.digitsValue_numeral e.natAbs
  obtain ⟨c, cs, hcs⟩ := List.exists_cons_of_ne_nil (Decimal.numeral_ne_nil e.natAbs)
  rw [hcs] at hspan hdigits hvalue ⊢
  rw [List.cons_append] at hspan
  have hc : c.isDigit = true := hdigits c List.mem_cons_self
  by_cases hneg : e < 0
  · have hvalue' : -((e.natAbs : Nat) : Int) = e := by omega
    simp only [hneg, if_true, List.cons_append, List.nil_append, Decimal.readExponent, hspan,
      hvalue, hvalue']
  · have hvalue' : ((e.natAbs : Nat) : Int) = e := by omega
    by_cases hplus : plus = true
    · simp only [hneg, hplus, if_true, if_false, List.cons_append, List.nil_append,
        Decimal.readExponent, hspan, hvalue, hvalue', Bool.false_eq_true]
    · rw [if_neg hneg, if_neg hplus, List.nil_append, List.cons_append, Decimal.readExponent]
      · simp only [hspan, hvalue, hvalue', Bool.false_eq_true, if_false]
      · rintro r heq
        rw [(List.cons.inj heq).1] at hc
        exact absurd hc (by decide)
      · rintro r heq
        rw [(List.cons.inj heq).1] at hc
        exact absurd hc (by decide)

/-- An exponent has something behind its sign. -/
theorem exponent_ne_nil {cs : List Char} {r : Int × List Char}
    (h : Decimal.readExponent cs = some r) :
    (match cs with
      | '+' :: r => r
      | '-' :: r => r
      | r => r) ≠ [] := by
  intro hnil
  split at hnil <;> subst hnil <;> cases h

/-- After the digits of a numeral with an exponent. -/
theorem readTail_exponent (isFloat plus : Bool) (e : Int) (hrest : NoDigit rest) :
    readTail negative whole fraction isFloat (exponentText plus e ++ rest)
      = .ok (floatOf negative ⟨whole, fraction, e⟩, rest) := by
  have hread := readExponent_text plus e hrest
  rw [exponentText, List.cons_append, readTail.eq_def]
  dsimp only
  rw [if_pos (Or.inl rfl), hread]
  dsimp only
  split
  · exact absurd ‹_› (exponent_ne_nil hread)
  · rfl

/-- After the digits of a numeral without an exponent. -/
theorem readTail_closes (isFloat : Bool) (hrest : Closes rest) :
    readTail negative whole fraction isFloat rest
      = .ok (if isFloat then floatOf negative ⟨whole, fraction, 0⟩ else integerOf negative whole,
          rest) := by
  cases rest with
  | nil => cases isFloat <;> rfl
  | cons c rest =>
      have hc : ¬(c = 'e' ∨ c = 'E') := by
        rcases hrest c rfl with rfl | rfl | rfl <;> decide
      rw [readTail.eq_def]
      dsimp only
      rw [if_neg hc]
      cases isFloat <;> rfl

theorem readNumber_whole (hw : IsWhole whole) (hrest : NoDigit rest)
    (hpoint : ∀ cs, rest ≠ '.' :: cs) :
    readNumber negative (whole ++ rest) = readTail negative whole [] false rest := by
  rw [readNumber, Decimal.spanDigits_append hw.digits hrest]
  dsimp only
  split
  · exact absurd rfl hw.ne_nil
  · exact absurd rfl hw.ne_nil
  · exact absurd (hw.single _ rfl) (List.cons_ne_nil _ _)
  · exact absurd rfl (hpoint _)
  · rfl

theorem readNumber_point (hw : IsWhole whole) (hf : AllDigits fraction) (hne : fraction ≠ [])
    (hrest : NoDigit rest) :
    readNumber negative (whole ++ '.' :: (fraction ++ rest))
      = readTail negative whole fraction true rest := by
  have hspan := Decimal.spanDigits_append hf hrest
  have hdot : NoDigit ('.' :: (fraction ++ rest)) := by
    intro c hc
    obtain rfl := Option.some.inj hc
    rfl
  rw [readNumber, Decimal.spanDigits_append hw.digits hdot]
  dsimp only
  split
  · exact absurd rfl hw.ne_nil
  · exact absurd rfl hw.ne_nil
  · exact absurd (hw.single _ rfl) (List.cons_ne_nil _ _)
  · rename_i heq
    obtain ⟨-, rfl⟩ := List.cons.inj heq
    rw [hspan]
    split
    · rename_i heq _
      exact absurd (Prod.mk.inj heq).1 hne
    · rename_i heq _
      exact absurd (Prod.mk.inj heq).1 hne
    · rename_i heq _
      obtain ⟨rfl, rfl⟩ := Prod.mk.inj heq
      rfl
  · rename_i hnot _
    exact absurd rfl (hnot _)

/-- A float is read from its numeral. -/
theorem readNumber_spells {cs : List Char} {n : Decimal.Numeral} (h : Spells cs n)
    (hrest : Closes rest) : readNumber negative (cs ++ rest) = .ok (floatOf negative n, rest) := by
  cases h with
  | point hw hf hne =>
      rw [List.append_assoc, List.cons_append, readNumber_point _ hw hf hne hrest.noDigit,
        readTail_closes _ _ hrest]
      rfl
  | power hw plus e =>
      have hexp : NoDigit (exponentText plus e ++ rest) := by
        intro c hc
        obtain rfl := Option.some.inj hc
        rfl
      rw [List.append_assoc, readNumber_whole _ hw hexp, readTail_exponent _ _ _ _ hrest.noDigit]
      intro cs heq
      exact absurd (List.cons.inj heq).1 (by decide)
  | both hw hf hne plus e =>
      have hexp : NoDigit (exponentText plus e ++ rest) := by
        intro c hc
        obtain rfl := Option.some.inj hc
        rfl
      rw [List.append_assoc, List.cons_append, List.append_assoc,
        readNumber_point _ hw hf hne hexp, readTail_exponent _ _ _ _ hrest.noDigit]

/-- An integer is read from its digits. -/
theorem readNumber_numeral (n : Nat) (hrest : Closes rest) :
    readNumber negative (numeral n ++ rest) = .ok (integerOf negative (numeral n), rest) := by
  rw [readNumber_whole _ (Decimal.isWhole_numeral n) hrest.noDigit, readTail_closes _ _ hrest]
  · rfl
  · rintro cs rfl
    rcases hrest '.' rfl with h | h | h <;> exact absurd h (by decide)

end Numbers

theorem isSpace_digit {c : Char} (hc : c.isDigit = true) : isSpace c = false := by
  rw [isSpace]
  simp only [Bool.or_eq_false_iff, decide_eq_false_iff_not]
  refine ⟨⟨⟨?_, ?_⟩, ?_⟩, ?_⟩ <;> (rintro rfl; exact absurd hc (by decide))

/-- A value that begins with a digit is a number. -/
theorem readValue_digits {c : Char} (hc : c.isDigit = true) (fuel : Nat) (cs : List Char) :
    readValue (fuel + 1) (c :: cs) = numberStep (readNumber false (c :: cs)) := by
  rw [readValue.eq_def]
  dsimp only
  rw [skipSpace_cons (isSpace_digit hc)]
  split
  · exact absurd ‹_› (List.cons_ne_nil _ _)
  iterate 7
    · rename_i heq
      rw [(List.cons.inj heq).1] at hc
      exact absurd hc (by decide)
  · rename_i heq
    obtain ⟨rfl, rfl⟩ := List.cons.inj heq
    exact if_pos hc

theorem readValue_minus (fuel : Nat) (cs : List Char) :
    readValue (fuel + 1) ('-' :: cs) = numberStep (readNumber true cs) := rfl

/-- A float is read with its sign. -/
theorem floatOf_signed {x : Float} {n : Decimal.Numeral} {negative : Bool}
    (hfinite : n.value.isFinite = true) (hx : (if negative then -n.value else n.value) = x) :
    floatOf negative n = .number (.float x) := by
  rw [floatOf, if_pos hfinite, hx]

/-- A numeral begins with a digit. -/
theorem exists_digit {cs : List Char} {n : Decimal.Numeral} (h : Spells cs n) :
    ∃ c tail, cs = c :: tail ∧ c.isDigit = true := by
  have hwhole {whole tail : List Char} (hw : IsWhole whole) :
      ∃ c cs, whole ++ tail = c :: cs ∧ c.isDigit = true := by
    obtain ⟨c, cs, hcs⟩ := List.exists_cons_of_ne_nil hw.ne_nil
    exact ⟨c, cs ++ tail, by rw [hcs, List.cons_append],
      hw.digits c (by rw [hcs]; exact List.mem_cons_self)⟩
  cases h with
  | point hw _ _ => exact hwhole hw
  | power hw _ _ => exact hwhole hw
  | both hw _ _ _ _ => exact hwhole hw

/-- An integer is read with its sign. -/
theorem integerOf_numeral {i : Int} (hi : Number.inRange i = true) :
    integerOf (decide (i < 0)) (numeral i.natAbs) = .number (.int i) := by
  rw [integerOf, Decimal.digitsValue_numeral]
  by_cases hneg : i < 0
  · have habs : -((i.natAbs : Nat) : Int) = i := by omega
    have hne : ((i.natAbs : Nat) : Int) ≠ 0 := by omega
    simp only [hneg, decide_true, if_true, habs]
    rw [if_pos ⟨hne, hi⟩]
  · have habs : ((i.natAbs : Nat) : Int) = i := by omega
    simp only [hneg, decide_false, Bool.false_eq_true, if_false, habs]
    rw [if_pos hi]

/-- A number is read from its text. -/
theorem readValue_number {n : Number} (hn : (Json.number n).Legal) {rest : List Char}
    (hrest : Closes rest) (fuel : Nat) :
    readValue (fuel + 1) ((numberText n).toList ++ rest) = (.number n, some rest) := by
  cases n with
  | int i =>
      have hi : Number.inRange i = true := hn
      have hread := readNumber_numeral (decide (i < 0)) i.natAbs hrest
      rw [integerOf_numeral hi] at hread
      rw [numberText, intText]
      split
      · rename_i hneg
        simp only [hneg, decide_true] at hread
        simp only [String.toList_append, String.toList_ofList, List.append_assoc]
        show readValue (fuel + 1) ('-' :: (numeral i.natAbs ++ rest)) = _
        rw [readValue_minus, hread]
        rfl
      · rename_i hpos
        obtain ⟨c, cs, hcs⟩ := List.exists_cons_of_ne_nil (Decimal.numeral_ne_nil i.natAbs)
        have hc : c.isDigit = true :=
          Decimal.allDigits_numeral i.natAbs c (by rw [hcs]; exact List.mem_cons_self)
        simp only [hpos, decide_false] at hread
        rw [String.toList_ofList, hcs, List.cons_append, readValue_digits hc, ← List.cons_append,
          ← hcs, hread]
        rfl
  | float x =>
      have hx : x.isFinite = true := hn
      obtain ⟨n, hspells, hfinite, hvalue⟩ := Decimal.Layout.magnitude_spells floatLayout hx
      have hread := readNumber_spells (Decimal.isNegative x) hspells hrest
      rw [floatOf_signed hfinite hvalue] at hread
      rw [numberText, floatText, if_pos hx, Decimal.Layout.render]
      split
      · rename_i hneg
        rw [hneg] at hread
        rw [String.toList_append, List.append_assoc]
        show readValue (fuel + 1) ('-' :: ((floatLayout.magnitude x).toList ++ rest)) = _
        rw [readValue_minus, hread]
        rfl
      · rename_i hpos
        obtain ⟨c, cs, hcs, hc⟩ := exists_digit hspells
        rw [Bool.not_eq_true] at hpos
        rw [hpos] at hread
        rw [hcs, List.cons_append, readValue_digits hc, ← List.cons_append, ← hcs, hread]
        rfl

/-! ### Lists and objects -/

/-- Texts with commas between them, up to what closes them.  `first` holds before the first. -/
def separated (first : Bool) (close : Char) : List (List Char) → List Char
  | [] => [close]
  | t :: rest => (if first then t else ',' :: t) ++ separated false close rest

theorem intercalate_separated (close : Char) :
    ∀ ts, [','].intercalate ts ++ [close] = separated true close ts
  | [] => rfl
  | [t] => by simp [separated]
  | t :: u :: rest => by
      have ih := intercalate_separated close (u :: rest)
      rw [List.intercalate_cons_cons, List.append_assoc, List.append_assoc, ih]
      simp [separated]

/-- The text of a field. -/
def fieldText (e : String × Json) : List Char :=
  (stringText e.1).toList ++ ':' :: (compact e.2).toList

theorem compactItems_eq (items : List Json) : compactItems items = items.map compact := by
  induction items with
  | nil => rfl
  | cons j rest ih => rw [compactItems, ih, List.map_cons]

theorem toList_compact_arr (items : List Json) :
    (compact (.arr items)).toList
      = '[' :: separated true ']' (items.map fun j => (compact j).toList) := by
  rw [compact, String.toList_append, String.toList_append, String.toList_intercalate,
    compactItems_eq, List.map_map, List.append_assoc]
  exact congrArg ('[' :: ·) (intercalate_separated ']' _)

theorem compactFields_eq (fields : List (String × Json)) :
    (compactFields fields).map String.toList = fields.map fieldText := by
  induction fields with
  | nil => rfl
  | cons e rest ih =>
      rw [compactFields, List.map_cons, List.map_cons, ih, String.toList_append,
        String.toList_append, List.append_assoc]
      rfl

theorem toList_compact_obj (fields : List (String × Json)) :
    (compact (.obj fields)).toList = '\x7b' :: separated true '\x7d' (fields.map fieldText) := by
  rw [compact, String.toList_append, String.toList_append, String.toList_intercalate,
    compactFields_eq, List.append_assoc]
  exact congrArg ('\x7b' :: ·) (intercalate_separated '\x7d' _)

/-- The text of a value begins with no blank, and does not close a list. -/
theorem exists_head {j : Json} (hj : j.Legal) :
    ∃ c cs, (compact j).toList = c :: cs ∧ isSpace c = false ∧ c ≠ ']' := by
  have hdigit {c : Char} (hc : c.isDigit = true) : c ≠ ']' := by
    rintro rfl
    exact absurd hc (by decide)
  cases j with
  | null => exact ⟨_, _, rfl, rfl, by decide⟩
  | bool b => cases b <;> exact ⟨_, _, rfl, rfl, by decide⟩
  | str s => exact ⟨'"', _, by rw [compact, stringText, String.toList_ofList]; rfl, rfl, by decide⟩
  | arr items => exact ⟨_, _, toList_compact_arr items, rfl, by decide⟩
  | obj fields => exact ⟨_, _, toList_compact_obj fields, rfl, by decide⟩
  | number n =>
      cases n with
      | int i =>
          rw [compact, numberText, intText]
          split
          · exact ⟨'-', _, by simp only [String.toList_append]; rfl, rfl, by decide⟩
          · obtain ⟨c, cs, hcs⟩ := List.exists_cons_of_ne_nil (Decimal.numeral_ne_nil i.natAbs)
            have hc := Decimal.allDigits_numeral i.natAbs c (by rw [hcs]; exact List.mem_cons_self)
            exact ⟨c, cs, by rw [String.toList_ofList, hcs], isSpace_digit hc, hdigit hc⟩
      | float x =>
          have hx : x.isFinite = true := hj
          obtain ⟨n, hspells, -⟩ := Decimal.Layout.magnitude_spells floatLayout hx
          obtain ⟨c, cs, hcs, hc⟩ := exists_digit hspells
          rw [compact, numberText, floatText, if_pos hx, Decimal.Layout.render]
          split
          · exact ⟨'-', _, by simp only [String.toList_append]; rfl, rfl, by decide⟩
          · exact ⟨c, cs, hcs, isSpace_digit hc, hdigit hc⟩

/-- A string is read with its quotes. -/
theorem readString_stringText (s : String) (rest : List Char) :
    ∃ cs, (stringText s).toList ++ rest = '"' :: cs ∧
      readString (cs.length + 1) [] none cs = .ok (.ok s, rest) := by
  refine ⟨s.toList.flatMap escapedChar ++ '"' :: rest, ?_, ?_⟩
  · simp [stringText]
  · rw [readString_escaped _ _ _ _ (by rw [List.length_append]; omega)]
    simp

/-! ### What stands between items and fields -/

theorem nextItem_first {c : Char} (hspace : isSpace c = false) (hc : c ≠ ']') (cs : List Char) :
    nextItem true (skipSpace (c :: cs)) = .ok (.further (c :: cs)) := by
  rw [skipSpace_cons hspace, nextItem.eq_def]
  split
  · exact absurd ‹_› (List.cons_ne_nil _ _)
  · rename_i heq
    exact absurd (List.cons.inj heq).1 hc
  · rfl
  · rfl

theorem nextItem_comma {c : Char} (hspace : isSpace c = false) (hc : c ≠ ']') (cs : List Char) :
    nextItem false (skipSpace (',' :: c :: cs)) = .ok (.further (c :: cs)) := by
  rw [skipSpace_cons rfl]
  simp only [nextItem, Bool.false_eq_true, if_false, skipSpace_cons hspace]
  split
  · exact absurd ‹_› (List.cons_ne_nil _ _)
  · rename_i heq
    exact absurd (List.cons.inj heq).1 hc
  · rfl

theorem nextField_quote (first : Bool) (cs : List Char) :
    nextField first (skipSpace ((if first then ['"'] else [',', '"']) ++ cs))
      = .ok (.further cs) := by
  cases first <;> rfl

/-- What follows an item closes it. -/
theorem closes_separated {close : Char} (hclose : close = ']' ∨ close = '\x7d')
    (ts : List (List Char)) (rest : List Char) : Closes (separated false close ts ++ rest) := by
  intro c hc
  cases ts with
  | nil =>
      obtain rfl := Option.some.inj hc
      exact Or.inr hclose
  | cons t ts =>
      obtain rfl := Option.some.inj hc
      exact Or.inl rfl

theorem separated_length_pos (close : Char) (ts : List (List Char)) :
    0 < (separated false close ts).length := by
  cases ts <;> simp [separated]

/-! ### Values -/

mutual

/-- **Reading takes the text of a value and gives the value.** -/
theorem readValue_compact : ∀ {j : Json}, j.Legal → ∀ (fuel : Nat) (rest : List Char),
    (compact j).toList.length ≤ fuel → Closes rest →
      readValue fuel ((compact j).toList ++ rest) = (ofJson j, some rest)
  | .null, _, fuel, rest, hfuel, _ => by
      obtain ⟨fuel, rfl⟩ := Nat.exists_eq_add_of_le' (le_trans (by decide) hfuel : 1 ≤ fuel)
      rfl
  | .bool b, _, fuel, rest, hfuel, _ => by
      obtain ⟨fuel, rfl⟩ := Nat.exists_eq_add_of_le'
        (le_trans (by cases b <;> decide) hfuel : 1 ≤ fuel)
      cases b <;> rfl
  | .number n, hj, fuel, rest, hfuel, hrest => by
      obtain ⟨c, cs, hcs, -⟩ := exists_head hj
      obtain ⟨fuel, rfl⟩ := Nat.exists_eq_add_of_le'
        (le_trans (by rw [hcs, List.length_cons]; omega) hfuel : 1 ≤ fuel)
      exact readValue_number hj hrest fuel
  | .str s, _, fuel, rest, hfuel, _ => by
      obtain ⟨cs, hcs, hread⟩ := readString_stringText s rest
      obtain ⟨fuel, rfl⟩ := Nat.exists_eq_add_of_le'
        (le_trans (by simp [compact, stringText]) hfuel : 1 ≤ fuel)
      show readValue (fuel + 1) ((stringText s).toList ++ rest) = _
      rw [hcs]
      show (match readString (cs.length + 1) [] none cs with
        | .error f => (Document.broken f, none)
        | .ok (.ok s, rest) => (.str s, some rest)
        | .ok (.error f, rest) => (.valueless f, some rest)) = _
      rw [hread]
      rfl
  | .arr items, hj, fuel, rest, hfuel, _ => by
      rw [toList_compact_arr, List.length_cons] at hfuel
      obtain ⟨fuel, rfl⟩ := Nat.exists_eq_add_of_le' (by omega : 1 ≤ fuel)
      have hread := readItems_separated hj fuel true rest (by omega)
      rw [toList_compact_arr, List.cons_append]
      show (let (items, stop, rest) := readItems fuel true _
        (Document.arr items stop, rest)) = _
      rw [hread]
      rfl
  | .obj fields, hj, fuel, rest, hfuel, _ => by
      rw [toList_compact_obj, List.length_cons] at hfuel
      obtain ⟨fuel, rfl⟩ := Nat.exists_eq_add_of_le' (by omega : 1 ≤ fuel)
      have hread := readFields_separated hj.2 fuel true rest (by omega)
      rw [toList_compact_obj, List.cons_append]
      show (let (fields, stop, rest) := readFields fuel true _
        (Document.obj fields stop, rest)) = _
      rw [hread]
      rfl

theorem readItems_separated : ∀ {items : List Json}, LegalItems items →
    ∀ (fuel : Nat) (first : Bool) (rest : List Char),
      (separated first ']' (items.map fun j => (compact j).toList)).length ≤ fuel →
        readItems fuel first (separated first ']' (items.map fun j => (compact j).toList) ++ rest)
          = (ofItems items, none, some rest)
  | [], _, fuel, _, rest, hfuel => by
      obtain ⟨fuel, rfl⟩ := Nat.exists_eq_add_of_le' (hfuel : 1 ≤ fuel)
      rfl
  | j :: items, hj, fuel, first, rest, hfuel => by
      have hmore := separated_length_pos ']' (items.map fun j => (compact j).toList)
      have hcloses := closes_separated (Or.inl rfl) (items.map fun j => (compact j).toList) rest
      obtain ⟨c, cs, hcs, hspace, hc⟩ := exists_head hj.1
      rw [List.map_cons, separated, List.length_append] at hfuel
      have hlength : (compact j).toList.length
          ≤ (if first then (compact j).toList else ',' :: (compact j).toList).length := by
        split
        · exact le_refl _
        · exact Nat.le_succ _
      have hpos : 0 < (compact j).toList.length := by rw [hcs]; exact Nat.succ_pos _
      obtain ⟨fuel, rfl⟩ := Nat.exists_eq_add_of_le' (by omega : 1 ≤ fuel)
      have hvalue := readValue_compact hj.1 fuel _ (by omega) hcloses
      have hitems := readItems_separated hj.2 fuel false rest (by omega)
      have hnext : nextItem first (skipSpace
          ((if first then (compact j).toList else ',' :: (compact j).toList)
            ++ (separated false ']' (items.map fun j => (compact j).toList) ++ rest)))
          = .ok (.further ((compact j).toList
            ++ (separated false ']' (items.map fun j => (compact j).toList) ++ rest))) := by
        rw [hcs]
        cases first
        · exact nextItem_comma hspace hc _
        · exact nextItem_first hspace hc _
      rw [List.map_cons, separated, List.append_assoc, readItems, hnext]
      simp only [hvalue, hitems]
      rfl

theorem readFields_separated : ∀ {fields : List (String × Json)}, LegalFields fields →
    ∀ (fuel : Nat) (first : Bool) (rest : List Char),
      (separated first '\x7d' (fields.map fieldText)).length ≤ fuel →
        readFields fuel first (separated first '\x7d' (fields.map fieldText) ++ rest)
          = (ofFields fields, none, some rest)
  | [], _, fuel, _, rest, hfuel => by
      obtain ⟨fuel, rfl⟩ := Nat.exists_eq_add_of_le' (hfuel : 1 ≤ fuel)
      rfl
  | (k, j) :: fields, hj, fuel, first, rest, hfuel => by
      have hmore := separated_length_pos '\x7d' (fields.map fieldText)
      have hcloses := closes_separated (Or.inr rfl) (fields.map fieldText) rest
      obtain ⟨cs, hcs, hkey⟩ := readString_stringText k
        (':' :: ((compact j).toList ++ (separated false '\x7d' (fields.map fieldText) ++ rest)))
      rw [List.map_cons, separated, List.length_append] at hfuel
      have hlength : (compact j).toList.length + 1
          ≤ (if first then fieldText (k, j) else ',' :: fieldText (k, j)).length := by
        have htext : (compact j).toList.length + 1 ≤ (fieldText (k, j)).length := by
          simp only [fieldText, List.length_append, List.length_cons]
          omega
        split
        · exact htext
        · exact Nat.le_succ_of_le htext
      obtain ⟨fuel, rfl⟩ := Nat.exists_eq_add_of_le' (by omega : 1 ≤ fuel)
      have hvalue := readValue_compact hj.1 fuel _ (by omega) hcloses
      have hfields := readFields_separated hj.2 fuel false rest (by omega)
      have hnext : nextField first (skipSpace
          ((if first then fieldText (k, j) else ',' :: fieldText (k, j))
            ++ (separated false '\x7d' (fields.map fieldText) ++ rest)))
          = .ok (.further cs) := by
        have htext : fieldText (k, j) ++ (separated false '\x7d' (fields.map fieldText) ++ rest)
            = '"' :: cs := by
          rw [← hcs, fieldText, List.append_assoc, List.cons_append]
        cases first
        · show nextField false (skipSpace (',' :: (fieldText (k, j) ++ _))) = _
          rw [htext]
          exact nextField_quote false cs
        · show nextField true (skipSpace (fieldText (k, j) ++ _)) = _
          rw [htext]
          exact nextField_quote true cs
      rw [List.map_cons, separated, List.append_assoc, readFields, hnext]
      simp only [hkey, skipSpace_cons (show isSpace ':' = false from rfl), hvalue, hfields]
      rfl

end

/-- **A legal value is read back from its text**, and nothing follows it. -/
theorem ofText_compact {j : Json} (hj : j.Legal) : ofText (compact j) = (ofJson j, false) := by
  have hread := readValue_compact hj ((compact j).toList.length + 2) [] (by omega)
    (fun c hc => by simp at hc)
  rw [List.append_nil] at hread
  rw [ofText]
  simp only [hread]
  rfl

end Document

/-- **Printing a legal value and reading it gives the value back**, unless it nests too deep. -/
theorem parse_compact {j : Json} (hj : j.Legal) {n : Nat} (hn : j.depth ≤ n) :
    parse n (compact j) = .ok j := by
  rw [parse, Document.ofText_compact hj]
  simp only [Document.value?_ofJson hj hn]
  rfl

end FlowGraph.Json
