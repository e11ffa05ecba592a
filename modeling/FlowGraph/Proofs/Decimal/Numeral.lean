/-
The text of a float is a numeral of that float.

However the digits are laid out, positionally or with an exponent, the numeral that stands in the
text has the value of the decimal that was written (`Layout.magnitude_spells`), and so it has the
value of the float.
-/
import FlowGraph.Proofs.Decimal.Shortest

namespace FlowGraph.Decimal

open Float.Model

/-! ### Digits -/

/-- The characters are digits. -/
def AllDigits (cs : List Char) : Prop := ∀ c ∈ cs, c.isDigit = true

theorem AllDigits.append {cs ds : List Char} (hcs : AllDigits cs) (hds : AllDigits ds) :
    AllDigits (cs ++ ds) := fun c hc => (List.mem_append.mp hc).elim (hcs c) (hds c)

/-- The text does not begin with a digit. -/
def NoDigit (cs : List Char) : Prop := ∀ c ∈ cs.head?, c.isDigit = false

theorem spanDigits_append {ds rest : List Char} (hds : AllDigits ds) (hrest : NoDigit rest) :
    spanDigits (ds ++ rest) = (ds, rest) := by
  rw [spanDigits, List.span_eq_takeWhile_dropWhile, List.takeWhile_append_of_pos hds,
    List.dropWhile_append_of_pos hds]
  cases rest with
  | nil => simp
  | cons c rest =>
      have hc : c.isDigit = false := hrest c rfl
      simp [hc]

theorem allDigits_numeral (n : Nat) : AllDigits (numeral n) := fun _ hc =>
  Nat.isDigit_of_mem_toDigits (by norm_num) (by norm_num) hc

theorem numeral_ne_nil (n : Nat) : numeral n ≠ [] := Nat.toDigits_ne_nil

theorem allDigits_replicate (k : Nat) : AllDigits (List.replicate k '0') := by
  intro c hc
  rw [(List.mem_replicate.mp hc).2]
  rfl

theorem digitsValue_eq (ds : List Char) : digitsValue ds = Nat.ofDigitChars 10 ds 0 := by
  rw [digitsValue, Nat.ofDigitChars]
  congr 1
  funext n c
  rw [Nat.mul_comm]

theorem digitsValue_numeral (n : Nat) : digitsValue (numeral n) = n := by
  rw [digitsValue_eq]
  exact Nat.ofDigitChars_ten_toDigits

theorem digitsValue_append (ds es : List Char) :
    digitsValue (ds ++ es) = digitsValue ds * 10 ^ es.length + digitsValue es := by
  rw [digitsValue_eq, digitsValue_eq, digitsValue_eq, Nat.ofDigitChars_append,
    Nat.ofDigitChars_eq_ofDigitChars_zero, Nat.mul_comm]

theorem digitsValue_zeros (k : Nat) : digitsValue (List.replicate k '0') = 0 := by
  rw [digitsValue_eq, Nat.ofDigitChars_replicate_zero, Nat.mul_zero]

/-- A natural is written without zeros in front of it. -/
theorem head_numeral {n : Nat} (hn : n ≠ 0) (rest : List Char) : numeral n ≠ '0' :: rest := by
  induction n using Nat.strongRecOn generalizing rest with
  | ind n ih =>
      intro heq
      rw [numeral] at heq
      rcases Nat.lt_or_ge n 10 with hlt | hge
      · rw [Nat.toDigits_of_lt_base hlt] at heq
        have hchar : n.digitChar = '0' := (List.cons.inj heq).1
        interval_cases n <;> first | exact hn rfl | exact absurd hchar (by decide)
      · rw [Nat.toDigits_of_base_le (by norm_num) hge] at heq
        rcases hhead : Nat.toDigits 10 (n / 10) with - | ⟨c, cs⟩
        · exact Nat.toDigits_ne_nil hhead
        · rw [hhead] at heq
          obtain ⟨rfl, -⟩ := List.cons.inj heq
          exact ih (n / 10) (by omega) (by omega) cs hhead

/-! ### Numerals with a point or an exponent -/

/-- The digits in front of the point. -/
structure IsWhole (ds : List Char) : Prop where
  digits : AllDigits ds
  ne_nil : ds ≠ []
  single : ∀ rest, ds = '0' :: rest → rest = []

theorem isWhole_zero : IsWhole ['0'] :=
  ⟨fun c hc => by rw [List.mem_singleton.mp hc]; rfl, by simp, fun rest h => by simpa using h.symm⟩

theorem isWhole_numeral (n : Nat) : IsWhole (numeral n) where
  digits := allDigits_numeral n
  ne_nil := numeral_ne_nil n
  single rest h := by
    by_cases hn : n = 0
    · subst hn
      simpa [numeral] using h.symm
    · exact absurd h (head_numeral hn rest)

/-- Digits after digits that do not begin with a zero. -/
theorem IsWhole.of_head {c : Char} {ds : List Char} (h : AllDigits (c :: ds)) (hc : c ≠ '0') :
    IsWhole (c :: ds) :=
  ⟨h, by simp, fun _ heq => absurd (List.cons.inj heq).1 hc⟩

/-- An exponent, perhaps with a plus sign. -/
def exponentText (plus : Bool) (e : Int) : List Char :=
  'e' :: ((if e < 0 then ['-'] else if plus then ['+'] else []) ++ numeral e.natAbs)

/-- The text is that of the numeral, and not that of an integer. -/
inductive Spells : List Char → Numeral → Prop where
  | point {whole fraction : List Char} (hw : IsWhole whole) (hf : AllDigits fraction)
      (hne : fraction ≠ []) : Spells (whole ++ '.' :: fraction) ⟨whole, fraction, 0⟩
  | power {whole : List Char} (hw : IsWhole whole) (plus : Bool) (e : Int) :
      Spells (whole ++ exponentText plus e) ⟨whole, [], e⟩
  | both {whole fraction : List Char} (hw : IsWhole whole) (hf : AllDigits fraction)
      (hne : fraction ≠ []) (plus : Bool) (e : Int) :
      Spells (whole ++ '.' :: (fraction ++ exponentText plus e)) ⟨whole, fraction, e⟩

/-- The exact value of a numeral. -/
def Numeral.exact (n : Numeral) : ℚ :=
  digitsValue (n.whole ++ n.fraction) * 10 ^ (n.exponent - n.fraction.length)

/-! ### Layouts -/

section Layouts

variable {n : Nat} {d : Digits}

/-- Digits that begin as those of a natural begin with no zero. -/
theorem isWhole_of_head? (hn : n ≠ 0) {ds : List Char} (h : AllDigits ds)
    (hhead : ds.head? = (numeral n).head?) : IsWhole ds := by
  obtain ⟨c, cs, hcs⟩ := List.exists_cons_of_ne_nil (numeral_ne_nil n)
  rw [hcs] at hhead
  cases ds with
  | nil => cases hhead
  | cons a rest =>
      obtain rfl := Option.some.inj hhead
      refine .of_head h ?_
      rintro rfl
      exact head_numeral hn cs hcs

/-- The digits, perhaps with zeros around them, and the exponent for where the point stands. -/
theorem Numeral.exact_eq {num : Numeral} (zeros : Nat)
    (hdigits : digitsValue (num.whole ++ num.fraction) = d.digits * 10 ^ zeros)
    (hexp : d.exp = num.exponent - num.fraction.length + zeros) : num.exact = d.value := by
  rw [exact, hdigits, Digits.value, hexp, zpow_add₀ (by norm_num), zpow_natCast]
  push_cast
  ring

theorem Digits.positional_spells (hd : d.digits ≠ 0) :
    ∃ num, Spells d.positional.toList num ∧ num.exact = d.value := by
  have hpos : 0 < (numeral d.digits).length := List.length_pos_of_ne_nil (numeral_ne_nil _)
  have hdigits := allDigits_numeral d.digits
  rw [positional]
  dsimp only
  split
  · refine ⟨⟨numeral d.digits ++ List.replicate d.exp.toNat '0', ['0'], 0⟩, ?_, ?_⟩
    · rw [String.toList_append, String.toList_ofList]
      refine .point (isWhole_of_head? hd (hdigits.append (allDigits_replicate _)) ?_)
        isWhole_zero.digits (by simp)
      exact List.head?_append_of_ne_nil _ (numeral_ne_nil _)
    · refine Numeral.exact_eq (d.exp.toNat + 1) ?_ ?_
      · rw [digitsValue_append, digitsValue_append, digitsValue_numeral, digitsValue_zeros,
          show digitsValue ['0'] = 0 from rfl, List.length_replicate, List.length_singleton]
        ring
      · rw [List.length_singleton]
        push_cast
        omega
  · split
    · generalize hk : (numeral d.digits).length - (-d.exp).toNat = k
      have htake : IsWhole ((numeral d.digits).take k) := by
        refine isWhole_of_head? hd (fun a ha => hdigits a (List.mem_of_mem_take ha)) ?_
        rw [List.head?_take, if_neg (by omega)]
      have hdrop : (numeral d.digits).drop k ≠ [] := by
        rw [ne_eq, List.drop_eq_nil_iff]
        omega
      refine ⟨⟨(numeral d.digits).take k, (numeral d.digits).drop k, 0⟩, ?_, ?_⟩
      · simp only [String.toList_append, String.toList_ofList, List.append_assoc]
        exact .point htake (fun a ha => hdigits a (List.mem_of_mem_drop ha)) hdrop
      · refine Numeral.exact_eq 0 ?_ ?_
        · rw [List.take_append_drop, digitsValue_numeral, pow_zero, mul_one]
        · rw [List.length_drop]
          dsimp only
          omega
    · generalize hz : (-d.exp).toNat - (numeral d.digits).length = zeros
      refine ⟨⟨['0'], List.replicate zeros '0' ++ numeral d.digits, 0⟩, ?_, ?_⟩
      · have hne : List.replicate zeros '0' ++ numeral d.digits ≠ [] :=
          List.append_ne_nil_of_right_ne_nil _ (numeral_ne_nil _)
        simp only [String.toList_append, String.toList_ofList]
        exact .point isWhole_zero ((allDigits_replicate _).append hdigits) hne
      · refine Numeral.exact_eq 0 ?_ ?_
        · rw [digitsValue_append, digitsValue_append, digitsValue_numeral, digitsValue_zeros,
            show digitsValue ['0'] = 0 from rfl]
          ring
        · rw [List.length_append, List.length_replicate]
          dsimp only
          omega

theorem Digits.scientific_spells (hd : d.digits ≠ 0) (plus : Bool) :
    ∃ num, Spells (d.scientific plus).toList num ∧ num.exact = d.value := by
  obtain ⟨c, cs, hcs⟩ := List.exists_cons_of_ne_nil (numeral_ne_nil d.digits)
  have hdigits : AllDigits (c :: cs) := hcs ▸ allDigits_numeral d.digits
  have hvalue : digitsValue (c :: cs) = d.digits * 10 ^ 0 := by
    rw [← hcs, digitsValue_numeral, pow_zero, mul_one]
  have hleading : d.leading = (cs.length : Int) + d.exp := by
    rw [leading, hcs, List.length_cons]
    push_cast
    ring
  have hsingle : IsWhole [c] := by
    refine isWhole_of_head? hd (fun a ha => hdigits a ?_) (by rw [hcs]; rfl)
    exact List.mem_cons.mpr (Or.inl (List.mem_singleton.mp ha))
  have hsign : ((if d.leading < 0 then "-" else if plus then "+" else "" : String)).toList
      = if d.leading < 0 then ['-'] else if plus then ['+'] else [] := by
    split
    · rfl
    · split <;> rfl
  have htext : ∀ mantissa : String, (mantissa ++ "e"
      ++ (if d.leading < 0 then "-" else if plus then "+" else "")
      ++ String.ofList (numeral d.leading.natAbs)).toList
        = mantissa.toList ++ exponentText plus d.leading := by
    intro mantissa
    rw [String.toList_append, String.toList_append, String.toList_append, String.toList_ofList,
      hsign, exponentText]
    simp
  rw [scientific, htext, hcs]
  cases cs with
  | nil =>
      refine ⟨⟨[c], [], d.leading⟩, ?_, Numeral.exact_eq 0 hvalue (by simp [hleading])⟩
      show Spells ((String.ofList [c]).toList ++ _) _
      rw [String.toList_ofList]
      exact .power hsingle plus d.leading
  | cons b bs =>
      refine ⟨⟨[c], b :: bs, d.leading⟩, ?_, Numeral.exact_eq 0 hvalue (by simp [hleading])⟩
      show Spells ((String.ofList (c :: '.' :: b :: bs)).toList ++ _) _
      rw [String.toList_ofList]
      exact .both hsingle (fun a ha => hdigits a (List.mem_cons_of_mem _ ha)) (by simp) plus _

end Layouts

/-- **The text of the magnitude of a float is a numeral, and reading it gives the float back.** -/
theorem Layout.magnitude_spells (l : Layout) {x : Float} (hx : x.isFinite) :
    ∃ n, Spells (l.magnitude x).toList n ∧ n.value.isFinite = true ∧
      (if isNegative x then -n.value else n.value) = x := by
  have hdigits : digitsOf x l.tie = (binaryOf x).shortest l.tie := rfl
  rcases unpack_eq hx with ⟨hzero, -⟩ | ⟨hstored, -⟩
  · have hnone : (digitsOf x l.tie).digits = 0 := by rw [hdigits, Binary.shortest, if_pos hzero]
    refine ⟨⟨['0'], ['0'], 0⟩, ?_, rfl, signed_zero hx hzero⟩
    rw [magnitude, if_pos hnone]
    exact .point isWhole_zero isWhole_zero.digits (by simp)
  · have hreaches := Binary.shortest_reaches hstored l.tie
    rw [← hdigits] at hreaches
    have hne : (digitsOf x l.tie).digits ≠ 0 := hreaches.ne_zero hstored
    have hspells : ∃ n, Spells (l.magnitude x).toList n ∧ n.exact = (digitsOf x l.tie).value := by
      rw [magnitude, if_neg hne]
      split
      · exact Digits.positional_spells hne
      · exact Digits.scientific_spells hne _
    obtain ⟨n, hspells, hexact⟩ := hspells
    rw [← hexact, Numeral.exact] at hreaches
    have hvalue : n.value = (binaryOf x).toFloat hstored := toFloat_eq hstored hreaches
    refine ⟨n, hspells, ?_, ?_⟩
    · rw [hvalue]
      exact congrArg UnpackedFloat.isFinite (unpack_pack_finite hstored .positive)
    · rw [hvalue]
      exact signed_toFloat hx hstored

end FlowGraph.Decimal
