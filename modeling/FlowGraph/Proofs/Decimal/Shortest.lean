/-
The shortest decimal of a float reads back as that float.

The digits are searched on coarser and finer grids, and a candidate is taken only if it lies among
the numbers that round to the float.  So whichever is found, rounding it gives the float
(`shortest_reaches`).  Reading a decimal rounds it once: by multiplying or dividing floats where
both factors are exact, and over naturals otherwise.  Each of these ways ends in a rounding of the
exact value (`toFloat_eq`).
-/
import FlowGraph.Proofs.Decimal.Bits
import Mathlib.Tactic.IntervalCases

namespace FlowGraph.Decimal

open Float.Model Float.Model.UnpackedFloat Float.Model.Format

/-- The value of a decimal. -/
def Digits.value (d : Digits) : ℚ := d.digits * 10 ^ d.exp

/-! ### Comparing exactly -/

/-- The comparison of decimals and binaries is that of their values. -/
theorem cmpScaled_eq (a : Nat) (i : Int) (n : Nat) (j : Int) :
    cmpScaled a i n j = cmp ((a : ℚ) * 10 ^ i) (n * 2 ^ j) := by
  have hten : ((10 : ℚ) ^ i) = 10 ^ i.toNat / 10 ^ (-i).toNat := by
    rw [eq_div_iff (by positivity), ← zpow_natCast, ← zpow_natCast, ← zpow_add₀ (by norm_num)]
    congr 1
    omega
  have htwo : ((2 : ℚ) ^ j) = 2 ^ j.toNat / 2 ^ (-j).toNat := by
    rw [eq_div_iff (by positivity), ← zpow_natCast, ← zpow_natCast, ← zpow_add₀ (by norm_num)]
    congr 1
    omega
  have hpos : (0 : ℚ) < 10 ^ (-i).toNat * 2 ^ (-j).toNat := by positivity
  have hleft : ((((a * Nat.pow 10 i.toNat) <<< (-j).toNat : Nat)) : ℚ)
      = a * 10 ^ i * (10 ^ (-i).toNat * 2 ^ (-j).toNat) := by
    rw [Nat.shiftLeft_eq, hten, Nat.pow_eq]
    push_cast
    field_simp
  have hright : ((((n * Nat.pow 10 (-i).toNat) <<< j.toNat : Nat)) : ℚ)
      = n * 2 ^ j * (10 ^ (-i).toNat * 2 ^ (-j).toNat) := by
    rw [Nat.shiftLeft_eq, htwo, Nat.pow_eq]
    push_cast
    field_simp
  rw [cmpScaled, ← cmp_mul_pos_right hpos, ← hleft, ← hright, Nat.strictMono_cast.cmp_map_eq,
    cmp_eq_compare]

variable {x : Binary} {d : Digits}

/-- A candidate is taken if it rounds to the float. -/
theorem Binary.readsBack_iff (hx : x.Stored) (d : Digits) :
    x.readsBack d = true ↔ x.Reaches d.value := by
  have hunit : (0 : ℚ) < 2 ^ x.q := zpow_pos (by norm_num) _
  have hquarter : (2 : ℚ) ^ (x.q - 2) = 2 ^ x.q / 4 := by
    rw [zpow_sub₀ (by norm_num)]
    norm_num
  have hone := hx.pos
  have hlow : (((if x.narrowBelow then 4 * x.m - 1 else 4 * x.m - 2 : Nat)) : ℚ) * 2 ^ (x.q - 2)
      = x.low * 2 ^ x.q := by
    rw [low, hquarter]
    split
    · rw [Nat.cast_sub (by omega)]
      push_cast
      ring
    · rw [Nat.cast_sub (by omega)]
      push_cast
      ring
  have hhigh : ((4 * x.m + 2 : Nat) : ℚ) * 2 ^ (x.q - 2) = (x.m + 1 / 2) * 2 ^ x.q := by
    rw [hquarter]
    push_cast
    ring
  rw [readsBack, Reaches, cmpScaled_eq, cmpScaled_eq, hlow, hhigh, ← Digits.value, Bool.and_eq_true,
    Bool.or_eq_true, Bool.or_eq_true, Bool.and_eq_true, Bool.and_eq_true]
  refine and_congr (or_congr ?_ (and_congr beq_iff_eq ?_)) (or_congr ?_ (and_congr beq_iff_eq ?_))
  · rw [beq_iff_eq, cmp_eq_gt_iff, lt_div_iff₀ hunit]
  · rw [beq_iff_eq, cmp_eq_eq_iff, eq_div_iff hunit.ne', eq_comm]
  · rw [beq_iff_eq, cmp_eq_lt_iff, div_lt_iff₀ hunit]
  · rw [beq_iff_eq, cmp_eq_eq_iff, div_eq_iff hunit.ne']

/-! ### The search -/

/-- The float itself is among the numbers that round to it. -/
theorem Binary.reaches_self (x : Binary) : x.Reaches (x.m * 2 ^ x.q) := by
  have hunit : (2 : ℚ) ^ x.q ≠ 0 := (zpow_pos (by norm_num) _).ne'
  rw [Reaches, mul_div_cancel_right₀ _ hunit, low]
  refine ⟨Or.inl ?_, Or.inl (by linarith)⟩
  split <;> linarith

theorem Binary.exact_value (x : Binary) : x.exact.value = x.m * 2 ^ x.q := by
  rw [exact, Digits.value, Nat.shiftLeft_eq, Nat.pow_eq]
  rcases le_total 0 x.q with hq | hq
  · rw [min_eq_right hq, zpow_zero, show (-x.q).toNat = 0 by omega]
    push_cast
    rw [← zpow_natCast, Int.toNat_of_nonneg hq]
    ring
  · have hten : (10 : ℚ) ^ x.q = 1 / (5 ^ (-x.q).toNat * 2 ^ (-x.q).toNat) := by
      rw [← mul_pow, ← zpow_natCast, Int.toNat_of_nonneg (by omega), zpow_neg, one_div, inv_inv]
      norm_num
    have htwo : (2 : ℚ) ^ x.q = 1 / 2 ^ (-x.q).toNat := by
      rw [← zpow_natCast, Int.toNat_of_nonneg (by omega), zpow_neg, one_div, inv_inv]
    rw [min_eq_left hq, hten, htwo, show x.q.toNat = 0 by omega]
    push_cast
    field_simp

theorem Binary.onGrid_readsBack {tie : Tie} {e : Int} (h : x.onGrid tie e = some d) :
    x.readsBack d = true := by
  rw [onGrid.eq_def] at h
  dsimp only at h
  split at h
  · exact Option.some.inj h ▸ ‹_›
  · exact Option.some.inj h ▸ ‹_›
  · exact absurd h (by simp)
  · rename_i hlow hhigh
    split at h
    · exact Option.some.inj h ▸ hlow
    · exact Option.some.inj h ▸ hhigh
    · split at h
      · exact Option.some.inj h ▸ hhigh
      · split at h
        · exact Option.some.inj h ▸ hlow
        · exact Option.some.inj h ▸ hhigh

theorem Binary.search_readsBack {tie : Tie} {k : Int} :
    ∀ {fuel n : Nat}, x.search tie k fuel n = some d → x.readsBack d = true
  | 0, n, h => by simp [search] at h
  | fuel + 1, n, h => by
      rw [search] at h
      split at h
      · rename_i hfound
        exact onGrid_readsBack (Option.some.inj h ▸ hfound)
      · exact search_readsBack h

theorem Digits.stripZeros_value : ∀ (fuel : Nat) (d : Digits), (d.stripZeros fuel).value = d.value
  | 0, _ => rfl
  | fuel + 1, d => by
      rw [stripZeros]
      split
      · rename_i hzeros
        have hdiv : (d.digits : ℚ) = 10 * (d.digits / 10 : Nat) := by
          exact_mod_cast (Nat.mul_div_cancel' (Nat.dvd_of_mod_eq_zero hzeros.2)).symm
        rw [stripZeros_value fuel, value, value, hdiv, zpow_add_one₀ (by norm_num)]
        ring
      · rfl

/-- **The shortest digits round to the float.** -/
theorem Binary.shortest_reaches (hx : x.Stored) (tie : Tie) :
    x.Reaches (x.shortest tie).value := by
  rw [shortest, if_neg hx.pos.ne', Digits.stripZeros_value]
  cases hfound : x.search tie x.scale 17 1 with
  | none =>
      rw [Option.getD_none, exact_value]
      exact reaches_self x
  | some d => exact (readsBack_iff hx d).mp (search_readsBack hfound)

/-! ### Reading a decimal -/

/-- How many digits a natural has. -/
theorem length_toDigits_bounds {a : Nat} (ha : a ≠ 0) :
    10 ^ ((Nat.toDigits 10 a).length - 1) ≤ a ∧ a < 10 ^ (Nat.toDigits 10 a).length := by
  have hlength : 0 < (Nat.toDigits 10 a).length := Nat.length_toDigits_pos
  refine ⟨?_, (Nat.length_toDigits_le_iff (by norm_num) hlength).mp (le_refl _)⟩
  rcases Nat.lt_or_ge 1 (Nat.toDigits 10 a).length with hmany | hone
  · by_contra hless
    have := (Nat.length_toDigits_le_iff (by norm_num) (by omega)).mpr (Nat.lt_of_not_le hless)
    omega
  · rw [show (Nat.toDigits 10 a).length - 1 = 0 by omega]
    exact Nat.pos_of_ne_zero ha

theorem lt_of_ten_pow_lt {i j : Int} (h : (10 : ℚ) ^ i < 10 ^ j) : i < j :=
  (zpow_lt_zpow_iff_right₀ (by norm_num)).mp h

section Reading

variable {x : Binary} {a : Nat} {i : Int}

/-- What rounds to a finite float is not too large. -/
theorem Binary.Reaches.lt_ten_pow {v : ℚ} (h : x.Reaches v) (hx : x.Stored) :
    v < 10 ^ (342 : Int) := by
  have hunit : (0 : ℚ) < 2 ^ x.q := zpow_pos (by norm_num) _
  calc v < 2 ^ (53 : Int) * 2 ^ x.q := (div_lt_iff₀ hunit).mp (h.lt_width hx.toWide)
    _ = 2 ^ (53 + x.q) := (zpow_add₀ (by norm_num) _ _).symm
    _ ≤ 2 ^ (3 * 342 : Int) := zpow_le_zpow_right₀ (by norm_num) (by have := hx.greatest; omega)
    _ = 8 ^ (342 : Int) := by rw [zpow_mul]; norm_num
    _ ≤ 10 ^ (342 : Int) := by
        rw [zpow_ofNat, zpow_ofNat]
        exact pow_le_pow_left₀ (by norm_num) (by norm_num) _

/-- What rounds to a float other than zero is not too small. -/
theorem Binary.Reaches.ten_pow_lt {v : ℚ} (h : x.Reaches v) (hx : x.Stored) :
    (10 : ℚ) ^ (-360 : Int) < v := by
  have hunit : (0 : ℚ) < 2 ^ x.q := zpow_pos (by norm_num) _
  calc (10 : ℚ) ^ (-360 : Int) < 8 ^ (-360 : Int) := by
        rw [zpow_neg, zpow_neg, zpow_ofNat, zpow_ofNat]
        exact inv_strictAnti₀ (by positivity)
          (pow_lt_pow_left₀ (by norm_num) (by norm_num) (by norm_num))
    _ = 2 ^ (3 * -360 : Int) := by rw [zpow_mul]; norm_num
    _ ≤ 2 ^ (-1 + x.q) := zpow_le_zpow_right₀ (by norm_num) (by have := hx.least; omega)
    _ = 2 ^ (-1 : Int) * 2 ^ x.q := zpow_add₀ (by norm_num) _ _
    _ ≤ v := (le_div_iff₀ hunit).mp (by simpa using h.half_le hx.toWide)

theorem Binary.Reaches.ne_zero (h : x.Reaches (a * 10 ^ i)) (hx : x.Stored) : a ≠ 0 := by
  rintro rfl
  have := h.half_le hx.toWide
  norm_num at this

/-- The binary logarithm of a power of five. -/
def log2Five (k : Nat) : Nat := k * 2322 / 1000

/-- The powers of ten that are floats. -/
theorem unpack_powerOfTen {k : Nat} (hk : k < Float.exactlyRepresentablePowersOfTen.size) :
    (Float.exactlyRepresentablePowersOfTen[k]).toModel.unpack
      = .finite .positive (5 ^ k * 2 ^ (52 - log2Five k)) (k + log2Five k - 52)
          (Nat.mul_pos (Nat.pow_pos (by decide)) (Nat.two_pow_pos _)) := by
  have hall : ∀ k < 23, Float.exactlyRepresentablePowersOfTen[k]?.map (·.toModel.unpack)
      = some (.finite .positive (5 ^ k * 2 ^ (52 - log2Five k)) (k + log2Five k - 52)
          (Nat.mul_pos (Nat.pow_pos (by decide)) (Nat.two_pow_pos _))) := by
    intro k hbound
    interval_cases k <;> rfl
  have hfound := hall k hk
  rw [Array.getElem?_eq_getElem hk] at hfound
  exact Option.some.inj hfound

theorem powerOfTen_value {k : Nat} (hk : k < 23) :
    ((5 ^ k * 2 ^ (52 - log2Five k) : Nat) : ℚ) * 2 ^ ((k : Int) + log2Five k - 52)
      = 10 ^ k := by
  have hexponent : ((k : Int) + log2Five k - 52) = k - ((52 - log2Five k : Nat) : Int) := by
    have : log2Five k ≤ 52 := by
      rw [log2Five]
      omega
    omega
  rw [hexponent, zpow_sub₀ (by norm_num), zpow_natCast, zpow_natCast,
    show (10 : ℚ) = 5 * 2 by norm_num, mul_pow]
  push_cast
  field_simp

/-- A natural of 53 bits is a float. -/
theorem stored_value {n : Nat} (hn : n ≠ 0) (h : n < 2 ^ 53) :
    ((n * 2 ^ (52 - n.log2) : Nat) : ℚ) * 2 ^ ((n.log2 : Int) - 52) = n := by
  have hlog := log2_le hn h
  have hexponent : ((n.log2 : Int) - 52) = -((52 - n.log2 : Nat) : Int) := by omega
  rw [hexponent, zpow_neg, zpow_natCast]
  push_cast
  field_simp

/-- Reading by one operation on floats. -/
theorem ofScientific_fast (hx : x.Stored) (hv : x.Reaches (a * 10 ^ i)) (ha : a < 2 ^ 53)
    (hi : i.natAbs ≤ 22) :
    Float.ofScientific a (decide (i < 0)) i.natAbs = x.toFloat hx := by
  have hne := hv.ne_zero hx
  have hsize : i.natAbs < Float.exactlyRepresentablePowersOfTen.size := Nat.lt_succ_of_le hi
  have hstored : a.toUInt64.toFloat.toModel.unpack = stored a := Holds.ofNat ha
  have hpower := unpack_powerOfTen hsize
  have hten := powerOfTen_value (k := i.natAbs) (by omega)
  have hvalue := stored_value hne ha
  rw [stored_pos hne] at hstored
  rw [Float.ofScientific, dif_pos ⟨ha, hi⟩, Binary.toFloat]
  dsimp only
  by_cases hnegative : i < 0
  · rw [if_pos (decide_eq_true hnegative)]
    have hexponent : (10 : ℚ) ^ i = 1 / 10 ^ i.natAbs := by
      rw [← zpow_natCast, one_div, ← zpow_neg]
      congr 1
      omega
    refine congrArg Float.ofModel ?_
    show Float.Model.pack (UnpackedFloat.div binary64 _ _) = _
    rw [hstored, hpower, div_eq hx]
    rw [hvalue, hten, ← mul_one_div, ← hexponent]
    exact hv
  · rw [if_neg (mt of_decide_eq_true hnegative)]
    have hexponent : (10 : ℚ) ^ i = 10 ^ i.natAbs := by
      rw [← zpow_natCast]
      congr 1
      omega
    have hwide : 2 ^ 52 ≤ a * 2 ^ (52 - a.log2) :=
      ((Nat.log2_eq_iff (Nat.mul_ne_zero hne (by positivity))).mp (log2_stored hne ha)).1
    refine congrArg Float.ofModel ?_
    show Float.Model.pack (UnpackedFloat.mul binary64 _ _) = _
    rw [hstored, hpower, mul_eq hx]
    · exact hwide.trans (Nat.le_mul_of_pos_right _ (by positivity))
    · rw [hvalue, hten, ← hexponent]
      exact hv

/-- Reading over the naturals. -/
theorem ofScientific_slow (hx : x.Stored) (hv : x.Reaches (a * 10 ^ i)) :
    UnpackedFloat.ofScientific binary64 a i = .finite .positive x.m x.q hx.pos := by
  have hne := hv.ne_zero hx
  have hone : (1 : ℚ) ≤ a := by exact_mod_cast Nat.pos_of_ne_zero hne
  have hten : (0 : ℚ) < 10 ^ i := zpow_pos (by norm_num) _
  have hupper : i < 342 := by
    refine lt_of_ten_pow_lt (lt_of_le_of_lt ?_ (hv.lt_ten_pow hx))
    exact le_mul_of_one_le_left hten.le hone
  have hlower : -360 < (a.log2 : Int) + 1 + i := by
    refine lt_of_ten_pow_lt ((hv.ten_pow_lt hx).trans ?_)
    have hlog : (a : ℚ) < 2 ^ (a.log2 + 1) := by exact_mod_cast Nat.lt_log2_self
    calc (a : ℚ) * 10 ^ i < 2 ^ (a.log2 + 1) * 10 ^ i := mul_lt_mul_of_pos_right hlog hten
      _ ≤ 10 ^ (a.log2 + 1) * 10 ^ i :=
          mul_le_mul_of_nonneg_right (pow_le_pow_left₀ (by norm_num) (by norm_num) _) hten.le
      _ = 10 ^ ((a.log2 : Int) + 1 + i) := by
          rw [zpow_add₀ (by norm_num) _ i]
          norm_cast
  have hbits : (2 : Int) ^ binary64.exponentBits = 2048 := rfl
  rw [UnpackedFloat.ofScientific, dif_neg hne]
  rw [hbits, if_neg (by omega), if_neg (by omega)]
  by_cases hnonneg : 0 ≤ i
  · rw [if_pos hnonneg]
    refine mul_eq hx ?_ ?_
    · refine le_trans ?_ (Nat.le_mul_of_pos_right _ (by positivity))
      rw [Nat.shiftLeft_eq, show binary64.mantissaBits = 53 from rfl]
      exact le_trans (by norm_num) (Nat.le_mul_of_pos_left _ (Nat.pos_of_ne_zero hne))
    · convert hv using 1
      rw [Nat.shiftLeft_eq, show binary64.mantissaBits = 53 from rfl, zpow_neg]
      push_cast
      rw [← zpow_natCast 10, Int.toNat_of_nonneg hnonneg]
      field_simp
  · rw [if_neg hnonneg]
    refine div_eq hx ?_
    convert hv using 1
    have hexponent : (10 : ℚ) ^ i = 1 / 10 ^ (-i).toNat := by
      rw [← zpow_natCast, Int.toNat_of_nonneg (by omega), zpow_neg, one_div, inv_inv]
    rw [hexponent]
    push_cast
    ring

/-- **Reading a decimal that rounds to a float gives the float.** -/
theorem toFloat_eq (hx : x.Stored) (hv : x.Reaches (a * 10 ^ i)) : toFloat a i = x.toFloat hx := by
  have hne := hv.ne_zero hx
  obtain ⟨hlow, hhigh⟩ := length_toDigits_bounds hne
  have hten : (0 : ℚ) < 10 ^ i := zpow_pos (by norm_num) _
  have hlength : 0 < (Nat.toDigits 10 a).length := Nat.length_toDigits_pos
  have hupper : ((Nat.toDigits 10 a).length : Int) - 1 + i < 342 := by
    refine lt_of_ten_pow_lt (lt_of_le_of_lt ?_ (hv.lt_ten_pow hx))
    rw [zpow_add₀ (by norm_num), show ((Nat.toDigits 10 a).length : Int) - 1
      = (((Nat.toDigits 10 a).length - 1 : Nat) : Int) by omega, zpow_natCast]
    exact mul_le_mul_of_nonneg_right (by exact_mod_cast hlow) hten.le
  have hlower : -360 < ((Nat.toDigits 10 a).length : Int) + i := by
    refine lt_of_ten_pow_lt ((hv.ten_pow_lt hx).trans ?_)
    rw [zpow_add₀ (by norm_num), zpow_natCast]
    exact mul_lt_mul_of_pos_right (by exact_mod_cast hhigh) hten
  rw [toFloat, if_neg hne]
  simp only
  rw [if_neg (by omega), if_neg (by omega)]
  by_cases hfast : a < 2 ^ 53 ∧ i.natAbs ≤ 22
  · exact ofScientific_fast hx hv hfast.1 hfast.2
  · rw [Float.ofScientific, dif_neg hfast]
    have hi :
        (if decide (i < 0) = true then Int.negOfNat i.natAbs else Int.ofNat i.natAbs) = i := by
      split
      · rename_i hnegative
        simp only [decide_eq_true_eq] at hnegative
        rw [Int.negOfNat_eq]
        simp only [Int.ofNat_eq_natCast]
        omega
      · rename_i hpositive
        simp only [decide_eq_true_eq] at hpositive
        simp only [Int.ofNat_eq_natCast]
        omega
    dsimp only
    rw [hi]
    refine congrArg Float.ofModel ?_
    rw [Float.Model.ofScientific, ofScientific_slow hx hv]

end Reading

end FlowGraph.Decimal
