/-
Integers as floats.

An integer of JSON is far below the greatest float, so the float nearest to it is finite.  Rounding
may carry over, but it adds no more than one digit.
-/
import FlowGraph.Json.Value
import FlowGraph.Proofs.Decimal.Shortest

namespace FlowGraph.Decimal

open Float.Model Float.Model.UnpackedFloat Float.Model.Format

/-! ### How far rounding can go -/

theorem mantissa_shiftRight (em : ExtendedMantissa) (k : Nat) :
    (em >>> k).mantissa ≤ em.mantissa := by
  change (k.repeat ExtendedMantissa.shiftRightOne em).mantissa ≤ em.mantissa
  induction k with
  | zero => exact le_refl _
  | succ k ih =>
      rw [Nat.repeat]
      exact le_trans (Nat.div_le_self _ 2) ih

theorem roundedMantissa_le (em : ExtendedMantissa) : em.roundedMantissa ≤ em.mantissa + 1 := by
  obtain ⟨m, roundBit, stickyBit⟩ := em
  cases roundBit <;> cases stickyBit <;>
    simp only [ExtendedMantissa.roundedMantissa, ExtendedMantissa.accuracy,
      Accuracy.roundToNearestEven] <;> omega

/-- Rounding does not raise the exponent by more than the digits there are. -/
theorem exponent_shiftToTargetExponent {m k : Nat} (hm : m < 2 ^ k) (e : Int) (a : Accuracy) :
    (shiftToTargetExponent binary64 m e a).2 ≤ max (e + k) (-1074) := by
  have hlog : m.log2 ≤ k := by
    by_cases hzero : m = 0
    · subst hzero
      simp
    · exact Nat.le_of_lt ((Nat.log2_lt hzero).mpr hm)
  show e + ((binary64.targetExponent (totalExponent m e) - e).toNat : Int) ≤ _
  rw [targetExponent_eq, totalExponent]
  omega

theorem mantissa_shiftToTargetExponent (m : Nat) (e : Int) (a : Accuracy) :
    (shiftToTargetExponent binary64 m e a).1.mantissa ≤ m := by
  refine le_trans (mantissa_shiftRight _ _) ?_
  cases a with
  | exact => exact le_refl _
  | inexact o => cases o <;> exact le_refl _

/-- A rounded number is zero, or its exponent is not far from that of the number. -/
theorem roundWithAccuracy_bounds {m k : Nat} (hm : m < 2 ^ k) (s : Sign) (e : Int) (a : Accuracy) :
    roundWithAccuracy binary64 s m e a = .zero s ∨
      ∃ m' e' hpos, roundWithAccuracy binary64 s m e a = .finite s m' e' hpos ∧
        e' ≤ max (e + 2 * k + 1) (k - 1073) := by
  have hfirst := exponent_shiftToTargetExponent hm e a
  have hmantissa := mantissa_shiftToTargetExponent m e a
  rw [roundWithAccuracy]
  generalize shiftToTargetExponent binary64 m e a = first at hfirst hmantissa ⊢
  obtain ⟨em, e₁⟩ := first
  have hrounded : em.roundedMantissa < 2 ^ (k + 1) := by
    have := roundedMantissa_le em
    rw [Nat.pow_succ]
    dsimp only at hmantissa
    omega
  have hsecond := exponent_shiftToTargetExponent hrounded e₁ .exact
  dsimp only at hfirst ⊢
  generalize shiftToTargetExponent binary64 em.roundedMantissa e₁ .exact = second at hsecond ⊢
  obtain ⟨final, e₂⟩ := second
  dsimp only at hsecond ⊢
  by_cases hzero : final.mantissa = 0
  · exact Or.inl (dif_pos hzero)
  · refine Or.inr ⟨_, _, Nat.pos_of_ne_zero hzero, dif_neg hzero, ?_⟩
    push_cast at hsecond
    omega

/-! ### Finite floats -/

theorem isFinite_unpack {b : BitVec binary64.numBits} (hb : unpackExponent b ≠ -1#11) :
    (UnpackedFloat.unpack binary64 b).isFinite = true := by
  by_cases hzero : unpackExponent b = 0#11
  · by_cases hm : unpackMantissa b = 0#52
    · exact congrArg UnpackedFloat.isFinite (unpack_zero hzero hm)
    · exact congrArg UnpackedFloat.isFinite
        (@unpack_subnormal b _ _ (BitVec.toNat_pos_of_ne_zero hm) hzero hm rfl rfl)
  · exact congrArg UnpackedFloat.isFinite
      (@unpack_normal b _ _ _ (Nat.add_pos_left (Nat.two_pow_pos 52) _) hb hzero rfl
        (toNat_implicit_add _) rfl)

/-- What is packed with a small exponent is finite. -/
theorem isFinite_pack {s : Sign} {m : Nat} {e : Int} {hpos : 0 < m} (he : e ≤ 900) :
    (Float.Model.pack (.finite s m e hpos)).isFinite = true := by
  refine @isFinite_unpack (UnpackedFloat.pack binary64 (.finite s m e hpos)) ?_
  rw [pack_finite, if_neg (by omega)]
  split
  · rw [unpackExponent_packComponents]
    intro heq
    have := congrArg BitVec.toNat heq
    rw [BitVec.toNat_ofNat, show (-1#11).toNat = 2047 from rfl] at this
    omega
  · rw [unpackExponent_packComponents]
    decide

/-- A product of few digits is finite. -/
theorem isFinite_mul {s t : Sign} {m₁ m₂ k : Nat} {e₁ e₂ : Int} {h₁ : 0 < m₁} {h₂ : 0 < m₂}
    (hm : m₁ * m₂ < 2 ^ k) (hk : k ≤ 1000) (he : e₁ + e₂ + 2 * k ≤ 800) :
    (Float.Model.pack
      (UnpackedFloat.mul binary64 (.finite s m₁ e₁ h₁) (.finite t m₂ e₂ h₂))).isFinite = true := by
  have hmul : UnpackedFloat.mul binary64 (.finite s m₁ e₁ h₁) (.finite t m₂ e₂ h₂)
      = roundWithAccuracy binary64 (s * t) (m₁ * m₂) (e₁ + e₂) .exact := rfl
  rw [hmul]
  rcases roundWithAccuracy_bounds hm (s * t) (e₁ + e₂) .exact with
    hround | ⟨m', e', hpos, hround, he'⟩
  · rw [hround]
    cases s * t <;> rfl
  · rw [hround]
    exact isFinite_pack (by omega)

theorem isFinite_toFloat {b : Binary} (hb : b.Stored) : (b.toFloat hb).isFinite = true :=
  congrArg UnpackedFloat.isFinite (unpack_pack_finite hb .positive)

/-- A natural of 53 bits in the form in which it is stored. -/
def binaryOfNat (n : Nat) : Binary :=
  ⟨n * 2 ^ (52 - n.log2), n.log2 - 52, n * 2 ^ (52 - n.log2) = 2 ^ 52⟩

theorem binaryOfNat_stored {n : Nat} (hn : n ≠ 0) (h : n < 2 ^ 53) : (binaryOfNat n).Stored := by
  have hlog := log2_le hn h
  have hne : n * 2 ^ (52 - n.log2) ≠ 0 := Nat.mul_ne_zero hn (by positivity)
  obtain ⟨hlow, hhigh⟩ := (Nat.log2_eq_iff hne).mp (log2_stored hn h)
  refine ⟨⟨Nat.pos_of_ne_zero hne, hhigh, ?_, Or.inl hlow, ?_⟩, ?_⟩
  · show (-1074 : Int) ≤ n.log2 - 52
    omega
  · show decide (_ = _) = true ↔ _ = _ ∧ (-1074 : Int) < n.log2 - 52
    rw [decide_eq_true_eq]
    exact ⟨fun h => ⟨h, by omega⟩, fun h => h.1⟩
  · show (n.log2 : Int) - 52 ≤ 971
    omega

theorem isFinite_ofNat {n : Nat} (hn : n < 2 ^ 65) : (Float.ofNat n).isFinite = true := by
  have hdef : Float.ofNat n = Float.ofScientific n (decide ((0 : Int) < 0)) (0 : Int).natAbs := rfl
  by_cases hzero : n = 0
  · subst hzero
    rfl
  rw [hdef]
  by_cases hsmall : n < 2 ^ 53
  · have hstored := binaryOfNat_stored hzero hsmall
    have hreaches := (binaryOfNat n).reaches_self
    have hvalue : ((binaryOfNat n).m : ℚ) * 2 ^ (binaryOfNat n).q = n * 10 ^ (0 : Int) := by
      rw [zpow_zero, mul_one]
      exact stored_value hzero hsmall
    rw [hvalue] at hreaches
    rw [ofScientific_fast hstored hreaches hsmall (by decide)]
    exact isFinite_toFloat hstored
  · have hslow : ¬(n < 2 ^ 53 ∧ (0 : Int).natAbs ≤ 22) := fun h => hsmall h.1
    rw [Float.ofScientific, dif_neg hslow]
    show (Float.Model.pack (UnpackedFloat.ofScientific binary64 n 0)).isFinite = true
    have hbits : (2 : Int) ^ binary64.exponentBits = 2048 := rfl
    rw [UnpackedFloat.ofScientific, dif_neg hzero, hbits, if_neg (by omega), if_neg (by omega),
      if_pos (le_refl _)]
    have hwide : (n <<< binary64.mantissaBits) * 10 ^ (0 : Int).toNat < 2 ^ 118 := by
      rw [Nat.shiftLeft_eq, show binary64.mantissaBits = 53 from rfl]
      norm_num
      omega
    exact isFinite_mul hwide (by decide) (by rw [show binary64.mantissaBits = 53 from rfl]; omega)

/-- **An integer of JSON is a finite float.** -/
theorem isFinite_ofInt {i : Int} (hi : Number.inRange i = true) :
    (Float.ofInt i).isFinite = true := by
  rw [Number.inRange, Bool.and_eq_true, decide_eq_true_eq, decide_eq_true_eq] at hi
  cases i with
  | ofNat n =>
      have hn : n < 2 ^ 65 := by
        have := hi.2
        simp only [Int.ofNat_eq_natCast] at this
        omega
      exact isFinite_ofNat hn
  | negSucc n =>
      have hn : n.succ < 2 ^ 65 := by
        have := hi.1
        omega
      exact isFinite_neg (isFinite_ofNat hn)

end FlowGraph.Decimal
