/-
Whole numbers as floats.

A float has a mantissa of 53 bits, so it can be any whole number below `2 ^ 53`.  `Holds x n` says
that `x` is the number `n`.  Below that bound whole numbers are counted, compared and read back as
if they were no floats at all: nothing is ever rounded.

A number is stored with its mantissa shifted up to the full width, and that is the form in which
rounding leaves it, whatever form it had before.  This is the one fact about rounding that is
needed (`round_shifted`); packing into bits loses nothing of this form (`unpack_pack_stored`).
-/
import Mathlib.Algebra.Group.Nat.Defs

namespace FlowGraph

open Float.Model Float.Model.UnpackedFloat Float.Model.Format

variable {n m k : Nat}

/-! ### The form that is stored -/

/-- A whole number with a mantissa of full width. -/
def stored (n : Nat) : UnpackedFloat :=
  if h : n = 0 then .zero .positive
  else .finite .positive (n * 2 ^ (52 - n.log2)) (n.log2 - 52)
    (Nat.mul_pos (Nat.pos_of_ne_zero h) (Nat.two_pow_pos _))

theorem stored_zero : stored 0 = .zero .positive := rfl

theorem stored_pos (hn : n ≠ 0) :
    stored n = .finite .positive (n * 2 ^ (52 - n.log2)) (n.log2 - 52)
      (Nat.mul_pos (Nat.pos_of_ne_zero hn) (Nat.two_pow_pos _)) := dif_neg hn

theorem log2_mul_two_pow (hn : n ≠ 0) (k : Nat) : (n * 2 ^ k).log2 = n.log2 + k := by
  have hpos : 0 < 2 ^ k := Nat.two_pow_pos k
  obtain ⟨hlow, hhigh⟩ := (Nat.log2_eq_iff hn).mp rfl
  rw [Nat.log2_eq_iff (Nat.mul_ne_zero hn (Nat.ne_of_gt hpos))]
  constructor
  · rw [Nat.pow_add]
    exact Nat.mul_le_mul_right _ hlow
  · rw [Nat.add_right_comm, Nat.pow_add]
    exact Nat.mul_lt_mul_of_pos_right hhigh hpos

theorem log2_le (hn : n ≠ 0) (h : n < 2 ^ 53) : n.log2 ≤ 52 :=
  Nat.le_of_lt_succ ((Nat.log2_lt hn).mpr h)

/-- The mantissa that is stored has 53 bits. -/
theorem log2_stored (hn : n ≠ 0) (h : n < 2 ^ 53) : (n * 2 ^ (52 - n.log2)).log2 = 52 := by
  rw [log2_mul_two_pow hn]
  have := log2_le hn h
  omega

/-! ### Rounding -/

/-- No digit is lost when zeros are dropped. -/
theorem shiftRight_zeros (m k : Nat) :
    (⟨m * 2 ^ k, false, false⟩ : ExtendedMantissa) >>> k = ⟨m, false, false⟩ := by
  induction k generalizing m with
  | zero => simp [HShiftRight.hShiftRight, Nat.repeat]
  | succ k ih =>
      have hih := ih (m * 2)
      simp only [HShiftRight.hShiftRight] at hih ⊢
      rw [Nat.repeat, Nat.pow_succ', ← Nat.mul_assoc, hih]
      simp [ExtendedMantissa.shiftRightOne]

/-- The exponent that belongs to a whole number. -/
theorem targetExponent_whole (l : Nat) : binary64.targetExponent (l + 1) = l - 52 := by
  rw [targetExponent, show binary64.minExponent = -1074 from rfl,
    show binary64.mantissaBits = 53 from rfl]
  omega

theorem shiftToTargetExponent_shifted (hn : n ≠ 0) (h : n < 2 ^ 53) {t : Nat}
    (ht : 52 ≤ t + n.log2) :
    shiftToTargetExponent binary64 (n * 2 ^ t) (-t) .exact
      = (⟨n * 2 ^ (52 - n.log2), false, false⟩, (n.log2 : Int) - 52) := by
  have hlog := log2_le hn h
  have htotal : totalExponent (n * 2 ^ t) (-t) = (n.log2 : Int) + 1 := by
    rw [totalExponent, log2_mul_two_pow hn]
    omega
  have hshift : ((n.log2 : Int) - 52 - -t).toNat = t + n.log2 - 52 := by omega
  have hsplit : n * 2 ^ t = n * 2 ^ (52 - n.log2) * 2 ^ (t + n.log2 - 52) := by
    rw [Nat.mul_assoc, ← Nat.pow_add]
    congr 2
    omega
  rw [shiftToTargetExponent, htotal, targetExponent_whole, shiftToExponent]
  simp only [hshift, ExtendedMantissa.ofMantissaAndAccuracy, Prod.mk.injEq]
  refine ⟨?_, by omega⟩
  rw [hsplit]
  exact shiftRight_zeros _ _

/-- The digits that do not fit are dropped, and once more if rounding has made one too many. -/
theorem roundWithAccuracy_finite {s : Sign} {m m' : Nat} {e e₁ e₂ : Int} {a : Accuracy}
    {first final : ExtendedMantissa} {hpos : 0 < m'}
    (hfirst : shiftToTargetExponent binary64 m e a = (first, e₁))
    (hfinal : shiftToTargetExponent binary64 first.roundedMantissa e₁ .exact = (final, e₂))
    (hm : final.mantissa = m') :
    roundWithAccuracy binary64 s m e a = .finite s m' e₂ hpos := by
  subst hm
  rw [roundWithAccuracy, hfirst]
  dsimp only
  rw [hfinal]
  exact dif_neg (Nat.ne_of_gt hpos)

/-- **Rounding leaves a whole number as it is stored**, with any number of zeros behind it that
makes up for its exponent. -/
theorem roundWithAccuracy_shifted (hn : n ≠ 0) (h : n < 2 ^ 53) {t : Nat} (ht : 52 ≤ t + n.log2) :
    roundWithAccuracy binary64 .positive (n * 2 ^ t) (-t) .exact = stored n := by
  have hlog := log2_le hn h
  have hcast : ((n.log2 : Int) - 52) = -((52 - n.log2 : Nat) : Int) := by omega
  have hagain := shiftToTargetExponent_shifted hn h (Nat.le_of_eq (Nat.sub_add_cancel hlog).symm)
  rw [← hcast] at hagain
  rw [stored_pos hn]
  exact roundWithAccuracy_finite (shiftToTargetExponent_shifted hn h ht) hagain rfl

theorem round_shifted (hn : n ≠ 0) (h : n < 2 ^ 53) (t : Nat) :
    UnpackedFloat.round binary64 .positive (n * 2 ^ t) (-t) = stored n := by
  have hlog := log2_le hn h
  have htotal : totalExponent (n * 2 ^ t) (-t) = (n.log2 : Int) + 1 := by
    rw [totalExponent, log2_mul_two_pow hn]
    omega
  let more : Nat := (-(t : Int) - ((n.log2 : Int) - 52)).toNat
  have hexponent : -(t : Int) - (more : Int) = -((t + more : Nat) : Int) := by omega
  rw [UnpackedFloat.round, htotal, targetExponent_whole, decreaseExponent]
  simp only [Nat.shiftLeft_eq, Nat.mul_assoc, ← Nat.pow_add]
  rw [hexponent]
  exact roundWithAccuracy_shifted hn h (by omega)

/-! ### Bits -/

/-- The first bit of the mantissa is not stored. -/
theorem toNat_implicit {m : Nat} (hlow : 2 ^ 52 ≤ m) (hhigh : m < 2 ^ 53) :
    (1#1 ++ BitVec.ofNat 52 m).toNat = m := by
  rw [BitVec.toNat_append, ← Nat.shiftLeft_add_eq_or_of_lt (BitVec.isLt _), Nat.shiftLeft_eq,
    BitVec.toNat_ofNat, BitVec.toNat_ofNat]
  omega

theorem toNat_packComponents (sign : Sign) (exponent : BitVec 11) (mantissa : BitVec 52) :
    (packComponents binary64 sign exponent mantissa).toNat
      = (sign.toBitVec.toNat * 2 ^ 11 + exponent.toNat) * 2 ^ 52 + mantissa.toNat := by
  show ((sign.toBitVec ++ exponent) ++ mantissa).toNat = _
  rw [BitVec.toNat_append, BitVec.toNat_append, ← Nat.shiftLeft_add_eq_or_of_lt mantissa.isLt,
    ← Nat.shiftLeft_add_eq_or_of_lt exponent.isLt, Nat.shiftLeft_eq, Nat.shiftLeft_eq]

theorem toNat_unpackSign (b : BitVec binary64.numBits) :
    (unpackSign b).toNat = b.toNat / 2 ^ 63 := by
  have hsize : b.toNat < 2 ^ 64 := b.isLt
  show (b.toNat >>> 63) % 2 ^ 1 = _
  rw [Nat.shiftRight_eq_div_pow]
  omega

/-- The sign that is packed is unpacked. -/
theorem unpackSign_packed (sign : Sign) (exponent : BitVec 11) (mantissa : BitVec 52) :
    unpackSign (packComponents binary64 sign exponent mantissa) = sign.toBitVec := by
  have hexponent := exponent.isLt
  have hmantissa := mantissa.isLt
  refine BitVec.eq_of_toNat_eq ?_
  rw [toNat_unpackSign, toNat_packComponents]
  omega

/-- What a finite number is packed into. -/
theorem pack_finite (s : Sign) (m : Nat) (q : Int) (hpos : 0 < m) :
    UnpackedFloat.pack binary64 (.finite s m q hpos) =
      if 2 ^ 11 ≤ (q + 1075).toNat + 1 then packedInfinity binary64 s
      else if m.log2 + 1 = 53 then
        packComponents binary64 s (BitVec.ofNat 11 (q + 1075).toNat) (BitVec.ofNat 52 m)
      else packComponents binary64 s 0#11 (BitVec.ofNat 52 m) := by
  have hbiased : q + ((1023 : Nat) : Int) + ((52 : Nat) : Int) = q + 1075 := by omega
  rw [← hbiased]
  rfl

section Unpacking

variable {b : BitVec binary64.numBits} {s : Sign} {m : Nat} {q : Int} {hpos : 0 < m}

/-- With most exponents the mantissa has one bit more than is stored. -/
theorem unpack_normal (hexponent : unpackExponent b ≠ -1#11) (hne : unpackExponent b ≠ 0#11)
    (hs : Sign.ofBitVec (unpackSign b) = s) (hm : (1#1 ++ unpackMantissa b).toNat = m)
    (hq : ((unpackExponent b).toNat : Int) - 1075 = q) :
    UnpackedFloat.unpack binary64 b = .finite s m q hpos := by
  subst hs hm hq
  exact (if_neg hexponent).trans (if_neg hne)

/-- With the least exponent all bits of the mantissa are stored. -/
theorem unpack_subnormal (hzero : unpackExponent b = 0#11) (hne : unpackMantissa b ≠ 0#52)
    (hs : Sign.ofBitVec (unpackSign b) = s) (hm : (unpackMantissa b).toNat = m) :
    UnpackedFloat.unpack binary64 b = .finite s m (-1074) hpos := by
  subst hs hm
  have hleast : ((unpackExponent b).toNat : Int) - 1075 + 1 = -1074 := by
    rw [hzero]
    rfl
  have hunpack : UnpackedFloat.unpack binary64 b = .finite (.ofBitVec (unpackSign b))
      (unpackMantissa b).toNat (((unpackExponent b).toNat : Int) - 1075 + 1) hpos :=
    (if_neg (by rw [hzero]; decide)).trans ((if_pos hzero).trans (dif_neg hne))
  exact hunpack.trans (congrArg (UnpackedFloat.finite _ _ · hpos) hleast)

theorem unpack_zero (hzero : unpackExponent b = 0#11) (hm : unpackMantissa b = 0#52) :
    UnpackedFloat.unpack binary64 b = .zero (.ofBitVec (unpackSign b)) :=
  (if_neg (by rw [hzero]; decide)).trans ((if_pos hzero).trans (dif_pos hm))

/-- The greatest exponent is kept for what is no finite number. -/
theorem unpack_special (hexponent : unpackExponent b = -1#11) :
    (UnpackedFloat.unpack binary64 b).isFinite = false := by
  have hunpack : UnpackedFloat.unpack binary64 b = if unpackMantissa b = 0#52 then
      .infinity (.ofBitVec (unpackSign b)) else .notANumber := if_pos hexponent
  rw [hunpack]
  split <;> rfl

end Unpacking

section Normal

variable {s : Sign} {m : Nat} {q : Int} {hpos : 0 < m}

theorem pack_normal (hm : 2 ^ 52 ≤ m) (hm' : m < 2 ^ 53) (hq : -1074 ≤ q) (hq' : q ≤ 971) :
    UnpackedFloat.pack binary64 (.finite s m q hpos)
      = packComponents binary64 s (BitVec.ofNat 11 (q + 1075).toNat) (BitVec.ofNat 52 m) := by
  have hlog : m.log2 = 52 := (Nat.log2_eq_iff (Nat.ne_of_gt hpos)).mpr ⟨hm, hm'⟩
  rw [pack_finite, if_neg (by omega), if_pos (by omega)]

/-- What has a mantissa of full width is unpacked as it was packed. -/
theorem unpack_pack_normal (hm : 2 ^ 52 ≤ m) (hm' : m < 2 ^ 53) (hq : -1074 ≤ q) (hq' : q ≤ 971) :
    UnpackedFloat.unpack binary64 (UnpackedFloat.pack binary64 (.finite s m q hpos))
      = .finite s m q hpos := by
  have hexponent : (BitVec.ofNat 11 (q + 1075).toNat).toNat = (q + 1075).toNat :=
    Nat.mod_eq_of_lt (by omega)
  have hfinite : BitVec.ofNat 11 (q + 1075).toNat ≠ -1#11 := by
    intro heq
    have := congrArg BitVec.toNat heq
    rw [hexponent, show (-1#11).toNat = 2047 from rfl] at this
    omega
  have hnormal : BitVec.ofNat 11 (q + 1075).toNat ≠ 0#11 := by
    intro heq
    have := congrArg BitVec.toNat heq
    rw [hexponent, show (0#11).toNat = 0 from rfl] at this
    omega
  rw [pack_normal hm hm' hq hq']
  refine unpack_normal ?_ ?_ ?_ ?_ ?_
  · rwa [unpackExponent_packComponents]
  · rwa [unpackExponent_packComponents]
  · rw [unpackSign_packed]
    cases s <;> rfl
  · rw [unpackMantissa_packComponents, toNat_implicit hm hm']
  · rw [unpackExponent_packComponents, hexponent]
    omega

end Normal

/-- The bits of a whole number give it back. -/
theorem unpack_pack_stored (h : n < 2 ^ 53) :
    UnpackedFloat.unpack binary64 (UnpackedFloat.pack binary64 (stored n)) = stored n := by
  by_cases hn : n = 0
  · subst hn
    rfl
  have hlog := log2_le hn h
  obtain ⟨hlow, hhigh⟩ := (Nat.log2_eq_iff
    (Nat.mul_ne_zero hn (Nat.ne_of_gt (Nat.two_pow_pos _)))).mp (log2_stored hn h)
  rw [stored_pos hn]
  exact unpack_pack_normal hlow hhigh (by omega) (by omega)

/-! ### Operations on what is stored -/

theorem normalize_shifted (h : n < 2 ^ 53) (t : Nat) :
    UnpackedFloat.normalize binary64 (n * 2 ^ t : Nat) (-t) .positive = stored n := by
  by_cases hn : n = 0
  · simp [hn, UnpackedFloat.normalize, stored_zero]
  have hpos : 0 < n * 2 ^ t := Nat.mul_pos (Nat.pos_of_ne_zero hn) (Nat.two_pow_pos t)
  have hgt : compare ((n * 2 ^ t : Nat) : Int) 0 = .gt := by
    rw [Int.compare_eq_gt]
    exact Int.natCast_pos.mpr hpos
  rw [UnpackedFloat.normalize, hgt]
  exact round_shifted hn h t

theorem decreaseExponent_stored (hn : n ≠ 0) (h : n < 2 ^ 53) {t : Nat} (ht : 52 ≤ t + n.log2) :
    (decreaseExponent (n * 2 ^ (52 - n.log2)) (n.log2 - 52) (-t)).1 = n * 2 ^ t := by
  have hlog := log2_le hn h
  have hshift : 52 - n.log2 + ((n.log2 : Int) - 52 - -t).toNat = t := by omega
  rw [decreaseExponent]
  simp only [Nat.shiftLeft_eq, Nat.mul_assoc, ← Nat.pow_add, hshift]

/-- Numbers are added once they have the same exponent. -/
theorem add_finite {s₁ s₂ : Sign} {m₁ m₂ : Nat} {e₁ e₂ : Int} (h₁ : 0 < m₁) (h₂ : 0 < m₂) :
    add binary64 (.finite s₁ m₁ e₁ h₁) (.finite s₂ m₂ e₂ h₂)
      = UnpackedFloat.normalize binary64
          (s₁.apply (decreaseExponent m₁ e₁ (min e₁ e₂)).1
            + s₂.apply (decreaseExponent m₂ e₂ (min e₁ e₂)).1) (min e₁ e₂) .positive := rfl

/-- A sum is exact. -/
theorem add_stored (h : n + m < 2 ^ 53) : add binary64 (stored n) (stored m) = stored (n + m) := by
  by_cases hn : n = 0
  · subst hn
    rw [Nat.zero_add]
    by_cases hm : m = 0
    · subst hm
      rfl
    · rw [stored_zero, stored_pos hm]
      rfl
  by_cases hm : m = 0
  · subst hm
    rw [Nat.add_zero, stored_zero, stored_pos hn]
    rfl
  have hnlog := log2_le hn (Nat.lt_of_le_of_lt (Nat.le_add_right n m) h)
  have hmlog := log2_le hm (Nat.lt_of_le_of_lt (Nat.le_add_left m n) h)
  let t : Nat := 52 - min n.log2 m.log2
  have hmin : min ((n.log2 : Int) - 52) ((m.log2 : Int) - 52) = -t := by omega
  rw [stored_pos hn, stored_pos hm, add_finite, hmin,
    decreaseExponent_stored hn (by omega) (by omega),
    decreaseExponent_stored hm (by omega) (by omega)]
  have hsum : Sign.apply .positive ((n * 2 ^ t : Nat) : Int)
      + Sign.apply .positive ((m * 2 ^ t : Nat) : Int) = (((n + m) * 2 ^ t : Nat) : Int) := by
    rw [Nat.add_mul, Int.natCast_add]
    rfl
  rw [hsum]
  exact normalize_shifted h t

/-- The greater number has the greater exponent, or the same one and the greater mantissa. -/
theorem compare_shifted (hn : n ≠ 0) (hm : m ≠ 0) :
    (compare ((n.log2 : Int) - 52) ((m.log2 : Int) - 52)).then
      (compare (n * 2 ^ (52 - n.log2)) (m * 2 ^ (52 - m.log2))) = compare n m := by
  rcases Nat.lt_trichotomy n.log2 m.log2 with hlt | heq | hgt
  · have hexponent : compare ((n.log2 : Int) - 52) ((m.log2 : Int) - 52) = .lt :=
      Int.compare_eq_lt.mpr (by omega)
    have hless : n < m := Nat.lt_of_lt_of_le ((Nat.log2_lt hn).mp hlt) (Nat.log2_self_le hm)
    rw [hexponent, Nat.compare_eq_lt.mpr hless]
    rfl
  · have hpos : 0 < 2 ^ (52 - m.log2) := Nat.two_pow_pos _
    rw [heq, Int.compare_eq_eq.mpr rfl, Ordering.eq_then]
    cases hc : compare n m with
    | lt => exact Nat.compare_eq_lt.mpr (Nat.mul_lt_mul_of_pos_right (Nat.compare_eq_lt.mp hc) hpos)
    | eq => rw [Nat.compare_eq_eq.mp hc, Nat.compare_eq_eq]
    | gt => exact Nat.compare_eq_gt.mpr (Nat.mul_lt_mul_of_pos_right (Nat.compare_eq_gt.mp hc) hpos)
  · have hexponent : compare ((n.log2 : Int) - 52) ((m.log2 : Int) - 52) = .gt :=
      Int.compare_eq_gt.mpr (by omega)
    have hmore : m < n := Nat.lt_of_lt_of_le ((Nat.log2_lt hm).mp hgt) (Nat.log2_self_le hn)
    rw [hexponent, Nat.compare_eq_gt.mpr hmore]
    rfl

theorem compare_stored (n m : Nat) : (stored n).compare (stored m) = some (compare n m) := by
  by_cases hn : n = 0
  · subst hn
    by_cases hm : m = 0
    · subst hm
      rfl
    · rw [stored_zero, stored_pos hm, Nat.compare_eq_lt.mpr (Nat.pos_of_ne_zero hm)]
      rfl
  · by_cases hm : m = 0
    · subst hm
      rw [stored_zero, stored_pos hn, Nat.compare_eq_gt.mpr (Nat.pos_of_ne_zero hn)]
      rfl
    · rw [stored_pos hn, stored_pos hm, ← compare_shifted hn hm]
      rfl

/-- A whole number is read back. -/
theorem toInt_stored (h : n < 2 ^ 53) (below above : Int) : (stored n).toInt below above = n := by
  by_cases hn : n = 0
  · subst hn
    rfl
  have hlog := log2_le hn h
  have hcast : ((n.log2 : Int) - 52) = -((52 - n.log2 : Nat) : Int) := by omega
  have hdown : (-((52 - n.log2 : Nat) : Int) - 0).toNat = 0 := by omega
  have hup : (0 - (-((52 - n.log2 : Nat) : Int) - (0 : Nat))).toNat = 52 - n.log2 := by omega
  rw [stored_pos hn]
  show roundToInt .positive _ _ = _
  rw [roundToInt]
  simp only [decreaseExponent, shiftToExponent, hcast, hdown, hup, Nat.shiftLeft_zero,
    ExtendedMantissa.ofMantissaAndAccuracy, shiftRight_zeros]
  rfl

/-! ### Floats -/

/-- The float is a whole number. -/
def Holds (x : Float) (n : Nat) : Prop := x.toModel.unpack = stored n

theorem unpack_pack (h : n < 2 ^ 53) : (Float.Model.pack (stored n)).unpack = stored n :=
  unpack_pack_stored h

namespace Holds

variable {x y : Float}

theorem zero : Holds 0.0 0 := rfl

theorem one : Holds 1.0 1 := rfl

theorem ofNat (h : n < 2 ^ 53) : Holds n.toUInt64.toFloat n := by
  have hsize : n.toUInt64.toNat = n := Nat.mod_eq_of_lt (by omega)
  have hstored : UnpackedFloat.ofUInt64 binary64 n.toUInt64 = stored n := by
    rw [UnpackedFloat.ofUInt64, UnpackedFloat.ofNat, UnpackedFloat.ofInt, hsize]
    simpa using normalize_shifted h 0
  rw [Holds, UInt64.toFloat, Float.Model.ofUInt64, hstored]
  exact unpack_pack h

theorem add (hx : Holds x n) (hy : Holds y m) (h : n + m < 2 ^ 53) : Holds (x + y) (n + m) := by
  have hsum : (x + y).toModel
      = Float.Model.pack (UnpackedFloat.add binary64 x.toModel.unpack y.toModel.unpack) := rfl
  rw [Holds, hsum, hx, hy, add_stored h]
  exact unpack_pack h

theorem le_iff (hx : Holds x n) (hy : Holds y m) : x ≤ y ↔ n ≤ m := by
  have hmodel : x ≤ y ↔ (x.toModel.unpack.compare y.toModel.unpack).any (·.isLE) = true := by
    show x.le y = true ↔ _
    rw [Float.le]
    exact decide_eq_true_iff
  rw [hmodel, hx, hy, compare_stored, Option.any_some, Nat.isLE_compare]

theorem isNaN (hx : Holds x n) : x.isNaN = false := by
  have hmodel : x.isNaN = x.toModel.unpack.isNaN := rfl
  rw [hmodel, hx]
  by_cases hn : n = 0
  · subst hn
    rfl
  · rw [stored_pos hn]
    rfl

theorem toNat (hx : Holds x n) (h : n < 2 ^ 53) : x.toUInt64.toNat = n := by
  have hmodel : x.toUInt64 = x.toModel.unpack.toUInt64 := rfl
  rw [hmodel, hx, UnpackedFloat.toUInt64, toInt_stored h, Int.toNat_natCast, UInt64.ofNatClamp,
    dif_pos (by rw [UInt64.size]; omega)]
  rfl

end Holds

end FlowGraph
