/-
The bits of a finite float.

The bits are a sign, an exponent and a mantissa without its first digit.  What `Binary.ofBits`
reads from them is what the arithmetic of floats unpacks, in the form in which floats are stored
(`unpack_eq`), and nothing is lost on the way there and back (`pack_unpack`, `unpack_pack`).
-/
import FlowGraph.Decimal.Layout
import FlowGraph.Proofs.Decimal.Rounding

namespace FlowGraph.Decimal

open Float.Model Float.Model.UnpackedFloat Float.Model.Format

/-- The sign that the bits of a float say. -/
def signOf (x : Float) : Sign := if isNegative x then .negative else .positive

/-! ### What is read from the bits -/

theorem toNat_unpackMantissa (b : BitVec binary64.numBits) :
    (unpackMantissa b).toNat = b.toNat % 2 ^ 52 := by
  simp [unpackMantissa, BitVec.extractLsb_toNat]

theorem toNat_unpackExponent (b : BitVec binary64.numBits) :
    (unpackExponent b).toNat = b.toNat / 2 ^ 52 % 2 ^ 11 := by
  simp [unpackExponent, BitVec.extractLsb_toNat, Nat.shiftRight_eq_div_pow]

/-- The three parts of the bits make up the bits. -/
theorem packComponents_unpack (b : BitVec binary64.numBits) :
    packComponents binary64 (Sign.ofBitVec (unpackSign b)) (unpackExponent b) (unpackMantissa b)
      = b := by
  have hsign : (Sign.ofBitVec (unpackSign b)).toBitVec = unpackSign b := by
    rcases BitVec.eq_zero_or_eq_one (unpackSign b) with h | h <;> rw [h] <;> rfl
  refine BitVec.eq_of_toNat_eq ?_
  rw [toNat_packComponents, hsign, toNat_unpackSign, toNat_unpackExponent, toNat_unpackMantissa]
  omega

section Parts

variable (x : Float)

theorem ofBitVec_unpackSign :
    Sign.ofBitVec (@unpackSign binary64 x.toBits.toBitVec) = signOf x := by
  have hsign : (@unpackSign binary64 x.toBits.toBitVec).toNat = x.toBits.toNat / 2 ^ 63 :=
    toNat_unpackSign _
  have hshift : (x.toBits >>> 63).toNat = x.toBits.toNat / 2 ^ 63 := by
    simp [Nat.shiftRight_eq_div_pow]
  rw [signOf, isNegative, Sign.ofBitVec]
  by_cases hone : x.toBits >>> 63 = 1
  · rw [hone] at hshift
    rw [if_neg, if_pos (beq_iff_eq.mpr hone)]
    intro hzero
    rw [hzero, ← hshift] at hsign
    exact absurd hsign (by decide)
  · have hnegative : ¬(x.toBits >>> 63 == 1) = true := fun h => hone (beq_iff_eq.mp h)
    rw [if_neg hnegative]
    rcases BitVec.eq_zero_or_eq_one (@unpackSign binary64 x.toBits.toBitVec) with h | h
    · rw [if_pos h]
    · rw [h, ← hshift] at hsign
      exact absurd (UInt64.toNat_inj.mp hsign.symm) hone

theorem toNat_fraction : (x.toBits &&& 0xFFFFFFFFFFFFF).toNat = x.toBits.toNat % 2 ^ 52 := by
  rw [UInt64.toNat_and]
  exact Nat.and_two_pow_sub_one_eq_mod _ 52

theorem toNat_exponent :
    ((x.toBits >>> 52) &&& 0x7FF).toNat = x.toBits.toNat / 2 ^ 52 % 2 ^ 11 := by
  rw [UInt64.toNat_and, UInt64.toNat_shiftRight, Nat.shiftRight_eq_div_pow]
  exact Nat.and_two_pow_sub_one_eq_mod _ 11

end Parts

/-- What the bits of a float stand for, but for their sign. -/
def binaryOf (x : Float) : Binary := .ofBits x.toBits

theorem binaryOf_eq (x : Float) :
    binaryOf x =
      if (@unpackExponent binary64 x.toBits.toBitVec).toNat = 0 then
        ⟨(@unpackMantissa binary64 x.toBits.toBitVec).toNat, -1074, false⟩
      else
        ⟨2 ^ 52 + (@unpackMantissa binary64 x.toBits.toBitVec).toNat,
          ((@unpackExponent binary64 x.toBits.toBitVec).toNat : Int) - 1075,
          (@unpackMantissa binary64 x.toBits.toBitVec).toNat == 0 &&
            1 < (@unpackExponent binary64 x.toBits.toBitVec).toNat⟩ := by
  rw [binaryOf, Binary.ofBits, toNat_unpackExponent, toNat_unpackMantissa]
  simp only [toNat_exponent, toNat_fraction, UInt64.toNat_toBitVec]
  rfl

theorem toNat_implicit_add (m : BitVec 52) : (1#1 ++ m).toNat = 2 ^ 52 + m.toNat := by
  rw [BitVec.toNat_append, ← Nat.shiftLeft_add_eq_or_of_lt m.isLt, Nat.shiftLeft_eq]
  rfl

/-- The greatest exponent is kept for what is no finite number. -/
theorem unpackExponent_ne {x : Float} (hx : x.isFinite) :
    @unpackExponent binary64 x.toBits.toBitVec ≠ -1#11 := by
  intro hexponent
  have hfinite : (UnpackedFloat.unpack binary64 x.toBits.toBitVec).isFinite = true := hx
  exact absurd (hfinite.symm.trans (unpack_special hexponent)) (by decide)

/-- **A finite float is unpacked as its bits are read.** -/
theorem unpack_eq {x : Float} (hx : x.isFinite) :
    (binaryOf x).m = 0 ∧ x.toModel.unpack = .zero (signOf x) ∨
      (binaryOf x).Stored ∧
        ∃ hpos, x.toModel.unpack = .finite (signOf x) (binaryOf x).m (binaryOf x).q hpos := by
  have hmodel : x.toModel.unpack = UnpackedFloat.unpack binary64 x.toBits.toBitVec := rfl
  have hbinary := binaryOf_eq x
  have hexponent := unpackExponent_ne hx
  have hsign := ofBitVec_unpackSign x
  have hwidth : (@unpackMantissa binary64 x.toBits.toBitVec).toNat < 2 ^ 52 := BitVec.isLt _
  have hrange : (@unpackExponent binary64 x.toBits.toBitVec).toNat < 2048 := BitVec.isLt _
  have hless : (@unpackExponent binary64 x.toBits.toBitVec).toNat ≠ 2047 := fun h =>
    hexponent (BitVec.eq_of_toNat_eq h)
  rw [hmodel]
  by_cases hzero : @unpackExponent binary64 x.toBits.toBitVec = 0#11
  · rw [hzero, if_pos (show (0#11).toNat = 0 from rfl)] at hbinary
    rw [hbinary]
    by_cases hm : @unpackMantissa binary64 x.toBits.toBitVec = 0#52
    · rw [unpack_zero hzero hm, hsign]
      exact Or.inl ⟨congrArg BitVec.toNat hm, rfl⟩
    · have hpos := BitVec.toNat_pos_of_ne_zero hm
      refine Or.inr ⟨⟨⟨hpos, ?_, le_refl _, Or.inr rfl, ?_⟩, by norm_num⟩, hpos,
        unpack_subnormal hzero hm hsign rfl⟩
      · exact hwidth.trans (by norm_num)
      · simp
  · have hne : (@unpackExponent binary64 x.toBits.toBitVec).toNat ≠ 0 := fun h =>
      hzero (BitVec.eq_of_toNat_eq h)
    rw [if_neg hne] at hbinary
    rw [hbinary]
    refine Or.inr ⟨⟨⟨by simp, ?_, ?_, Or.inl (by simp), ?_⟩, ?_⟩, by simp,
      unpack_normal hexponent hzero hsign (toNat_implicit_add _) rfl⟩
    · show 2 ^ 52 + _ < 2 ^ 53
      omega
    · dsimp only
      omega
    · simp only [Bool.and_eq_true, beq_iff_eq, decide_eq_true_eq]
      omega
    · dsimp only
      omega

/-! ### There and back -/

section Packing

variable {s : Sign} {m : Nat} {q : Int} {hpos : 0 < m}

theorem pack_subnormal (hm : m < 2 ^ 52) :
    UnpackedFloat.pack binary64 (.finite s m (-1074) hpos)
      = packComponents binary64 s 0#11 (BitVec.ofNat 52 m) := by
  have hlog := (Nat.log2_lt hpos.ne').mpr hm
  rw [pack_finite, if_neg (by decide), if_neg (by omega)]

/-- The bits of a finite float are those that its parts are packed into. -/
theorem pack_unpack_bits {b : BitVec binary64.numBits} (hb : unpackExponent b ≠ -1#11) :
    UnpackedFloat.pack binary64 (UnpackedFloat.unpack binary64 b) = b := by
  have hparts := packComponents_unpack b
  have hwidth : (unpackMantissa b).toNat < 2 ^ 52 := BitVec.isLt _
  have hrange : (unpackExponent b).toNat < 2048 := BitVec.isLt _
  have hless : (unpackExponent b).toNat ≠ 2047 := fun h => hb (BitVec.eq_of_toNat_eq h)
  by_cases hzero : unpackExponent b = 0#11
  · rw [hzero] at hparts
    by_cases hm : unpackMantissa b = 0#52
    · rw [hm] at hparts
      rw [unpack_zero hzero hm]
      exact hparts
    · have hpos := BitVec.toNat_pos_of_ne_zero hm
      have hunpack : UnpackedFloat.unpack binary64 b = .finite (.ofBitVec (unpackSign b))
          (unpackMantissa b).toNat (-1074) hpos := unpack_subnormal hzero hm rfl rfl
      rw [hunpack, pack_subnormal hwidth, BitVec.ofNat_toNat, BitVec.setWidth_eq]
      exact hparts
  · have hne : (unpackExponent b).toNat ≠ 0 := fun h => hzero (BitVec.eq_of_toNat_eq h)
    have hexponent : BitVec.ofNat 11 (((unpackExponent b).toNat : Int) - 1075 + 1075).toNat
        = unpackExponent b := by
      refine BitVec.eq_of_toNat_eq ?_
      rw [BitVec.toNat_ofNat]
      omega
    have hmantissa : BitVec.ofNat 52 (2 ^ 52 + (unpackMantissa b).toNat) = unpackMantissa b := by
      refine BitVec.eq_of_toNat_eq ?_
      rw [BitVec.toNat_ofNat]
      omega
    have hunpack : UnpackedFloat.unpack binary64 b = .finite (.ofBitVec (unpackSign b))
        (2 ^ 52 + (unpackMantissa b).toNat) ((unpackExponent b).toNat - 1075)
        (Nat.add_pos_left (Nat.two_pow_pos 52) _) :=
      unpack_normal hb hzero rfl (toNat_implicit_add _) rfl
    rw [hunpack, pack_normal (by omega) (by omega) (by omega) (by omega), hexponent, hmantissa]
    exact hparts

theorem pack_unpack {x : Float} (hx : x.isFinite) :
    Float.Model.pack x.toModel.unpack = x.toModel := by
  have hbits : (Float.Model.pack x.toModel.unpack).toBits = x.toModel.toBits :=
    congrArg UInt64.ofBitVec (pack_unpack_bits (unpackExponent_ne hx))
  rcases x with ⟨⟨bits, hvalid⟩⟩
  generalize Float.Model.pack _ = model at hbits ⊢
  cases model
  cases hbits
  rfl

/-- What is stored is unpacked as it was packed. -/
theorem unpack_pack_finite {b : Binary} (hb : b.Stored) (s : Sign) :
    (Float.Model.pack (.finite s b.m b.q hb.pos)).unpack = .finite s b.m b.q hb.pos := by
  show UnpackedFloat.unpack binary64 (UnpackedFloat.pack binary64 _) = _
  have hwidth := hb.width
  by_cases hnormal : 2 ^ 52 ≤ b.m
  · exact unpack_pack_normal hnormal hwidth hb.least hb.greatest
  · have hq : b.q = -1074 := hb.full.resolve_left hnormal
    have hmantissa : (BitVec.ofNat 52 b.m).toNat = b.m := Nat.mod_eq_of_lt (by omega)
    have hne : BitVec.ofNat 52 b.m ≠ 0#52 := by
      intro heq
      have := congrArg BitVec.toNat heq
      rw [hmantissa] at this
      exact hb.pos.ne' this
    rw [hq, pack_subnormal (by omega)]
    refine unpack_subnormal ?_ ?_ ?_ ?_
    · rw [unpackExponent_packComponents]
    · rwa [unpackMantissa_packComponents]
    · rw [unpackSign_packed]
      cases s <;> rfl
    · rw [unpackMantissa_packComponents, hmantissa]

end Packing

/-- The float that is stored in this form, with a positive sign. -/
def Binary.toFloat (b : Binary) (hb : b.Stored) : Float :=
  .ofModel (Float.Model.pack (.finite .positive b.m b.q hb.pos))

/-- **A finite float is its magnitude with its sign.** -/
theorem signed_toFloat {x : Float} (hx : x.isFinite) (hb : (binaryOf x).Stored) :
    (if isNegative x then -(binaryOf x).toFloat hb else (binaryOf x).toFloat hb) = x := by
  have hpack := pack_unpack hx
  have hunpack : x.toModel.unpack = .finite (signOf x) (binaryOf x).m (binaryOf x).q hb.pos := by
    rcases unpack_eq hx with ⟨hzero, -⟩ | ⟨-, hpos, hfinite⟩
    · exact absurd hzero hb.pos.ne'
    · exact hfinite
  rw [hunpack, signOf] at hpack
  split
  · rename_i hnegative
    rw [if_pos hnegative] at hpack
    have hneg : (-(binaryOf x).toFloat hb).toModel = Float.Model.pack
        (Float.Model.pack (.finite .positive (binaryOf x).m (binaryOf x).q hb.pos)).unpack.neg :=
      rfl
    rw [unpack_pack_finite hb] at hneg
    exact congrArg Float.ofModel (hneg.trans hpack)
  · rename_i hpositive
    rw [if_neg hpositive] at hpack
    exact congrArg Float.ofModel hpack

/-- The negative of a finite float is finite. -/
theorem isFinite_neg {x : Float} (hx : x.isFinite) : (-x).isFinite = true := by
  have hneg : (-x).isFinite = (Float.Model.pack x.toModel.unpack.neg).unpack.isFinite := rfl
  rw [hneg]
  rcases unpack_eq hx with ⟨-, hzero⟩ | ⟨hb, _, hfinite⟩
  · rw [hzero]
    cases signOf x <;> rfl
  · rw [hfinite]
    exact congrArg UnpackedFloat.isFinite (unpack_pack_finite hb _)

/-- Zero has two signs. -/
theorem signed_zero {x : Float} (hx : x.isFinite) (hzero : (binaryOf x).m = 0) :
    (if isNegative x then -(0.0 : Float) else 0.0) = x := by
  have hpack := pack_unpack hx
  have hunpack : x.toModel.unpack = .zero (signOf x) := by
    rcases unpack_eq hx with ⟨-, hunpack⟩ | ⟨hb, -⟩
    · exact hunpack
    · exact absurd hzero hb.pos.ne'
  rw [hunpack, signOf] at hpack
  split
  · rename_i hnegative
    rw [if_pos hnegative] at hpack
    exact congrArg Float.ofModel hpack
  · rename_i hpositive
    rw [if_neg hpositive] at hpack
    exact congrArg Float.ofModel hpack

end FlowGraph.Decimal
