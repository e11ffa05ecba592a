/-
A float and a positive step.

A sum of finite floats is rounded, and rounding keeps the order: a step upward leads to no less than
where it began, or beyond all floats (`add_upward`).  It need not lead on, though.  A step that is
smaller than half the way to the next float is rounded off, and one that is just half of it may be.

That cannot happen where a float is less than `2 ^ 53` times the step.  Below zero the bound may be
reached: the next float above the negative of a power of two is only half as far away as the next
one below it (`add_onward`).  So a step never leads from one zero to the other one, and what it does
not lead on from stays as it is (`add_eq_self`).

Every finite float is a multiple of the least one (`exists_units`), so there are only finitely many
between any two of them.
-/
import FlowGraph.Proofs.Decimal.Values

namespace FlowGraph.Decimal

open Float.Model Float.Model.UnpackedFloat Float.Model.Format Json

variable {x y : Float} {b : Binary} {s : Sign} {v : ℚ}

/-! ### Units -/

theorem Binary.Wide.exists_units (hb : b.Wide) : ∃ i : ℤ, b.value = i * 2 ^ (-1074 : ℤ) := by
  have hstay : (2 : ℚ) ^ b.q = 2 ^ (b.q + 1074).toNat * 2 ^ (-1074 : ℤ) := by
    rw [← zpow_natCast, ← zpow_add₀ (by norm_num)]
    congr 1
    have := hb.least
    omega
  refine ⟨b.m * 2 ^ (b.q + 1074).toNat, ?_⟩
  rw [Binary.value, hstay, ← mul_assoc, Int.cast_mul, Int.cast_natCast, Int.cast_pow,
    Int.cast_ofNat]

/-- A finite float is a multiple of the least positive one. -/
theorem exists_units (hx : x.isFinite) : ∃ i : ℤ, value x = i * 2 ^ (-1074 : ℤ) := by
  rcases unpack_cases hx with ⟨s, hzero⟩ | ⟨s, b, hb, hfinite⟩
  · refine ⟨0, ?_⟩
    rw [(isInt_of_zero hzero).eq, Int.cast_zero, zero_mul]
  · obtain ⟨i, hi⟩ := hb.exists_units
    rw [value_of_unpack hb hfinite, hi]
    cases s with
    | positive => exact ⟨i, rfl⟩
    | negative => exact ⟨-i, by rw [signed, Int.cast_neg, neg_mul]⟩

/-- What is above zero is no less than a unit. -/
theorem unit_le {i : ℤ} (h : v = i * 2 ^ (-1074 : ℤ)) (hv : 0 < v) : (2 : ℚ) ^ (-1074 : ℤ) ≤ v := by
  have hunit : (0 : ℚ) < 2 ^ (-1074 : ℤ) := zpow_pos (by norm_num) _
  rw [h, mul_pos_iff_of_pos_right hunit] at hv
  have hi : 1 ≤ i := by exact_mod_cast hv
  rw [h]
  exact le_mul_of_one_le_left hunit.le (by exact_mod_cast hi)

/-- Floats that are not equal are a unit apart, or more. -/
theorem unit_le_sub (hx : x.isFinite) (hy : y.isFinite) (h : value x < value y) :
    (2 : ℚ) ^ (-1074 : ℤ) ≤ value y - value x := by
  obtain ⟨i, hi⟩ := exists_units hx
  obtain ⟨j, hj⟩ := exists_units hy
  have hdiff : value y - value x = (j - i : ℤ) * 2 ^ (-1074 : ℤ) := by
    rw [hi, hj, ← sub_mul, ← Int.cast_sub]
  exact unit_le hdiff (sub_pos.mpr h)

/-! ### Sums -/

/-- What has too great an exponent is no float. -/
theorem unpack_pack_infinite {m : Nat} {q : Int} {hm : 0 < m} (hq : 971 < q) (s : Sign) :
    (Float.Model.pack (.finite s m q hm)).unpack = .infinity s := by
  show UnpackedFloat.unpack binary64 (UnpackedFloat.pack binary64 _) = _
  rw [pack_finite, if_pos (by omega)]
  cases s <;> rfl

/-- **A sum other than zero is rounded**, to a float or beyond all of them. -/
theorem exists_add_reaches (hx : x.isFinite) (hy : y.isFinite) (hsum : value x + value y ≠ 0) :
    ∃ s, ∃ b : Binary, ∃ hb : b.Wide, b.Reaches (signed s (value x + value y)) ∧
      ((b.q ≤ 971 ∧ (x + y).toModel.unpack = .finite s b.m b.q hb.pos) ∨
        (971 < b.q ∧ (x + y).toModel.unpack = .infinity s)) := by
  obtain ⟨s, hpos⟩ : ∃ s, 0 < signed s (value x + value y) := by
    rcases lt_or_gt_of_ne hsum with hlt | hgt
    · exact ⟨.negative, neg_pos.mpr hlt⟩
    · exact ⟨.positive, hgt⟩
  obtain ⟨i, hi⟩ := exists_units hx
  obtain ⟨j, hj⟩ := exists_units hy
  have hunits : signed s (value x + value y) = (s.apply (i + j) : ℤ) * 2 ^ (-1074 : ℤ) := by
    rw [hi, hj, ← add_mul, ← Int.cast_add]
    cases s with
    | positive => rfl
    | negative => rw [signed, Sign.apply, Int.cast_neg, neg_mul]
  obtain ⟨b, hb, hreach⟩ := exists_reaching (unit_le hunits hpos)
  refine ⟨s, b, hb, hreach, ?_⟩
  rcases le_or_gt b.q 971 with hq | hq
  · exact Or.inl ⟨hq, add_reaches hx hy ⟨hb, hq⟩ hreach⟩
  · refine Or.inr ⟨hq, ?_⟩
    rcases add_eq_normalize hx hy with ⟨t, -, hzero⟩ | ⟨i, e, hvalue, hmodel⟩
    · exact absurd hzero hsum
    · rw [hvalue] at hreach
      rw [hmodel, normalize_reaches hb hreach]
      exact unpack_pack_infinite hq s

/-- A finite float that is positive is a magnitude. -/
theorem exists_stored_of_pos (hx : x.isFinite) (hpos : 0 < signed s (value x)) :
    ∃ b : Binary, b.Stored ∧ signed s (value x) = b.value := by
  rcases unpack_cases hx with ⟨t, hzero⟩ | ⟨t, b, hb, hfinite⟩
  · rw [(isInt_of_zero hzero).eq] at hpos
    cases s <;> norm_num [signed] at hpos
  · have hvalue := hb.value_pos
    rw [value_of_unpack hb hfinite] at hpos ⊢
    refine ⟨b, hb, ?_⟩
    cases s <;> cases t <;> simp only [signed, neg_neg] at hpos ⊢ <;> linarith

/-- **A step upward leads to no less**, or beyond all floats. -/
theorem add_upward (hx : x.isFinite) (hy : y.isFinite) (hpos : 0 < value y) :
    (x + y).toModel.unpack = .infinity .positive ∨
      (x + y).isFinite = true ∧ value x ≤ value (x + y) := by
  by_cases hsum : value x + value y = 0
  · obtain ⟨s, hzero⟩ := add_cancel hx hy hsum
    have hint := isInt_of_zero hzero
    refine Or.inr ⟨hint.finite, ?_⟩
    rw [hint.eq, Int.cast_zero]
    linarith
  · obtain ⟨s, b, hb, hreach, hunpack⟩ := exists_add_reaches hx hy hsum
    have hmagnitude := hb.value_pos
    have hsign : 0 < signed s (value x + value y) := by
      have := hreach.half_le hb
      have : 0 < signed s (value x + value y) / 2 ^ b.q := by linarith
      exact (div_pos_iff_of_pos_right (zpow_pos (by norm_num) _)).mp this
    cases s with
    | positive =>
        rcases hunpack with ⟨hq, hunpack⟩ | ⟨-, hunpack⟩
        · refine Or.inr ⟨isFinite_of_unpack hunpack, ?_⟩
          rw [value_of_unpack ⟨hb, hq⟩ hunpack, signed]
          rcases le_or_gt (value x) 0 with hle | hgt
          · linarith
          · obtain ⟨first, hfirst, hvalue⟩ := exists_stored_of_pos (s := .positive) hx hgt
            rw [signed] at hvalue hreach
            rw [hvalue]
            exact hreach.le_value hb hfirst.toWide (by linarith)
        · exact Or.inl hunpack
    | negative =>
        -- The sum is nearer to zero than where the step began, so it is a float.
        rw [signed] at hsign
        obtain ⟨first, hfirst, hvalue⟩ :=
          exists_stored_of_pos (x := x) (s := .negative) hx (by rw [signed]; linarith)
        rw [signed] at hvalue hreach
        have hle : b.value ≤ first.value := hreach.value_le hb hfirst.toWide (by linarith)
        have hq : b.q ≤ 971 := by
          by_contra hgt
          have hless := hfirst.toWide.value_lt hb (by have := hfirst.greatest; omega)
          linarith
        have hunpack := (hunpack.resolve_right fun h => absurd h.1 (not_lt.mpr hq)).2
        refine Or.inr ⟨isFinite_of_unpack hunpack, ?_⟩
        rw [value_of_unpack ⟨hb, hq⟩ hunpack, signed]
        linarith

/-- Where a unit is less than the last place, all 53 bits are taken up. -/
theorem Binary.Wide.full_of_unit (hb : b.Wide) (hv : (2 : ℚ) ^ (-1074 : ℤ) ≤ v)
    (hhalf : v ≤ 1 / 2 * 2 ^ b.q) : -1074 < b.q ∧ (2 : ℚ) ^ 52 ≤ b.m := by
  have hunit : (0 : ℚ) < 2 ^ b.q := zpow_pos (by norm_num) _
  have hleast : b.q ≠ -1074 := fun hq => by
    rw [hq] at hhalf hunit
    linarith
  exact ⟨lt_of_le_of_ne hb.least hleast.symm, by exact_mod_cast hb.full.resolve_right hleast⟩

/-- What is added to a magnitude and rounded off is small against it. -/
theorem Binary.Wide.le_of_rounded_up (hb : b.Wide) (hv : (2 : ℚ) ^ (-1074 : ℤ) ≤ v)
    (h : b.Reaches (b.value + v)) : 2 ^ 53 * v ≤ b.value := by
  have hunit : (0 : ℚ) < 2 ^ b.q := zpow_pos (by norm_num) _
  have hhalf : v ≤ 1 / 2 * 2 ^ b.q := by
    have hle := h.le_high
    rw [div_le_iff₀ hunit, add_mul] at hle
    exact le_of_add_le_add_left hle
  obtain ⟨-, hfull⟩ := hb.full_of_unit hv hhalf
  calc 2 ^ 53 * v ≤ 2 ^ 53 * (1 / 2 * 2 ^ b.q) := mul_le_mul_of_nonneg_left hhalf (by positivity)
    _ = 2 ^ 52 * 2 ^ b.q := by ring
    _ ≤ b.value := mul_le_mul_of_nonneg_right hfull hunit.le

/-- What is taken from a magnitude and rounded off is smaller than that, because the next float is
closer below a power of two. -/
theorem Binary.Wide.lt_of_rounded_down (hb : b.Wide) (hv : (2 : ℚ) ^ (-1074 : ℤ) ≤ v)
    (h : b.Reaches (b.value - v)) : 2 ^ 53 * v < b.value := by
  have hunit : (0 : ℚ) < 2 ^ b.q := zpow_pos (by norm_num) _
  have hgap : v ≤ (b.m - b.low) * 2 ^ b.q := by
    have hle := h.low_le
    rw [le_div_iff₀ hunit, Binary.value] at hle
    linarith
  have hhalf : v ≤ 1 / 2 * 2 ^ b.q :=
    hgap.trans (mul_le_mul_of_nonneg_right (by linarith [b.le_low]) hunit.le)
  obtain ⟨hleast, hfull⟩ := hb.full_of_unit hv hhalf
  rw [Binary.low] at hgap
  split at hgap
  · calc 2 ^ 53 * v ≤ 2 ^ 53 * ((b.m - (b.m - 1 / 4)) * 2 ^ b.q) :=
          mul_le_mul_of_nonneg_left hgap (by positivity)
      _ = 2 ^ 51 * 2 ^ b.q := by ring
      _ < 2 ^ 52 * 2 ^ b.q := mul_lt_mul_of_pos_right (by norm_num) hunit
      _ ≤ b.value := mul_le_mul_of_nonneg_right hfull hunit.le
  · rename_i hwide
    have hne : b.m ≠ 2 ^ 52 := fun hm => hwide (hb.narrow.mpr ⟨hm, hleast⟩)
    have hmore : (2 : ℚ) ^ 52 < b.m := lt_of_le_of_ne hfull (by exact_mod_cast hne.symm)
    calc 2 ^ 53 * v ≤ 2 ^ 53 * (1 / 2 * 2 ^ b.q) := mul_le_mul_of_nonneg_left hhalf (by positivity)
      _ = 2 ^ 52 * 2 ^ b.q := by ring
      _ < b.value := mul_lt_mul_of_pos_right hmore hunit

/-- **A step leads on** from a float that is less than `2 ^ 53` times the step. -/
theorem add_onward (hx : x.isFinite) (hy : y.isFinite) (hpos : 0 < value y)
    (hlow : -(2 ^ 53 * value y) ≤ value x) (hhigh : value x < 2 ^ 53 * value y) :
    (x + y).isFinite = true → value (x + y) ≠ value x := by
  intro hfinite heq
  by_cases hsum : value x + value y = 0
  · obtain ⟨s, hzero⟩ := add_cancel hx hy hsum
    rw [(isInt_of_zero hzero).eq, Int.cast_zero] at heq
    linarith
  obtain ⟨i, hi⟩ := exists_units hy
  have hunit := unit_le hi hpos
  obtain ⟨s, b, hb, hreach, ⟨hq, hunpack⟩ | ⟨-, hunpack⟩⟩ := exists_add_reaches hx hy hsum
  · have hvalue := heq.symm.trans (value_of_unpack ⟨hb, hq⟩ hunpack)
    cases s with
    | positive =>
        rw [signed] at hvalue hreach
        rw [hvalue] at hreach
        linarith [hb.le_of_rounded_up hunit hreach]
    | negative =>
        rw [signed] at hvalue hreach
        rw [hvalue, neg_add, neg_neg, ← sub_eq_add_neg] at hreach
        linarith [hb.lt_of_rounded_down hunit hreach]
  · have hmodel : (x + y).isFinite = (x + y).toModel.unpack.isFinite := rfl
    rw [hmodel, hunpack] at hfinite
    exact absurd hfinite Bool.false_ne_true

/-- Where a step does not lead on, it changes nothing: the two zeros are a step apart. -/
theorem add_eq_self (hx : x.isFinite) (hy : y.isFinite) (hpos : 0 < value y)
    (hfinite : (x + y).isFinite) (hsame : value (x + y) = value x) : x + y = x := by
  have horder : floatOrder (x + y) x = some .eq := by
    have hbeq := (beq_iff_value hfinite hx).mpr hsame
    rwa [beq_eq_floatOrder, beq_iff_eq] at hbeq
  have hleads (hzero : IsInt x 0) : False := by
    have hvalue : value x = 0 := by rw [hzero.eq, Int.cast_zero]
    exact add_onward hx hy hpos (by linarith) (by linarith) hfinite hsame
  rcases eq_of_floatOrder hfinite hx horder with heq | ⟨-, rfl⟩ | ⟨-, rfl⟩
  · exact heq
  · exact (hleads (isInt_of_zero (s := .negative) rfl)).elim
  · exact (hleads isInt_zero).elim

end FlowGraph.Decimal
