/-
The numbers that floats are.

A finite float is a rational, its mantissa in units of its last place with its sign.  No number is
stored in two forms but for the signs of zero, so to compare floats is to compare their numbers
(`compare_value`).  A sum is exact first and is then rounded (`add_reaches`).

Whatever is not too small is rounded to a magnitude of 53 bits at most (`exists_reaching`), and
rounding keeps the order: a number on one side of a float is not rounded to the other side
(`Reaches.le_value`, `Reaches.value_le`).

Integers up to `2 ^ 53` are floats, so what is computed among them is exact: `IsInt` says of a float
which integer it is.  Beyond that numbers are rounded, but none to less than `2 ^ 53`
(`exists_nearest`).
-/
import FlowGraph.Proofs.Decimal.Integers
import FlowGraph.Proofs.Decimal.Order
import Mathlib.Algebra.Order.Field.Power
import Mathlib.Data.Int.Log

namespace FlowGraph.Decimal

open Float.Model Float.Model.UnpackedFloat Float.Model.Format

/-! ### Values -/

/-- A number with a sign. -/
def signed : Sign → ℚ → ℚ
  | .positive, v => v
  | .negative, v => -v

/-- The number that an unpacked float is, or zero. -/
def unpackedValue : UnpackedFloat → ℚ
  | .finite s m e _ => signed s (m * 2 ^ e)
  | _ => 0

theorem unpackedValue_zero (s : Sign) : unpackedValue (.zero s) = 0 := rfl

theorem unpackedValue_finite {s : Sign} {m : Nat} {e : Int} (hm : 0 < m) :
    unpackedValue (.finite s m e hm) = signed s (m * 2 ^ e) := rfl

/-- The number that a finite float is. -/
def value (x : Float) : ℚ := unpackedValue x.toModel.unpack

/-- The number that a magnitude is. -/
def Binary.value (b : Binary) : ℚ := b.m * 2 ^ b.q

variable {x y : Float} {b b' : Binary} {s : Sign} {v : ℚ} {m k n : Nat} {e : Int}

theorem signed_signed (s : Sign) (v : ℚ) : signed s (signed s v) = v := by
  cases s with
  | positive => rfl
  | negative => exact neg_neg v

theorem signed_eq_apply (s : Sign) (m : Nat) (v : ℚ) : signed s (m * v) = (s.apply m : ℤ) * v := by
  cases s with
  | positive => rfl
  | negative =>
      rw [signed, Sign.apply, Int.cast_neg, Int.cast_natCast, neg_mul]

theorem Binary.Wide.value_pos (hb : b.Wide) : 0 < b.value := by
  have hm : (0 : ℚ) < b.m := by exact_mod_cast hb.pos
  exact mul_pos hm (zpow_pos (by norm_num) _)

/-- A finite float is a zero, or a magnitude with a sign. -/
theorem unpack_cases (hx : x.isFinite) :
    (∃ s, x.toModel.unpack = .zero s) ∨
      ∃ s, ∃ b : Binary, ∃ hb : b.Stored, x.toModel.unpack = .finite s b.m b.q hb.pos := by
  rcases unpack_eq hx with ⟨-, hzero⟩ | ⟨hb, _, hfinite⟩
  · exact Or.inl ⟨_, hzero⟩
  · exact Or.inr ⟨_, _, hb, hfinite⟩

theorem isFinite_of_unpack {hm : 0 < m} (h : x.toModel.unpack = .finite s m e hm) :
    x.isFinite = true :=
  congrArg UnpackedFloat.isFinite h

theorem isNaN_of_isFinite (hx : x.isFinite) : x.isNaN = false := by
  have hmodel : x.isNaN = x.toModel.unpack.isNaN := rfl
  rw [hmodel]
  rcases unpack_cases hx with ⟨s, h⟩ | ⟨s, b, hb, h⟩ <;> rw [h] <;> rfl

theorem value_of_unpack (hb : b.Stored) (h : x.toModel.unpack = .finite s b.m b.q hb.pos) :
    value x = signed s b.value := by
  rw [value, h]
  rfl

/-! ### Comparing -/

/-- Of two exponents the greater one makes the greater number. -/
theorem Binary.Wide.value_lt (hb : b.Wide) (hb' : b'.Wide) (hq : b.q < b'.q) :
    b.value < b'.value := by
  have hfull : 2 ^ 52 ≤ b'.m := hb'.full.resolve_right (by have := hb.least; omega)
  have hwidth : (b.m : ℚ) < 2 ^ 53 := by exact_mod_cast hb.width
  have hfull' : (2 : ℚ) ^ 52 ≤ b'.m := by exact_mod_cast hfull
  calc b.value < 2 ^ 53 * 2 ^ b.q :=
        mul_lt_mul_of_pos_right hwidth (zpow_pos (by norm_num) _)
    _ = 2 ^ 52 * 2 ^ (b.q + 1) := by
        rw [zpow_add_one₀ (by norm_num)]
        ring
    _ ≤ 2 ^ 52 * 2 ^ b'.q :=
        mul_le_mul_of_nonneg_left (zpow_le_zpow_right₀ (by norm_num) hq) (by positivity)
    _ ≤ b'.value := mul_le_mul_of_nonneg_right hfull' (by positivity)

theorem Binary.Wide.compare_eq (hb : b.Wide) (hb' : b'.Wide) :
    (compare b.q b'.q).then (compare b.m b'.m) = cmp b.value b'.value := by
  rcases lt_trichotomy b.q b'.q with hlt | heq | hgt
  · rw [Int.compare_eq_lt.mpr hlt, (cmp_eq_lt_iff _ _).mpr (hb.value_lt hb' hlt)]
    rfl
  · have hunit : (0 : ℚ) < 2 ^ b'.q := zpow_pos (by norm_num) _
    rw [value, value, heq, Int.compare_eq_eq.mpr rfl, Ordering.eq_then, cmp_mul_pos_right hunit,
      Nat.strictMono_cast.cmp_map_eq, cmp_eq_compare]
  · rw [Int.compare_eq_gt.mpr hgt, (cmp_eq_gt_iff _ _).mpr (hb'.value_lt hb hgt)]
    rfl

theorem cmp_neg_swap (v w : ℚ) : cmp (-v) (-w) = (cmp v w).swap := by
  rw [cmp_swap]
  rcases lt_trichotomy v w with h | h | h
  · rw [(cmp_eq_gt_iff _ _).mpr (neg_lt_neg h), (cmp_eq_gt_iff _ _).mpr h]
  · rw [h, cmp_self_eq_eq, cmp_self_eq_eq]
  · rw [(cmp_eq_lt_iff _ _).mpr (neg_lt_neg h), (cmp_eq_lt_iff _ _).mpr h]

/-- **To compare finite floats is to compare their numbers.** -/
theorem compare_value (hx : x.isFinite) (hy : y.isFinite) :
    x.toModel.unpack.compare y.toModel.unpack = some (cmp (value x) (value y)) := by
  rw [value, value]
  rcases unpack_cases hx with ⟨s, hx⟩ | ⟨s, b, hb, hx⟩ <;>
    rcases unpack_cases hy with ⟨t, hy⟩ | ⟨t, b', hb', hy⟩ <;> rw [hx, hy]
  · exact congrArg some (cmp_self_eq_eq (0 : ℚ)).symm
  · have hpos := hb'.value_pos
    cases t with
    | positive => exact congrArg some ((cmp_eq_lt_iff _ _).mpr hpos).symm
    | negative => exact congrArg some ((cmp_eq_gt_iff _ _).mpr (neg_lt_zero.mpr hpos)).symm
  · have hpos := hb.value_pos
    cases s with
    | positive => exact congrArg some ((cmp_eq_gt_iff _ _).mpr hpos).symm
    | negative => exact congrArg some ((cmp_eq_lt_iff _ _).mpr (neg_lt_zero.mpr hpos)).symm
  · have hpos := hb.value_pos
    have hpos' := hb'.value_pos
    have hmagnitudes := hb.compare_eq hb'.toWide
    cases s <;> cases t
    case negative.negative =>
      refine congrArg some ?_
      rw [hmagnitudes]
      exact (cmp_neg_swap _ _).symm
    case negative.positive =>
      exact congrArg some ((cmp_eq_lt_iff _ _).mpr ((neg_lt_zero.mpr hpos).trans hpos')).symm
    case positive.negative =>
      exact congrArg some ((cmp_eq_gt_iff _ _).mpr ((neg_lt_zero.mpr hpos').trans hpos)).symm
    case positive.positive => exact congrArg some hmagnitudes

theorem beq_iff_value (hx : x.isFinite) (hy : y.isFinite) :
    (x == y) = true ↔ value x = value y := by
  rw [beq_iff_compare, compare_value hx hy, Option.some_inj, cmp_eq_eq_iff]

theorem lt_iff_value (hx : x.isFinite) (hy : y.isFinite) : x < y ↔ value x < value y := by
  rw [lt_iff_compare, compare_value hx hy, Option.some_inj, cmp_eq_lt_iff]

theorem le_iff_value (hx : x.isFinite) (hy : y.isFinite) : x ≤ y ↔ value x ≤ value y := by
  rw [le_iff_compare, compare_value hx hy, Option.any_some, ← not_lt, ← cmp_eq_gt_iff]
  cases cmp (value x) (value y) <;> decide

/-! ### Rounding -/

/-- A number that a float reaches is rounded to it. -/
theorem round_reaches (hb : b.Wide) (hm : m ≠ 0) (h : b.Reaches (m * 2 ^ e)) (s : Sign) :
    UnpackedFloat.round binary64 s m e = .finite s b.m b.q hb.pos := by
  let k : Nat := (e - binary64.targetExponent (totalExponent m e)).toNat
  have hround : UnpackedFloat.round binary64 s m e
      = roundWithAccuracy binary64 s (m <<< k) (e - k) .exact := rfl
  have hunit : (2 : ℚ) ^ (e - k) ≠ 0 := (zpow_pos (by norm_num) _).ne'
  have hexact : (m : ℚ) * 2 ^ e / 2 ^ (e - k) = (m <<< k : Nat) := by
    rw [div_eq_iff hunit, Nat.shiftLeft_eq]
    push_cast
    rw [mul_assoc, ← zpow_natCast, ← zpow_add₀ (by norm_num), add_sub_cancel]
  have htotal : totalExponent (m <<< k) (e - k) = totalExponent m e := by
    rw [totalExponent, totalExponent, Nat.shiftLeft_eq, log2_mul_two_pow hm]
    omega
  rw [hround]
  refine roundWithAccuracy_eq hb h s ?_ ?_
  · rw [hexact]
    exact Represents.exact _
  · rw [htotal]
    omega

theorem normalize_reaches {i : ℤ} (hb : b.Wide) (h : b.Reaches (signed s (i * 2 ^ e)))
    (zero : Sign) : UnpackedFloat.normalize binary64 i e zero = .finite s b.m b.q hb.pos := by
  have hunit : (0 : ℚ) < 2 ^ e := zpow_pos (by norm_num) _
  have hpos : 0 < signed s (i * 2 ^ e) := by
    have := h.half_le hb
    have : 0 < signed s (i * 2 ^ e) / 2 ^ b.q := by linarith
    exact (div_pos_iff_of_pos_right (zpow_pos (by norm_num) _)).mp this
  rw [UnpackedFloat.normalize]
  cases s with
  | positive =>
      have hi : 0 < i := by exact_mod_cast (mul_pos_iff_of_pos_right hunit).mp hpos
      obtain ⟨m, rfl⟩ := Int.eq_ofNat_of_zero_le hi.le
      rw [Int.compare_eq_gt.mpr hi]
      exact round_reaches hb (by omega) h .positive
  | negative =>
      have hi : i < 0 := by
        have : (0 : ℚ) < (-i : ℤ) * 2 ^ e := by
          rw [Int.cast_neg, neg_mul]
          exact hpos
        have : 0 < -i := by exact_mod_cast (mul_pos_iff_of_pos_right hunit).mp this
        omega
      obtain ⟨m, hm⟩ := Int.eq_ofNat_of_zero_le (show 0 ≤ -i by omega)
      obtain rfl : i = -m := by omega
      rw [Int.compare_eq_lt.mpr hi]
      have hreach : b.Reaches ((m : ℚ) * 2 ^ e) := by
        convert h using 1
        rw [signed]
        push_cast
        ring
      have hnat : (- -(m : ℤ)).toNat = m := by omega
      show UnpackedFloat.round binary64 .negative (- -(m : ℤ)).toNat e = _
      rw [hnat]
      exact round_reaches hb (by omega) hreach .negative

theorem normalize_self (hb : b.Wide) (s zero : Sign) :
    UnpackedFloat.normalize binary64 (s.apply b.m) b.q zero = .finite s b.m b.q hb.pos := by
  refine normalize_reaches hb ?_ zero
  rw [← signed_eq_apply, signed_signed]
  exact b.reaches_self

/-! ### Adding -/

/-- A signed mantissa with its exponent lowered is the same number. -/
theorem decreaseExponent_value {t : Int} (h : t ≤ e) (s : Sign) :
    (s.apply (decreaseExponent m e t).1 : ℚ) * 2 ^ t = signed s (m * 2 ^ e) := by
  have hshift : ((decreaseExponent m e t).1 : ℚ) * 2 ^ t = m * 2 ^ e := by
    have hstay : t + ((e - t).toNat : Int) = e := by omega
    rw [decreaseExponent, Nat.shiftLeft_eq]
    push_cast
    rw [mul_assoc, mul_comm _ ((2 : ℚ) ^ t), ← zpow_natCast, ← zpow_add₀ (by norm_num), hstay]
  rw [← hshift, ← signed_eq_apply]

/-- A sum is that of the numbers, in units of some power of two, and is then rounded. -/
theorem add_eq_normalize (hx : x.isFinite) (hy : y.isFinite) :
    (∃ s, (x + y).toModel.unpack = .zero s ∧ value x + value y = 0) ∨
      ∃ i e, value x + value y = (i : ℤ) * 2 ^ e ∧
        (x + y).toModel
          = Float.Model.pack (UnpackedFloat.normalize binary64 i e .positive) := by
  have hsum : (x + y).toModel
      = Float.Model.pack (UnpackedFloat.add binary64 x.toModel.unpack y.toModel.unpack) := rfl
  rcases unpack_cases hx with ⟨s, hx⟩ | ⟨s, b, hb, hx⟩ <;>
    rcases unpack_cases hy with ⟨t, hy⟩ | ⟨t, b', hb', hy⟩ <;>
    rw [hx, hy] at hsum <;> rw [value, value, hx, hy]
  · refine Or.inl ?_
    rw [hsum]
    cases s <;> cases t <;> exact ⟨_, rfl, add_zero 0⟩
  · refine Or.inr ⟨t.apply b'.m, b'.q, ?_, ?_⟩
    · rw [unpackedValue_zero, zero_add, ← signed_eq_apply]
      rfl
    · rw [hsum, normalize_self hb'.toWide]
      rfl
  · refine Or.inr ⟨s.apply b.m, b.q, ?_, ?_⟩
    · rw [unpackedValue_zero, add_zero, ← signed_eq_apply]
      rfl
    · rw [hsum, normalize_self hb.toWide]
      rfl
  · refine Or.inr ⟨s.apply (decreaseExponent b.m b.q (min b.q b'.q)).1
      + t.apply (decreaseExponent b'.m b'.q (min b.q b'.q)).1, min b.q b'.q, ?_, hsum⟩
    rw [Int.cast_add, add_mul, decreaseExponent_value (min_le_left _ _),
      decreaseExponent_value (min_le_right _ _), unpackedValue_finite, unpackedValue_finite]

/-- **A sum is the float that reaches the sum of the numbers.** -/
theorem add_reaches (hx : x.isFinite) (hy : y.isFinite) (hb : b.Stored)
    (h : b.Reaches (signed s (value x + value y))) :
    (x + y).toModel.unpack = .finite s b.m b.q hb.pos := by
  rcases add_eq_normalize hx hy with ⟨t, -, hzero⟩ | ⟨i, e, hvalue, hsum⟩
  · have hnone : signed s 0 = 0 := by cases s <;> norm_num [signed]
    have := h.half_le hb.toWide
    rw [hzero, hnone] at this
    norm_num at this
  · rw [hvalue] at h
    rw [hsum, normalize_reaches hb.toWide h]
    exact unpack_pack_finite hb s

/-- Numbers that cancel make zero. -/
theorem add_cancel (hx : x.isFinite) (hy : y.isFinite) (h : value x + value y = 0) :
    ∃ s, (x + y).toModel.unpack = .zero s := by
  rcases add_eq_normalize hx hy with ⟨s, hzero, -⟩ | ⟨i, e, hvalue, hsum⟩
  · exact ⟨s, hzero⟩
  · have hunit : (2 : ℚ) ^ e ≠ 0 := (zpow_pos (by norm_num) _).ne'
    rw [h, eq_comm, mul_eq_zero_iff_right hunit, Int.cast_eq_zero] at hvalue
    subst hvalue
    have hnone : UnpackedFloat.normalize binary64 0 e .positive = .zero .positive := rfl
    rw [hsum, hnone]
    exact ⟨.positive, rfl⟩

/-! ### The nearest float -/

/-- A number is rounded to a natural, in the middle to the even one of two. -/
theorem exists_rounded (hv : 0 ≤ v) :
    ∃ m : Nat, ((m : ℚ) - 1 / 2 < v ∨ m % 2 = 0 ∧ (m : ℚ) - 1 / 2 = v) ∧
      (v < m + 1 / 2 ∨ m % 2 = 0 ∧ v = m + 1 / 2) := by
  have hlow := Nat.floor_le hv
  have hhigh := Nat.lt_floor_add_one v
  rcases lt_trichotomy v (⌊v⌋₊ + 1 / 2) with hlt | heq | hgt
  · exact ⟨⌊v⌋₊, Or.inl (by linarith), Or.inl hlt⟩
  · rcases Nat.mod_two_eq_zero_or_one ⌊v⌋₊ with heven | hodd
    · exact ⟨⌊v⌋₊, Or.inl (by linarith), Or.inr ⟨heven, heq⟩⟩
    · refine ⟨⌊v⌋₊ + 1, Or.inr ⟨by omega, ?_⟩, Or.inl ?_⟩ <;> push_cast <;> linarith
  · refine ⟨⌊v⌋₊ + 1, Or.inl ?_, Or.inl ?_⟩ <;> push_cast <;> linarith

/-- A magnitude with a mantissa of its own width. -/
def wide (m : Nat) (q : Int) : Binary := ⟨m, q, decide (m = 2 ^ 52 ∧ -1074 < q)⟩

theorem wide_wide {q : Int} (hm : 0 < m) (hwidth : m < 2 ^ 53) (hq : -1074 ≤ q)
    (hfull : 2 ^ 52 ≤ m ∨ q = -1074) : (wide m q).Wide :=
  ⟨hm, hwidth, hq, hfull, decide_eq_true_iff⟩

theorem wide_value (m : Nat) (q : Nat) : (wide m q).value = m * 2 ^ q := by
  rw [Binary.value, wide, zpow_natCast]

/-- A number is rounded to the mantissa that is nearest in units of the last place. -/
theorem wide_reaches {q : Int} (hfull : 2 ^ 52 ≤ v / 2 ^ q ∨ q = -1074)
    (hbelow : (m : ℚ) - 1 / 2 < v / 2 ^ q ∨ m % 2 = 0 ∧ (m : ℚ) - 1 / 2 = v / 2 ^ q)
    (habove : v / 2 ^ q < m + 1 / 2 ∨ m % 2 = 0 ∧ v / 2 ^ q = m + 1 / 2) :
    (wide m q).Reaches v := by
  refine ⟨?_, habove⟩
  unfold wide Binary.low
  by_cases hmin : m = 2 ^ 52 ∧ -1074 < q
  · obtain ⟨hm, hq⟩ := hmin
    have hlow : (2 : ℚ) ^ 52 ≤ v / 2 ^ q := hfull.resolve_right (by omega)
    have hmq : (m : ℚ) = 2 ^ 52 := by exact_mod_cast hm
    refine Or.inl ?_
    simp only [hm, hq, and_self, decide_true, if_true]
    rw [← hm, hmq]
    linarith
  · simp only [hmin, decide_false, Bool.false_eq_true, if_false]
    exact hbelow

/-- At the least mantissa numbers below it are cut off closer. -/
theorem wide_reaches_least {q : Int} (hq : -1074 < q) (hlow : 2 ^ 52 - 1 / 4 ≤ v / 2 ^ q)
    (hhigh : v / 2 ^ q < 2 ^ 52 + 1 / 2) : (wide (2 ^ 52) q).Reaches v := by
  unfold wide Binary.Reaches Binary.low
  simp only [hq, and_self, decide_true, if_true]
  push_cast
  refine ⟨?_, Or.inl hhigh⟩
  rcases hlow.lt_or_eq with hlt | heq
  · exact Or.inl hlt
  · exact Or.inr ⟨by norm_num, heq⟩

/-- Every positive number has a last place, in units of which it takes up 53 bits, unless the last
place is the least one. -/
theorem exists_lastPlace (hv : (2 : ℚ) ^ (-1074 : ℤ) ≤ v) :
    ∃ q : Int, -1074 ≤ q ∧ 1 ≤ v / 2 ^ q ∧ v / 2 ^ q < 2 ^ 53 ∧
      (2 ^ 52 ≤ v / 2 ^ q ∨ q = -1074) := by
  have hpos : 0 < v := (zpow_pos (by norm_num) _).trans_le hv
  have hlow : (2 : ℚ) ^ Int.log 2 v ≤ v := Int.zpow_log_le_self (by norm_num) hpos
  have hhigh : v < (2 : ℚ) ^ (Int.log 2 v + 1) := Int.lt_zpow_succ_log_self (by norm_num) v
  have hunit (q : ℤ) : (0 : ℚ) < 2 ^ q := zpow_pos (by norm_num) q
  have hsplit (k : ℕ) (q : ℤ) : (2 : ℚ) ^ k * 2 ^ q = 2 ^ (k + q) := by
    rw [zpow_add₀ (by norm_num), zpow_natCast]
  by_cases hlog : -1074 ≤ Int.log 2 v - 52
  · have hfull : (2 : ℚ) ^ 52 ≤ v / 2 ^ (Int.log 2 v - 52) := by
      rw [le_div_iff₀ (hunit _), hsplit, Nat.cast_ofNat, add_sub_cancel]
      exact hlow
    refine ⟨Int.log 2 v - 52, hlog, by linarith, ?_, Or.inl hfull⟩
    rw [div_lt_iff₀ (hunit _), hsplit]
    exact hhigh.trans_le (zpow_le_zpow_right₀ (by norm_num) (by push_cast; omega))
  · refine ⟨-1074, le_rfl, (one_le_div (hunit _)).mpr hv, ?_, Or.inr rfl⟩
    rw [div_lt_iff₀ (hunit _), hsplit]
    exact hhigh.trans_le (zpow_le_zpow_right₀ (by norm_num) (by push_cast; omega))

/-- **Every number that is not too small is rounded**, to a float unless it is too great. -/
theorem exists_reaching (hv : (2 : ℚ) ^ (-1074 : ℤ) ≤ v) : ∃ b : Binary, b.Wide ∧ b.Reaches v := by
  obtain ⟨q, hq, hone, hlt, hfull⟩ := exists_lastPlace hv
  obtain ⟨m, hbelow, habove⟩ := exists_rounded (show 0 ≤ v / 2 ^ q by linarith)
  have hle : (m : ℚ) - 1 / 2 ≤ v / 2 ^ q := hbelow.elim le_of_lt fun h => h.2.le
  have hge : v / 2 ^ q ≤ m + 1 / 2 := habove.elim le_of_lt fun h => h.2.le
  have hpos : 0 < m := by
    have : (0 : ℚ) < m := by linarith
    exact_mod_cast this
  have hfull' : 2 ^ 52 ≤ m ∨ q = -1074 := by
    refine hfull.imp_left fun hfull => ?_
    have : ((2 ^ 52 : Nat) : ℚ) < (m + 1 : Nat) := by
      push_cast
      linarith
    exact Nat.le_of_lt_succ (by exact_mod_cast this)
  have hwidth : m ≤ 2 ^ 53 := by
    have : (m : ℚ) < (2 ^ 53 + 1 : Nat) := by
      push_cast
      linarith
    exact Nat.le_of_lt_succ (by exact_mod_cast this)
  rcases Nat.lt_or_eq_of_le hwidth with hless | heq
  · exact ⟨wide m q, wide_wide hpos hless hq hfull', wide_reaches hfull hbelow habove⟩
  · -- Rounding carries over into the next power of two.
    have hhalf : v / 2 ^ (q + 1) = v / 2 ^ q / 2 := by
      rw [zpow_add_one₀ (by norm_num), div_div]
    rw [heq] at hle
    push_cast at hle
    refine ⟨wide (2 ^ 52) (q + 1), wide_wide (by norm_num) (by norm_num) (by omega) (Or.inl le_rfl),
      wide_reaches_least (by omega) ?_ ?_⟩ <;> rw [hhalf] <;> linarith

/-! ### Rounding keeps the order -/

/-- Rounding leads to no less than a float that the number is not below. -/
theorem Binary.Reaches.le_value (h : b.Reaches v) (hb : b.Wide) (hb' : b'.Wide)
    (hle : b'.value ≤ v) : b'.value ≤ b.value := by
  have hunit : (0 : ℚ) < 2 ^ b.q := zpow_pos (by norm_num) _
  have hle' : b'.value / 2 ^ b.q ≤ v / 2 ^ b.q := div_le_div_of_nonneg_right hle hunit.le
  by_contra hless
  rw [not_le] at hless
  rcases lt_trichotomy b.q b'.q with hlt | heq | hgt
  · have hfull : 2 ^ 52 ≤ b'.m := hb'.full.resolve_right (by have := hb.least; omega)
    have hfull' : (2 : ℚ) ^ 52 ≤ b'.m := by exact_mod_cast hfull
    have hge : 2 ^ 53 ≤ b'.value / 2 ^ b.q := by
      rw [le_div_iff₀ hunit]
      calc (2 : ℚ) ^ 53 * 2 ^ b.q = 2 ^ 52 * 2 ^ (b.q + 1) := by
            rw [zpow_add_one₀ (by norm_num)]
            ring
        _ ≤ 2 ^ 52 * 2 ^ b'.q :=
            mul_le_mul_of_nonneg_left (zpow_le_zpow_right₀ (by norm_num) hlt) (by positivity)
        _ ≤ b'.value := mul_le_mul_of_nonneg_right hfull' (by positivity)
    linarith [h.lt_width hb]
  · have hm : b.m < b'.m := by
      rw [value, value, heq] at hless
      exact_mod_cast lt_of_mul_lt_mul_right hless (zpow_pos (by norm_num) _).le
    have hm' : (b.m : ℚ) + 1 ≤ b'.m := by exact_mod_cast hm
    have hvalue : b'.value / 2 ^ b.q = b'.m := by
      rw [value, heq, mul_div_cancel_right₀ _ (zpow_pos (by norm_num) _).ne']
    linarith [h.le_high]
  · exact absurd (hb'.value_lt hb hgt) (not_lt.mpr hless.le)

/-- Above the least exponent nothing that is rounded is much below the least mantissa. -/
theorem Binary.Wide.le_low (hb : b.Wide) (hq : -1074 < b.q) : (2 : ℚ) ^ 52 - 1 / 4 ≤ b.low := by
  have hfull : 2 ^ 52 ≤ b.m := hb.full.resolve_right (by omega)
  rw [low]
  split
  · have : (2 : ℚ) ^ 52 ≤ b.m := by exact_mod_cast hfull
    linarith
  · rename_i hwide
    have hne : b.m ≠ 2 ^ 52 := fun hm => hwide (hb.narrow.mpr ⟨hm, hq⟩)
    have : (2 : ℚ) ^ 52 + 1 ≤ b.m := by exact_mod_cast Nat.lt_of_le_of_ne hfull hne.symm
    linarith

/-- Rounding leads to no more than a float that the number is not above. -/
theorem Binary.Reaches.value_le (h : b.Reaches v) (hb : b.Wide) (hb' : b'.Wide)
    (hle : v ≤ b'.value) : b.value ≤ b'.value := by
  have hunit : (0 : ℚ) < 2 ^ b.q := zpow_pos (by norm_num) _
  have hle' : v / 2 ^ b.q ≤ b'.value / 2 ^ b.q := div_le_div_of_nonneg_right hle hunit.le
  by_contra hless
  rw [not_le] at hless
  rcases lt_trichotomy b.q b'.q with hlt | heq | hgt
  · exact absurd (hb.value_lt hb' hlt) (not_lt.mpr hless.le)
  · have hm : b'.m < b.m := by
      rw [value, value, heq] at hless
      exact_mod_cast lt_of_mul_lt_mul_right hless (zpow_pos (by norm_num) _).le
    have hm' : (b'.m : ℚ) + 1 ≤ b.m := by exact_mod_cast hm
    have hvalue : b'.value / 2 ^ b.q = b'.m := by
      rw [value, heq, mul_div_cancel_right₀ _ (zpow_pos (by norm_num) _).ne']
    linarith [h.low_le, b.le_low]
  · have hwidth : (b'.m : ℚ) ≤ 2 ^ 53 - 1 := by
      have : (b'.m : ℚ) + 1 ≤ 2 ^ 53 := by exact_mod_cast hb'.width
      linarith
    have hsmall : b'.value / 2 ^ b.q ≤ 2 ^ 52 - 1 / 2 := by
      rw [div_le_iff₀ hunit]
      calc b'.value ≤ (2 ^ 53 - 1) * 2 ^ b'.q :=
            mul_le_mul_of_nonneg_right hwidth (by positivity)
        _ ≤ (2 ^ 53 - 1) * 2 ^ (b.q - 1) :=
            mul_le_mul_of_nonneg_left (zpow_le_zpow_right₀ (by norm_num) (by omega)) (by norm_num)
        _ = (2 ^ 52 - 1 / 2) * 2 ^ b.q := by
            rw [zpow_sub₀ (by norm_num), zpow_one]
            ring
    linarith [h.low_le, hb.le_low (by have := hb'.least; omega)]

/-- A magnitude of no great value has no great exponent. -/
theorem Binary.Wide.exponent_le (hb : b.Wide) (h : b.value ≤ 2 ^ 65) : b.q ≤ 971 := by
  by_contra hq
  have hfull : (2 : ℚ) ^ 52 ≤ b.m := by exact_mod_cast hb.full.resolve_right (by omega)
  have hbig : (2 : ℚ) ^ 52 * 2 ^ (14 : ℤ) ≤ b.value :=
    mul_le_mul hfull (zpow_le_zpow_right₀ (by norm_num) (by omega)) (by positivity) (by positivity)
  have hfar : (2 : ℚ) ^ 65 < 2 ^ 52 * 2 ^ (14 : ℤ) := by norm_num
  exact absurd (hbig.trans h) (not_le.mpr hfar)

/-- A natural up to `2 ^ 53` is itself the magnitude of a float. -/
theorem exists_value_eq (hn : n ≠ 0) (h : n ≤ 2 ^ 53) : ∃ b : Binary, b.Stored ∧ b.value = n := by
  rcases Nat.lt_or_eq_of_le h with hlt | heq
  · exact ⟨binaryOfNat n, binaryOfNat_stored hn hlt, stored_value hn hlt⟩
  · refine ⟨wide (2 ^ 52) (1 : Nat),
      ⟨wide_wide (by norm_num) (by norm_num) (by norm_num) (Or.inl le_rfl), ?_⟩, ?_⟩
    · show ((1 : Nat) : Int) ≤ 971
      norm_num
    · rw [wide_value, heq]
      norm_num

/-- **Every natural from `2 ^ 53` on is rounded to a float that is no less than `2 ^ 53`.** -/
theorem exists_nearest (h : 2 ^ 53 ≤ k) (hk : k < 2 ^ 65) :
    ∃ b : Binary, b.Stored ∧ b.Reaches k ∧ 2 ^ 53 ≤ b.value := by
  have hlow : (2 : ℚ) ^ 53 ≤ k := by exact_mod_cast h
  have hhigh : (k : ℚ) ≤ 2 ^ 65 := by exact_mod_cast hk.le
  have hleast : (2 : ℚ) ^ (-1074 : ℤ) ≤ k :=
    (zpow_le_one_of_nonpos₀ (by norm_num) (by norm_num)).trans (by linarith)
  obtain ⟨b, hb, hreach⟩ := exists_reaching hleast
  have hfirst : (wide (2 ^ 52) (1 : Nat)).Wide :=
    wide_wide (by norm_num) (by norm_num) (by norm_num) (Or.inl le_rfl)
  have hvalue : (wide (2 ^ 52) (1 : Nat)).value = 2 ^ 53 := by
    rw [wide_value]
    norm_num
  have hlast : (wide (2 ^ 52) (13 : Nat)).Wide :=
    wide_wide (by norm_num) (by norm_num) (by norm_num) (Or.inl le_rfl)
  have hvalue' : (wide (2 ^ 52) (13 : Nat)).value = 2 ^ 65 := by
    rw [wide_value]
    norm_num
  refine ⟨b, ⟨hb, hb.exponent_le ?_⟩, hreach, ?_⟩
  · exact hvalue' ▸ hreach.value_le hb hlast (hvalue' ▸ hhigh)
  · exact hvalue ▸ hreach.le_value hb hfirst (hvalue ▸ hlow)

/-- A natural becomes the float that reaches it. -/
theorem unpack_ofNat (hb : b.Stored) (h : b.Reaches k) :
    (Float.ofNat k).toModel.unpack = .finite .positive b.m b.q hb.pos := by
  have hdef : Float.ofNat k = Float.ofScientific k (decide ((0 : Int) < 0)) (0 : Int).natAbs := rfl
  have hreach : b.Reaches (k * 10 ^ (0 : Int)) := by
    rw [zpow_zero, mul_one]
    exact h
  have hfloat : Float.ofNat k = b.toFloat hb := by
    rw [hdef]
    by_cases hsmall : k < 2 ^ 53
    · exact ofScientific_fast hb hreach hsmall (by decide)
    · have hslow : ¬(k < 2 ^ 53 ∧ (0 : Int).natAbs ≤ 22) := fun h => hsmall h.1
      rw [Float.ofScientific, dif_neg hslow]
      refine congrArg Float.ofModel ?_
      show Float.Model.pack (UnpackedFloat.ofScientific binary64 k 0) = _
      rw [ofScientific_slow hb hreach]
  rw [hfloat]
  exact unpack_pack_finite hb .positive

/-! ### Integers -/

/-- The float is an integer. -/
structure IsInt (x : Float) (i : ℤ) : Prop where
  finite : x.isFinite = true
  eq : value x = i

variable {i j : ℤ}

/-- What is unpacked as the magnitude of an integer, with its sign, is this integer. -/
theorem IsInt.of_unpack (hb : b.Stored) (h : x.toModel.unpack = .finite s b.m b.q hb.pos)
    (hi : signed s b.value = i) : IsInt x i :=
  ⟨isFinite_of_unpack h, (value_of_unpack hb h).trans hi⟩

theorem isInt_of_zero (h : x.toModel.unpack = .zero s) : IsInt x 0 := by
  refine ⟨congrArg UnpackedFloat.isFinite h, ?_⟩
  rw [value, h, unpackedValue_zero, Int.cast_zero]

theorem isInt_zero : IsInt 0.0 0 := isInt_of_zero (s := .positive) rfl

/-- An integer other than zero has a magnitude and a sign. -/
theorem exists_signed_eq (hi : i ≠ 0) (h : |i| ≤ 2 ^ 53) :
    ∃ s, ∃ b : Binary, b.Stored ∧ signed s b.value = i := by
  have hne : i.natAbs ≠ 0 := Int.natAbs_ne_zero.mpr hi
  have hle : i.natAbs ≤ 2 ^ 53 := by
    rw [Int.abs_eq_natAbs] at h
    exact_mod_cast h
  obtain ⟨b, hb, hvalue⟩ := exists_value_eq hne hle
  rcases lt_or_gt_of_ne hi with hlt | hgt
  · refine ⟨.negative, b, hb, ?_⟩
    rw [signed, hvalue, Nat.cast_natAbs, abs_of_neg hlt, Int.cast_neg, neg_neg]
  · refine ⟨.positive, b, hb, ?_⟩
    rw [signed, hvalue, Nat.cast_natAbs, abs_of_pos hgt]

/-- **Integers are added exactly** as long as the sum is one of those that all are floats. -/
theorem IsInt.add (hx : IsInt x i) (hy : IsInt y j) (h : |i + j| ≤ 2 ^ 53) :
    IsInt (x + y) (i + j) := by
  have hsum : value x + value y = (i + j : ℤ) := by rw [hx.eq, hy.eq, Int.cast_add]
  by_cases hzero : i + j = 0
  · rw [hzero, Int.cast_zero] at hsum
    obtain ⟨s, hs⟩ := add_cancel hx.finite hy.finite hsum
    rw [hzero]
    exact isInt_of_zero hs
  · obtain ⟨s, b, hb, hvalue⟩ := exists_signed_eq hzero h
    have hreach : b.Reaches (signed s (value x + value y)) := by
      rw [hsum, ← hvalue, signed_signed]
      exact b.reaches_self
    exact .of_unpack hb (add_reaches hx.finite hy.finite hb hreach) hvalue

/-- A greater sum may be rounded, but not to less than `2 ^ 53`. -/
theorem IsInt.add_beyond (hx : IsInt x i) (hy : IsInt y j) (h : 2 ^ 53 ≤ i + j)
    (h' : i + j < 2 ^ 65) : (x + y).isFinite = true ∧ 2 ^ 53 ≤ value (x + y) := by
  obtain ⟨k, hk⟩ := Int.eq_ofNat_of_zero_le (show 0 ≤ i + j by omega)
  obtain ⟨b, hb, hreach, hle⟩ := exists_nearest (k := k) (by omega) (by omega)
  have hsum : value x + value y = k := by
    rw [hx.eq, hy.eq]
    exact_mod_cast hk
  have hunpack := add_reaches (s := .positive) hx.finite hy.finite hb (by rwa [signed, hsum])
  exact ⟨isFinite_of_unpack hunpack, (value_of_unpack hb hunpack).symm ▸ hle⟩

theorem isInt_ofNat (h : n ≤ 2 ^ 53) : IsInt (Float.ofNat n) n := by
  by_cases hzero : n = 0
  · subst hzero
    exact isInt_zero
  · obtain ⟨b, hb, hvalue⟩ := exists_value_eq hzero h
    have hreach : b.Reaches n := by
      rw [← hvalue]
      exact b.reaches_self
    refine .of_unpack hb (unpack_ofNat hb hreach) ?_
    rw [signed, hvalue, Int.cast_natCast]

theorem IsInt.neg (hx : IsInt x i) : IsInt (-x) (-i) := by
  have hneg : (-x).toModel = Float.Model.pack x.toModel.unpack.neg := rfl
  rcases unpack_cases hx.finite with ⟨s, hzero⟩ | ⟨s, b, hb, hfinite⟩
  · have hi : i = 0 := by
      have := hx.eq
      rw [(isInt_of_zero hzero).eq] at this
      exact_mod_cast this.symm
    have hunpack : (-x).toModel.unpack = .zero (-s) := by
      rw [hneg, hzero]
      cases s <;> rfl
    rw [hi]
    exact isInt_of_zero hunpack
  · have hunpack : (-x).toModel.unpack = .finite (-s) b.m b.q hb.pos := by
      rw [hneg, hfinite]
      exact unpack_pack_finite hb (-s)
    have hvalue := (value_of_unpack hb hfinite).symm.trans hx.eq
    refine .of_unpack hb hunpack ?_
    rw [Int.cast_neg, ← hvalue]
    cases s with
    | positive => rfl
    | negative => exact (neg_neg _).symm

/-- **An integer of at most 53 bits becomes a float exactly.** -/
theorem isInt_ofInt (h : |i| ≤ 2 ^ 53) : IsInt (Float.ofInt i) i := by
  cases i with
  | ofNat n =>
      have hn : n ≤ 2 ^ 53 := by
        rw [Int.ofNat_eq_natCast, Nat.abs_cast] at h
        exact_mod_cast h
      exact isInt_ofNat hn
  | negSucc n =>
      have hn : n + 1 ≤ 2 ^ 53 := by
        rw [Int.negSucc_eq, abs_neg, abs_of_nonneg (by omega)] at h
        omega
      exact (isInt_ofNat hn).neg

/-- A magnitude that is a natural is read as it. -/
theorem Binary.natural?_of_value (h : b.value = n) : b.natural? = some n := by
  rw [Binary.value] at h
  unfold Binary.natural?
  by_cases hq : 0 ≤ b.q
  · have hpow : (2 : ℚ) ^ b.q = 2 ^ b.q.toNat := by
      rw [← zpow_natCast, Int.toNat_of_nonneg hq]
    rw [if_pos hq, Nat.shiftLeft_eq]
    rw [hpow] at h
    exact congrArg some (by exact_mod_cast h)
  · have hpow : (2 : ℚ) ^ b.q = (2 ^ b.q.natAbs)⁻¹ := by
      rw [← zpow_natCast, ← zpow_neg]
      congr 1
      omega
    have hm : b.m = n * 2 ^ b.q.natAbs := by
      rw [hpow, ← div_eq_mul_inv, div_eq_iff (by positivity)] at h
      exact_mod_cast h
    have hshift : b.m >>> b.q.natAbs = n := by
      rw [hm, Nat.shiftRight_eq_div_pow]
      exact Nat.mul_div_cancel n (Nat.two_pow_pos _)
    rw [if_neg hq, hshift, Nat.shiftLeft_eq, if_pos hm.symm]

/-- **An integer is read off the bits of its float**, but for its sign. -/
theorem IsInt.natural? (hx : IsInt x i) : (binaryOf x).natural? = some i.natAbs := by
  refine Binary.natural?_of_value ?_
  have hvalue := hx.eq
  rcases unpack_eq hx.finite with ⟨hm, hzero⟩ | ⟨hb, _, hfinite⟩
  · rw [(isInt_of_zero hzero).eq] at hvalue
    obtain rfl : i = 0 := by exact_mod_cast hvalue.symm
    rw [Binary.value, hm]
    norm_num
  · have hpos := hb.value_pos
    rw [value_of_unpack hb hfinite] at hvalue
    rw [Nat.cast_natAbs, Int.cast_abs, ← hvalue]
    cases signOf x with
    | positive => exact (abs_of_pos hpos).symm
    | negative => exact ((abs_neg _).trans (abs_of_pos hpos)).symm

/-- A greater natural may be rounded, but not to less than `2 ^ 53`. -/
theorem le_value_ofNat (h : 2 ^ 53 ≤ k) (hk : k < 2 ^ 65) : 2 ^ 53 ≤ value (Float.ofNat k) := by
  obtain ⟨b, hb, hreach, hle⟩ := exists_nearest h hk
  rw [value_of_unpack hb (unpack_ofNat hb hreach)]
  exact hle

/-- **A natural below `2 ^ 53` has a float of its own.** -/
theorem ofNat_beq_iff (hn : n < 2 ^ 53) (hk : k < 2 ^ 65) :
    (Float.ofNat k == Float.ofNat n) = true ↔ k = n := by
  have hvalue : value (Float.ofNat n) = n := (isInt_ofNat hn.le).eq
  rw [beq_iff_value (isFinite_ofNat hk) (isFinite_ofNat (by omega)), hvalue]
  rcases Nat.lt_or_ge k (2 ^ 53) with hlt | hge
  · have hvalue' : value (Float.ofNat k) = k := (isInt_ofNat hlt.le).eq
    rw [hvalue', Nat.cast_inj]
  · have hle := le_value_ofNat hge hk
    have hn' : (n : ℚ) < 2 ^ 53 := by exact_mod_cast hn
    constructor
    · intro heq
      linarith
    · rintro rfl
      omega

end FlowGraph.Decimal
