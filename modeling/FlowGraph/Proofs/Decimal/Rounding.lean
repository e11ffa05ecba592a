/-
Rounding to the nearest float.

A float other than zero is `m * 2 ^ q` with `m` below `2 ^ 53`, and as many of these 53 bits are
used as the least exponent allows.  Around it lie the reals that round to it: half the way to its
neighbours, the ends included if `m` is even.  Just below a power of two the neighbours come to
stand twice as close, so there it is half of that.

Arithmetic is exact first and is then rounded.  What it hands to the rounding is a mantissa with
two more bits, and they say all that matters of the digits cut off (`Represents`).  The one result
on rounding is `roundWithAccuracy_eq`: a number within the reach of a float becomes that float.
Multiplication, division and the powers of ten follow from it.
-/
import FlowGraph.Decimal.Shortest
import FlowGraph.Decimal.Reader
import FlowGraph.Proofs.Whole
import Mathlib.Data.Rat.Floor

namespace FlowGraph.Decimal

open Float.Model Float.Model.UnpackedFloat Float.Model.Format

/-! ### A mantissa and the bits behind it -/

/-- The number that a mantissa stands for together with the two bits behind it. -/
def Represents (em : ExtendedMantissa) (u : ℚ) : Prop :=
  match em.roundBit, em.stickyBit with
  | false, false => u = em.mantissa
  | false, true => em.mantissa < u ∧ u < em.mantissa + 1 / 2
  | true, false => u = em.mantissa + 1 / 2
  | true, true => em.mantissa + 1 / 2 < u ∧ u < em.mantissa + 1

namespace Represents

variable {em : ExtendedMantissa} {u : ℚ}

theorem exact (m : Nat) : Represents (.ofMantissaAndAccuracy m .exact) m := rfl

theorem bounds (h : Represents em u) : em.mantissa ≤ u ∧ u < em.mantissa + 1 := by
  obtain ⟨m, roundBit, stickyBit⟩ := em
  cases roundBit <;> cases stickyBit <;> simp only [Represents] at h <;> constructor <;> linarith

theorem bounds_of_accuracy {m : Nat} {accuracy : Accuracy}
    (h : Represents (.ofMantissaAndAccuracy m accuracy) u) : (m : ℚ) ≤ u ∧ u < m + 1 := by
  have := h.bounds
  cases accuracy with
  | exact => exact this
  | inexact o => cases o <;> exact this

/-- Half of the number: the last bit joins the bits behind the mantissa. -/
theorem shiftRightOne (h : Represents em u) : Represents em.shiftRightOne (u / 2) := by
  obtain ⟨m, roundBit, stickyBit⟩ := em
  have hdiv : (m : ℚ) = 2 * (m / 2 : Nat) + (m % 2 : Nat) := by
    exact_mod_cast (Nat.div_add_mod m 2).symm
  rcases Nat.mod_two_eq_zero_or_one m with hm | hm <;> rw [hm] at hdiv <;> push_cast at hdiv <;>
    cases roundBit <;> cases stickyBit <;>
    simp only [Represents, ExtendedMantissa.shiftRightOne, hm, bne_self_eq_false, Bool.or_self,
      Bool.or_true, Bool.or_false, show (1 != 0) = true from rfl] at h ⊢ <;>
    first | linarith | exact ⟨by linarith, by linarith⟩

theorem shiftRight (h : Represents em u) (k : Nat) : Represents (em >>> k) (u / 2 ^ k) := by
  change Represents (k.repeat ExtendedMantissa.shiftRightOne em) _
  induction k with
  | zero => simpa [Nat.repeat] using h
  | succ k ih =>
      rw [Nat.repeat, pow_succ, ← div_div]
      exact ih.shiftRightOne

/-- The mantissa is rounded to the nearest, in the middle to the even one of two. -/
theorem roundedMantissa (h : Represents em u) {m : Nat}
    (hlow : (m : ℚ) - 1 / 2 < u ∨ m % 2 = 0 ∧ (m : ℚ) - 1 / 2 = u)
    (hhigh : u < (m : ℚ) + 1 / 2 ∨ m % 2 = 0 ∧ u = (m : ℚ) + 1 / 2) :
    em.roundedMantissa = m := by
  obtain ⟨n, roundBit, stickyBit⟩ := em
  have hle : (m : ℚ) - 1 / 2 ≤ u := hlow.elim le_of_lt fun h => h.2.le
  have hge : u ≤ (m : ℚ) + 1 / 2 := hhigh.elim le_of_lt fun h => h.2.le
  have below {k : Nat} (hk : (k : ℚ) < m + 1) : k ≤ m := Nat.le_of_lt_succ (by exact_mod_cast hk)
  have above {k : Nat} (hk : (m : ℚ) < k + 1) : m ≤ k := Nat.le_of_lt_succ (by exact_mod_cast hk)
  cases roundBit <;> cases stickyBit <;>
    simp only [Represents, ExtendedMantissa.roundedMantissa, ExtendedMantissa.accuracy,
      Accuracy.roundToNearestEven] at h ⊢
  · exact Nat.le_antisymm (below (by linarith)) (above (by linarith))
  · exact Nat.le_antisymm (below (by linarith)) (above (by linarith))
  · -- In the middle between `n` and `n + 1`.
    have hnm : n ≤ m := below (by linarith)
    have hmn : m ≤ n + 1 := above (by push_cast; linarith)
    rcases Nat.lt_or_ge n m with hlt | hge'
    · obtain rfl : m = n + 1 := by omega
      have : (n + 1) % 2 = 0 := by
        rcases hlow with hlow | hlow
        · push_cast at hlow
          linarith
        · exact hlow.1
      omega
    · obtain rfl : m = n := by omega
      have : m % 2 = 0 := by
        rcases hhigh with hhigh | hhigh
        · linarith
        · exact hhigh.1
      omega
  · refine Nat.le_antisymm (below (by push_cast; linarith)) (above (by push_cast; linarith))

end Represents

/-! ### The numbers that round to a float -/

namespace Binary

/-- The form that rounding gives to a number: with a mantissa as wide as the exponent allows.  There
is no greatest exponent yet. -/
structure Wide (x : Binary) : Prop where
  pos : 0 < x.m
  width : x.m < 2 ^ 53
  least : -1074 ≤ x.q
  full : 2 ^ 52 ≤ x.m ∨ x.q = -1074
  narrow : x.narrowBelow = true ↔ x.m = 2 ^ 52 ∧ -1074 < x.q

/-- The form in which a float is stored. -/
structure Stored (x : Binary) : Prop extends Wide x where
  greatest : x.q ≤ 971

/-- The lower end of what rounds to the float, in units of its last place. -/
def low (x : Binary) : ℚ := if x.narrowBelow then x.m - 1 / 4 else x.m - 1 / 2

/-- The number rounds to the float. -/
def Reaches (x : Binary) (v : ℚ) : Prop :=
  (x.low < v / 2 ^ x.q ∨ x.m % 2 = 0 ∧ x.low = v / 2 ^ x.q) ∧
    (v / 2 ^ x.q < x.m + 1 / 2 ∨ x.m % 2 = 0 ∧ v / 2 ^ x.q = x.m + 1 / 2)

variable {x : Binary} {v : ℚ}

theorem Wide.one_le (hx : x.Wide) : (1 : ℚ) ≤ x.m := by exact_mod_cast hx.pos

theorem le_low (x : Binary) : (x.m : ℚ) - 1 / 2 ≤ x.low := by
  rw [low]
  split <;> linarith

theorem Reaches.low_le (h : x.Reaches v) : x.low ≤ v / 2 ^ x.q :=
  h.1.elim le_of_lt fun h => h.2.le

theorem Reaches.le_high (h : x.Reaches v) : v / 2 ^ x.q ≤ x.m + 1 / 2 :=
  h.2.elim le_of_lt fun h => h.2.le

/-- It is below the next power of two. -/
theorem Reaches.lt_width (h : x.Reaches v) (hx : x.Wide) : v / 2 ^ x.q < 2 ^ 53 := by
  have hwidth : (x.m : ℚ) + 1 ≤ 2 ^ 53 := by exact_mod_cast hx.width
  linarith [h.le_high]

/-- Half a unit is the least that can round to a float other than zero. -/
theorem Reaches.half_le (h : x.Reaches v) (hx : x.Wide) : (1 : ℚ) / 2 ≤ v / 2 ^ x.q := by
  linarith [h.low_le, x.le_low, hx.one_le]

/-- It is not below the power of two at which the mantissas begin, unless the float is that
power and the number is just below it. -/
theorem Reaches.le_or_just_below (h : x.Reaches v) (hfull : 2 ^ 52 ≤ x.m) :
    2 ^ 52 ≤ v / 2 ^ x.q ∨ x.m = 2 ^ 52 ∧ v / 2 ^ x.q < 2 ^ 52 := by
  rcases Nat.eq_or_lt_of_le hfull with heq | hlt
  · rcases le_or_gt (2 ^ 52) (v / 2 ^ x.q) with hle | hgt
    · exact Or.inl hle
    · exact Or.inr ⟨heq.symm, hgt⟩
  · have : (2 : ℚ) ^ 52 + 1 ≤ x.m := by exact_mod_cast hlt
    exact Or.inl (by linarith [h.low_le, x.le_low])

end Binary

/-! ### The exponent of what is rounded -/

section Exponent

variable {x : Binary} {v : ℚ} {m : Nat} {e : Int} {accuracy : Accuracy}

/-- The leading digit of a mantissa is that of the number. -/
theorem log2_bounds (hm : m ≠ 0) (hv : (m : ℚ) ≤ v / 2 ^ e ∧ v / 2 ^ e < m + 1) :
    (2 : ℚ) ^ ((m.log2 : Int) + e) ≤ v ∧ v < 2 ^ ((m.log2 : Int) + 1 + e) := by
  obtain ⟨hlow, hhigh⟩ := (Nat.log2_eq_iff hm).mp rfl
  have hpos : (0 : ℚ) < 2 ^ e := zpow_pos (by norm_num) e
  have hlow' : (2 : ℚ) ^ m.log2 ≤ m := by exact_mod_cast hlow
  have hhigh' : (m : ℚ) + 1 ≤ 2 ^ (m.log2 + 1) := by exact_mod_cast hhigh
  rw [le_div_iff₀ hpos, div_lt_iff₀ hpos] at hv
  rw [zpow_add₀ (by norm_num), zpow_add₀ (by norm_num)]
  constructor
  · calc (2 : ℚ) ^ ((m.log2 : Int)) * 2 ^ e ≤ m * 2 ^ e := by
          rw [zpow_natCast]
          exact mul_le_mul_of_nonneg_right hlow' hpos.le
      _ ≤ v := hv.1
  · calc v < (m + 1) * 2 ^ e := hv.2
      _ ≤ 2 ^ ((m.log2 : Int) + 1) * 2 ^ e := by
          rw [show ((m.log2 : Int) + 1) = ((m.log2 + 1 : Nat) : Int) by push_cast; rfl,
            zpow_natCast]
          exact mul_le_mul_of_nonneg_right hhigh' hpos.le

theorem targetExponent_eq (total : Int) :
    binary64.targetExponent total = max (total - 53) (-1074) := rfl

theorem lt_of_pow_lt {a b : Int} (h : (2 : ℚ) ^ a < 2 ^ b) : a < b :=
  (zpow_lt_zpow_iff_right₀ (by norm_num)).mp h

/-- **The exponent of the rounded number is that of the float**, or one less just below a power
of two. -/
theorem targetExponent_reaches (hx : x.Wide) (hv : x.Reaches v)
    (hm : (m : ℚ) ≤ v / 2 ^ e ∧ v / 2 ^ e < m + 1)
    (he : e ≤ binary64.targetExponent (totalExponent m e)) :
    binary64.targetExponent (totalExponent m e) = x.q ∨
      binary64.targetExponent (totalExponent m e) = x.q - 1 ∧ x.m = 2 ^ 52 ∧ -1074 < x.q ∧
        v / 2 ^ x.q < 2 ^ 52 := by
  have hleast := hx.least
  have hunit : (0 : ℚ) < 2 ^ x.q := zpow_pos (by norm_num) _
  have hlt : v < 2 ^ (53 + x.q) := by
    rw [zpow_add₀ (by norm_num)]
    exact (div_lt_iff₀ hunit).mp (hv.lt_width hx)
  rw [targetExponent_eq, totalExponent] at he ⊢
  by_cases hzero : m = 0
  · -- Nothing is left of the number in front of the point, so the exponent is the least.
    subst hzero
    have hlog : Nat.log2 0 = 0 := by simp
    rw [hlog] at he ⊢
    have hsmall : v < 2 ^ e := by
      have := (div_lt_iff₀ (zpow_pos (by norm_num) e)).mp hm.2
      simpa using this
    have hq : x.q = -1074 := by
      rcases hx.full with hfull | hq
      · have hhalf : (2 : ℚ) ^ (51 + x.q) ≤ v := by
          rw [zpow_add₀ (by norm_num), ← le_div_iff₀ hunit]
          rcases hv.le_or_just_below hfull with hle | ⟨hmin, -⟩
          · linarith
          · have : x.m = (2 : ℚ) ^ 52 := by exact_mod_cast hmin
            linarith [hv.low_le, x.le_low]
        have := lt_of_pow_lt (hhalf.trans_lt hsmall)
        omega
      · exact hq
    omega
  · obtain ⟨hlow, hhigh⟩ := log2_bounds hzero hm
    have hupper := lt_of_pow_lt (hlow.trans_lt hlt)
    rcases hx.full with hfull | hq
    · rcases hv.le_or_just_below hfull with hle | ⟨hmin, hbelow⟩
      · have hge : (2 : ℚ) ^ (52 + x.q) ≤ v := by
          rw [zpow_add₀ (by norm_num), ← le_div_iff₀ hunit]
          exact hle
        have := lt_of_pow_lt (hge.trans_lt hhigh)
        omega
      · have hge : (2 : ℚ) ^ (51 + x.q) ≤ v := by
          have : x.m = (2 : ℚ) ^ 52 := by exact_mod_cast hmin
          rw [zpow_add₀ (by norm_num), ← le_div_iff₀ hunit]
          linarith [hv.low_le, x.le_low]
        have hlt' : v < 2 ^ (52 + x.q) := by
          rw [zpow_add₀ (by norm_num)]
          exact (div_lt_iff₀ hunit).mp hbelow
        have := lt_of_pow_lt (hge.trans_lt hhigh)
        have := lt_of_pow_lt (hlow.trans_lt hlt')
        rcases hleast.lt_or_eq with hq | hq
        · exact Or.inr ⟨by omega, hmin, hq, hbelow⟩
        · omega
    · omega

/-- The mantissa of a float has its exponent already. -/
theorem Binary.Wide.targetExponent (hx : x.Wide) :
    binary64.targetExponent (totalExponent x.m x.q) = x.q := by
  have hleast := hx.least
  have hlog := (Nat.log2_lt hx.pos.ne').mpr hx.width
  rw [targetExponent_eq, totalExponent]
  rcases hx.full with hfull | hq
  · have hge := (Nat.le_log2 hx.pos.ne').mpr hfull
    omega
  · omega

end Exponent

/-! ### Rounding -/

section Rounding

variable {x : Binary} {v : ℚ} {m : Nat} {e : Int} {accuracy : Accuracy}

/-- Shifted to its exponent, the mantissa stands for the same number. -/
theorem shiftToTargetExponent_represents
    (hm : Represents (.ofMantissaAndAccuracy m accuracy) (v / 2 ^ e))
    (he : e ≤ binary64.targetExponent (totalExponent m e)) :
    ∃ em, shiftToTargetExponent binary64 m e accuracy
        = (em, binary64.targetExponent (totalExponent m e)) ∧
      Represents em (v / 2 ^ binary64.targetExponent (totalExponent m e)) := by
  refine ⟨_, Prod.ext rfl ?_, ?_⟩
  · show e + ((binary64.targetExponent (totalExponent m e) - e).toNat : Int)
      = binary64.targetExponent (totalExponent m e)
    omega
  · have hshift := hm.shiftRight (binary64.targetExponent (totalExponent m e) - e).toNat
    rw [div_div, ← zpow_natCast, ← zpow_add₀ (by norm_num), Int.toNat_of_nonneg (by omega),
      add_sub_cancel] at hshift
    exact hshift

/-- What is exact and has its exponent stays as it is. -/
theorem shiftToTargetExponent_exact (h : binary64.targetExponent (totalExponent m e) = e) :
    shiftToTargetExponent binary64 m e .exact = (⟨m, false, false⟩, e) := by
  rw [shiftToTargetExponent, h, shiftToExponent]
  simp [ExtendedMantissa.ofMantissaAndAccuracy, HShiftRight.hShiftRight, Nat.repeat]

/-- **A number within the reach of a float is rounded to it.** -/
theorem roundWithAccuracy_eq (hx : x.Wide) (hv : x.Reaches v) (s : Sign)
    (hm : Represents (.ofMantissaAndAccuracy m accuracy) (v / 2 ^ e))
    (he : e ≤ binary64.targetExponent (totalExponent m e)) :
    roundWithAccuracy binary64 s m e accuracy = .finite s x.m x.q hx.pos := by
  obtain ⟨em, hshift, hrepresents⟩ := shiftToTargetExponent_represents hm he
  rcases targetExponent_reaches hx hv hm.bounds_of_accuracy he with hq | ⟨hq, hmin, hleast, hbelow⟩
  · have hrounded : em.roundedMantissa = x.m := by
      rw [hq] at hrepresents
      refine hrepresents.roundedMantissa ?_ hv.2
      rcases hv.1 with hlow | ⟨heven, hlow⟩
      · exact Or.inl (x.le_low.trans_lt hlow)
      · exact (hlow ▸ x.le_low).lt_or_eq.imp_right fun heq => ⟨heven, heq⟩
    have hagain := shiftToTargetExponent_exact hx.targetExponent
    rw [hq] at hshift
    rw [← hrounded] at hagain
    exact roundWithAccuracy_finite hshift hagain hrounded
  · -- Rounding carries over into the next power of two, which takes one digit less.
    have hwidth : (x.m : ℚ) = 2 ^ 52 := by exact_mod_cast hmin
    have hdouble : v / 2 ^ (x.q - 1) = 2 * (v / 2 ^ x.q) := by
      rw [zpow_sub₀ (by norm_num), zpow_one]
      field_simp
    have hlow : (2 : ℚ) ^ 52 - 1 / 4 ≤ v / 2 ^ x.q := by
      have := hv.low_le
      rw [Binary.low, hx.narrow.mpr ⟨hmin, hleast⟩, if_pos rfl, hwidth] at this
      exact this
    have hrounded : em.roundedMantissa = 2 ^ 53 := by
      rw [hq, hdouble] at hrepresents
      refine hrepresents.roundedMantissa ?_ (Or.inl ?_)
      · have hle : ((2 ^ 53 : Nat) : ℚ) - 1 / 2 ≤ 2 * (v / 2 ^ x.q) := by
          push_cast
          linarith
        exact hle.lt_or_eq.imp_right fun heq => ⟨rfl, heq⟩
      · push_cast
        linarith
    have hagain : shiftToTargetExponent binary64 (2 ^ 53) (x.q - 1) .exact
        = (⟨2 ^ 52, false, false⟩, x.q) := by
      have htarget : binary64.targetExponent (totalExponent (2 ^ 53) (x.q - 1)) = x.q := by
        rw [targetExponent_eq, totalExponent, Nat.log2_two_pow]
        omega
      have hone : (x.q - (x.q - 1)).toNat = 1 := by omega
      rw [shiftToTargetExponent, htarget, shiftToExponent, hone]
      refine Prod.ext rfl ?_
      show x.q - 1 + ((1 : Nat) : Int) = x.q
      omega
    rw [hq] at hshift
    rw [← hrounded] at hagain
    exact roundWithAccuracy_finite hshift hagain hmin.symm

end Rounding

/-! ### Operations -/

section Operations

variable {x : Binary} {v : ℚ} {m₁ m₂ : Nat} {e₁ e₂ : Int} {hm₁ : 0 < m₁} {hm₂ : 0 < m₂}

theorem mul_eq (hx : x.Stored) (hwide : 2 ^ 52 ≤ m₁ * m₂)
    (hv : x.Reaches (m₁ * 2 ^ e₁ * (m₂ * 2 ^ e₂))) :
    mul binary64 (.finite .positive m₁ e₁ hm₁) (.finite .positive m₂ e₂ hm₂)
      = .finite .positive x.m x.q hx.pos := by
  have hne : m₁ * m₂ ≠ 0 := Nat.mul_ne_zero hm₁.ne' hm₂.ne'
  refine roundWithAccuracy_eq hx.toWide hv _ ?_ ?_
  · have hunit : (2 : ℚ) ^ (e₁ + e₂) ≠ 0 := (zpow_pos (by norm_num) _).ne'
    have hexact : (m₁ : ℚ) * 2 ^ e₁ * (m₂ * 2 ^ e₂) / 2 ^ (e₁ + e₂) = (m₁ * m₂ : Nat) := by
      rw [div_eq_iff hunit, zpow_add₀ (by norm_num)]
      push_cast
      ring
    rw [hexact]
    exact Represents.exact _
  · have hlog := (Nat.le_log2 hne).mpr hwide
    rw [targetExponent_eq, totalExponent]
    omega

/-- A quotient of naturals and its remainder. -/
theorem represents_fraction (a : Nat) {b : Nat} (hb : 0 < b) :
    Represents (.ofMantissaAndAccuracy (a / b) (accuracyOfFraction (a % b) b)) (a / b : ℚ) := by
  have hpos : (0 : ℚ) < b := by exact_mod_cast hb
  have hdiv : (a : ℚ) = b * (a / b : Nat) + (a % b : Nat) := by
    exact_mod_cast (Nat.div_add_mod a b).symm
  have hquotient : (a : ℚ) / b = (a / b : Nat) + (a % b : Nat) / b := by
    rw [div_eq_iff hpos.ne', add_mul, div_mul_cancel₀ _ hpos.ne']
    linarith
  have hless : ((a % b : Nat) : ℚ) / b < 1 := by
    rw [div_lt_one hpos]
    exact_mod_cast Nat.mod_lt a hb
  rw [hquotient, accuracyOfFraction]
  split
  · rename_i hzero
    simp [hzero, Represents, ExtendedMantissa.ofMantissaAndAccuracy]
  · rename_i hrest
    have hrest' : (0 : ℚ) < (a % b : Nat) / b :=
      div_pos (by exact_mod_cast Nat.pos_of_ne_zero hrest) hpos
    have hhalf : ((a % b : Nat) : ℚ) / b = (2 * (a % b) : Nat) / b / 2 := by
      push_cast
      ring
    cases hc : compare (2 * (a % b)) b with
    | lt =>
        have : ((2 * (a % b) : Nat) : ℚ) / b < 1 := by
          rw [div_lt_one hpos]
          exact_mod_cast Nat.compare_eq_lt.mp hc
        simp only [Represents, ExtendedMantissa.ofMantissaAndAccuracy]
        constructor <;> linarith
    | eq =>
        have : ((2 * (a % b) : Nat) : ℚ) / b = 1 := by
          rw [div_eq_one_iff_eq hpos.ne']
          exact_mod_cast Nat.compare_eq_eq.mp hc
        simp only [Represents, ExtendedMantissa.ofMantissaAndAccuracy]
        linarith
    | gt =>
        have : 1 < ((2 * (a % b) : Nat) : ℚ) / b := by
          rw [one_lt_div hpos]
          exact_mod_cast Nat.compare_eq_gt.mp hc
        simp only [Represents, ExtendedMantissa.ofMantissaAndAccuracy]
        constructor <;> linarith

/-- The powers of two between which a number stands. -/
theorem totalExponent_bounds {n : Nat} {e : Int} (hn : 0 < n) :
    (2 : ℚ) ^ (totalExponent n e - 1) ≤ n * 2 ^ e ∧ (n : ℚ) * 2 ^ e < 2 ^ totalExponent n e := by
  have hunit : (2 : ℚ) ^ e ≠ 0 := (zpow_pos (by norm_num) _).ne'
  have hself : (n : ℚ) ≤ n * 2 ^ e / 2 ^ e ∧ (n : ℚ) * 2 ^ e / 2 ^ e < n + 1 := by
    rw [mul_div_cancel_right₀ _ hunit]
    constructor <;> linarith
  have hbounds := log2_bounds hn.ne' hself
  rw [totalExponent]
  convert hbounds using 3
  omega

/-- A quotient begins no lower than the difference of the exponents says. -/
theorem pow_lt_quotient (hm₁ : 0 < m₁) (hm₂ : 0 < m₂) :
    (2 : ℚ) ^ (totalExponent m₁ e₁ - totalExponent m₂ e₂ - 1) < m₁ * 2 ^ e₁ / (m₂ * 2 ^ e₂) := by
  have hpos₂ : (0 : ℚ) < m₂ := by exact_mod_cast hm₂
  rw [lt_div_iff₀ (mul_pos hpos₂ (zpow_pos (by norm_num) _))]
  calc (2 : ℚ) ^ (totalExponent m₁ e₁ - totalExponent m₂ e₂ - 1) * (m₂ * 2 ^ e₂)
      < 2 ^ (totalExponent m₁ e₁ - totalExponent m₂ e₂ - 1) * 2 ^ totalExponent m₂ e₂ :=
        mul_lt_mul_of_pos_left (totalExponent_bounds hm₂).2 (zpow_pos (by norm_num) _)
    _ = 2 ^ (totalExponent m₁ e₁ - 1) := by
        rw [← zpow_add₀ (by norm_num)]
        congr 1
        omega
    _ ≤ m₁ * 2 ^ e₁ := (totalExponent_bounds hm₁).1

/-- A quotient of floats in units of a power of two is one of naturals. -/
theorem quotient_eq (hm₂ : 0 < m₂) {t : Int} {k : Nat} (hshift : t + k = e₁ - e₂) :
    (m₁ : ℚ) * 2 ^ e₁ / (m₂ * 2 ^ e₂) / 2 ^ t = (m₁ <<< k : Nat) / m₂ := by
  have hpos₂ : (0 : ℚ) < m₂ := by exact_mod_cast hm₂
  have hpow : (2 : ℚ) ^ e₁ = 2 ^ t * 2 ^ k * 2 ^ e₂ := by
    rw [← zpow_natCast, ← zpow_add₀ (by norm_num), ← zpow_add₀ (by norm_num), hshift]
    congr 1
    omega
  rw [hpow, Nat.shiftLeft_eq]
  push_cast
  field_simp

theorem div_eq (hx : x.Stored) (hv : x.Reaches (m₁ * 2 ^ e₁ / (m₂ * 2 ^ e₂))) :
    div binary64 (.finite .positive m₁ e₁ hm₁) (.finite .positive m₂ e₂ hm₂)
      = .finite .positive x.m x.q hx.pos := by
  let t : Int := min (e₁ - e₂)
    (binary64.targetExponent (totalExponent m₁ e₁ - totalExponent m₂ e₂))
  let k : Nat := (e₁ - e₂ - t).toNat
  have hm : Represents (.ofMantissaAndAccuracy ((m₁ <<< k) / m₂)
      (accuracyOfFraction ((m₁ <<< k) % m₂) m₂)) ((m₁ : ℚ) * 2 ^ e₁ / (m₂ * 2 ^ e₂) / 2 ^ t) := by
    rw [quotient_eq hm₂ (show t + (k : Int) = e₁ - e₂ by omega)]
    exact represents_fraction _ hm₂
  refine roundWithAccuracy_eq hx.toWide hv _ hm ?_
  have hlower : (2 : ℚ) ^ (totalExponent m₁ e₁ - totalExponent m₂ e₂ - 1)
      < m₁ * 2 ^ e₁ / (m₂ * 2 ^ e₂) := pow_lt_quotient hm₁ hm₂
  have hbounds := hm.bounds_of_accuracy
  have ht : t ≤ binary64.targetExponent (totalExponent m₁ e₁ - totalExponent m₂ e₂) :=
    min_le_right _ _
  rw [targetExponent_eq] at ht
  change t ≤ binary64.targetExponent (totalExponent ((m₁ <<< k) / m₂) t)
  rw [targetExponent_eq, totalExponent]
  by_cases hzero : (m₁ <<< k) / m₂ = 0
  · rw [hzero] at hbounds ⊢
    have hsmall := (div_lt_iff₀ (zpow_pos (by norm_num) t)).mp hbounds.2
    have := lt_of_pow_lt (hlower.trans (by simpa using hsmall))
    simp only [Nat.log2_zero]
    omega
  · have := lt_of_pow_lt (hlower.trans (log2_bounds hzero hbounds).2)
    omega

end Operations

end FlowGraph.Decimal
