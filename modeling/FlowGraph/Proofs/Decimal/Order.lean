/-
The order of floats.

Whatever is a number has a place on a line: the side of zero on which it stands, and there its
exponent and its mantissa, both counted downwards on the negative side.  To compare two floats is to
compare their places (`floatOrder_eq`), so the laws of a linear order are those of floats, as long
as none of them is no number.  Zero has one place and two signs, and it is the only number of which
that is true (`eq_of_floatOrder`).
-/
import FlowGraph.Condition.Loose
import FlowGraph.Proofs.Decimal.Bits
import Mathlib.Data.Prod.Lex

namespace FlowGraph.Decimal

open Float.Model Json

/-! ### Places -/

/-- Where a number stands among the others. -/
def place : UnpackedFloat → Option (ℤ ×ₗ ℤ ×ₗ ℤ)
  | .notANumber => none
  | .infinity .negative => some (toLex (-2, toLex (0, 0)))
  | .finite .negative m e _ => some (toLex (-1, toLex (-e, -m)))
  | .zero _ => some (toLex (0, toLex (0, 0)))
  | .finite .positive m e _ => some (toLex (1, toLex (e, m)))
  | .infinity .positive => some (toLex (2, toLex (0, 0)))

theorem compare_neg (a b : ℤ) : compare (-a) (-b) = (compare a b).swap := by
  cases h : compare a b with
  | lt => exact Int.compare_eq_gt.mpr (neg_lt_neg (Int.compare_eq_lt.mp h))
  | eq => exact Int.compare_eq_eq.mpr (congrArg _ (Int.compare_eq_eq.mp h))
  | gt => exact Int.compare_eq_lt.mpr (neg_lt_neg (Int.compare_eq_gt.mp h))

theorem compare_natCast (m n : ℕ) : compare (m : ℤ) n = compare m n := by
  cases h : compare m n with
  | lt => exact Int.compare_eq_lt.mpr (Int.ofNat_lt.mpr (Nat.compare_eq_lt.mp h))
  | eq => exact Int.compare_eq_eq.mpr (congrArg _ (Nat.compare_eq_eq.mp h))
  | gt => exact Int.compare_eq_gt.mpr (Int.ofNat_lt.mpr (Nat.compare_eq_gt.mp h))

theorem compare_eq_place (u v : UnpackedFloat) :
    u.compare v = (place u).bind fun a => (place v).map (compare a ·) := by
  cases u with
  | notANumber => cases v <;> rfl
  | infinity s => cases s <;> rcases v with ⟨⟨⟩⟩ | _ | _ | ⟨⟨⟩⟩ <;> rfl
  | zero s => rcases v with ⟨⟨⟩⟩ | _ | _ | ⟨⟨⟩⟩ <;> rfl
  | finite s m e hm =>
    cases s with
    | negative =>
      rcases v with ⟨⟨⟩⟩ | _ | _ | ⟨_ | _, m', e', _⟩ <;> try rfl
      -- Both are negative, and what is further from zero is less.
      have hlex : compare (toLex (-e, -(m : ℤ))) (toLex (-e', -(m' : ℤ)))
          = (compare (-e) (-e')).then (compare (-(m : ℤ)) (-(m' : ℤ))) := rfl
      rw [compare_neg, compare_neg, compare_natCast, ← Ordering.swap_then] at hlex
      exact congrArg some hlex.symm
    | positive =>
      rcases v with ⟨⟨⟩⟩ | _ | _ | ⟨_ | _, m', e', _⟩ <;> try rfl
      have hlex : compare (toLex (e, (m : ℤ))) (toLex (e', (m' : ℤ)))
          = (compare e e').then (compare (m : ℤ) m') := rfl
      rw [compare_natCast] at hlex
      exact congrArg some hlex.symm

theorem exists_place {u : UnpackedFloat} (hu : u.isNaN = false) : ∃ p, place u = some p := by
  rcases u with ⟨⟨⟩⟩ | _ | _ | ⟨_ | _, m, e, _⟩
  case notANumber => exact absurd hu (by decide)
  all_goals exact ⟨_, rfl⟩

theorem compare_swap (u v : UnpackedFloat) : v.compare u = (u.compare v).map Ordering.swap := by
  rw [compare_eq_place, compare_eq_place]
  cases place u <;> cases place v
  case some.some a b => exact congrArg some Std.OrientedCmp.eq_swap
  all_goals rfl

/-- What stands at one place is the same, or it is zero. -/
theorem eq_or_zero_of_place {u v : UnpackedFloat} {p : ℤ ×ₗ ℤ ×ₗ ℤ} (hu : place u = some p)
    (hv : place v = some p) : u = v ∨ ∃ s t, u = .zero s ∧ v = .zero t := by
  have hparts {a b c a' b' c' : ℤ}
      (h : some (toLex (a, toLex (b, c))) = some (toLex (a', toLex (b', c')))) :
      a = a' ∧ b = b' ∧ c = c' := by
    simpa using h
  rcases u with ⟨⟨⟩⟩ | _ | s | ⟨_ | _, m, e, _⟩ <;> cases hu <;>
    rcases v with ⟨⟨⟩⟩ | _ | t | ⟨_ | _, m', e', _⟩
  -- The first part of a place says the side, and whether it is a number at all.
  all_goals first
    | exact absurd (hparts hv).1 (by decide)
    | exact absurd hv (Option.some_ne_none _).symm
    | exact Or.inl rfl
    | exact Or.inr ⟨_, _, rfl, rfl⟩
    | skip
  all_goals
    obtain ⟨-, he, hm⟩ := hparts hv
    obtain rfl : e = e' := by omega
    obtain rfl : m = m' := by omega
    exact Or.inl rfl

/-! ### Comparing floats -/

/-- Where a float stands among the others. -/
def placeOf (x : Float) : Option (ℤ ×ₗ ℤ ×ₗ ℤ) := place x.toModel.unpack

variable {x y : Float}

theorem lt_iff_compare : x < y ↔ x.toModel.unpack.compare y.toModel.unpack = some .lt := by
  show x.lt y = true ↔ _
  rw [Float.lt]
  exact decide_eq_true_iff.trans beq_iff_eq

theorem le_iff_compare :
    x ≤ y ↔ (x.toModel.unpack.compare y.toModel.unpack).any (·.isLE) = true := by
  show x.le y = true ↔ _
  rw [Float.le]
  exact decide_eq_true_iff

theorem beq_iff_compare :
    (x == y) = true ↔ x.toModel.unpack.compare y.toModel.unpack = some .eq := by
  show (x.toModel.unpack.compare y.toModel.unpack == some .eq) = true ↔ _
  exact beq_iff_eq

theorem floatOrder_eq_compare (x y : Float) :
    floatOrder x y = x.toModel.unpack.compare y.toModel.unpack := by
  have hswap := compare_swap x.toModel.unpack y.toModel.unpack
  rw [floatOrder]
  simp only [lt_iff_compare, beq_iff_compare, hswap]
  cases x.toModel.unpack.compare y.toModel.unpack with
  | none => rfl
  | some o => cases o <;> rfl

/-- **To compare floats is to compare their places.** -/
theorem floatOrder_eq (x y : Float) :
    floatOrder x y = (placeOf x).bind fun a => (placeOf y).map (compare a ·) :=
  (floatOrder_eq_compare x y).trans (compare_eq_place _ _)

theorem floatOrder_swap (x y : Float) : floatOrder y x = (floatOrder x y).map Ordering.swap := by
  rw [floatOrder_eq_compare, floatOrder_eq_compare, compare_swap]

theorem beq_eq_floatOrder (x y : Float) : (x == y) = (floatOrder x y == some .eq) := by
  rw [floatOrder_eq_compare]
  rfl

theorem exists_placeOf (hx : x.isFinite) : ∃ p, placeOf x = some p := by
  refine exists_place ?_
  rcases unpack_eq hx with ⟨-, h⟩ | ⟨-, _, h⟩ <;> rw [h] <;> rfl

theorem floatOrder_self (hx : x.isFinite) : floatOrder x x = some .eq := by
  obtain ⟨p, hp⟩ := exists_placeOf hx
  rw [floatOrder_eq, hp]
  exact congrArg some (compare_eq_iff_eq.mpr rfl)

/-- A float that is unpacked as a zero is one. -/
theorem eq_of_unpack_zero {s : UnpackedFloat.Sign} (hx : x.isFinite)
    (h : x.toModel.unpack = .zero s) : x = 0.0 ∨ x = -0.0 := by
  have hpack := pack_unpack hx
  rw [h] at hpack
  cases s with
  | positive => exact Or.inl (congrArg Float.ofModel hpack.symm)
  | negative => exact Or.inr (congrArg Float.ofModel hpack.symm)

/-- Floats that are equal are the same, or they are zeros of different sign. -/
theorem eq_of_floatOrder (hx : x.isFinite) (hy : y.isFinite) (h : floatOrder x y = some .eq) :
    x = y ∨ x = 0.0 ∧ y = -0.0 ∨ x = -0.0 ∧ y = 0.0 := by
  obtain ⟨p, hp⟩ := exists_placeOf hx
  obtain ⟨q, hq⟩ := exists_placeOf hy
  rw [floatOrder_eq, hp, hq] at h
  obtain rfl : p = q := compare_eq_iff_eq.mp (Option.some.inj h)
  rcases eq_or_zero_of_place hp hq with hsame | ⟨s, t, hs, ht⟩
  · have hpack := pack_unpack hx
    rw [hsame, pack_unpack hy] at hpack
    exact Or.inl (congrArg Float.ofModel hpack.symm)
  · have hx' := eq_of_unpack_zero hx hs
    have hy' := eq_of_unpack_zero hy ht
    grind

end FlowGraph.Decimal
