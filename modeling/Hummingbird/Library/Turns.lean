/-
  Representatives modulo a period, in an ordered group.

  Congruence modulo `p` is Mathlib's `u ≡ v [PMOD p]`. Two representatives of one class whose
  distances to a reference add up to less than the period are the same
  (`eq_of_modEq_of_abs_lt`), so a value that moves from a reference towards a representative
  at most half a period away keeps it as the nearest one.
-/
import Mathlib.Algebra.Group.ModEq
import Mathlib.Algebra.Order.Group.Basic
import Mathlib.Algebra.Order.Group.Int
import Mathlib.Algebra.Order.Group.Abs
import Mathlib.Algebra.Order.Ring.Abs

namespace Turns

open AddCommGroup

variable {G : Type*} [AddCommGroup G] [LinearOrder G] [IsOrderedAddMonoid G] {p u v r : G}

/-- Congruent values less than a period apart are equal. -/
theorem eq_of_modEq_of_abs_sub_lt (h : u ≡ v [PMOD p]) (hlt : |v - u| < p) : u = v := by
  obtain ⟨n, hn⟩ := modEq_iff_zsmul.mp h
  have hp : 0 < p := (abs_nonneg _).trans_lt hlt
  have hn0 : n = 0 := by
    by_contra hne
    have h1 : (1 : ℤ) ≤ |n| := Int.one_le_abs hne
    have hle : p ≤ |n| • p := by
      calc p = (1 : ℤ) • p := (one_zsmul p).symm
        _ ≤ |n| • p := zsmul_le_zsmul_left hp.le h1
    rw [← hn, abs_zsmul, abs_of_pos hp] at hlt
    exact absurd hlt (not_lt.mpr hle)
  rw [hn0, zero_zsmul] at hn
  exact (sub_eq_zero.mp hn.symm).symm

/-- Congruent values whose distances to `r` add up to less than a period are equal. -/
theorem eq_of_modEq_of_abs_lt (h : u ≡ v [PMOD p]) (hlt : |u - r| + |v - r| < p) : u = v := by
  refine eq_of_modEq_of_abs_sub_lt h ?_
  calc |v - u| = |(v - r) - (u - r)| := by rw [sub_sub_sub_cancel_right]
    _ ≤ |v - r| + |u - r| := abs_sub _ _
    _ = |u - r| + |v - r| := add_comm _ _
    _ < p := hlt

end Turns
