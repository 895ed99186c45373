/-
  Geometric approach to a fixed value.

  `approach a x y = a * x + (1 - a) * y` moves `y` towards `x` by the fraction `a`. Of a
  distance of which the fraction `c` is left, the fraction `(1 - a) * c` is left after the
  move (`approach_residual`), so repeating it leaves powers of `1 - a` (`iterate_approach`). For
  `0 ≤ a ≤ 1` every move stays between `x` and where it started (`approach_mem_uIcc`), so a
  sequence of moves is monotone and does not cross `x`. Moves towards values that change stay
  `Enclosed` by them.

  Of intervals between two points, `mem_uIcc_trans` composes those towards one point, and
  `abs_le_of_mem_uIcc_zero` reads magnitudes off one towards zero.
-/
import Mathlib.Algebra.Order.Field.Basic
import Mathlib.Algebra.Order.Group.Pointwise.Interval
import Mathlib.Order.Interval.Set.UnorderedInterval
import Mathlib.Tactic.Ring
import Mathlib.Tactic.Linarith

namespace Approach

variable {K : Type*} [Field K]

/-- `y` moved towards `x` by the fraction `a` of its distance. -/
def approach (a x y : K) : K := a * x + (1 - a) * y

theorem approach_eq (a x y : K) : approach a x y = x + (1 - a) * (y - x) := by
  unfold approach
  ring

/-- Moving what is already `c` times the distance away leaves `(1 - a) * c` of it. -/
theorem approach_residual (a c x y : K) :
    approach a x (x + c * (y - x)) = x + (1 - a) * c * (y - x) := by
  unfold approach
  ring

/-- What `n` moves leave of the distance. -/
theorem iterate_approach (a x y : K) (n : ℕ) :
    (approach a x)^[n] y = x + (1 - a) ^ n * (y - x) := by
  induction n with
  | zero => rw [Function.iterate_zero_apply, pow_zero, one_mul, add_sub_cancel]
  | succ n ih => rw [Function.iterate_succ_apply', ih, approach_residual, pow_succ']

variable [LinearOrder K] [IsStrictOrderedRing K]

/-- A residual fraction in `[0, 1]` of the distance stays between the target and the start. -/
theorem residual_mem_uIcc {c : K} (hc0 : 0 ≤ c) (hc1 : c ≤ 1) (x y : K) :
    x + c * (y - x) ∈ Set.uIcc x y := by
  rcases le_total x y with hxy | hyx
  · rw [Set.uIcc_of_le hxy]
    have hd : 0 ≤ y - x := sub_nonneg.mpr hxy
    exact ⟨by nlinarith, by nlinarith⟩
  · rw [Set.uIcc_of_ge hyx]
    have hd : 0 ≤ x - y := sub_nonneg.mpr hyx
    exact ⟨by nlinarith, by nlinarith⟩

/-- One move does not leave the interval between the target and where it started. -/
theorem approach_mem_uIcc {a : K} (ha0 : 0 ≤ a) (ha1 : a ≤ 1) (x y : K) :
    approach a x y ∈ Set.uIcc x y := by
  rw [approach_eq]
  exact residual_mem_uIcc (sub_nonneg.mpr ha1) (sub_le_self 1 ha0) x y

/-- A move that is neither none nor all of the way leaves less of a distance, but never none. -/
theorem strictAnti_abs_iterate_sub {a : K} (ha0 : 0 < a) (ha1 : a < 1) {x y : K} (hne : y ≠ x) :
    StrictAnti fun n => |(approach a x)^[n] y - x| := by
  have habs : ∀ n, |(approach a x)^[n] y - x| = (1 - a) ^ n * |y - x| := by
    intro n
    rw [iterate_approach, add_sub_cancel_left, abs_mul,
      abs_of_nonneg (pow_nonneg (sub_nonneg.mpr ha1.le) n)]
  intro m n hmn
  dsimp only
  rw [habs, habs]
  have hpow : (1 - a) ^ n < (1 - a) ^ m :=
    pow_lt_pow_right_of_lt_one₀ (sub_pos.mpr ha1) (sub_lt_self 1 ha0) hmn
  exact mul_lt_mul_of_pos_right hpow (abs_pos.mpr (sub_ne_zero.mpr hne))

/-! ## Intervals towards a point -/

/-- What is between `z` and something between `z` and `x` is between `z` and `x`. -/
theorem mem_uIcc_trans {L : Type*} [Lattice L] {x y w z : L} (hw : w ∈ Set.uIcc z y)
    (hy : y ∈ Set.uIcc z x) : w ∈ Set.uIcc z x :=
  Set.uIcc_subset_uIcc Set.left_mem_uIcc hy hw

theorem abs_le_of_mem_uIcc_zero {x y : K} (h : y ∈ Set.uIcc 0 x) : |y| ≤ |x| := by
  have habs := Set.abs_sub_left_of_mem_uIcc h
  rwa [sub_zero, sub_zero] at habs

/-- More moves stay between `x` and what fewer moves arrived at. -/
theorem iterate_approach_mem_uIcc {a : K} (ha0 : 0 ≤ a) (ha1 : a ≤ 1) (x y : K) {m n : ℕ}
    (h : m ≤ n) : (approach a x)^[n] y ∈ Set.uIcc x ((approach a x)^[m] y) := by
  induction n, h using Nat.le_induction with
  | base => exact Set.right_mem_uIcc
  | succ n _ ih =>
    rw [Function.iterate_succ_apply']
    exact mem_uIcc_trans (approach_mem_uIcc ha0 ha1 x _) ih

/-! ## Values that change -/

section Enclosed

variable {L : Type*} [LinearOrder L]

/-- `y` is between the least and the greatest of the values. -/
def Enclosed (values : List L) (y : L) : Prop :=
  ∃ lo hi, IsLeast {v | v ∈ values} lo ∧ IsGreatest {v | v ∈ values} hi ∧ y ∈ Set.Icc lo hi

theorem enclosed_singleton (x : L) : Enclosed [x] x := by
  have heq : {v | v ∈ [x]} = {x} := Set.ext fun v => List.mem_singleton
  exact ⟨x, x, heq ▸ isLeast_singleton, heq ▸ isGreatest_singleton, le_rfl, le_rfl⟩

/-- A move towards one more value stays enclosed. -/
theorem Enclosed.cons {values : List L} {x y w : L} (h : Enclosed values y)
    (hw : w ∈ Set.uIcc x y) : Enclosed (x :: values) w := by
  obtain ⟨lo, hi, hlo, hhi, hlower, hupper⟩ := h
  have heq : {v | v ∈ x :: values} = insert x {v | v ∈ values} :=
    Set.ext fun v => List.mem_cons
  refine ⟨min x lo, max x hi, heq ▸ hlo.insert x, heq ▸ hhi.insert x, ?_, ?_⟩
  · exact (min_le_min_left x hlower).trans hw.1
  · exact hw.2.trans (max_le_max_left x hupper)

end Enclosed

end Approach
