/-
  `utils::unwrapNear` and `utils::angleErrorAbs`.

  `unwrapNear` is two `while` loops that move the target by whole turns until it is within
  half a turn of the reference. A comparison with NaN is false, so both loops exit at once
  when either argument is NaN. On numbers both loops terminate (`turns` bounds the number of
  iterations) and the result is congruent to the target modulo `2 * π` and within `π` of the
  reference (`unwrapNear_num`).
-/
import Mathlib.Algebra.Order.Archimedean.Basic
import Mathlib.Algebra.Order.Floor.Semiring
import Mathlib.Analysis.SpecialFunctions.Trigonometric.Angle
import Hummingbird.Library.Turns
import Hummingbird.Utils.Double

namespace Hummingbird

open WithNaN Real AddCommGroup

noncomputable section

/-- A bound on the turns between two values: the loops below use one up per iteration. -/
def turns : Double → ℕ
  | nan => 0
  | num d => ⌈d / (2 * π)⌉₊

theorem turns_sub_lt {d : ℝ} (hd : π < d) : turns (num (d - 2 * π)) < turns (num d) := by
  have hp : 0 < 2 * π := two_pi_pos
  have hstep : (d - 2 * π) / (2 * π) = d / (2 * π) - 1 := by
    rw [sub_div, div_self hp.ne']
  have hpos : 0 < d / (2 * π) := div_pos (pi_pos.trans hd) hp
  simp only [turns, hstep]
  rcases le_or_gt (d / (2 * π)) 1 with hle | hlt
  · rw [Nat.ceil_eq_zero.mpr (by linarith)]
    exact Nat.ceil_pos.mpr hpos
  · rw [Nat.ceil_sub_one]
    have : 0 < ⌈d / (2 * π)⌉₊ := Nat.ceil_pos.mpr hpos
    omega

/-- `while (target - reference > M_PI) target -= 2.0 * M_PI;` -/
def unwrapDown (target reference : Double) : Double :=
  if num π < target - reference then unwrapDown (target - num (2 * π)) reference else target
termination_by turns (target - reference)
decreasing_by
  cases target <;> cases reference <;> simp_all only [num_sub, nan_sub, sub_nan, num_lt_num,
    not_lt_nan]
  rename_i t r h
  rw [sub_right_comm]
  exact turns_sub_lt h

/-- `while (target - reference < -M_PI) target += 2.0 * M_PI;` -/
def unwrapUp (target reference : Double) : Double :=
  if target - reference < num (-π) then unwrapUp (target + num (2 * π)) reference else target
termination_by turns (reference - target)
decreasing_by
  cases target <;> cases reference <;> simp_all only [num_sub, nan_sub, sub_nan, num_lt_num,
    num_add, not_nan_lt]
  rename_i t r h
  rw [← sub_sub]
  exact turns_sub_lt (by linarith)

/-- `utils::unwrapNear`. -/
def unwrapNear (target reference : Double) : Double :=
  unwrapUp (unwrapDown target reference) reference

/-- `utils::angleErrorAbs`. -/
def angleErrorAbs (actual target : Double) : Double :=
  (unwrapNear actual target - target).abs

end

/-! ## NaN arguments -/

@[simp] theorem unwrapNear_nan_left (reference : Double) : unwrapNear nan reference = nan := by
  rw [unwrapNear, unwrapDown, if_neg (by simp), unwrapUp, if_neg (by simp)]

@[simp] theorem unwrapNear_nan_right (target : Double) : unwrapNear target nan = target := by
  rw [unwrapNear, unwrapDown, if_neg (by simp), unwrapUp, if_neg (by simp)]

/-! ## Numbers -/

theorem unwrapDown_num (t r : ℝ) :
    ∃ u, unwrapDown (num t) (num r) = num u ∧ u ≡ t [PMOD 2 * π] ∧ u - r ≤ π ∧
      (u = t ∨ -π < u - r) := by
  by_cases h : π < t - r
  · obtain ⟨u, hu, hc, hle, hor⟩ := unwrapDown_num (t - 2 * π) r
    refine ⟨u, ?_, hc.trans ?_, hle, Or.inr ?_⟩
    · rw [unwrapDown, if_pos (by simpa using h)]
      simpa using hu
    · rw [sub_modEq_iff_modEq_add]
      exact (add_modEq_left.mpr self_modEq_zero).symm
    · rcases hor with rfl | hlt
      · linarith
      · exact hlt
  · refine ⟨t, ?_, modEq_rfl, not_lt.mp h, Or.inl rfl⟩
    rw [unwrapDown, if_neg (by simpa using h)]
termination_by turns (num t - num r)
decreasing_by
  rw [num_sub, num_sub, sub_right_comm]
  exact turns_sub_lt h

theorem unwrapUp_num (t r : ℝ) (ht : t - r ≤ π) :
    ∃ u, unwrapUp (num t) (num r) = num u ∧ u ≡ t [PMOD 2 * π] ∧ |u - r| ≤ π := by
  by_cases h : t - r < -π
  · obtain ⟨u, hu, hc, hle⟩ := unwrapUp_num (t + 2 * π) r (by linarith)
    refine ⟨u, ?_, hc.trans (add_modEq_left.mpr self_modEq_zero), hle⟩
    rw [unwrapUp, if_pos (by simpa using h)]
    simpa using hu
  · refine ⟨t, ?_, modEq_rfl, abs_le.mpr ⟨not_lt.mp h, ht⟩⟩
    rw [unwrapUp, if_neg (by simpa using h)]
termination_by turns (num r - num t)
decreasing_by
  rw [num_sub, num_sub, ← sub_sub]
  exact turns_sub_lt (by linarith)

/-- On numbers the result is congruent to the target and within half a turn of the
    reference. -/
theorem unwrapNear_num (t r : ℝ) :
    ∃ u, unwrapNear (num t) (num r) = num u ∧ u ≡ t [PMOD 2 * π] ∧ |u - r| ≤ π := by
  obtain ⟨v, hv, hvc, hvle, -⟩ := unwrapDown_num t r
  obtain ⟨u, hu, huc, hule⟩ := unwrapUp_num v r hvle
  exact ⟨u, by rw [unwrapNear, hv, hu], huc.trans hvc, hule⟩

/-- A target within half a turn of the reference is left alone. -/
theorem unwrapNear_of_abs_le {t r : ℝ} (h : |t - r| ≤ π) :
    unwrapNear (num t) (num r) = num t := by
  obtain ⟨hlo, hhi⟩ := abs_le.mp h
  rw [unwrapNear, unwrapDown, if_neg (by simpa using hhi), unwrapUp, if_neg (by simpa using hlo)]

/-- A representative strictly within half a turn of the reference is the one chosen. -/
theorem unwrapNear_eq_of_abs_lt {t r v : ℝ} (hv : v ≡ t [PMOD 2 * π]) (h : |v - r| < π) :
    unwrapNear (num t) (num r) = num v := by
  obtain ⟨u, hu, huc, hule⟩ := unwrapNear_num t r
  rw [hu, Turns.eq_of_modEq_of_abs_lt (huc.trans hv.symm) (r := r) (by linarith)]

/-- A number as target gives a number, whatever the reference. -/
theorem isNum_unwrapNear_num (t : ℝ) (reference : Double) :
    (unwrapNear (num t) reference).IsNum := by
  cases reference with
  | nan => simp
  | num r =>
    obtain ⟨u, hu, -⟩ := unwrapNear_num t r
    simp [hu]

/-! ## The distance modulo a turn -/

/-- The distance of two angles modulo `2 * π`. -/
noncomputable def angleDist (a b : Double) : Double :=
  map₂ (fun a b => |((a - b : ℝ) : Real.Angle).toReal|) a b

@[simp] theorem angleDist_num (a b : ℝ) :
    angleDist (num a) (num b) = num |((a - b : ℝ) : Real.Angle).toReal| := rfl

@[simp] theorem angleDist_nan_right (a : Double) : angleDist a nan = nan := map₂_nan_right _ a

/-- A difference of at most half a turn is its own distance. -/
theorem abs_toReal_coe_of_abs_le {d : ℝ} (hd : |d| ≤ π) : |(d : Real.Angle).toReal| = |d| := by
  obtain ⟨hlo, hhi⟩ := abs_le.mp hd
  rcases le_total 0 d with h0 | h0
  · rw [Real.Angle.abs_toReal_coe_eq_self_iff.mpr ⟨h0, hhi⟩, abs_of_nonneg h0]
  · have hneg : |(-(-d : ℝ) : Real.Angle).toReal| = -d :=
      Real.Angle.abs_toReal_neg_coe_eq_self_iff.mpr ⟨by linarith, by linarith⟩
    rw [abs_of_nonpos h0, ← hneg, ← Real.Angle.coe_neg, neg_neg]

/-- The distance is attained at any representative within half a turn. -/
theorem angleDist_of_modEq {a v b : ℝ} (hv : v ≡ a [PMOD 2 * π]) (hle : |v - b| ≤ π) :
    angleDist (num a) (num b) = num |v - b| := by
  have hangle : ((a - b : ℝ) : Real.Angle) = ((v - b : ℝ) : Real.Angle) := by
    obtain ⟨n, hn⟩ := modEq_iff_zsmul.mp hv
    rw [Real.Angle.angle_eq_iff_two_pi_dvd_sub]
    refine ⟨n, ?_⟩
    rw [zsmul_eq_mul] at hn
    linarith
  rw [angleDist_num, hangle, abs_toReal_coe_of_abs_le hle]

end Hummingbird
