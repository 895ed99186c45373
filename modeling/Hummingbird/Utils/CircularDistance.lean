/-
  `unwrapNear` as a program and `angleErrorAbs` as a metric.

  `unwrapNear_runs`: both loops of `unwrapNear` end, and the function returns what they compute.
  `angleErrorAbs` is the distance of the two angles on the circle of Mathlib
  (`angleErrorAbs_eq_dist`) and so the least of the numbers `|a - b + 2 * π * k|`;
  `CircularMetric` lists the laws that follow.
-/
import Mathlib.Analysis.Normed.Group.AddCircle
import Hummingbird.Library.Loop
import Hummingbird.Utils.Angle

namespace Hummingbird

open WithNaN Real AddCommGroup Loop

noncomputable section

/-! ## The loops -/

/-- The guard and the body of the first loop. -/
def aboveReference (reference target : Double) : Prop := num π < target - reference

def turnDown (target : Double) : Double := target - num (2 * π)

/-- The guard and the body of the second loop. -/
def belowReference (reference target : Double) : Prop := target - reference < num (-π)

def turnUp (target : Double) : Double := target + num (2 * π)

instance (reference : Double) : DecidablePred (aboveReference reference) :=
  fun _ => inferInstanceAs (Decidable (_ < _))

instance (reference : Double) : DecidablePred (belowReference reference) :=
  fun _ => inferInstanceAs (Decidable (_ < _))

/-- The iterations of both loops, and the value they leave. -/
structure UnwrapRun (target reference : Double) (m n : ℕ) (result : Double) : Prop where
  down : LeavesAfter (aboveReference reference) turnDown target m
  up : LeavesAfter (belowReference reference) turnUp (turnDown^[m] target) n
  result_eq : result = turnUp^[n] (turnDown^[m] target)

end

theorem turns_turnDown (reference target : Double) (h : aboveReference reference target) :
    turns (turnDown target - reference) < turns (target - reference) := by
  unfold aboveReference at h
  cases target with
  | nan => exact absurd h (by simp)
  | num t =>
    cases reference with
    | nan => exact absurd h (by simp)
    | num r =>
      have hstep : turnDown (num t) - num r = num (t - r - 2 * π) := by
        rw [turnDown, num_sub, num_sub, sub_right_comm]
      rw [hstep]
      exact turns_sub_lt (by simpa using h)

theorem turns_turnUp (reference target : Double) (h : belowReference reference target) :
    turns (reference - turnUp target) < turns (reference - target) := by
  unfold belowReference at h
  cases target with
  | nan => exact absurd h (by simp)
  | num t =>
    cases reference with
    | nan => exact absurd h (by simp)
    | num r =>
      have hlt : t - r < -π := by simpa using h
      have hstep : num r - turnUp (num t) = num (r - t - 2 * π) := by
        rw [turnUp, num_add, num_sub, sub_sub]
      rw [hstep]
      exact turns_sub_lt (by linarith)

/-- Both loops end, and the function returns what they leave. -/
theorem unwrapNear_runs (target reference : Double) :
    ∃ m n, UnwrapRun target reference m n (unwrapNear target reference) := by
  obtain ⟨m, hm⟩ := exists_leavesAfter (fun t => turns (t - reference))
    (turns_turnDown reference) target
  obtain ⟨n, hn⟩ := exists_leavesAfter (fun t => turns (reference - t))
    (turns_turnUp reference) (turnDown^[m] target)
  have hdown : unwrapDown target reference = turnDown^[m] target :=
    hm.eq_iterate (f := fun t => unwrapDown t reference) fun t => by rw [unwrapDown]; rfl
  have hup : unwrapUp (turnDown^[m] target) reference = turnUp^[n] (turnDown^[m] target) :=
    hn.eq_iterate (f := fun t => unwrapUp t reference) fun t => by rw [unwrapUp]; rfl
  exact ⟨m, n, hm, hn, by rw [unwrapNear, hdown, hup]⟩

/-! ## The metric -/

theorem coe_eq_iff_modEq {a b : ℝ} : (a : Angle) = b ↔ a ≡ b [PMOD 2 * π] := by
  rw [Angle.angle_eq_iff_two_pi_dvd_sub, modEq_comm, modEq_iff_zsmul]
  exact exists_congr fun k => by rw [zsmul_eq_mul, mul_comm, eq_comm]

theorem coe_add_turns (a : ℝ) (k : ℤ) : ((a + 2 * π * k : ℝ) : Angle) = a := by
  rw [Angle.angle_eq_iff_two_pi_dvd_sub]
  exact ⟨k, by ring⟩

/-- A difference of at most half a turn is the distance. -/
theorem dist_coe_of_abs_le {a b : ℝ} (h : |a - b| ≤ π) : dist (a : Angle) b = |a - b| := by
  have hp : |2 * π| / 2 = π := by rw [abs_of_pos two_pi_pos, mul_div_cancel_left₀ _ two_ne_zero]
  rw [dist_eq_norm, ← Angle.coe_sub]
  exact (AddCircle.norm_coe_eq_abs_iff (2 * π) two_pi_pos.ne').mpr (by rwa [hp])

theorem dist_coe_le_pi (a b : Angle) : dist a b ≤ π := by
  have hp : |2 * π| / 2 = π := by rw [abs_of_pos two_pi_pos, mul_div_cancel_left₀ _ two_ne_zero]
  rw [dist_eq_norm]
  exact (AddCircle.norm_le_half_period (2 * π) two_pi_pos.ne').trans_eq hp

theorem angleErrorAbs_eq_dist (a b : ℝ) :
    angleErrorAbs (num a) (num b) = num (dist (a : Angle) b) := by
  obtain ⟨u, hu, hmod, hle⟩ := unwrapNear_num a b
  have hangle : (a : Angle) = u := (coe_eq_iff_modEq.mpr hmod).symm
  rw [angleErrorAbs, hu, num_sub, Double.abs_num, hangle, dist_coe_of_abs_le hle]

/-- The distance of two angles is the least difference of their representatives. -/
theorem dist_isLeast (a b : ℝ) :
    IsLeast (Set.range fun k : ℤ => |a - b + 2 * π * k|) (dist (a : Angle) b) := by
  have hsub : ∀ k : ℤ, a - b + 2 * π * k = a + 2 * π * k - b := fun k => by ring
  constructor
  · -- it is attained at the representative that `unwrapNear` finds
    obtain ⟨u, -, hmod, hle⟩ := unwrapNear_num a b
    obtain ⟨k, hk⟩ := Angle.angle_eq_iff_two_pi_dvd_sub.mp (coe_eq_iff_modEq.mpr hmod)
    have hu : u = a + 2 * π * k := by linarith
    refine ⟨k, ?_⟩
    dsimp only
    rw [hsub, ← hu, ← dist_coe_of_abs_le hle, hu, coe_add_turns]
  · rintro _ ⟨k, rfl⟩
    dsimp only
    rw [hsub]
    rcases le_total |a + 2 * π * k - b| π with hle | hge
    · rw [← dist_coe_of_abs_le hle, coe_add_turns]
    · exact (dist_coe_le_pi _ _).trans hge

/-- The laws of the circular distance. -/
structure CircularMetric (d : ℝ → ℝ → ℝ) : Prop where
  isLeast : ∀ a b, IsLeast (Set.range fun k : ℤ => |a - b + 2 * π * k|) (d a b)
  symm : ∀ a b, d a b = d b a
  le_pi : ∀ a b, d a b ≤ π
  add_turns_left : ∀ a b, ∀ k : ℤ, d (a + 2 * π * k) b = d a b
  add_turns_right : ∀ a b, ∀ k : ℤ, d a (b + 2 * π * k) = d a b
  eq_zero_iff : ∀ a b, d a b = 0 ↔ a ≡ b [PMOD 2 * π]
  triangle : ∀ a b c, d a c ≤ d a b + d b c

theorem dist_circularMetric : CircularMetric fun a b => dist (a : Angle) (b : Angle) where
  isLeast := dist_isLeast
  symm a b := dist_comm _ _
  le_pi a b := dist_coe_le_pi _ _
  add_turns_left a b k := by rw [coe_add_turns]
  add_turns_right a b k := by rw [coe_add_turns]
  eq_zero_iff a b := dist_eq_zero.trans coe_eq_iff_modEq
  triangle a b c := dist_triangle _ _ _

/-- `unwrapNear` ends at the representative of the target nearest to the reference, and
    `angleErrorAbs` is the circular distance. -/
theorem angle_unwrapping :
    (∀ target reference : ℝ, ∃ m n u, UnwrapRun (num target) (num reference) m n (num u) ∧
      unwrapNear (num target) (num reference) = num u ∧
      u ≡ target [PMOD 2 * π] ∧ |u - reference| ≤ π ∧ (|target - reference| ≤ π → u = target)) ∧
    ∃ d, (∀ a b : ℝ, angleErrorAbs (num a) (num b) = num (d a b)) ∧ CircularMetric d := by
  constructor
  · intro target reference
    obtain ⟨m, n, hrun⟩ := unwrapNear_runs (num target) (num reference)
    obtain ⟨u, hu, hmod, hle⟩ := unwrapNear_num target reference
    refine ⟨m, n, u, hu ▸ hrun, hu, hmod, hle, fun hnear => ?_⟩
    rw [unwrapNear_of_abs_le hnear, num_inj] at hu
    exact hu.symm
  · exact ⟨fun a b => dist (a : Angle) (b : Angle), angleErrorAbs_eq_dist, dist_circularMetric⟩

end Hummingbird
