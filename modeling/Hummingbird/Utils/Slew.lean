/-
  How far the paths of `utils.hpp` go, and how fast.

  A path stays in the plane of the initial pose and level but for its pitch. `StaysWithin` bounds
  from its start on where it may be and at which speed it moves and pitches. A path that goes out
  and back gets its bounds from its schedule (`Follows.staysWithin`), one that only pitches from
  its pitch (`staysWithin_of_pitch`).
-/
import Mathlib.Analysis.CStarAlgebra.Classes
import Mathlib.Analysis.InnerProductSpace.Basic
import Mathlib.Analysis.SpecialFunctions.Trigonometric.Bounds
import Hummingbird.Utils.FeedForward
import Hummingbird.Utils.Staircase

namespace Hummingbird

open Real Stitch Set

/-- The point of the plane that is commanded. -/
def TargetCMD.place (c : TargetCMD ℝ) : ℂ := ⟨c.x, c.y⟩

/-- The velocity in the plane. -/
def TargetCMD.velocity (c : TargetCMD ℝ) : ℂ := ⟨c.vx, c.vy⟩

/-- Where a path may be, in position and pitch, and how fast either may change. -/
structure Envelope where
  places : Set ℂ
  pitches : Set ℝ
  speed : ℝ
  pitchRate : ℝ

structure StaysWithin (path : ℝ → TargetCMD ℝ) (e : Envelope) : Prop where
  level : ∀ t, (path t).z = 0 ∧ (path t).roll = 0 ∧ (path t).yaw = 0
  place : ∀ t, 0 ≤ t → (path t).place ∈ e.places
  pitch : ∀ t, 0 ≤ t → (path t).pitch ∈ e.pitches
  velocity : ∀ t, 0 ≤ t → ‖(path t).velocity‖ ≤ e.speed
  speed : ∀ s t, 0 ≤ s → 0 ≤ t → ‖(path t).place - (path s).place‖ ≤ e.speed * |t - s|
  pitchRate : ∀ s t, 0 ≤ s → 0 ≤ t → |(path t).pitch - (path s).pitch| ≤ e.pitchRate * |t - s|

/-! ## Out and back -/

/-- A path that goes out to `e` and back. -/
theorem Follows.staysWithin {path : ℝ → TargetCMD ℝ} {s : OutAndBack} {e : ℝ × ℝ} {maxSpeed : ℝ}
    (h : Follows path s e) (he : ‖(⟨e.1, e.2⟩ : ℂ)‖ = 1) (hmax : 3 / 2 / s.rise = maxSpeed)
    (hlevel : ∀ t, (path t).roll = 0 ∧ (path t).pitch = 0 ∧ (path t).yaw = 0) :
    StaysWithin path ⟨segment ℝ 0 ⟨e.1, e.2⟩, {0}, maxSpeed, 0⟩ := by
  have h0 : 0 ≤ maxSpeed := hmax ▸ div_nonneg (by norm_num) s.rise_pos.le
  have hplace : ∀ t, 0 ≤ t →
      (path t).place = s.place (cycleTime s.period t) • (⟨e.1, e.2⟩ : ℂ) := by
    intro t ht
    rw [TargetCMD.place, h.x t ht, h.y t ht]
    apply Complex.ext <;> simp [mul_comm]
  have hvelocity : ∀ t, 0 ≤ t →
      (path t).velocity = s.speed (cycleTime s.period t) • (⟨e.1, e.2⟩ : ℂ) := by
    intro t ht
    rw [TargetCMD.velocity, h.vx t ht, h.vy t ht]
    apply Complex.ext <;> simp [mul_comm]
  have hle : ∀ u, |s.speed u| ≤ maxSpeed := fun u => hmax ▸ (s.place_mem_speed_le u).2
  have hlipschitz := lipschitz_cycle s.period_pos h0 s.ends.1
    (lipschitz_of_hasDerivAt s.hasDerivAt_place hle)
  refine ⟨fun t => ⟨h.z t, (hlevel t).1, (hlevel t).2.2⟩, ?_, fun t _ => (hlevel t).2.1, ?_, ?_, ?_⟩
  · intro t ht
    obtain ⟨⟨hlo, hhi⟩, -⟩ := s.place_mem_speed_le (cycleTime s.period t)
    rw [hplace t ht, segment_eq_image]
    exact ⟨s.place (cycleTime s.period t), ⟨hlo, hhi⟩, by simp⟩
  · intro t ht
    rw [hvelocity t ht, norm_smul, he, mul_one, Real.norm_eq_abs]
    exact hle _
  · intro r t hr ht
    rw [hplace t ht, hplace r hr, ← sub_smul, norm_smul, he, mul_one, Real.norm_eq_abs]
    exact hlipschitz.abs_sub_le r t
  · intro r t _ _
    rw [(hlevel t).2.1, (hlevel r).2.1, sub_self, abs_zero, zero_mul]

theorem posPath_staysWithin : StaysWithin posPath ⟨segment ℝ 0 1, {0}, 3 / 4, 0⟩ :=
  posPath_follows.staysWithin (by
    show ‖(1 : ℂ)‖ = 1
    exact norm_one) (by norm_num [posSchedule]) fun t => ⟨rfl, rfl, rfl⟩

theorem demoStraight_staysWithin :
    StaysWithin demoStraight ⟨segment ℝ 0 Complex.I, {0}, 3 / 2, 0⟩ := by
  refine demoStraight_follows.staysWithin Complex.norm_I (by norm_num [demoSchedule]) ?_
  intro t
  unfold demoStraight
  dsimp only
  split_ifs <;> exact ⟨rfl, rfl, rfl⟩

/-! ## On the spot -/

/-- A path that only pitches. -/
theorem staysWithin_of_pitch {path : ℝ → TargetCMD ℝ} {pitches : Set ℝ} {rate : ℝ}
    (h0 : ∀ t, path t = { TargetCMD.zero with pitch := (path t).pitch })
    (hpitch : ∀ t, 0 ≤ t → (path t).pitch ∈ pitches)
    (hrate : ∀ s t, 0 ≤ s → 0 ≤ t → |(path t).pitch - (path s).pitch| ≤ rate * |t - s|) :
    StaysWithin path ⟨{0}, pitches, 0, rate⟩ := by
  have hplace : ∀ t, (path t).place = 0 := by
    intro t
    rw [h0 t]
    rfl
  refine ⟨?_, fun t _ => hplace t, hpitch, ?_, ?_, hrate⟩
  · intro t
    rw [h0 t]
    exact ⟨rfl, rfl, rfl⟩
  · intro t _
    rw [h0 t]
    exact norm_zero.le
  · intro s t _ _
    rw [hplace, hplace, sub_self, norm_zero, zero_mul]

/-- Within a period the sine of `att` is the one that goes on. -/
theorem attPath_pitch {t : ℝ} (ht : 0 ≤ t) :
    (attPath t).pitch = pitchMax * sin (π / 20 * t) := by
  have harg : 2 * π / 40 * fmod t 40 = π / 20 * t - ⌊t / 40⌋ * (2 * π) := by
    rw [fmod_eq_cycleTime ht (by norm_num), cycleTime, Int.fract]
    ring
  show pitchMax * sin (2 * π / 40 * fmod t 40) = _
  rw [harg, sin_sub_int_mul_two_pi]

theorem attPath_staysWithin : StaysWithin attPath
    ⟨{0}, Icc (-pitchMax) pitchMax, 0, pitchMax * deg 9⟩ := by
  have hrate : deg 9 = π / 20 := by
    unfold deg
    ring
  rw [hrate]
  have h0 : 0 ≤ pitchMax := by
    unfold pitchMax
    positivity
  refine staysWithin_of_pitch (fun t => rfl) ?_ ?_
  · intro t ht
    rw [attPath_pitch ht]
    constructor
    · nlinarith [neg_one_le_sin (π / 20 * t)]
    · nlinarith [sin_le_one (π / 20 * t)]
  · intro s t hs ht
    have harg : |π / 20 * t - π / 20 * s| = π / 20 * |t - s| := by
      rw [← mul_sub, abs_mul, abs_of_pos (by positivity)]
    rw [attPath_pitch ht, attPath_pitch hs, ← mul_sub, abs_mul, abs_of_nonneg h0, mul_assoc,
      ← harg]
    exact mul_le_mul_of_nonneg_left (abs_sin_sub_sin_le _ _) h0

theorem stepAttPath_staysWithin : StaysWithin stepAttPath
    ⟨{0}, Icc 0 (deg 60), 0, deg (5 / 2)⟩ := by
  have hlipschitz := lipschitz_cycle (by norm_num) (by norm_num) climb_loops lipschitz_climb
  refine staysWithin_of_pitch ?_ ?_ ?_
  · intro t
    unfold stepAttPath
    dsimp only
    split_ifs <;> rfl
  · intro t ht
    obtain ⟨hlo, hhi⟩ := climb_mem (cycleTime 196 t)
    have hzero : deg 0 = 0 := zero_mul _
    rw [stepAttPath_pitch ht]
    exact ⟨hzero ▸ deg_mono (by linarith), deg_mono (by linarith)⟩
  · intro s t hs ht
    have hle := hlipschitz.abs_sub_le s t
    rw [stepAttPath_pitch ht, stepAttPath_pitch hs, deg_sub, abs_deg, ← mul_sub, abs_mul,
      abs_of_pos (show (0 : ℝ) < 5 by norm_num)]
    calc deg (5 * |climb (cycleTime 196 t) - climb (cycleTime 196 s)|)
        ≤ deg (5 / 2 * |t - s|) := deg_mono (by linarith)
      _ = deg (5 / 2) * |t - s| := mul_right_comm _ _ _

/-! ## In a circle -/

/-- The circle that begins after the hover. -/
theorem circleDemo_place (t : ℝ) : (circleDemo t).place =
    (1 / 2 : ℝ) • (Complex.exp (Complex.I * (π / 15 * max (t - 3) 0 : ℝ)) - 1) := by
  unfold circleDemo
  dsimp only
  split
  · rename_i hlt
    rw [max_eq_right (by linarith), mul_zero, Complex.ofReal_zero, mul_zero, Complex.exp_zero,
      sub_self, smul_zero]
    rfl
  · rename_i hge
    have harg : 2 * π / 30 * (t - 3) = π / 15 * (t - 3) := by ring
    rw [max_eq_left (by linarith [not_lt.mp hge]), mul_comm Complex.I, harg]
    generalize π / 15 * (t - 3) = θ
    apply Complex.ext
    · simp [TargetCMD.place, Complex.exp_ofReal_mul_I_re]
    · simp [TargetCMD.place, Complex.exp_ofReal_mul_I_im]

theorem norm_exp_sub_exp_le (a b : ℝ) :
    ‖Complex.exp (Complex.I * a) - Complex.exp (Complex.I * b)‖ ≤ |a - b| := by
  have hsplit : Complex.exp (Complex.I * a) - Complex.exp (Complex.I * b) =
      Complex.exp (b * Complex.I) * (Complex.exp (Complex.I * (a - b : ℝ)) - 1) := by
    rw [mul_sub, ← Complex.exp_add, mul_one, mul_comm Complex.I (b : ℂ)]
    congr 2
    push_cast
    ring
  rw [hsplit, norm_mul, Complex.norm_exp_ofReal_mul_I, one_mul]
  exact norm_exp_I_mul_ofReal_sub_one_le

theorem circleDemo_staysWithin : StaysWithin circleDemo
    ⟨Metric.sphere (-(1 / 2)) (1 / 2), {0}, deg 6, 0⟩ := by
  have hspeed : deg 6 = π / 30 := by
    unfold deg
    ring
  rw [hspeed]
  have hpitch : ∀ t, (circleDemo t).pitch = 0 := by
    intro t
    unfold circleDemo
    dsimp only
    split_ifs <;> simp [TargetCMD.zero]
  have hother : ∀ t, (circleDemo t).z = 0 ∧ (circleDemo t).roll = 0 ∧ (circleDemo t).yaw = 0 ∧
      (circleDemo t).velocity = 0 := by
    intro t
    unfold circleDemo
    dsimp only
    split_ifs <;> exact ⟨rfl, rfl, rfl, rfl⟩
  refine ⟨fun t => ⟨(hother t).1, (hother t).2.1, (hother t).2.2.1⟩, ?_, fun t _ => hpitch t, ?_,
    ?_, ?_⟩
  · intro t _
    have hcenter : (circleDemo t).place - -(1 / 2) =
        (1 / 2 : ℝ) • Complex.exp ((π / 15 * max (t - 3) 0 : ℝ) * Complex.I) := by
      rw [circleDemo_place, mul_comm Complex.I, smul_sub, Complex.real_smul, Complex.real_smul]
      push_cast
      ring
    rw [mem_sphere_iff_norm, hcenter, norm_smul, Complex.norm_exp_ofReal_mul_I]
    norm_num
  · intro t _
    rw [(hother t).2.2.2, norm_zero]
    positivity
  · intro s t _ _
    have hmax : |max (t - 3) 0 - max (s - 3) 0| ≤ |t - s| := by
      have h := abs_max_sub_max_le_abs (t - 3) (s - 3) 0
      rwa [sub_sub_sub_cancel_right] at h
    rw [circleDemo_place, circleDemo_place, ← smul_sub, sub_sub_sub_cancel_right, norm_smul]
    calc ‖(1 / 2 : ℝ)‖ * _
        ≤ 1 / 2 * |π / 15 * max (t - 3) 0 - π / 15 * max (s - 3) 0| := by
          rw [Real.norm_of_nonneg (by norm_num)]
          exact mul_le_mul_of_nonneg_left (norm_exp_sub_exp_le _ _) (by norm_num)
      _ = π / 30 * |max (t - 3) 0 - max (s - 3) 0| := by
          rw [← mul_sub, abs_mul, abs_of_pos (by positivity)]
          ring
      _ ≤ π / 30 * |t - s| := mul_le_mul_of_nonneg_left hmax (by positivity)
  · intro s t _ _
    rw [hpitch, hpitch, sub_self, abs_zero, zero_mul]

end Hummingbird
