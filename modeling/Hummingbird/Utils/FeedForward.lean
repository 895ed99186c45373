/-
  The velocity feed-forward of `posPath` and `demo_straight`.

  Both paths go out along one axis and come back, with a smooth step each way, and repeat this.
  `OutAndBack` is such a schedule and `place`, `speed` what it says within one cycle;
  `posPath_follows` and `demoStraight_follows` read the two functions of `utils.hpp` as schedules.
  `FeedForward` is what a follower of the path relies on, `OutAndBack.feedForward` derives it from
  the schedule and `velocity_feedForward` is the result for both paths.
-/
import Mathlib.Analysis.Convex.Segment
import Hummingbird.Library.Blend
import Hummingbird.Utils.Path

open Filter Topology

namespace Hummingbird

open Blend Stitch

/-! ## Schedules -/

/-- Out at `out` and back at `back`, in `rise` seconds each, once every `period`. -/
structure OutAndBack where
  rise : ℝ
  out : ℝ
  back : ℝ
  period : ℝ
  rise_pos : 0 < rise
  out_nonneg : 0 ≤ out
  out_le : out + rise ≤ back
  back_le : back + rise ≤ period

namespace OutAndBack

variable (s : OutAndBack)

theorem period_pos : 0 < s.period := by
  linarith [s.rise_pos, s.out_nonneg, s.out_le, s.back_le]

/-- How far out it is, `u` seconds into a cycle. -/
noncomputable def place (u : ℝ) : ℝ := blend ((u - s.out) / s.rise) - blend ((u - s.back) / s.rise)

noncomputable def speed (u : ℝ) : ℝ :=
  rate ((u - s.out) / s.rise) / s.rise - rate ((u - s.back) / s.rise) / s.rise

variable {s} {u : ℝ}

theorem arg_nonpos {a : ℝ} (h : u ≤ a) : (u - a) / s.rise ≤ 0 :=
  div_nonpos_of_nonpos_of_nonneg (sub_nonpos.mpr h) s.rise_pos.le

theorem one_le_arg {a : ℝ} (h : a + s.rise ≤ u) : 1 ≤ (u - a) / s.rise :=
  (one_le_div s.rise_pos).mpr (by linarith)

/-- Before it goes out. -/
theorem before (h : u ≤ s.out) : s.place u = 0 ∧ s.speed u = 0 := by
  have hout := arg_nonpos (s := s) h
  have hback := arg_nonpos (s := s) (show u ≤ s.back by linarith [s.rise_pos, s.out_le])
  rw [place, speed, blend_of_le hout, blend_of_le hback, rate_of_le hout, rate_of_le hback]
  exact ⟨sub_self _, sub_self _⟩

/-- On its way out, and until it goes back. -/
theorem on_way_out (h : u ≤ s.back) : s.place u = blend ((u - s.out) / s.rise) ∧
    s.speed u = rate ((u - s.out) / s.rise) / s.rise := by
  have hback := arg_nonpos (s := s) h
  rw [place, speed, blend_of_le hback, rate_of_le hback, zero_div]
  exact ⟨sub_zero _, sub_zero _⟩

/-- On its way back, and before that where it waits. -/
theorem on_way_back (h : s.out + s.rise ≤ u) :
    s.place u = 1 - blend ((u - s.back) / s.rise) ∧
      s.speed u = -(rate ((u - s.back) / s.rise) / s.rise) := by
  have hout := one_le_arg h
  rw [place, speed, blend_of_ge hout, rate_of_ge hout, zero_div]
  exact ⟨rfl, zero_sub _⟩

/-- After it has come back. -/
theorem after (h : s.back + s.rise ≤ u) : s.place u = 0 ∧ s.speed u = 0 := by
  have hback := one_le_arg h
  obtain ⟨hplace, hspeed⟩ := on_way_back (s := s) (u := u) (by linarith [s.rise_pos, s.out_le])
  rw [hplace, hspeed, blend_of_ge hback, rate_of_ge hback, sub_self, zero_div, neg_zero]
  exact ⟨rfl, rfl⟩

/-- It is between the two points, and never faster than one smooth step. -/
theorem place_mem_speed_le (s : OutAndBack) (u : ℝ) :
    (0 ≤ s.place u ∧ s.place u ≤ 1) ∧ |s.speed u| ≤ 3 / 2 / s.rise := by
  have hle : ∀ a, rate a / s.rise ≤ 3 / 2 / s.rise := fun a =>
    div_le_div_of_nonneg_right (rate_mem a).2 s.rise_pos.le
  have h0 : ∀ a, 0 ≤ rate a / s.rise := fun a => div_nonneg (rate_mem a).1 s.rise_pos.le
  rcases le_total u s.back with h | h
  · obtain ⟨hplace, hspeed⟩ := on_way_out h
    rw [hplace, hspeed, abs_of_nonneg (h0 _)]
    exact ⟨blend_mem _, hle _⟩
  · obtain ⟨hplace, hspeed⟩ := on_way_back (s := s) (u := u) (by linarith [s.out_le])
    rw [hplace, hspeed, abs_neg, abs_of_nonneg (h0 _)]
    obtain ⟨hlo, hhi⟩ := blend_mem ((u - s.back) / s.rise)
    exact ⟨⟨by linarith, by linarith⟩, hle _⟩

theorem hasDerivAt_place (s : OutAndBack) (u : ℝ) : HasDerivAt s.place (s.speed u) u := by
  have hstep : ∀ a, HasDerivAt (fun u => blend ((u - a) / s.rise))
      (rate ((u - a) / s.rise) / s.rise) u := by
    intro a
    have harg : HasDerivAt (fun u => (u - a) / s.rise) (1 / s.rise) u :=
      ((hasDerivAt_id' u).sub_const a).div_const s.rise
    exact ((hasDerivAt_blend _).comp u harg).congr_deriv (mul_one_div _ _)
  exact (hstep s.out).sub (hstep s.back)

theorem continuous_speed (s : OutAndBack) : Continuous s.speed := by
  have := continuous_rate
  unfold speed
  fun_prop

/-- The ends of a cycle fit. -/
theorem ends (s : OutAndBack) : s.place s.period = s.place 0 ∧ s.speed s.period = s.speed 0 := by
  obtain ⟨hplace, hspeed⟩ := after s.back_le
  obtain ⟨hplace0, hspeed0⟩ := before s.out_nonneg
  exact ⟨hplace.trans hplace0.symm, hspeed.trans hspeed0.symm⟩

end OutAndBack

/-! ## Paths -/

/-- The path goes between the origin and `e` as the schedule says. -/
structure Follows (path : ℝ → TargetCMD ℝ) (s : OutAndBack) (e : ℝ × ℝ) : Prop where
  x : ∀ t, 0 ≤ t → (path t).x = e.1 * s.place (cycleTime s.period t)
  y : ∀ t, 0 ≤ t → (path t).y = e.2 * s.place (cycleTime s.period t)
  vx : ∀ t, 0 ≤ t → (path t).vx = e.1 * s.speed (cycleTime s.period t)
  vy : ∀ t, 0 ≤ t → (path t).vy = e.2 * s.speed (cycleTime s.period t)
  z : ∀ t, (path t).z = 0

/-- The velocity belongs to the position, which starts at the origin and stays between it and `e`,
    no faster than `maxSpeed`. -/
structure FeedForward (path : ℝ → TargetCMD ℝ) (e : ℝ × ℝ) (maxSpeed : ℝ) : Prop where
  hasDerivAt : ∀ t, 0 < t → HasDerivAt (fun t => (path t).x) (path t).vx t ∧
    HasDerivAt (fun t => (path t).y) (path t).vy t
  continuousOn : ContinuousOn (fun t => (path t).vx) (Set.Ici 0) ∧
    ContinuousOn (fun t => (path t).vy) (Set.Ici 0)
  start : (path 0).x = 0 ∧ (path 0).y = 0 ∧ (path 0).z = 0
  segment : ∀ t, 0 ≤ t → ((path t).x, (path t).y) ∈ segment ℝ (0, 0) e ∧ (path t).z = 0
  speed : ∀ t, 0 ≤ t → √((path t).vx * (path t).vx + (path t).vy * (path t).vy) ≤ maxSpeed

theorem Follows.feedForward {path : ℝ → TargetCMD ℝ} {s : OutAndBack} {e : ℝ × ℝ}
    (h : Follows path s e) (he : e.1 * e.1 + e.2 * e.2 = 1) :
    FeedForward path e (3 / 2 / s.rise) := by
  have hderiv : ∀ a t, HasDerivAt (fun t => a * s.place (cycleTime s.period t))
      (a * s.speed (cycleTime s.period t)) t := fun a t =>
    (hasDerivAt_cycle s.period_pos s.ends.1 s.ends.2 s.hasDerivAt_place t).const_mul a
  have hcont : ∀ a, Continuous fun t => a * s.speed (cycleTime s.period t) := fun a =>
    continuous_const.mul (continuous_cycle s.ends.2 s.continuous_speed)
  refine ⟨?_, ?_, ?_, ?_, ?_⟩
  · intro t ht
    have hnear : ∀ᶠ x in 𝓝 t, (0 : ℝ) ≤ x := by
      filter_upwards [Ioi_mem_nhds ht] with x hx
      exact le_of_lt hx
    rw [h.vx t ht.le, h.vy t ht.le]
    exact ⟨(hderiv e.1 t).congr_of_eventuallyEq (hnear.mono h.x),
      (hderiv e.2 t).congr_of_eventuallyEq (hnear.mono h.y)⟩
  · exact ⟨(hcont e.1).continuousOn.congr h.vx, (hcont e.2).continuousOn.congr h.vy⟩
  · have hcycle : cycleTime s.period 0 = 0 := by
      rw [cycleTime, zero_div, Int.fract_zero, mul_zero]
    rw [h.x 0 le_rfl, h.y 0 le_rfl, hcycle, (OutAndBack.before s.out_nonneg).1, mul_zero, mul_zero]
    exact ⟨rfl, rfl, h.z 0⟩
  · intro t ht
    obtain ⟨⟨h0, h1⟩, -⟩ := s.place_mem_speed_le (cycleTime s.period t)
    rw [h.x t ht, h.y t ht, segment_eq_image]
    refine ⟨⟨s.place (cycleTime s.period t), ⟨h0, h1⟩, ?_⟩, h.z t⟩
    ext <;> simp [mul_comm]
  · intro t ht
    obtain ⟨-, hle⟩ := s.place_mem_speed_le (cycleTime s.period t)
    rw [h.vx t ht, h.vy t ht]
    generalize s.speed (cycleTime s.period t) = v at hle
    calc √(e.1 * v * (e.1 * v) + e.2 * v * (e.2 * v))
        = √(v * v * (e.1 * e.1 + e.2 * e.2)) := by ring_nf
      _ = |v| := by rw [he, mul_one, Real.sqrt_mul_self_eq_abs]
      _ ≤ 3 / 2 / s.rise := hle

/-! ## The two paths -/

/-- The schedule of `posPath`: one leg every 5 s. -/
def posSchedule : OutAndBack := ⟨2, 0, 5, 10, by norm_num, by norm_num, by norm_num, by norm_num⟩

/-- The schedule of `demo_straight`. -/
def demoSchedule : OutAndBack := ⟨1, 5, 11, 12, by norm_num, by norm_num, by norm_num, by norm_num⟩

theorem posPath_vx (t : ℝ) : (posPath t).vx =
    let a := fmod t (2 + 3) / 2
    let v : ℝ := if fmod t (2 + 3) < 2 then 6 * a * (1 - a) / 2 else 0
    if ⌊t / (2 + 3 : ℝ)⌋.tmod 2 = 0 then v else -v := by
  unfold posPath
  dsimp only
  rw [if_pos rfl, if_pos rfl, if_pos rfl]
  by_cases hphase : ⌊t / (2 + 3 : ℝ)⌋.tmod 2 = 0
  · rw [if_pos hphase, if_pos hphase, if_pos hphase, sub_zero, one_mul]
  · rw [if_neg hphase, if_neg hphase, if_neg hphase, zero_sub, neg_one_mul]
    split
    · rfl
    · exact neg_zero.symm

theorem posPath_vy (t : ℝ) : (posPath t).vy = 0 := by
  have hy : ∀ c : Prop, ∀ _ : Decidable c, ∀ a b : ℝ,
      (if c then (a, (0 : ℝ)) else (b, 0)).2 = 0 := by
    intro c _ a b
    split
    · rfl
    · rfl
  unfold posPath
  dsimp only
  rw [if_pos rfl, if_pos rfl, if_pos rfl, hy, hy, sub_zero, zero_mul]
  exact ite_self 0

/-- The blend of `posPath` at the local time `l`, and its rate. -/
theorem posPath_leg {l : ℝ} (h0 : 0 ≤ l) :
    (if l < 2 then smoothStep (l / 2) else 1) = blend (l / 2) ∧
      (if l < 2 then 6 * (l / 2) * (1 - l / 2) / 2 else 0) = rate (l / 2) / 2 := by
  split
  · have hlo : 0 ≤ l / 2 := by linarith
    have hhi : l / 2 ≤ 1 := by linarith
    rw [blend_of_mem hlo hhi, rate_of_mem hlo hhi]
    exact ⟨rfl, rfl⟩
  · have hge : 1 ≤ l / 2 := by linarith
    rw [blend_of_ge hge, rate_of_ge hge, zero_div]
    exact ⟨rfl, rfl⟩

/-- The leg that `posPath` is on, and the time since it started. -/
theorem posPath_phase {t : ℝ} (ht : 0 ≤ t) :
    (cycleTime 10 t ≤ 5 ∧ ⌊t / (2 + 3 : ℝ)⌋.tmod 2 = 0 ∧ fmod t (2 + 3) = cycleTime 10 t) ∨
      (5 ≤ cycleTime 10 t ∧ ⌊t / (2 + 3 : ℝ)⌋.tmod 2 ≠ 0 ∧
        fmod t (2 + 3) = cycleTime 10 t - 5) := by
  have h5 : (0 : ℝ) < 2 + 3 := by norm_num
  obtain ⟨k, hlo, hhi⟩ := exists_cycle (show (0 : ℝ) < 10 by norm_num) t
  have hcycle := cycleTime_eq (by norm_num) hlo hhi
  have hk : 0 ≤ k := by
    have : (-1 : ℝ) < k := by linarith
    exact_mod_cast this
  rw [fmod_eq_cycleTime ht h5]
  rcases lt_or_ge t (k * 10 + 5) with hlt | hge
  · have hfloor : ⌊t / (2 + 3 : ℝ)⌋ = 2 * k :=
      floor_div_eq h5 (by push_cast; linarith) (by push_cast; linarith)
    have hlocal : cycleTime (2 + 3) t = t - (2 * k : ℤ) * (2 + 3) :=
      cycleTime_eq h5 (by push_cast; linarith) (by push_cast; linarith)
    left
    refine ⟨by linarith, ?_, ?_⟩
    · rw [hfloor, Int.tmod_eq_emod_of_nonneg (by omega)]
      omega
    · rw [hlocal, hcycle]
      push_cast
      ring
  · have hfloor : ⌊t / (2 + 3 : ℝ)⌋ = 2 * k + 1 :=
      floor_div_eq h5 (by push_cast; linarith) (by push_cast; linarith)
    have hlocal : cycleTime (2 + 3) t = t - (2 * k + 1 : ℤ) * (2 + 3) :=
      cycleTime_eq h5 (by push_cast; linarith) (by push_cast; linarith)
    right
    refine ⟨by linarith, ?_, ?_⟩
    · rw [hfloor, Int.tmod_eq_emod_of_nonneg (by omega)]
      omega
    · rw [hlocal, hcycle]
      push_cast
      ring

theorem posPath_follows : Follows posPath posSchedule (1, 0) := by
  have hline : ∀ t, 0 ≤ t → (posPath t).x = posSchedule.place (cycleTime 10 t) ∧
      (posPath t).vx = posSchedule.speed (cycleTime 10 t) := by
    intro t ht
    have hu := cycleTime_mem (show (0 : ℝ) < 10 by norm_num) t
    rw [posPath_x, posPath_vx]
    dsimp only
    rcases posPath_phase ht with ⟨hle, hphase, hlocal⟩ | ⟨hge, hphase, hlocal⟩
    · obtain ⟨hplace, hspeed⟩ := OutAndBack.on_way_out (s := posSchedule) hle
      obtain ⟨hblend, hrate⟩ := posPath_leg hu.1
      rw [if_pos hphase, if_pos hphase, hlocal, hplace, hspeed, hblend, hrate]
      simp [posSchedule]
    · obtain ⟨hplace, hspeed⟩ := OutAndBack.on_way_back (s := posSchedule) (u := cycleTime 10 t)
        (by simp only [posSchedule]; linarith)
      obtain ⟨hblend, hrate⟩ := posPath_leg (l := cycleTime 10 t - 5) (by linarith)
      rw [if_neg hphase, if_neg hphase, hlocal, hplace, hspeed, hblend, hrate]
      exact ⟨rfl, rfl⟩
  refine ⟨?_, ?_, ?_, ?_, fun t => rfl⟩
  · intro t ht
    rw [one_mul]
    exact (hline t ht).1
  · intro t _
    rw [posPath_y, zero_mul]
  · intro t ht
    rw [one_mul]
    exact (hline t ht).2
  · intro t _
    rw [posPath_vy, zero_mul]

theorem demoStraight_follows : Follows demoStraight demoSchedule (0, 1) := by
  have hother : ∀ t, (demoStraight t).x = 0 ∧ (demoStraight t).vx = 0 ∧ (demoStraight t).z = 0 := by
    intro t
    unfold demoStraight
    dsimp only
    split
    · exact ⟨rfl, rfl, rfl⟩
    split
    · exact ⟨rfl, rfl, rfl⟩
    split
    · exact ⟨rfl, rfl, rfl⟩
    · exact ⟨rfl, rfl, rfl⟩
  have hline : ∀ t, 0 ≤ t → (demoStraight t).y = demoSchedule.place (cycleTime 12 t) ∧
      (demoStraight t).vy = demoSchedule.speed (cycleTime 12 t) := by
    intro t ht
    have hperiod : (2 * (1 + 5) : ℝ) = 12 := by norm_num
    have hu := cycleTime_mem (show (0 : ℝ) < 12 by norm_num) t
    unfold demoStraight
    dsimp only
    rw [max_eq_right ht, hperiod, fmod_eq_cycleTime ht (by norm_num)]
    generalize cycleTime 12 t = u at hu
    split
    · -- the first hold
      rename_i h
      obtain ⟨hplace, hspeed⟩ := OutAndBack.before (s := demoSchedule) h.le
      rw [hplace, hspeed]
      exact ⟨rfl, rfl⟩
    rename_i h5
    split
    · rename_i h
      obtain ⟨hplace, hspeed⟩ := OutAndBack.on_way_out (s := demoSchedule) (u := u)
        (by simp only [demoSchedule]; linarith)
      have h0 : 0 ≤ (u - 5) / 1 := by linarith
      have h1 : (u - 5) / 1 ≤ 1 := by linarith
      rw [hplace, hspeed]
      simp only [demoSchedule]
      rw [blend_of_mem h0 h1, rate_of_mem h0 h1, smoothStep_eq, one_mul, one_mul]
      exact ⟨rfl, rfl⟩
    rename_i h6
    obtain ⟨hplace, hspeed⟩ := OutAndBack.on_way_back (s := demoSchedule) (u := u)
      (by simp only [demoSchedule]; linarith)
    split
    · -- the second hold
      rename_i h
      have h0 : (u - 11) / 1 ≤ 0 := by linarith
      rw [hplace, hspeed]
      simp only [demoSchedule]
      rw [blend_of_le h0, rate_of_le h0, zero_div, sub_zero, neg_zero]
      exact ⟨rfl, rfl⟩
    · rename_i h11
      have h0 : 0 ≤ (u - 11) / 1 := by linarith
      have h1 : (u - 11) / 1 ≤ 1 := by linarith
      have harg : (u - 2 * 5 - 1) / 1 = (u - 11) / 1 := by ring
      rw [hplace, hspeed]
      simp only [demoSchedule]
      rw [blend_of_mem h0 h1, rate_of_mem h0 h1, smoothStep_eq, harg, one_mul]
      exact ⟨rfl, by ring⟩
  refine ⟨?_, ?_, ?_, ?_, fun t => (hother t).2.2⟩
  · intro t _
    rw [(hother t).1, zero_mul]
  · intro t ht
    rw [one_mul]
    exact (hline t ht).1
  · intro t _
    rw [(hother t).2.1, zero_mul]
  · intro t ht
    rw [one_mul]
    exact (hline t ht).2

/-- The velocities of `posPath` and of `demo_straight` are the derivatives of their positions. -/
theorem velocity_feedForward :
    FeedForward posPath (1, 0) (3 / 4) ∧ FeedForward demoStraight (0, 1) (3 / 2) := by
  constructor
  · have h := posPath_follows.feedForward (by norm_num)
    have hmax : 3 / 2 / posSchedule.rise = 3 / 4 := by norm_num [posSchedule]
    rwa [hmax] at h
  · have h := demoStraight_follows.feedForward (by norm_num)
    have hmax : 3 / 2 / demoSchedule.rise = 3 / 2 := by norm_num [demoSchedule]
    rwa [hmax] at h

end Hummingbird
