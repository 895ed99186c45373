/-
  Smooth steps and staircases.

  `blend` goes from 0 to 1 along the cubic `a * a * (3 - 2 * a)` while its argument goes from 0 to
  1, and rests before and after. `rate` is its derivative (`hasDerivAt_blend`) and at most 3/2.
  `stairs rise period n` makes `n` such steps, one every `period`, and takes `rise` for each:
  it is monotone, never steeper than one step (`lipschitz_stairs`), and `stairs_of_mem` says where
  it is on which step.
-/
import Mathlib.Analysis.Calculus.Deriv.Mul
import Mathlib.Algebra.BigOperators.Intervals
import Hummingbird.Library.Numerals
import Hummingbird.Library.Stitch

open Filter Topology Set

namespace Blend

/-- The cubic of a step. -/
def cubic (a : ℝ) : ℝ := a * a * (3 - 2 * a)

/-- The nearest point of `[0, 1]`. -/
noncomputable def clamp01 (a : ℝ) : ℝ := max 0 (min a 1)

noncomputable def blend (a : ℝ) : ℝ := cubic (clamp01 a)

noncomputable def rate (a : ℝ) : ℝ := 6 * clamp01 a * (1 - clamp01 a)

theorem clamp01_mem (a : ℝ) : 0 ≤ clamp01 a ∧ clamp01 a ≤ 1 :=
  ⟨le_max_left _ _, max_le zero_le_one (min_le_right _ _)⟩

theorem clamp01_of_le {a : ℝ} (h : a ≤ 0) : clamp01 a = 0 := by
  rw [clamp01, min_eq_left (h.trans zero_le_one), max_eq_left h]

theorem clamp01_of_mem {a : ℝ} (h0 : 0 ≤ a) (h1 : a ≤ 1) : clamp01 a = a := by
  rw [clamp01, min_eq_left h1, max_eq_right h0]

theorem clamp01_of_ge {a : ℝ} (h : 1 ≤ a) : clamp01 a = 1 := by
  rw [clamp01, min_eq_right h, max_eq_right zero_le_one]

theorem clamp01_mono {a b : ℝ} (h : a ≤ b) : clamp01 a ≤ clamp01 b :=
  max_le_max le_rfl (min_le_min h le_rfl)

/-- Clamping brings points closer together. -/
theorem clamp01_sub_le {a b : ℝ} (h : a ≤ b) : clamp01 b - clamp01 a ≤ b - a := by
  rcases le_total a 0 with ha | ha
  · rw [clamp01_of_le ha]
    rcases le_total b 0 with hb | hb
    · rw [clamp01_of_le hb]
      linarith
    · have hle : clamp01 b ≤ b := max_le hb (min_le_left _ _)
      linarith
  · rcases le_total b 1 with hb | hb
    · rw [clamp01_of_mem (ha.trans h) hb, clamp01_of_mem ha (h.trans hb)]
    · rw [clamp01_of_ge hb]
      rcases le_total a 1 with ha1 | ha1
      · rw [clamp01_of_mem ha ha1]
        linarith
      · rw [clamp01_of_ge ha1]
        linarith

/-! ## The cubic -/

theorem cubic_nonneg {a : ℝ} (ha : a ≤ 1) : 0 ≤ cubic a := by
  unfold cubic
  nlinarith [mul_self_nonneg a]

theorem cubic_le_one {a : ℝ} (ha : 0 ≤ a) : cubic a ≤ 1 := by
  unfold cubic
  nlinarith [mul_nonneg ha (mul_self_nonneg (1 - a)), mul_self_nonneg (1 - a)]

theorem cubic_sub (a b : ℝ) :
    cubic b - cubic a = (b - a) * (3 * (a + b) - 2 * (a * a + a * b + b * b)) := by
  unfold cubic
  ring

/-- On the unit interval the cubic rises, by at most 3/2 of the distance. -/
theorem cubic_sub_mem {a b : ℝ} (ha : 0 ≤ a) (hab : a ≤ b) (hb : b ≤ 1) :
    0 ≤ cubic b - cubic a ∧ cubic b - cubic a ≤ 3 / 2 * (b - a) := by
  have hba : 0 ≤ b - a := sub_nonneg.mpr hab
  have hfactor : 0 ≤ 3 * (a + b) - 2 * (a * a + a * b + b * b) := by
    nlinarith [mul_nonneg ha (sub_nonneg.mpr hb), mul_nonneg (ha.trans hab) (sub_nonneg.mpr hb),
      mul_nonneg ha (sub_nonneg.mpr (hab.trans hb))]
  have hle : 3 * (a + b) - 2 * (a * a + a * b + b * b) ≤ 3 / 2 := by
    nlinarith [mul_self_nonneg (a + b - 1), mul_self_nonneg (a - b)]
  rw [cubic_sub, mul_comm (3 / 2 : ℝ)]
  exact ⟨mul_nonneg hba hfactor, mul_le_mul_of_nonneg_left hle hba⟩

theorem hasDerivAt_cubic (a : ℝ) : HasDerivAt cubic (6 * a * (1 - a)) a := by
  have h := ((hasDerivAt_id' a).mul (hasDerivAt_id' a)).mul
    (((hasDerivAt_id' a).const_mul 2).const_sub 3)
  exact h.congr_deriv (by simp only [Pi.mul_apply]; ring)

/-! ## The step -/

theorem blend_of_le {a : ℝ} (h : a ≤ 0) : blend a = 0 := by
  rw [blend, clamp01_of_le h, cubic, zero_mul, zero_mul]

theorem blend_of_mem {a : ℝ} (h0 : 0 ≤ a) (h1 : a ≤ 1) : blend a = cubic a := by
  rw [blend, clamp01_of_mem h0 h1]

theorem blend_of_ge {a : ℝ} (h : 1 ≤ a) : blend a = 1 := by
  rw [blend, clamp01_of_ge h, cubic]
  norm_num

theorem blend_mem (a : ℝ) : 0 ≤ blend a ∧ blend a ≤ 1 :=
  ⟨cubic_nonneg (clamp01_mem a).2, cubic_le_one (clamp01_mem a).1⟩

theorem blend_sub_mem {a b : ℝ} (h : a ≤ b) :
    0 ≤ blend b - blend a ∧ blend b - blend a ≤ 3 / 2 * (b - a) := by
  obtain ⟨hlo, hhi⟩ := cubic_sub_mem (clamp01_mem a).1 (clamp01_mono h) (clamp01_mem b).2
  exact ⟨hlo, hhi.trans (by linarith [clamp01_sub_le h])⟩

theorem rate_of_le {a : ℝ} (h : a ≤ 0) : rate a = 0 := by
  rw [rate, clamp01_of_le h, mul_zero, zero_mul]

theorem rate_of_mem {a : ℝ} (h0 : 0 ≤ a) (h1 : a ≤ 1) : rate a = 6 * a * (1 - a) := by
  rw [rate, clamp01_of_mem h0 h1]

theorem rate_of_ge {a : ℝ} (h : 1 ≤ a) : rate a = 0 := by
  rw [rate, clamp01_of_ge h, sub_self, mul_zero]

theorem rate_mem (a : ℝ) : 0 ≤ rate a ∧ rate a ≤ 3 / 2 := by
  obtain ⟨h0, h1⟩ := clamp01_mem a
  constructor
  · exact mul_nonneg (by linarith) (by linarith)
  · unfold rate
    nlinarith [mul_self_nonneg (2 * clamp01 a - 1)]

theorem continuous_rate : Continuous rate := by
  unfold rate clamp01
  fun_prop

theorem hasDerivAt_blend (a : ℝ) : HasDerivAt blend (rate a) a := by
  -- the pieces are 0, the cubic and 1; their slopes agree at 0 and at 1
  have hzero : ∀ x : ℝ, HasDerivAt (fun _ => (0 : ℝ)) 0 x := fun x => hasDerivAt_const x 0
  have hone : ∀ x : ℝ, HasDerivAt (fun _ => (1 : ℝ)) 0 x := fun x => hasDerivAt_const x 1
  rcases lt_or_ge a 0 with hneg | h0
  · rw [rate_of_le hneg.le]
    refine (hzero a).congr_of_eventuallyEq ?_
    filter_upwards [Iio_mem_nhds hneg] with x hx
    exact blend_of_le (le_of_lt hx)
  rcases lt_or_ge 1 a with hgt | h1
  · rw [rate_of_ge hgt.le]
    refine (hone a).congr_of_eventuallyEq ?_
    filter_upwards [Ioi_mem_nhds hgt] with x hx
    exact blend_of_ge (le_of_lt hx)
  rw [rate_of_mem h0 h1]
  have hcubic := hasDerivAt_cubic a
  rcases h0.lt_or_eq with hpos | rfl
  · rcases h1.lt_or_eq with hlt | rfl
    · refine hcubic.congr_of_eventuallyEq ?_
      filter_upwards [Ioo_mem_nhds hpos hlt] with x hx
      exact blend_of_mem hx.1.le hx.2.le
    · refine Stitch.hasDerivAt_of_sides hcubic ((hone 1).congr_deriv (by ring)) ?_ ?_
      · filter_upwards [Ioc_mem_nhdsLE hpos] with x hx
        exact blend_of_mem hx.1.le hx.2
      · filter_upwards [self_mem_nhdsWithin] with x hx
        exact blend_of_ge hx
  · refine Stitch.hasDerivAt_of_sides ((hzero 0).congr_deriv (by ring)) hcubic ?_ ?_
    · filter_upwards [self_mem_nhdsWithin] with x hx
      exact blend_of_le hx
    · filter_upwards [Ico_mem_nhdsGE (zero_lt_one' ℝ)] with x hx
      exact blend_of_mem hx.1 hx.2.le

/-! ## Staircases -/

/-- `n` steps, each of which takes `rise` out of its `period`. -/
noncomputable def stairs (rise period : ℝ) (n : ℕ) (u : ℝ) : ℝ :=
  ∑ i ∈ Finset.range n, blend ((u - i * period) / rise)

section Stairs

variable {rise period : ℝ}

theorem stairs_succ (n : ℕ) (u : ℝ) :
    stairs rise period (n + 1) u = stairs rise period n u + blend ((u - n * period) / rise) :=
  Finset.sum_range_succ _ n

/-- Before the first step. -/
theorem stairs_of_nonpos (hr : 0 < rise) (hp : rise ≤ period) (n : ℕ) {u : ℝ} (hu : u ≤ 0) :
    stairs rise period n u = 0 := by
  apply Finset.sum_eq_zero
  intro i _
  have hi : 0 ≤ i * period := mul_nonneg i.cast_nonneg (hr.le.trans hp)
  exact blend_of_le (div_nonpos_of_nonpos_of_nonneg (by linarith) hr.le)

/-- The steps that are over count as one each. -/
theorem stairs_of_ge (hr : 0 < rise) (hp : rise ≤ period) (n : ℕ) {u : ℝ} (hu : n * period ≤ u) :
    stairs rise period n u = n := by
  have hone : ∀ i ∈ Finset.range n, blend ((u - i * period) / rise) = 1 := by
    intro i hi
    have hlt : (i : ℝ) + 1 ≤ n := by exact_mod_cast Finset.mem_range.mp hi
    have hstep : (i + 1) * period ≤ n * period :=
      mul_le_mul_of_nonneg_right hlt (hr.le.trans hp)
    refine blend_of_ge ((one_le_div hr).mpr ?_)
    linarith
  rw [stairs, Finset.sum_congr rfl hone, Finset.sum_const, Finset.card_range, nsmul_one]

/-- On step `i`. -/
theorem stairs_of_mem (hr : 0 < rise) (hp : rise ≤ period) {n i : ℕ} (hi : i < n) {u : ℝ}
    (hlo : i * period ≤ u) (hhi : u ≤ (i + 1) * period) :
    stairs rise period n u = i + blend ((u - i * period) / rise) := by
  have hp0 : 0 ≤ period := hr.le.trans hp
  induction n, hi using Nat.le_induction with
  | base => rw [stairs_succ, stairs_of_ge hr hp i hlo]
  | succ n hn ih =>
    have hle : (i + 1 : ℝ) ≤ n := by exact_mod_cast hn
    have hnot : u - n * period ≤ 0 := by
      have h := mul_le_mul_of_nonneg_right hle hp0
      linarith
    rw [stairs_succ, ih, blend_of_le (div_nonpos_of_nonpos_of_nonneg hnot hr.le), add_zero]

theorem stairs_mono (hr : 0 < rise) (n : ℕ) : Monotone (stairs rise period n) := by
  intro u v huv
  apply Finset.sum_le_sum
  intro i _
  have hdiv : (u - i * period) / rise ≤ (v - i * period) / rise :=
    div_le_div_of_nonneg_right (by linarith) hr.le
  linarith [(blend_sub_mem hdiv).1]

theorem stairs_mem (hr : 0 < rise) (hp : rise ≤ period) (n : ℕ) (u : ℝ) :
    0 ≤ stairs rise period n u ∧ stairs rise period n u ≤ n := by
  constructor
  · exact Finset.sum_nonneg fun i _ => (blend_mem _).1
  · calc stairs rise period n u ≤ stairs rise period n (max u (n * period)) :=
          stairs_mono hr n (le_max_left _ _)
      _ = n := stairs_of_ge hr hp n (le_max_right _ _)

/-- One step at a time: a staircase is as steep as a single step. -/
theorem lipschitz_stairs (hr : 0 < rise) (hp : rise ≤ period) (n : ℕ) :
    Stitch.Lipschitz (3 / 2 / rise) (stairs rise period n) := by
  induction n with
  | zero =>
    intro s t hst
    have hzero : ∀ u, stairs rise period 0 u = 0 := fun u => Finset.sum_range_zero _
    rw [hzero, hzero, sub_self, abs_zero]
    exact mul_nonneg (by positivity) (sub_nonneg.mpr hst)
  | succ n ih =>
    refine Stitch.lipschitz_of_sides (b := n * period) ?_ ?_
    · -- before the last step
      intro s t hst ht
      have hlast : ∀ u ≤ n * period, blend ((u - n * period) / rise) = 0 := fun u hu =>
        blend_of_le (div_nonpos_of_nonpos_of_nonneg (by linarith) hr.le)
      rw [stairs_succ, stairs_succ, hlast t ht, hlast s (hst.trans ht), add_zero, add_zero]
      exact ih s t hst
    · -- on it
      intro s t hst hs
      rw [stairs_succ, stairs_succ, stairs_of_ge hr hp n hs, stairs_of_ge hr hp n (hs.trans hst),
        add_sub_add_left_eq_sub]
      have hdiv : (s - n * period) / rise ≤ (t - n * period) / rise :=
        div_le_div_of_nonneg_right (by linarith) hr.le
      obtain ⟨h0, hle⟩ := blend_sub_mem hdiv
      rw [abs_of_nonneg h0]
      refine hle.trans_eq ?_
      field_simp
      ring

end Stairs

end Blend
