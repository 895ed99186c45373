/-
  Curves that are stitched together from pieces.

  `hasDerivAt_of_sides` and `lipschitz_of_sides` glue two pieces at one point; a bound on the slope
  bounds how fast a curve changes (`lipschitz_of_hasDerivAt`). A curve that repeats a profile `g`
  with the period `p` is `g (cycleTime p t)`; if the ends of the profile fit, it inherits from the
  profile that it is continuous (`continuous_cycle`), differentiable (`hasDerivAt_cycle`) and
  Lipschitz (`lipschitz_cycle`).
-/
import Mathlib.Analysis.Calculus.Deriv.Shift
import Mathlib.Analysis.Calculus.MeanValue
import Mathlib.Topology.Algebra.Module.ModuleTopology
import Mathlib.Topology.Algebra.Order.Floor
import Mathlib.Tactic.Linarith

open Filter Topology Set

namespace Stitch

/-! ## Two pieces -/

/-- At `b` the function is `g` to the left and `h` to the right, which have the same slope. -/
theorem hasDerivAt_of_sides {f g h : ℝ → ℝ} {b d : ℝ} (hg : HasDerivAt g d b)
    (hh : HasDerivAt h d b) (hleft : ∀ᶠ x in 𝓝[≤] b, f x = g x)
    (hright : ∀ᶠ x in 𝓝[≥] b, f x = h x) : HasDerivAt f d b := by
  have hIic : HasDerivWithinAt f d (Iic b) b :=
    hg.hasDerivWithinAt.congr_of_eventuallyEq_of_mem hleft self_mem_Iic
  have hIci : HasDerivWithinAt f d (Ici b) b :=
    hh.hasDerivWithinAt.congr_of_eventuallyEq_of_mem hright self_mem_Ici
  rw [← hasDerivWithinAt_univ, ← Iic_union_Ici (a := b)]
  exact hIic.union hIci

/-- `K` bounds how fast `f` changes. -/
def Lipschitz (K : ℝ) (f : ℝ → ℝ) : Prop := ∀ s t, s ≤ t → |f t - f s| ≤ K * (t - s)

/-- It is enough that `K` bounds this on both sides of a point. -/
theorem lipschitz_of_sides {f : ℝ → ℝ} {K b : ℝ}
    (hleft : ∀ s t, s ≤ t → t ≤ b → |f t - f s| ≤ K * (t - s))
    (hright : ∀ s t, s ≤ t → b ≤ s → |f t - f s| ≤ K * (t - s)) : Lipschitz K f := by
  intro s t hst
  rcases le_total t b with htb | hbt
  · exact hleft s t hst htb
  rcases le_total b s with hbs | hsb
  · exact hright s t hst hbs
  calc |f t - f s| ≤ |f t - f b| + |f b - f s| := abs_sub_le _ _ _
    _ ≤ K * (t - b) + K * (b - s) := add_le_add (hright b t hbt le_rfl) (hleft s b hsb le_rfl)
    _ = K * (t - s) := by ring

theorem Lipschitz.abs_sub_le {f : ℝ → ℝ} {K : ℝ} (h : Lipschitz K f) (s t : ℝ) :
    |f t - f s| ≤ K * |t - s| := by
  rcases le_total s t with hst | hts
  · rw [abs_of_nonneg (sub_nonneg.mpr hst)]
    exact h s t hst
  · rw [abs_sub_comm, abs_sub_comm t, abs_of_nonneg (sub_nonneg.mpr hts)]
    exact h t s hts

/-- A bound on the slope. -/
theorem lipschitz_of_hasDerivAt {f f' : ℝ → ℝ} {K : ℝ} (hd : ∀ u, HasDerivAt f (f' u) u)
    (hle : ∀ u, |f' u| ≤ K) : Lipschitz K f := by
  intro s t hst
  have h := convex_univ.norm_image_sub_le_of_norm_hasDerivWithin_le
    (fun u _ => (hd u).hasDerivWithinAt) (fun u _ => hle u) (mem_univ s) (mem_univ t)
  rwa [Real.norm_eq_abs, Real.norm_eq_abs, abs_of_nonneg (sub_nonneg.mpr hst)] at h

/-! ## Cycles -/

section Cycle

variable {p : ℝ}

/-- The time since the start of the current cycle. -/
noncomputable def cycleTime (p t : ℝ) : ℝ := p * Int.fract (t / p)

theorem cycleTime_mem (hp : 0 < p) (t : ℝ) : 0 ≤ cycleTime p t ∧ cycleTime p t < p := by
  constructor
  · exact mul_nonneg hp.le (Int.fract_nonneg _)
  · calc p * Int.fract (t / p) < p * 1 := mul_lt_mul_of_pos_left (Int.fract_lt_one _) hp
      _ = p := mul_one p

/-- The index of the cycle that holds a time. -/
theorem floor_div_eq (hp : 0 < p) {k : ℤ} {t : ℝ} (hlo : k * p ≤ t) (hhi : t < (k + 1) * p) :
    ⌊t / p⌋ = k := by
  rw [Int.floor_eq_iff]
  exact ⟨(le_div_iff₀ hp).mpr hlo, (div_lt_iff₀ hp).mpr hhi⟩

/-- In the cycle that starts at `k * p`. -/
theorem cycleTime_eq (hp : 0 < p) {k : ℤ} {t : ℝ} (hlo : k * p ≤ t) (hhi : t < (k + 1) * p) :
    cycleTime p t = t - k * p := by
  have hfloor : ⌊t / p⌋ = k := floor_div_eq hp hlo hhi
  rw [cycleTime, Int.fract, hfloor, mul_sub, mul_div_cancel₀ _ hp.ne', mul_comm p]

/-- Every time lies in a cycle. -/
theorem exists_cycle (hp : 0 < p) (t : ℝ) : ∃ k : ℤ, k * p ≤ t ∧ t < (k + 1) * p :=
  ⟨⌊t / p⌋, (le_div_iff₀ hp).mp (Int.floor_le _), (div_lt_iff₀ hp).mp (Int.lt_floor_add_one _)⟩

/-- Every time lies in a cycle that it does not start. -/
theorem exists_cycle_left (hp : 0 < p) (t : ℝ) : ∃ k : ℤ, k * p < t ∧ t ≤ (k + 1) * p := by
  refine ⟨⌈t / p⌉ - 1, ?_, ?_⟩
  · rw [Int.cast_sub, Int.cast_one, ← lt_div_iff₀ hp]
    linarith [Int.ceil_lt_add_one (t / p)]
  · rw [Int.cast_sub, Int.cast_one, sub_add_cancel, ← div_le_iff₀ hp]
    exact Int.le_ceil _

variable {g g' : ℝ → ℝ}

/-- If the ends of the profile fit, the end of a cycle counts as part of it. -/
theorem cycle_eq (hp : 0 < p) (hg : g p = g 0) {k : ℤ} {t : ℝ} (hlo : k * p ≤ t)
    (hhi : t ≤ (k + 1) * p) : g (cycleTime p t) = g (t - k * p) := by
  rcases hhi.lt_or_eq with hlt | rfl
  · rw [cycleTime_eq hp hlo hlt]
  · have hnext : cycleTime p ((k + 1) * p) = 0 := by
      have h := cycleTime_eq hp (k := k + 1) (t := (k + 1) * p)
        (by push_cast; exact le_rfl) (by push_cast; linarith)
      rw [h]
      push_cast
      exact sub_self _
    rw [hnext, ← hg]
    congr 1
    ring

theorem continuous_cycle (hg : g p = g 0) (hc : Continuous g) :
    Continuous fun t => g (cycleTime p t) := by
  have hfract : Continuous ((fun x => g (p * x)) ∘ Int.fract) := by
    refine ContinuousOn.comp_fract'' (by fun_prop) ?_
    rw [mul_zero, mul_one, hg]
  exact hfract.comp (continuous_id.div_const p)

theorem hasDerivAt_cycle (hp : 0 < p) (hg : g p = g 0) (hg' : g' p = g' 0)
    (hd : ∀ u, HasDerivAt g (g' u) u) (t : ℝ) :
    HasDerivAt (fun t => g (cycleTime p t)) (g' (cycleTime p t)) t := by
  -- the piece that comes from the left and the one that goes on to the right
  obtain ⟨i, hilo, hihi⟩ := exists_cycle_left hp t
  obtain ⟨k, hklo, hkhi⟩ := exists_cycle hp t
  refine hasDerivAt_of_sides (g := fun x => g (x - i * p)) (h := fun x => g (x - k * p)) ?_ ?_ ?_ ?_
  · rw [cycle_eq hp hg' hilo.le hihi]
    exact (hd (t - i * p)).comp_sub_const t _
  · rw [cycle_eq hp hg' hklo hkhi.le]
    exact (hd (t - k * p)).comp_sub_const t _
  · filter_upwards [Ioc_mem_nhdsLE hilo] with x hx
    exact cycle_eq hp hg hx.1.le (hx.2.trans hihi)
  · filter_upwards [Ico_mem_nhdsGE hkhi] with x hx
    exact cycle_eq hp hg (hklo.trans hx.1) hx.2.le

theorem lipschitz_cycle {K : ℝ} (hp : 0 < p) (hK : 0 ≤ K) (hg : g p = g 0) (hl : Lipschitz K g) :
    Lipschitz K fun t => g (cycleTime p t) := by
  intro s t hst
  obtain ⟨i, hilo, hihi⟩ := exists_cycle hp s
  obtain ⟨k, hklo, hkhi⟩ := exists_cycle hp t
  dsimp only
  rw [cycle_eq hp hg hilo hihi.le, cycle_eq hp hg hklo hkhi.le]
  rcases lt_or_ge i k with hlt | hge
  · -- to the end of the cycle of `s` and on from the start of that of `t`
    have hik : (i + 1 : ℝ) ≤ k := by exact_mod_cast hlt
    have hnext : (i + 1) * p ≤ k * p := mul_le_mul_of_nonneg_right hik hp.le
    have hstart := hl 0 (t - k * p) (by linarith)
    have hend := hl (s - i * p) p (by linarith)
    rw [hg] at hend
    calc |g (t - k * p) - g (s - i * p)|
        ≤ |g (t - k * p) - g 0| + |g 0 - g (s - i * p)| := abs_sub_le _ _ _
      _ ≤ K * (t - k * p - 0) + K * (p - (s - i * p)) := add_le_add hstart hend
      _ = K * (t - s - (k * p - (i + 1) * p)) := by ring
      _ ≤ K * (t - s) := mul_le_mul_of_nonneg_left (by linarith) hK
  · have hki : (k : ℝ) = i := by
      have hle : (i : ℝ) ≤ k := by
        have h : (i : ℝ) * p < (k + 1) * p := hilo.trans_lt (hst.trans_lt hkhi)
        have h' : (i : ℝ) < k + 1 := lt_of_mul_lt_mul_right h hp.le
        exact_mod_cast Int.lt_add_one_iff.mp (by exact_mod_cast h')
      exact le_antisymm (by exact_mod_cast hge) hle
    rw [hki]
    calc |g (t - i * p) - g (s - i * p)| ≤ K * (t - i * p - (s - i * p)) := hl _ _ (by linarith)
      _ = K * (t - s) := by ring

end Cycle

end Stitch
