/-
  The pitch of `stepAttPath`.

  Within a cycle the pitch is a staircase of twelve steps up from 2 s on and the same staircase
  down from 98 s on (`climb`, in steps); `stepAttPath_pitch` reads the stage arithmetic of
  `utils.hpp` as that. `Staircase` is what a pilot sees, `stepAttPath_staircase` the result.
-/
import Hummingbird.Utils.FeedForward

open Set

namespace Hummingbird

open Blend Stitch Real

noncomputable section

/-- Degrees in radians. -/
def deg (d : ℝ) : ℝ := d * (π / 180)

/-- The steps climbed, `u` seconds into a cycle. -/
def climb (u : ℝ) : ℝ := stairs 3 8 12 (u - 2) - stairs 3 8 12 (u - 98)

end

theorem deg_mono {a b : ℝ} (h : a ≤ b) : deg a ≤ deg b :=
  mul_le_mul_of_nonneg_right h (by positivity)

theorem deg_sub (a b : ℝ) : deg a - deg b = deg (a - b) := (sub_mul a b _).symm

theorem abs_deg (a : ℝ) : |deg a| = deg |a| := by
  unfold deg
  rw [abs_mul, abs_of_pos (show 0 < π / 180 by positivity)]

/-! ## Climbing -/

section Climb

variable {u : ℝ}

theorem climb_up (h : u ≤ 98) : climb u = stairs 3 8 12 (u - 2) := by
  rw [climb, stairs_of_nonpos (by norm_num) (by norm_num) 12 (sub_nonpos.mpr h), sub_zero]

theorem climb_down (h : 98 ≤ u) : climb u = 12 - stairs 3 8 12 (u - 98) := by
  have htop : stairs 3 8 12 (u - 2) = (12 : ℕ) :=
    stairs_of_ge (by norm_num) (by norm_num) 12 (by push_cast; linarith)
  rw [climb, htop, Nat.cast_ofNat]

theorem climb_mem (u : ℝ) : 0 ≤ climb u ∧ climb u ≤ 12 := by
  have hmem : ∀ v, 0 ≤ stairs 3 8 12 v ∧ stairs 3 8 12 v ≤ 12 := by
    intro v
    have h : 0 ≤ stairs 3 8 12 v ∧ stairs 3 8 12 v ≤ (12 : ℕ) :=
      stairs_mem (by norm_num) (by norm_num) 12 v
    exact_mod_cast h
  rcases le_total u 98 with h | h
  · rw [climb_up h]
    exact hmem _
  · obtain ⟨h0, h12⟩ := hmem (u - 98)
    rw [climb_down h]
    exact ⟨by linarith, by linarith⟩

theorem climb_mono : MonotoneOn climb (Iic 98) := by
  intro u hu v hv huv
  rw [climb_up hu, climb_up hv]
  exact stairs_mono (by norm_num) 12 (by linarith)

theorem climb_anti : AntitoneOn climb (Ici 98) := by
  intro u hu v hv huv
  have hle : stairs 3 8 12 (u - 98) ≤ stairs 3 8 12 (v - 98) :=
    stairs_mono (by norm_num) 12 (by linarith)
  rw [climb_down hu, climb_down hv]
  linarith

theorem lipschitz_climb : Lipschitz (1 / 2) climb := by
  have hstairs : Lipschitz (1 / 2) (stairs 3 8 12) := by
    have h : Lipschitz (3 / 2 / 3) (stairs 3 8 12) :=
      lipschitz_stairs (by norm_num) (by norm_num) 12
    norm_num at h ⊢
    exact h
  refine lipschitz_of_sides (b := 98) ?_ ?_
  · intro s t hst ht
    rw [climb_up ht, climb_up (hst.trans ht)]
    exact (hstairs (s - 2) (t - 2) (by linarith)).trans_eq (by ring)
  · intro s t hst hs
    rw [climb_down hs, climb_down (hs.trans hst), sub_sub_sub_cancel_left, abs_sub_comm]
    exact (hstairs (s - 98) (t - 98) (by linarith)).trans_eq (by ring)

/-- On the step `i` of the way up. -/
theorem climb_up_stage {i : ℕ} (hi : i < 12) (hlo : 2 + i * 8 ≤ u) (hhi : u ≤ 2 + (i + 1) * 8) :
    climb u = i + blend ((u - (2 + i * 8)) / 3) := by
  have hle : (i : ℝ) + 1 ≤ 12 := by exact_mod_cast hi
  rw [climb_up (by linarith), stairs_of_mem (by norm_num) (by norm_num) hi (by linarith)
    (by linarith), sub_sub]

/-- On the step `i` of the way down. -/
theorem climb_down_stage {i : ℕ} (hi : i < 12) (hlo : 98 + i * 8 ≤ u)
    (hhi : u ≤ 98 + (i + 1) * 8) : climb u = 12 - i - blend ((u - (98 + i * 8)) / 3) := by
  have h0 : (0 : ℝ) ≤ i := i.cast_nonneg
  rw [climb_down (by linarith), stairs_of_mem (by norm_num) (by norm_num) hi (by linarith)
    (by linarith), sub_sub u, sub_sub 12]

/-- The zero hold at the start of a cycle. -/
theorem climb_start (h : u ≤ 2) : climb u = 0 := by
  rw [climb_up (by linarith), stairs_of_nonpos (by norm_num) (by norm_num) 12 (by linarith)]

/-- The zero hold at its end. -/
theorem climb_end (h : 194 ≤ u) : climb u = 0 := by
  have htop : stairs 3 8 12 (u - 98) = (12 : ℕ) :=
    stairs_of_ge (by norm_num) (by norm_num) 12 (by push_cast; linarith)
  rw [climb_down (by linarith), htop, Nat.cast_ofNat, sub_self]

/-- A cycle ends where the next one starts. -/
theorem climb_loops : climb 196 = climb 0 := by
  rw [climb_end (by norm_num), climb_start (by norm_num)]

end Climb

/-! ## The stages of `stepAttPath` -/

/-- The angles at the ends of the stage `i`; neither is clamped. -/
theorem stage_deg {i : ℤ} (hi : i < 12) :
    min (if i < 12 then (i : ℝ) * 5 else 60 + (i - 12 : ℤ) * 1) 60 = i * 5 ∧
      min (if i < 12 then (if i < 12 then (i : ℝ) * 5 else 60 + (i - 12 : ℤ) * 1) + 5
        else (if i < 12 then (i : ℝ) * 5 else 60 + (i - 12 : ℤ) * 1) + 1) 60 = (i + 1) * 5 := by
  have hle : (i : ℝ) + 1 ≤ 12 := by exact_mod_cast hi
  rw [if_pos hi, if_pos hi, min_eq_left (by linarith), min_eq_left (by linarith)]
  exact ⟨rfl, by ring⟩

/-- The blend from one angle to another at the time `l` of a stage. -/
theorem ramp_eq {l : ℝ} (hl : 0 ≤ l) (a b : ℝ) :
    (if l < 3 then a + (b - a) * smoothStep (l / 3) else b) = a + (b - a) * blend (l / 3) := by
  split
  · rename_i h
    rw [blend_of_mem (by linarith) (by linarith), smoothStep_eq]
  · rename_i h
    rw [blend_of_ge (by linarith), mul_one, add_sub_cancel]

/-- The steps of 5 degrees up to 60 degrees. -/
theorem trunc_firstSteps : trunc (60 / 5 : ℝ) = 12 := by
  rw [trunc, if_pos (by norm_num), Int.floor_eq_iff]
  norm_num

/-- There are no steps of 1 degree: the two maxima are equal. -/
theorem trunc_secondSteps : trunc ((60 - 60) / 1 : ℝ) = 0 := by
  rw [trunc, if_pos (by norm_num), Int.floor_eq_iff]
  norm_num

theorem stepAttPath_pitch {t : ℝ} (ht : 0 ≤ t) :
    (stepAttPath t).pitch = deg (5 * climb (cycleTime 196 t)) := by
  have hcycle : (2 + 2 * ((12 + 0 : ℤ) : ℝ) * (3 + 5) + 2) = 196 := by norm_num
  have hclimb : (2 * ((12 + 0 : ℤ) : ℝ) * (3 + 5)) = 192 := by norm_num
  unfold stepAttPath
  dsimp only
  rw [trunc_firstSteps, trunc_secondSteps, hcycle, hclimb,
    fmod_eq_cycleTime ht (by norm_num)]
  generalize cycleTime 196 t = u
  by_cases hstart : u < 2
  · rw [if_pos hstart, climb_start hstart.le, mul_zero, deg, zero_mul]
    rfl
  rw [if_neg hstart]
  by_cases hend : 192 ≤ u - 2
  · rw [if_pos hend, climb_end (by linarith), mul_zero, deg, zero_mul]
    rfl
  rw [if_neg hend]
  have h8 : (0 : ℝ) < 3 + 5 := by norm_num
  have hts : 0 ≤ u - 2 := by linarith
  -- the raw stage `k` and the time since it started
  obtain ⟨k, hlo, hhi⟩ := exists_cycle h8 (u - 2)
  have hfloor : ⌊(u - 2) / (3 + 5)⌋ = k := floor_div_eq h8 hlo hhi
  have hlocal : fmod (u - 2) (3 + 5) = u - 2 - k * (3 + 5) := by
    rw [fmod_eq_cycleTime hts h8, cycleTime_eq h8 hlo hhi]
  have hk0 : 0 ≤ k := by
    have : (-1 : ℝ) < k := by linarith
    exact_mod_cast this
  have hk24 : k < 24 := by
    have : (k : ℝ) < 24 := by linarith
    exact_mod_cast this
  obtain ⟨i, rfl⟩ := Int.eq_ofNat_of_zero_le hk0
  rw [hfloor, hlocal, ramp_eq (by linarith)]
  push_cast at hlo hhi
  by_cases hdown : 12 + 0 ≤ (i : ℤ)
  · have hstage : 2 * (12 + 0) - (i : ℤ) - 1 = 11 - (i - 12) := by ring
    obtain ⟨j, hj⟩ := Int.eq_ofNat_of_zero_le (show 0 ≤ (i : ℤ) - 12 by omega)
    have hjr : (i : ℝ) - 12 = j := by exact_mod_cast hj
    obtain ⟨hlow, hhigh⟩ := stage_deg (i := 11 - (i - 12)) (by omega)
    rw [if_pos hdown, if_pos hdown, if_pos hdown, hstage, hlow, hhigh,
      climb_down_stage (i := j) (by omega) (by linarith) (by linarith)]
    push_cast
    have harg : (u - 2 - i * (3 + 5)) / 3 = (u - (98 + j * 8)) / 3 := by
      rw [← hjr]
      ring
    rw [harg, hjr, deg]
    ring
  · obtain ⟨hlow, hhigh⟩ := stage_deg (i := i) (by omega)
    rw [if_neg hdown, if_neg hdown, if_neg hdown, hlow, hhigh,
      climb_up_stage (i := i) (by omega) (by linarith) (by linarith)]
    push_cast
    have harg : (u - 2 - i * (3 + 5)) / 3 = (u - (2 + i * 8)) / 3 := by ring
    rw [harg, deg]
    ring

/-! ## What a pilot sees -/

/-- The start of the cycle `n`. -/
def cycleStart (n : ℕ) : ℝ := n * 196

/-- The pitch of twelve steps of 5 degrees up and down again, in cycles of 196 s: each step is a
    ramp of 3 s and a rest of 5 s; the steps up start 2 s into the cycle. -/
structure Staircase (pitch : ℝ → ℝ) : Prop where
  range : ∀ t, 0 ≤ t → pitch t ∈ Icc 0 (deg 60)
  lipschitz : ∀ s t, 0 ≤ s → 0 ≤ t → |pitch t - pitch s| ≤ deg (5 / 2) * |t - s|
  rises : ∀ n, MonotoneOn pitch (Icc (cycleStart n) (cycleStart n + 98))
  top : ∀ n, pitch (cycleStart n + 98) = deg 60
  falls : ∀ n, AntitoneOn pitch (Icc (cycleStart n + 98) (cycleStart n + 196))
  ends : ∀ n, pitch (cycleStart n + 196) = 0
  rests_up : ∀ n i : ℕ, i < 12 →
    ∀ t ∈ Icc (cycleStart n + 2 + i * 8 + 3) (cycleStart n + 2 + i * 8 + 3 + 5),
      pitch t = deg (5 * (i + 1))
  rests_down : ∀ n i : ℕ, i < 12 →
    ∀ t ∈ Icc (cycleStart n + 98 + i * 8 + 3) (cycleStart n + 98 + i * 8 + 3 + 5),
      pitch t = deg (5 * (11 - i))

/-- The pitch in the cycle `n`, its end included. -/
theorem stepAttPath_pitch_cycle {n : ℕ} {t : ℝ}
    (h : t ∈ Icc (cycleStart n) (cycleStart n + 196)) :
    (stepAttPath t).pitch = deg (5 * climb (t - cycleStart n)) := by
  have h0 : 0 ≤ cycleStart n := mul_nonneg n.cast_nonneg (by norm_num)
  have heq := cycle_eq (g := climb) (by norm_num) climb_loops (k := n) (t := t)
    (by simpa [cycleStart] using h.1) (by
      have := h.2
      unfold cycleStart at this
      push_cast
      linarith)
  rw [stepAttPath_pitch (h0.trans h.1), heq, Int.cast_natCast, cycleStart]

theorem stepAttPath_staircase : Staircase fun t => (stepAttPath t).pitch where
  range := by
    intro t ht
    obtain ⟨h0, h12⟩ := climb_mem (cycleTime 196 t)
    rw [stepAttPath_pitch ht]
    constructor
    · exact mul_nonneg (by linarith) (by positivity)
    · exact deg_mono (by linarith)
  lipschitz := by
    intro s t hs ht
    have hl := lipschitz_cycle (by norm_num) (by norm_num) climb_loops lipschitz_climb
    have habs : |climb (cycleTime 196 t) - climb (cycleTime 196 s)| ≤ 1 / 2 * |t - s| := by
      rcases le_total s t with hst | hts
      · rw [abs_of_nonneg (sub_nonneg.mpr hst)]
        exact hl s t hst
      · rw [abs_sub_comm, abs_sub_comm t, abs_of_nonneg (sub_nonneg.mpr hts)]
        exact hl t s hts
    rw [stepAttPath_pitch ht, stepAttPath_pitch hs, deg_sub, abs_deg, ← mul_sub, abs_mul,
      abs_of_pos (show (0 : ℝ) < 5 by norm_num)]
    calc deg (5 * |climb (cycleTime 196 t) - climb (cycleTime 196 s)|)
        ≤ deg (5 * (1 / 2 * |t - s|)) := deg_mono (by linarith)
      _ = deg (5 / 2) * |t - s| := by
        unfold deg
        ring
  rises := by
    intro n s hs t ht hst
    dsimp only
    rw [stepAttPath_pitch_cycle ⟨hs.1, by linarith [hs.2]⟩,
      stepAttPath_pitch_cycle ⟨ht.1, by linarith [ht.2]⟩]
    have hle : climb (s - cycleStart n) ≤ climb (t - cycleStart n) :=
      climb_mono (sub_le_iff_le_add'.mpr hs.2) (sub_le_iff_le_add'.mpr ht.2) (by linarith)
    exact deg_mono (by linarith)
  top := by
    intro n
    have h12 : stairs 3 8 12 (98 - 98) = 0 :=
      stairs_of_nonpos (by norm_num) (by norm_num) 12 (by norm_num)
    rw [stepAttPath_pitch_cycle ⟨by linarith, by linarith⟩, add_sub_cancel_left,
      climb_down le_rfl, h12]
    norm_num
  falls := by
    intro n s hs t ht hst
    dsimp only
    rw [stepAttPath_pitch_cycle ⟨by linarith [hs.1], hs.2⟩,
      stepAttPath_pitch_cycle ⟨by linarith [ht.1], ht.2⟩]
    have hle : climb (t - cycleStart n) ≤ climb (s - cycleStart n) :=
      climb_anti (le_sub_iff_add_le'.mpr hs.1) (le_sub_iff_add_le'.mpr ht.1) (by linarith)
    exact deg_mono (by linarith)
  ends := by
    intro n
    rw [stepAttPath_pitch_cycle ⟨by linarith, le_rfl⟩, add_sub_cancel_left,
      climb_end (by norm_num), mul_zero, deg, zero_mul]
  rests_up := by
    intro n i hi t ht
    have hle : (i : ℝ) + 1 ≤ 12 := by exact_mod_cast hi
    have h0 : (0 : ℝ) ≤ i := i.cast_nonneg
    obtain ⟨hlo, hhi⟩ := ht
    rw [stepAttPath_pitch_cycle ⟨by linarith, by linarith⟩,
      climb_up_stage hi (by linarith) (by linarith), blend_of_ge (by linarith)]
  rests_down := by
    intro n i hi t ht
    have hle : (i : ℝ) + 1 ≤ 12 := by exact_mod_cast hi
    have h0 : (0 : ℝ) ≤ i := i.cast_nonneg
    obtain ⟨hlo, hhi⟩ := ht
    have heleven : (12 - i - 1 : ℝ) = 11 - i := by ring
    rw [stepAttPath_pitch_cycle ⟨by linarith, by linarith⟩,
      climb_down_stage hi (by linarith) (by linarith), blend_of_ge (by linarith), heleven]

end Hummingbird
