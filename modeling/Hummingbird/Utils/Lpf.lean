/-
  `utils::LPF`, the first-order low-pass filter of `utils.hpp`.

  The filter is generic in its values: the servo nodes run it over the reals, the command
  node over `Double`. The gain is a real in both, since every filter is built from a constant
  convergence time. An initialized filter moves its output towards the input by the fraction
  `alpha` (`Approach.approach`), so the residual after `n` updates towards a fixed input is
  `(1 - alpha) ^ n`; the gain is chosen so that `convergenceTimeSec * rateHz` updates leave
  1% (`one_sub_gain_pow`).
-/
import Mathlib.Algebra.Module.Defs
import Mathlib.Analysis.SpecialFunctions.Pow.Real
import Hummingbird.Library.Approach
import Hummingbird.Library.WithNaN
import Hummingbird.Params

namespace Hummingbird

open WithNaN Approach

/-- `utils::LPF`. -/
structure LPF (K : Type*) where
  y : K
  alpha : ℝ
  initialized : Bool

namespace LPF

variable {K : Type*}

noncomputable section

/-- The value the constructor gives `alpha`. -/
def gain (convergenceTimeSec : ℝ) : ℝ :=
  if convergenceTimeSec ≤ 0 then 1
  else
    let sampleCount := convergenceTimeSec * rateHz
    1 - (0.01 : ℝ) ^ (1 / sampleCount)

/-- The constructor `LPF(convergence_time_sec)`. -/
def ofTime [Zero K] (convergenceTimeSec : ℝ) : LPF K where
  y := 0
  alpha := gain convergenceTimeSec
  initialized := false

/-- `LPF::update`; the value it returns is the new `y`. -/
def update [Add K] [SMul ℝ K] (f : LPF K) (x : K) : LPF K :=
  if !f.initialized then { f with y := x, initialized := true }
  else { f with y := f.alpha • x + (1 - f.alpha) • f.y }

/-- `LPF::reset`. -/
def reset (f : LPF K) (x : K) : LPF K :=
  { f with y := x, initialized := true }

end

@[simp] theorem reset_y (f : LPF K) (x : K) : (f.reset x).y = x := rfl
@[simp] theorem reset_alpha (f : LPF K) (x : K) : (f.reset x).alpha = f.alpha := rfl
@[simp] theorem reset_initialized (f : LPF K) (x : K) : (f.reset x).initialized = true := rfl

@[simp] theorem ofTime_alpha [Zero K] (T : ℝ) : (ofTime T : LPF K).alpha = gain T := rfl

section Update

variable [Add K] [SMul ℝ K]

@[simp] theorem update_alpha (f : LPF K) (x : K) : (f.update x).alpha = f.alpha := by
  unfold update
  split <;> rfl

@[simp] theorem update_initialized (f : LPF K) (x : K) : (f.update x).initialized = true := by
  unfold update
  split
  · rfl
  · rename_i h
    simpa using h

theorem update_y {f : LPF K} (hf : f.initialized = true) (x : K) :
    (f.update x).y = f.alpha • x + (1 - f.alpha) • f.y := by
  simp [update, hf]

end Update

/-- An initialized filter over the reals approaches its input. -/
theorem update_y_real {f : LPF ℝ} (hf : f.initialized = true) (x : ℝ) :
    (f.update x).y = approach f.alpha x f.y := by
  rw [update_y hf]
  rfl

/-- Updates with one input repeat the approach. -/
theorem iterate_update {f : LPF ℝ} (hf : f.initialized = true) (x : ℝ) (n : ℕ) :
    ((fun g => g.update x)^[n] f).y = (approach f.alpha x)^[n] f.y := by
  induction n generalizing f with
  | zero => rfl
  | succ n ih =>
    rw [Function.iterate_succ_apply, ih (update_initialized f x), update_alpha,
      update_y_real hf, Function.iterate_succ_apply]

/-- An initialized filter that holds a number approaches a number as it does over the
    reals. -/
theorem update_y_num {f : LPF (WithNaN ℝ)} (hf : f.initialized = true) {y : ℝ}
    (hy : f.y = num y) (x : ℝ) : (f.update (num x)).y = num (approach f.alpha x y) := by
  rw [update_y hf, hy]
  rfl

/-- An update with a number does not change whether a filter holds one. -/
theorem isNum_update_y_iff {f : LPF (WithNaN ℝ)} (hf : f.initialized = true) {x : WithNaN ℝ}
    (hx : x.IsNum) : (f.update x).y.IsNum ↔ f.y.IsNum := by
  rw [update_y hf]
  simp [hx]

/-! ## The gain -/

theorem gain_of_pos {T : ℝ} (hT : 0 < T) : gain T = 1 - (0.01 : ℝ) ^ (1 / (T * rateHz)) := by
  simp [gain, not_le.mpr hT]

theorem one_sub_gain_pos {T : ℝ} (hT : 0 < T) : 0 < 1 - gain T := by
  rw [gain_of_pos hT, sub_sub_cancel]
  exact Real.rpow_pos_of_pos (by norm_num) _

theorem gain_pos (T : ℝ) : 0 < gain T := by
  rcases le_or_gt T 0 with hT | hT
  · simp [gain, hT]
  · rw [gain_of_pos hT, sub_pos]
    refine Real.rpow_lt_one (by norm_num) (by norm_num) ?_
    have hr : (0 : ℝ) < rateHz := by norm_num [rateHz]
    positivity

theorem gain_le_one (T : ℝ) : gain T ≤ 1 := by
  rcases le_or_gt T 0 with hT | hT
  · simp [gain, hT]
  · linarith [one_sub_gain_pos hT]

theorem one_sub_gain_lt_one (T : ℝ) : 1 - gain T < 1 := sub_lt_self 1 (gain_pos T)

/-- An update of an initialized filter stays between its input and where it was. -/
theorem update_mem_uIcc {f : LPF ℝ} (hf : f.initialized = true) {T : ℝ} (halpha : f.alpha = gain T)
    (x : ℝ) : (f.update x).y ∈ Set.uIcc x f.y := by
  rw [update_y_real hf, halpha]
  exact approach_mem_uIcc (gain_pos T).le (gain_le_one T) x f.y

/-- `T * rateHz` updates, when that is a whole number `n`, leave 1% of the distance. -/
theorem one_sub_gain_pow {T : ℝ} (hT : 0 < T) {n : ℕ} (hn : T * rateHz = n) :
    (1 - gain T) ^ n = 0.01 := by
  have hr : (0 : ℝ) < rateHz := by norm_num [rateHz]
  have hn0 : (n : ℝ) ≠ 0 := by
    rw [← hn]
    positivity
  rw [gain_of_pos hT, sub_sub_cancel, hn, ← Real.rpow_natCast, ← Real.rpow_mul (by norm_num),
    one_div_mul_cancel hn0, Real.rpow_one]

/-- Fewer than `T * rateHz` updates leave more than 1%. -/
theorem one_sub_gain_pow_le_iff {T : ℝ} (hT : 0 < T) {m : ℕ} (hm : T * rateHz = m) (n : ℕ) :
    (1 - gain T) ^ n ≤ 0.01 ↔ T * rateHz ≤ n := by
  rw [← one_sub_gain_pow hT hm,
    pow_le_pow_iff_right_of_lt_one₀ (one_sub_gain_pos hT) (one_sub_gain_lt_one T), hm, Nat.cast_le]

/-- Over `n` updates the gain closes 99% of the distance, so it is at least `d` whenever `n`
    steps of `d` do not. -/
theorem le_gain {T : ℝ} (hT : 0 < T) {n : ℕ} (hn : T * rateHz = n) {d : ℝ} (hd1 : d ≤ 1)
    (hd : n * d < 0.99) : d ≤ gain T := by
  by_contra hlt
  have hbernoulli : 1 + n * (-d) ≤ (1 + -d) ^ n := one_add_mul_le_pow (by linarith) n
  have hpow : (1 + -d) ^ n ≤ (1 - gain T) ^ n :=
    pow_le_pow_left₀ (by linarith) (by linarith [not_le.mp hlt]) n
  rw [one_sub_gain_pow hT hn] at hpow
  linarith

end LPF

end Hummingbird
