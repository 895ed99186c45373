/-
  `utils::LPF` over histories of calls.

  A history is the list of the calls of a filter since its construction, newest first. Every update
  moves the output towards its input, which keeps it between the least and the greatest of the
  values `sinceReset` (`enclosed_after`). A history that ends with updates of one input repeats
  one approach (`after_updates`), whose residual is a power of `1 - alpha`.
-/
import Hummingbird.Utils.Lpf

namespace Hummingbird

open Approach

namespace LPF

inductive Call
  | reset (x : ℝ)
  | update (x : ℝ)

noncomputable section

def call (f : LPF ℝ) : Call → LPF ℝ
  | .reset x => f.reset x
  | .update x => f.update x

/-- The filter after the calls of a history. -/
def after (f : LPF ℝ) : List Call → LPF ℝ
  | [] => f
  | c :: h => (after f h).call c

end

/-- The value of the last reset, or the first input if there was none, and the inputs since. -/
def sinceReset : List Call → List ℝ
  | [] => []
  | .reset x :: _ => [x]
  | .update x :: h => x :: sinceReset h

/-- The history `h`, then a reset and `n` updates with one input. -/
def settling (h : List Call) (y₀ x : ℝ) (n : ℕ) : List Call :=
  List.replicate n (.update x) ++ .reset y₀ :: h

/-- What holds of `LPF(convergence_time_sec)`, whatever calls came before. -/
structure Smooths (T : ℝ) : Prop where
  alpha : ∀ h, ((ofTime T).after h).alpha = (ofTime T : LPF ℝ).alpha ∧
    (ofTime T : LPF ℝ).alpha ∈ Set.Ioc 0 1
  enclosed : ∀ h, h ≠ [] → Enclosed (sinceReset h) ((ofTime T).after h).y
  towards : ∀ h x, h ≠ [] →
    ((ofTime T).after (.update x :: h)).y ∈ Set.uIcc x ((ofTime T).after h).y
  settles : ∀ h y₀ x n, ((ofTime T).after (settling h y₀ x n)).y =
    x + (1 - (ofTime T : LPF ℝ).alpha) ^ n * (y₀ - x)
  decreases : 0 < T → ∀ h y₀ x, y₀ ≠ x →
    StrictAnti fun n => |((ofTime T).after (settling h y₀ x n)).y - x|
  onePercent : 0 < T → ∀ h y₀ x (n : ℕ), T * rateHz = n →
    ((ofTime T).after (settling h y₀ x n)).y - x = 0.01 * (y₀ - x)

/-! ## Any history -/

@[simp] theorem after_alpha (f : LPF ℝ) (h : List Call) : (f.after h).alpha = f.alpha := by
  induction h with
  | nil => rfl
  | cons c h ih =>
    cases c with
    | reset x => exact ih
    | update x => exact (update_alpha _ x).trans ih

/-- The first call leaves a filter initialized. -/
theorem after_initialized (f : LPF ℝ) {h : List Call} (hne : h ≠ []) :
    (f.after h).initialized = true := by
  cases h with
  | nil => exact absurd rfl hne
  | cons c h =>
    cases c with
    | reset x => rfl
    | update x => exact update_initialized _ x

/-- Every update but the first call stays between its input and the output before it. -/
theorem after_update_mem (T : ℝ) {h : List Call} (hne : h ≠ []) (x : ℝ) :
    ((ofTime T).after (.update x :: h)).y ∈ Set.uIcc x ((ofTime T).after h).y :=
  update_mem_uIcc (after_initialized _ hne) (after_alpha _ h) x

theorem enclosed_after (T : ℝ) {h : List Call} (hne : h ≠ []) :
    Enclosed (sinceReset h) ((ofTime T).after h).y := by
  induction h with
  | nil => exact absurd rfl hne
  | cons c h ih =>
    cases c with
    | reset x => exact enclosed_singleton x
    | update x =>
      by_cases hfirst : h = []
      · rw [hfirst]
        exact enclosed_singleton x
      · exact (ih hfirst).cons (after_update_mem T hfirst x)

/-! ## One input -/

theorem after_updates (f : LPF ℝ) (h : List Call) (x : ℝ) (n : ℕ) :
    f.after (List.replicate n (.update x) ++ h) = (fun g => g.update x)^[n] (f.after h) := by
  induction n with
  | zero => rfl
  | succ n ih =>
    rw [List.replicate_succ, List.cons_append, after, ih, Function.iterate_succ_apply']
    rfl

/-- What is left, after `n` updates with the input `x`, of a reset to `y₀`. -/
theorem after_settling (T : ℝ) (h : List Call) (y₀ x : ℝ) (n : ℕ) :
    ((ofTime T).after (settling h y₀ x n)).y = (approach (gain T) x)^[n] y₀ := by
  have hreset : ((ofTime T).after (.reset y₀ :: h)).y = y₀ := rfl
  rw [settling, after_updates, iterate_update (after_initialized _ (List.cons_ne_nil _ h)),
    after_alpha, ofTime_alpha, hreset]

/-- For every convergence time. -/
theorem lpf_smooths (T : ℝ) : Smooths T where
  alpha h := ⟨after_alpha _ h, gain_pos T, gain_le_one T⟩
  enclosed h hne := enclosed_after T hne
  towards h x hne := after_update_mem T hne x
  settles := by
    intro h y₀ x n
    rw [after_settling, iterate_approach, ofTime_alpha]
  decreases := by
    intro hT h y₀ x hne
    simp only [after_settling]
    exact strictAnti_abs_iterate_sub (gain_pos T) (sub_pos.mp (one_sub_gain_pos hT)) hne
  onePercent := by
    intro hT h y₀ x n hn
    rw [after_settling, iterate_approach, one_sub_gain_pow hT hn, add_sub_cancel_left]

/-- The filters of the handoff leave 1% after 3200 updates. -/
theorem lpf_smooths_handoff :
    ((ofTime handoffRuntime).after (settling [] 0 1 3200)).y - 1 = 0.01 * (0 - 1) :=
  (lpf_smooths handoffRuntime).onePercent (by norm_num [handoffRuntime]) [] 0 1 3200
    (by norm_num [handoffRuntime, rateHz])

end LPF

end Hummingbird
