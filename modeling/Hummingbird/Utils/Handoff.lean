/-
  `utils::TargetCMD`, `utils::HandoffFilters` and `utils::RC2DDS_handoff`.

  The handoff runs one low-pass filter per axis from the start pose to the initial pose. The
  yaw target is unwrapped near the yaw filter's own output at every step.
-/
import Hummingbird.Utils.Angle
import Hummingbird.Utils.Lpf

namespace Hummingbird

open WithNaN

/-- `utils::TargetCMD`; its default has every field zero. -/
structure TargetCMD (K : Type*) where
  x : K
  y : K
  z : K
  vx : K
  vy : K
  roll : K
  pitch : K
  yaw : K

namespace TargetCMD

/-- `TargetCMD cmd;` -/
def zero {K : Type*} [Zero K] : TargetCMD K := ⟨0, 0, 0, 0, 0, 0, 0, 0⟩

/-- Apply a function to every field. -/
def map {K L : Type*} (f : K → L) (c : TargetCMD K) : TargetCMD L :=
  ⟨f c.x, f c.y, f c.z, f c.vx, f c.vy, f c.roll, f c.pitch, f c.yaw⟩

end TargetCMD

noncomputable section

/-- `utils::HandoffFilters`. -/
structure HandoffFilters where
  x : LPF Double := LPF.ofTime handoffRuntime
  y : LPF Double := LPF.ofTime handoffRuntime
  z : LPF Double := LPF.ofTime handoffRuntime
  roll : LPF Double := LPF.ofTime handoffRuntime
  pitch : LPF Double := LPF.ofTime handoffRuntime
  yaw : LPF Double := LPF.ofTime handoffRuntime

/-- `HandoffFilters::reset`. -/
def HandoffFilters.reset (f : HandoffFilters) (cmd : TargetCMD Double) : HandoffFilters where
  x := f.x.reset cmd.x
  y := f.y.reset cmd.y
  z := f.z.reset cmd.z
  roll := f.roll.reset cmd.roll
  pitch := f.pitch.reset cmd.pitch
  yaw := f.yaw.reset cmd.yaw

/-- `utils::initialPose`. -/
def initialPose : TargetCMD Double :=
  { TargetCMD.zero with
    x := num initialPoseXM
    y := num initialPoseYM
    z := num initialPoseZM
    roll := num initialPoseRollRad
    pitch := num initialPosePitchRad
    yaw := num initialPoseYawRad }

/-- The filters of `utils::RC2DDS_handoff` after its six updates. -/
def HandoffFilters.step (filters : HandoffFilters) (pose : TargetCMD Double) : HandoffFilters :=
  let target := { pose with yaw := unwrapNear pose.yaw filters.yaw.y }
  { x := filters.x.update target.x
    y := filters.y.update target.y
    z := filters.z.update target.z
    roll := filters.roll.update target.roll
    pitch := filters.pitch.update target.pitch
    yaw := filters.yaw.update target.yaw }

/-- The outputs of the six filters as a command. -/
def HandoffFilters.output (f : HandoffFilters) : TargetCMD Double :=
  { TargetCMD.zero with
    x := f.x.y, y := f.y.y, z := f.z.y, roll := f.roll.y, pitch := f.pitch.y, yaw := f.yaw.y }

/-- `utils::RC2DDS_handoff`: the command and the updated filters. -/
def rc2ddsHandoff (pose : TargetCMD Double) (filters : HandoffFilters) :
    TargetCMD Double × HandoffFilters :=
  let filters := filters.step pose
  (filters.output, filters)

end

namespace HandoffFilters

/-! ## The gains -/

/-- `P` holds of each of the six filters. -/
structure Each (P : LPF Double → Prop) (f : HandoffFilters) : Prop where
  x : P f.x
  y : P f.y
  z : P f.z
  roll : P f.roll
  pitch : P f.pitch
  yaw : P f.yaw

/-- The filters have the gain that the constructor gave them. -/
def Tuned : HandoffFilters → Prop := Each fun f => f.alpha = LPF.gain handoffRuntime

/-- The filters have their gain and hold a value. -/
def Ready : HandoffFilters → Prop :=
  Each fun f => f.alpha = LPF.gain handoffRuntime ∧ f.initialized = true

variable {f : HandoffFilters}

theorem tuned_default : Tuned {} := ⟨rfl, rfl, rfl, rfl, rfl, rfl⟩

theorem Ready.tuned (hf : f.Ready) : f.Tuned :=
  ⟨hf.x.1, hf.y.1, hf.z.1, hf.roll.1, hf.pitch.1, hf.yaw.1⟩

theorem Tuned.reset (hf : f.Tuned) (cmd : TargetCMD Double) : (f.reset cmd).Ready :=
  ⟨⟨hf.x, rfl⟩, ⟨hf.y, rfl⟩, ⟨hf.z, rfl⟩, ⟨hf.roll, rfl⟩, ⟨hf.pitch, rfl⟩, ⟨hf.yaw, rfl⟩⟩

theorem Tuned.step (hf : f.Tuned) (pose : TargetCMD Double) : (f.step pose).Ready := by
  have hupdate : ∀ (g : LPF Double) (x : Double), g.alpha = LPF.gain handoffRuntime →
      (g.update x).alpha = LPF.gain handoffRuntime ∧ (g.update x).initialized = true := by
    intro g x hg
    exact ⟨(LPF.update_alpha g x).trans hg, LPF.update_initialized g x⟩
  exact ⟨hupdate _ _ hf.x, hupdate _ _ hf.y, hupdate _ _ hf.z, hupdate _ _ hf.roll,
    hupdate _ _ hf.pitch, hupdate _ _ hf.yaw⟩

end HandoffFilters

/-! ## The trajectory of one handoff -/

section Trajectory

open Approach AddCommGroup

/-- What is left, `n` handoff ticks after the start, of a start error on one axis. -/
noncomputable def handoffValue (target start : ℝ) (n : ℕ) : ℝ :=
  target + (1 - LPF.gain handoffRuntime) ^ n * (start - target)

@[simp] theorem handoffValue_zero (target start : ℝ) : handoffValue target start 0 = start := by
  simp [handoffValue]

theorem approach_handoffValue (target start : ℝ) (n : ℕ) :
    approach (LPF.gain handoffRuntime) target (handoffValue target start n) =
      handoffValue target start (n + 1) := by
  rw [handoffValue, approach_residual, handoffValue, pow_succ']

theorem handoff_residual_pos (n : ℕ) : 0 < (1 - LPF.gain handoffRuntime) ^ n :=
  pow_pos (LPF.one_sub_gain_pos (by norm_num [handoffRuntime])) n

theorem handoff_residual_le_one (n : ℕ) : (1 - LPF.gain handoffRuntime) ^ n ≤ 1 := by
  have hpos := LPF.one_sub_gain_pos (T := handoffRuntime) (by norm_num [handoffRuntime])
  exact pow_le_one₀ hpos.le (LPF.one_sub_gain_lt_one _).le

theorem handoff_residual_lt_one (n : ℕ) : (1 - LPF.gain handoffRuntime) ^ (n + 1) < 1 := by
  have hpos := LPF.one_sub_gain_pos (T := handoffRuntime) (by norm_num [handoffRuntime])
  exact pow_lt_one₀ hpos.le (LPF.one_sub_gain_lt_one _) (Nat.succ_ne_zero n)

/-- Later values lie between the target and earlier ones: the sweep does not reverse and does
    not overshoot. -/
theorem handoffValue_mem_uIcc (target start : ℝ) {m n : ℕ} (h : m ≤ n) :
    handoffValue target start n ∈ Set.uIcc target (handoffValue target start m) := by
  unfold handoffValue
  rw [← iterate_approach, ← iterate_approach]
  exact iterate_approach_mem_uIcc (LPF.gain_pos _).le (LPF.gain_le_one _) target start h

theorem abs_sub_handoffValue (target start : ℝ) (n : ℕ) :
    |target - handoffValue target start n| =
      (1 - LPF.gain handoffRuntime) ^ n * |target - start| := by
  have heq : target - handoffValue target start n =
      (1 - LPF.gain handoffRuntime) ^ n * (target - start) := by
    unfold handoffValue
    ring
  rw [heq, abs_mul, abs_of_pos (handoff_residual_pos n)]

/-- The command sweeps no further than the start error. -/
theorem abs_handoffValue_sub_start_le (target start : ℝ) (n : ℕ) :
    |handoffValue target start n - start| ≤ |target - start| := by
  have heq : handoffValue target start n - start =
      (1 - (1 - LPF.gain handoffRuntime) ^ n) * (target - start) := by
    unfold handoffValue
    ring
  rw [heq, abs_mul, abs_of_nonneg (by linarith [handoff_residual_le_one n])]
  have hpos := handoff_residual_pos n
  exact mul_le_of_le_one_left (abs_nonneg _) (by linarith)

/-- `handoff_runtime * RATE_HZ` ticks leave 1% of the start error. -/
theorem handoffValue_runtime (target start : ℝ) {n : ℕ} (hn : handoffRuntime * rateHz = n) :
    handoffValue target start n - target = 0.01 * (start - target) := by
  rw [handoffValue, LPF.one_sub_gain_pow (by norm_num [handoffRuntime]) hn, add_sub_cancel_left]

/-- The yaw branch chosen at the start is chosen again all along the sweep, also when the start
    is exactly half a turn away. -/
theorem unwrapNear_handoffValue {yaw initialYaw start : ℝ}
    (hyaw : unwrapNear (num initialYaw) (num start) = num yaw)
    (hc : yaw ≡ initialYaw [PMOD 2 * Real.pi]) (hle : |yaw - start| ≤ Real.pi) (n : ℕ) :
    unwrapNear (num initialYaw) (num (handoffValue yaw start n)) = num yaw := by
  cases n with
  | zero => rw [handoffValue_zero, hyaw]
  | succ n =>
    refine unwrapNear_eq_of_abs_lt hc ?_
    rw [abs_sub_handoffValue]
    calc (1 - LPF.gain handoffRuntime) ^ (n + 1) * |yaw - start|
        ≤ (1 - LPF.gain handoffRuntime) ^ (n + 1) * Real.pi :=
          mul_le_mul_of_nonneg_left hle (handoff_residual_pos _).le
      _ < 1 * Real.pi := mul_lt_mul_of_pos_right (handoff_residual_lt_one n) Real.pi_pos
      _ = Real.pi := one_mul _

/-- The command is already within half a turn of its target, so `RC2DDS_handoff` keeps it. -/
theorem unwrapNear_handoffTarget {yaw start : ℝ} (hle : |yaw - start| ≤ Real.pi) (n : ℕ) :
    unwrapNear (num yaw) (num (handoffValue yaw start n)) = num yaw := by
  refine unwrapNear_of_abs_le ?_
  rw [abs_sub_handoffValue]
  calc (1 - LPF.gain handoffRuntime) ^ n * |yaw - start|
      ≤ 1 * |yaw - start| :=
        mul_le_mul_of_nonneg_right (handoff_residual_le_one n) (abs_nonneg _)
    _ ≤ Real.pi := by rw [one_mul]; exact hle

/-- The command `n` handoff ticks after a start at `start`, towards the yaw `yaw`. -/
noncomputable def handoffCommand (start : TargetCMD ℝ) (yaw : ℝ) (n : ℕ) : TargetCMD ℝ :=
  { TargetCMD.zero with
    x := handoffValue initialPoseXM start.x n
    y := handoffValue initialPoseYM start.y n
    z := handoffValue initialPoseZM start.z n
    roll := handoffValue initialPoseRollRad start.roll n
    pitch := handoffValue initialPosePitchRad start.pitch n
    yaw := handoffValue yaw start.yaw n }

/-- One handoff tick, from the command `n` ticks after the start to the next. -/
theorem HandoffFilters.Ready.step_output {f : HandoffFilters} (hf : f.Ready)
    {start : TargetCMD ℝ} {yaw : ℝ} (hle : |yaw - start.yaw| ≤ Real.pi) {n : ℕ}
    (hout : f.output = (handoffCommand start yaw n).map num) :
    (f.step { initialPose with yaw := num yaw }).output =
      (handoffCommand start yaw (n + 1)).map num := by
  have hx : f.x.y = num (handoffValue initialPoseXM start.x n) := congrArg TargetCMD.x hout
  have hy : f.y.y = num (handoffValue initialPoseYM start.y n) := congrArg TargetCMD.y hout
  have hz : f.z.y = num (handoffValue initialPoseZM start.z n) := congrArg TargetCMD.z hout
  have hroll : f.roll.y = num (handoffValue initialPoseRollRad start.roll n) :=
    congrArg TargetCMD.roll hout
  have hpitch : f.pitch.y = num (handoffValue initialPosePitchRad start.pitch n) :=
    congrArg TargetCMD.pitch hout
  have hyaw : f.yaw.y = num (handoffValue yaw start.yaw n) := congrArg TargetCMD.yaw hout
  -- one axis
  have haxis : ∀ (g : LPF Double) (target s₀ : ℝ),
      g.alpha = LPF.gain handoffRuntime ∧ g.initialized = true →
      g.y = num (handoffValue target s₀ n) →
      (g.update (num target)).y = num (handoffValue target s₀ (n + 1)) := by
    intro g target s₀ hg hgy
    rw [LPF.update_y_num hg.2 hgy, hg.1, approach_handoffValue]
  unfold HandoffFilters.step HandoffFilters.output
  rw [hyaw, unwrapNear_handoffTarget hle]
  simp only [initialPose, haxis _ _ _ hf.x hx, haxis _ _ _ hf.y hy, haxis _ _ _ hf.z hz,
    haxis _ _ _ hf.roll hroll, haxis _ _ _ hf.pitch hpitch, haxis _ _ _ hf.yaw hyaw]
  rfl

end Trajectory

end Hummingbird
