/-
  The path generators of `utils.hpp`, in exact real arithmetic.

  `TWO_POINT` of `posPath` is a compile-time constant (`true`); the four-corner alternative
  is kept in the definition as it is in the source.

  Every path starts at the origin. `StartsWithin speed c t` bounds how far the position of `c`
  has come after `t` seconds; the lemmas of the last section prove it of every generator, at
  1.5 m/s.
-/
import Mathlib.Analysis.SpecialFunctions.Trigonometric.Basic
import Hummingbird.Library.Blend
import Hummingbird.Params
import Hummingbird.Utils.Handoff

namespace Hummingbird

open Real

noncomputable section

/-- Truncation towards zero. -/
def trunc (x : ℝ) : ℤ := if 0 ≤ x then ⌊x⌋ else ⌈x⌉

/-- `std::fmod`. -/
def fmod (x y : ℝ) : ℝ := x - trunc (x / y) * y

/-- `a * a * (3.0 - 2.0 * a)`, the blend of every ramp. -/
def smoothStep (a : ℝ) : ℝ := a * a * (3 - 2 * a)

/-- `utils::posPath`. -/
def posPath (t : ℝ) : TargetCMD ℝ :=
  let twoPoint : Bool := true
  let segSec : ℝ := 2
  let holdSec : ℝ := 3
  let xy : ℝ := 1
  let cycleSec := segSec + holdSec
  let phase : ℤ := ⌊t / cycleSec⌋.tmod (if twoPoint then 2 else 4)
  let localT := fmod t cycleSec
  let corners : ℤ → ℝ × ℝ
    | 0 => (xy, 0)
    | 1 => (xy, xy)
    | 2 => (0, xy)
    | _ => (0, 0)
  let p0 : ℝ × ℝ :=
    if twoPoint then (if phase = 0 then (0, 0) else (xy, 0))
    else if phase = 0 then (0, 0) else corners (phase - 1)
  let p1 : ℝ × ℝ :=
    if twoPoint then (if phase = 0 then (xy, 0) else (0, 0))
    else corners phase
  let a := localT / segSec
  let s := if localT < segSec then smoothStep a else 1
  let dsDt := 6 * a * (1 - a) / segSec
  { TargetCMD.zero with
    x := p0.1 + (p1.1 - p0.1) * s
    y := p0.2 + (p1.2 - p0.2) * s
    vx := if localT < segSec then (p1.1 - p0.1) * dsDt else 0
    vy := if localT < segSec then (p1.2 - p0.2) * dsDt else 0 }

/-- `utils::attPath`. -/
def attPath (t : ℝ) : TargetCMD ℝ :=
  let tuneSec : ℝ := 40
  let axisT := fmod t tuneSec
  let w := 2 * π / tuneSec
  { TargetCMD.zero with pitch := pitchMax * sin (w * axisT) }

/-- `utils::stepAttPath`. -/
def stepAttPath (t : ℝ) : TargetCMD ℝ :=
  let zeroHoldSec : ℝ := 2
  let rampSec : ℝ := 3
  let holdSec : ℝ := 5
  let switchDeg : ℝ := 60
  let firstStepDeg : ℝ := 5
  let secondStepDeg : ℝ := 1
  let maxDeg : ℝ := 60
  let deg2rad : ℝ := π / 180
  let firstStageCount : ℤ := trunc (switchDeg / firstStepDeg)
  let stageSec := rampSec + holdSec
  let upStageCount : ℤ := firstStageCount + trunc ((maxDeg - switchDeg) / secondStepDeg)
  let cycleSec := zeroHoldSec + 2 * upStageCount * stageSec + zeroHoldSec
  let cycleT := fmod t cycleSec
  if cycleT < zeroHoldSec then TargetCMD.zero
  else
    let ts := cycleT - zeroHoldSec
    if 2 * upStageCount * stageSec ≤ ts then TargetCMD.zero
    else
      let rawStage : ℤ := ⌊ts / stageSec⌋
      let stageT := fmod ts stageSec
      let down := upStageCount ≤ rawStage
      let stage : ℤ := if down then 2 * upStageCount - rawStage - 1 else rawStage
      let startDeg : ℝ :=
        if stage < firstStageCount then stage * firstStepDeg
        else switchDeg + (stage - firstStageCount : ℤ) * secondStepDeg
      let targetDeg : ℝ :=
        if stage < firstStageCount then startDeg + firstStepDeg else startDeg + secondStepDeg
      let lowDeg := min startDeg maxDeg
      let highDeg := min targetDeg maxDeg
      -- `if (down) std::swap(start_deg, target_deg);`
      let startAngle := (if down then highDeg else lowDeg) * deg2rad
      let targetAngle := (if down then lowDeg else highDeg) * deg2rad
      { TargetCMD.zero with
        pitch :=
          if stageT < rampSec then
            startAngle + (targetAngle - startAngle) * smoothStep (stageT / rampSec)
          else targetAngle }

/-- `utils::circle_demo`. -/
def circleDemo (t : ℝ) : TargetCMD ℝ :=
  let hoverSec : ℝ := 3
  let period : ℝ := 30
  let radius : ℝ := 1 / 2
  let pitchAmp : ℝ := 0 * π / 180
  if t < hoverSec then TargetCMD.zero
  else
    let tm := t - hoverSec
    let w := 2 * π / period
    { TargetCMD.zero with
      x := radius * (cos (w * tm) - 1)
      y := radius * sin (w * tm)
      pitch := pitchAmp * sin (w * tm) }

/-- `utils::demo_straight`. -/
def demoStraight (t : ℝ) : TargetCMD ℝ :=
  let moveSec : ℝ := 1
  let holdSec : ℝ := 5
  let dist : ℝ := 1
  let period := 2 * (moveSec + holdSec)
  let tm := fmod (max 0 t) period
  if tm < holdSec then TargetCMD.zero
  else if tm < holdSec + moveSec then
    let a := (tm - holdSec) / moveSec
    { TargetCMD.zero with y := dist * smoothStep a, vy := dist * 6 * a * (1 - a) / moveSec }
  else if tm < 2 * holdSec + moveSec then { TargetCMD.zero with y := dist }
  else
    let a := (tm - 2 * holdSec - moveSec) / moveSec
    { TargetCMD.zero with
      y := dist * (1 - smoothStep a), vy := -dist * 6 * a * (1 - a) / moveSec }

end

/-! ## How far a path has come -/

/-- The position of `c` is at most `speed * t` away from the origin. -/
def StartsWithin (speed : ℝ) (c : TargetCMD ℝ) (t : ℝ) : Prop :=
  √(c.x * c.x + c.y * c.y + c.z * c.z) ≤ speed * t

theorem startsWithin_of_sq_le {speed t : ℝ} {c : TargetCMD ℝ} (ht : 0 ≤ speed * t)
    (h : c.x * c.x + c.y * c.y + c.z * c.z ≤ (speed * t) * (speed * t)) :
    StartsWithin speed c t := by
  unfold StartsWithin
  rw [Real.sqrt_le_left ht, sq]
  exact h

/-- A path that moves along one axis only. -/
theorem startsWithin_x {speed t : ℝ} {c : TargetCMD ℝ} (hx0 : 0 ≤ c.x) (hx : c.x ≤ speed * t)
    (hy : c.y = 0) (hz : c.z = 0) : StartsWithin speed c t := by
  refine startsWithin_of_sq_le (hx0.trans hx) ?_
  rw [hy, hz, mul_zero, add_zero, add_zero]
  exact mul_le_mul hx hx hx0 (hx0.trans hx)

theorem startsWithin_y {speed t : ℝ} {c : TargetCMD ℝ} (hy0 : 0 ≤ c.y) (hy : c.y ≤ speed * t)
    (hx : c.x = 0) (hz : c.z = 0) : StartsWithin speed c t := by
  refine startsWithin_of_sq_le (hy0.trans hy) ?_
  rw [hx, hz, mul_zero, add_zero, zero_add]
  exact mul_le_mul hy hy hy0 (hy0.trans hy)

/-- A path that does not move. -/
theorem startsWithin_origin {speed t : ℝ} {c : TargetCMD ℝ} (ht : 0 ≤ speed * t) (hx : c.x = 0)
    (hy : c.y = 0) (hz : c.z = 0) : StartsWithin speed c t :=
  startsWithin_x hx.ge (hx.trans_le ht) hy hz

theorem StartsWithin.ite {speed t : ℝ} {p : Prop} [Decidable p] {c c' : TargetCMD ℝ}
    (h : StartsWithin speed c t) (h' : StartsWithin speed c' t) :
    StartsWithin speed (if p then c else c') t := by
  split
  · exact h
  · exact h'

theorem smoothStep_eq (a : ℝ) : smoothStep a = Blend.cubic a := rfl

theorem smoothStep_nonneg {a : ℝ} (ha : a ≤ 1) : 0 ≤ smoothStep a := Blend.cubic_nonneg ha

theorem smoothStep_le_one {a : ℝ} (ha : 0 ≤ a) : smoothStep a ≤ 1 := Blend.cubic_le_one ha

/-- The slope of a ramp is at most 3/2. -/
theorem smoothStep_le {a : ℝ} (ha : 0 ≤ a) : smoothStep a ≤ 3 / 2 * a := by
  unfold smoothStep
  nlinarith [mul_nonneg ha (mul_self_nonneg (2 * a - 1)), mul_nonneg ha (mul_self_nonneg a)]

/-- On nonnegative arguments `fmod` is the time since the start of the cycle. -/
theorem fmod_eq_cycleTime {t p : ℝ} (ht : 0 ≤ t) (hp : 0 < p) :
    fmod t p = Stitch.cycleTime p t := by
  unfold fmod trunc Stitch.cycleTime Int.fract
  rw [if_pos (div_nonneg ht hp.le), mul_sub, mul_div_cancel₀ _ hp.ne', mul_comm p]

theorem fmod_mem {x y : ℝ} (hx : 0 ≤ x) (hy : 0 < y) : 0 ≤ fmod x y ∧ fmod x y < y := by
  rw [fmod_eq_cycleTime hx hy]
  exact Stitch.cycleTime_mem hy x

/-- Before one period `fmod` changes nothing. -/
theorem fmod_of_lt {x y : ℝ} (hx : 0 ≤ x) (hy : x < y) : fmod x y = x := by
  have hfirst : Stitch.cycleTime y x = x - (0 : ℤ) * y := by
    apply Stitch.cycleTime_eq (hx.trans_lt hy)
    · rwa [Int.cast_zero, zero_mul]
    · rwa [Int.cast_zero, zero_add, one_mul]
  rw [fmod_eq_cycleTime hx (hx.trans_lt hy), hfirst, Int.cast_zero, zero_mul, sub_zero]

/-- The blend of `posPath` at the local time `l`. -/
theorem posPath_blend {l : ℝ} (hl : 0 ≤ l) :
    0 ≤ (if l < 2 then smoothStep (l / 2) else 1) ∧
      (if l < 2 then smoothStep (l / 2) else 1) ≤ 1 := by
  split
  · exact ⟨smoothStep_nonneg (by linarith), smoothStep_le_one (by linarith)⟩
  · exact ⟨zero_le_one, le_rfl⟩

/-- `posPath` goes from one point to the other and back along x. -/
theorem posPath_x (t : ℝ) : (posPath t).x =
    let blend : ℝ := if fmod t (2 + 3) < 2 then smoothStep (fmod t (2 + 3) / 2) else 1
    if ⌊t / (2 + 3 : ℝ)⌋.tmod 2 = 0 then blend else 1 - blend := by
  unfold posPath
  dsimp only
  rw [if_pos rfl, if_pos rfl, if_pos rfl]
  split
  · rw [zero_add, sub_zero, one_mul]
  · rw [zero_sub, neg_one_mul]
    rfl

theorem posPath_y (t : ℝ) : (posPath t).y = 0 := by
  unfold posPath
  dsimp only
  rw [if_pos rfl, if_pos rfl]
  split <;> simp

theorem posPath_startsWithin {t : ℝ} (ht : 0 ≤ t) : StartsWithin (3 / 2) (posPath t) t := by
  have hmod := fmod_mem ht (show (0 : ℝ) < 2 + 3 by norm_num)
  have hblend := posPath_blend hmod.1
  have hx : 0 ≤ (posPath t).x ∧ (posPath t).x ≤ 1 := by
    rw [posPath_x]
    dsimp only
    split
    · exact hblend
    · exact ⟨by linarith, by linarith⟩
  refine startsWithin_x hx.1 ?_ (posPath_y t) rfl
  rcases lt_or_ge t 2 with hlt | hge
  · -- the first ramp
    have hlocal : fmod t (2 + 3) = t := fmod_of_lt ht (by linarith)
    have hphase : ⌊t / (2 + 3 : ℝ)⌋ = 0 :=
      Int.floor_eq_zero_iff.mpr ⟨by positivity, by rw [div_lt_one (by norm_num)]; linarith⟩
    have heq : (posPath t).x = smoothStep (t / 2) := by
      rw [posPath_x, hlocal, hphase]
      dsimp only
      rw [if_pos hlt, Int.zero_tmod, if_pos rfl]
    rw [heq]
    have hslope := smoothStep_le (show 0 ≤ t / 2 by linarith)
    linarith
  · linarith [hx.2]

theorem attPath_startsWithin {t : ℝ} (ht : 0 ≤ t) : StartsWithin (3 / 2) (attPath t) t :=
  startsWithin_origin (by linarith) rfl rfl rfl

theorem stepAttPath_startsWithin {t : ℝ} (ht : 0 ≤ t) :
    StartsWithin (3 / 2) (stepAttPath t) t := by
  have hat : 0 ≤ 3 / 2 * t := by linarith
  unfold stepAttPath
  dsimp only
  exact .ite (startsWithin_origin hat rfl rfl rfl)
    (.ite (startsWithin_origin hat rfl rfl rfl) (startsWithin_origin hat rfl rfl rfl))

theorem circleDemo_startsWithin {t : ℝ} (ht : 0 ≤ t) :
    StartsWithin (3 / 2) (circleDemo t) t := by
  unfold circleDemo
  dsimp only
  split
  · exact startsWithin_origin (by linarith) rfl rfl rfl
  · rename_i hge
    -- on the circle the distance is at most its diameter, 1 m
    refine startsWithin_of_sq_le (by linarith) ?_
    have hone := sin_sq_add_cos_sq (2 * π / 30 * (t - 3))
    have hcos := neg_one_le_cos (2 * π / 30 * (t - 3))
    simp only [TargetCMD.zero, mul_zero, add_zero]
    nlinarith [not_lt.mp hge]

theorem demoStraight_startsWithin {t : ℝ} (ht : 0 ≤ t) :
    StartsWithin (3 / 2) (demoStraight t) t := by
  have hmod := fmod_mem ht (show (0 : ℝ) < 2 * (1 + 5) by norm_num)
  rcases lt_or_ge t 5 with hlt | hge
  · -- the first hold
    have heq : demoStraight t = TargetCMD.zero := by
      unfold demoStraight
      dsimp only
      rw [max_eq_right ht, fmod_of_lt ht (by linarith), if_pos hlt]
    rw [heq]
    exact startsWithin_origin (by linarith) rfl rfl rfl
  · have hy : 0 ≤ (demoStraight t).y ∧ (demoStraight t).y ≤ 1 ∧ (demoStraight t).x = 0 ∧
        (demoStraight t).z = 0 := by
      unfold demoStraight
      dsimp only
      rw [max_eq_right ht]
      generalize fmod t (2 * (1 + 5)) = l at hmod ⊢
      obtain ⟨hl0, hl1⟩ := hmod
      split
      · exact ⟨le_rfl, zero_le_one, rfl, rfl⟩
      rename_i hlo
      split
      · rename_i hhi
        have ha0 : 0 ≤ (l - 5) / 1 := by linarith
        have ha1 : (l - 5) / 1 ≤ 1 := by linarith
        exact ⟨by linarith [smoothStep_nonneg ha1], by linarith [smoothStep_le_one ha0],
          rfl, rfl⟩
      rename_i hmid
      split
      · exact ⟨zero_le_one, le_rfl, rfl, rfl⟩
      rename_i hhi
      have ha0 : 0 ≤ (l - 2 * 5 - 1) / 1 := by linarith
      have ha1 : (l - 2 * 5 - 1) / 1 ≤ 1 := by linarith
      exact ⟨by linarith [smoothStep_le_one ha0], by linarith [smoothStep_nonneg ha1],
        rfl, rfl⟩
    exact startsWithin_y hy.1 (by linarith [hy.2.1]) hy.2.2.1 hy.2.2.2

end Hummingbird
