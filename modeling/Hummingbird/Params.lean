/-
  The constants of `params.hpp` that the modelled nodes read.

  Times are exact rationals in seconds, angles and lengths exact reals. `secs` is the
  conversion `std::chrono::duration<double>(d).count()` of a steady-clock difference, and of
  `rclcpp::Duration::seconds()`, both of which count whole nanoseconds.
-/
import Mathlib.Analysis.Real.Pi.Bounds
import Hummingbird.Library.Numerals

namespace Hummingbird

open Real

/-! ## Clocks -/

/-- A reading of the steady clock (or the ROS clock), in nanoseconds. -/
abbrev Time := ℤ

/-- A clock difference in seconds. -/
def secs (ns : ℤ) : ℚ := ns / 1000000000

theorem secs_mono {a b : ℤ} (h : a ≤ b) : secs a ≤ secs b := by
  unfold secs
  have hab : (a : ℚ) ≤ b := by exact_mod_cast h
  linarith

/-! ## System -/

def rateHz : ℕ := 400

/-- Offboard waiting time after changing the control mode. -/
def commandDelaySec : ℚ := 1 / 2

/-- Offboard and arm command repeat interval. -/
def commandRepeatSec : ℚ := 1

def messageTimeoutSec : ℚ := 1

def targetSystemId : UInt8 := 1
def targetComponentId : UInt8 := 1
def sourceSystemId : UInt8 := 1
def sourceComponentId : UInt16 := 1

/-! ## Planning -/

noncomputable section

def handoffRuntime : ℝ := 8

def initialPoseXM : ℝ := 0
def initialPoseYM : ℝ := -1
def initialPoseZM : ℝ := -1
def initialPoseRollRad : ℝ := 0
def initialPosePitchRad : ℝ := 0
def initialPoseYawRad : ℝ := 0

def posTol : ℝ := 15 / 100
def yawTol : ℝ := 5 * π / 180
def attTol : ℝ := 5 * π / 180

def pitchMax : ℝ := 60 * π / 180

/-! ## Servos -/

def betaLimitRad : ℝ := π
def alphaLimitRad : ℝ := π / 6

def ddsReceiveTimeoutSec : ℚ := 1 / 2
def servoDiagnosticGapSec : ℚ := 1 / 20
def servoReturnTimeSec : ℚ := 5
def servoStartupReturnTimeSec : ℚ := 2

def servoWobbleMaxDeg : ℝ := 6
def servoWobblePhaseRad : Fin 6 → ℝ := ![0, π / 2, 0, π / 2, π, 3 * π / 2]

/-- `SERVO_CONTROL_INDEX`: the control channel that drives each Gazebo joint
    (`beta1 .. beta4`, `alpha1 .. alpha4`). -/
def servoControlIndex : Fin 8 → Fin 6 := ![0, 1, 1, 0, 2, 3, 4, 5]

def servoLimitRad : Fin 8 → ℝ :=
  ![betaLimitRad, betaLimitRad, betaLimitRad, betaLimitRad,
    alphaLimitRad, alphaLimitRad, alphaLimitRad, alphaLimitRad]

/-- Encoder counts per radian. -/
def pprPerRad : ℝ := 4096 / (2 * π)

theorem pprPerRad_pos : 0 < pprPerRad := by
  unfold pprPerRad
  positivity

def portOpenRetryCount : ℕ := 10
def pingRetryCount : ℕ := 3
def registerWriteRetryCount : ℕ := 3
def addrOperatingMode : UInt16 := 11
def addrTorqueEnable : UInt16 := 64
def addrBusWatchdog : UInt16 := 98
def addrHardwareErrorStatus : UInt16 := 70
def addrVelocityIGain : UInt16 := 76
def addrVelocityPGain : UInt16 := 78
def addrPositionDGain : UInt16 := 80
def addrPositionIGain : UInt16 := 82
def addrPositionPGain : UInt16 := 84
def addrGoalPosition : UInt16 := 116
def addrPresentPosition : UInt16 := 132
def positionControlMode : UInt8 := 3
def torqueOff : UInt8 := 0
def torqueOn : UInt8 := 1

structure ServoConfig where
  id : UInt8
  direction : ℤ
  zeroPpr : ℤ
  minPpr : ℤ
  maxPpr : ℤ
  angleLimitRad : ℝ
  positionP : UInt16
  positionI : UInt16
  positionD : UInt16
  velocityP : UInt16
  velocityI : UInt16

/-- `DXL_SERVOS`, in the order of the table: id, direction, zero, minimum and maximum count,
    angle limit, position P/I/D and velocity P/I gains. -/
def dxlServos : Fin 6 → ServoConfig :=
  ![⟨0, 1, 2048, 0, 4095, betaLimitRad, 1400, 0, 20, 150, 400⟩,
    ⟨1, -1, 2048, 0, 4095, betaLimitRad, 1400, 0, 20, 150, 400⟩,
    ⟨2, 1, 2048, 0, 4095, alphaLimitRad, 1350, 0, 20, 120, 300⟩,
    ⟨3, 1, 2048, 0, 4095, alphaLimitRad, 1350, 0, 20, 120, 300⟩,
    ⟨4, 1, 2048, 0, 4095, alphaLimitRad, 1350, 0, 20, 120, 300⟩,
    ⟨5, 1, 2048, 0, 4095, alphaLimitRad, 1350, 0, 20, 120, 300⟩]

end

end Hummingbird
