/-
  `Px4ViewerNode`: its parameters, its members and what its callbacks share.

  A callback writes a record to the logger and pushes rows into ring buffers; both are its output
  here, so what a buffer keeps of the rows (the newest 20000) is left out, as are the members that
  are only displayed (`last_pos_sp`, `last_manual`, `last_topic_rx`, ...). `View` holds the members
  that decide what is pushed. Times are seconds on the node's clock.
-/
import Mathlib.Algebra.Order.Ring.Unbundled.Rat
import Mathlib.Data.Rat.Cast.Defs
import Hummingbird.Viewer.Messages
import Hummingbird.Viewer.Pose
import Hummingbird.Viewer.Replay

namespace Hummingbird

namespace Viewer

open Rotation

/-! ## Rows -/

/-- The ring buffers. -/
inductive Buffer
  | pos
  | posSp
  | vel
  | velSp
  | rates
  | ratesSp
  | rpy
  | attSp
  | force
  | torque
  | motor
  | beta
  | alpha
  | cmdState
  | flightState
  | optiPos
  | fmuPosePos
  | optiRpy
  | fmuPoseRpy
  | posError
  | optiTransportDelay
  | optiHz
  | optiLost
  deriving DecidableEq

/-- A row that is pushed: its time and its other columns. -/
structure Push where
  buffer : Buffer
  t : ℚ
  row : List PyFloat

/-- A record that is written to the logger. -/
structure Logged where
  topic : String
  data : Dict

/-! ## The node -/

inductive ViewerMode
  | sim
  | real
  | chk
  deriving DecidableEq

/-- The parameters of the node, `optiLostHz` before it is bounded. `t0` is the time at which it was
    constructed. -/
structure Config extends OptiWindows where
  viewerMode : ViewerMode
  t0 : ℚ
  betaLimitRad : ℝ
  alphaLimitRad : ℝ
  maxRotorThrust : ℝ
  optiTopic : String
  fmuOdomTopic : String
  targetBodyName : String
  optiLostHz : ℚ
  optiOrigin : List ℝ

namespace Config

variable (c : Config)

/-- `real_mode`. -/
def realMode : Bool := c.viewerMode ≠ .sim

/-- `opti_lost_hz_threshold`. -/
def optiLostHzThreshold : ℚ := max 0 c.optiLostHz

/-- `opti_origin`: the parameter, if it has three values. -/
noncomputable def origin : Position :=
  match c.optiOrigin with
  | [x, y, z] => ![x, y, z]
  | _ => ![-0.08, -0.524, 0.016]

/-- The parameters as they are declared, of a node that was constructed at `t0`. -/
noncomputable def declared (viewerMode : ViewerMode) (t0 : ℚ) : Config where
  viewerMode := viewerMode
  t0 := t0
  betaLimitRad := Real.pi
  alphaLimitRad := Real.pi / 6
  maxRotorThrust := 24
  optiTopic := "/opti_raw"
  fmuOdomTopic := "/fmu/out/vehicle_odometry"
  targetBodyName := "Hummingbird"
  optiDelayAvg := 1
  optiRateWindow := 1
  optiLostHz := 50
  optiOrigin := [-0.08, -0.524, 0.016]

end Config

/-- `OPTI_HEALTH_UPDATE_SEC`. -/
def optiHealthUpdateSec : ℚ := 1 / 20

/-- `SITL_MAX_ROTOR_THRUST_N`. -/
noncomputable def sitlMaxRotorThrustN : ℝ := 1961.04 * 9.80665e-3

/-- The members that decide what is pushed. -/
structure View where
  lastFmuOdomRx : Option ℚ
  lastOptiPos : Option (Fin 3 → PyFloat)
  optiDelayWindow : List (ℚ × ℝ)
  optiArrivalTimes : List ℚ
  /-- `none` for `-math.inf`. -/
  lastOptiHealthSampleT : Option ℚ

/-- The members as the constructor and `_reset_replay_view_state_unlocked` leave them. -/
def View.reset : View where
  lastFmuOdomRx := none
  lastOptiPos := none
  optiDelayWindow := []
  optiArrivalTimes := []
  lastOptiHealthSampleT := none

/-- What a callback leaves behind. -/
structure Handled where
  view : View
  logged : List Logged
  pushed : List Push

noncomputable section

/-! ## What the callbacks share -/

/-- A row of three or four finite floats. -/
def numRow {n : ℕ} (v : Fin n → ℝ) : List PyFloat := List.ofFn fun i => .num (v i)

/-- The components of a quaternion as `normalize_quat` sees them. -/
def quaternionOf (q : Fin 4 → PyFloat) : Quaternion :=
  ⟨(q 0).toDouble, (q 1).toDouble, (q 2).toDouble, (q 3).toDouble⟩

/-- The components of a quaternion as an array. -/
def quatArray (q : Quat) : Fin 4 → PyFloat :=
  ![.num q.re, .num q.imI, .num q.imJ, .num q.imK]

/-- `np.linalg.norm` of three components. -/
def norm3 (v : Fin 3 → PyFloat) : PyFloat := (v 0 * v 0 + v 1 * v 1 + v 2 * v 2).sqrt

/-- `mocap_pose_to_px4` of a pose as it is received. -/
def mocapPose (optiPos : Fin 3 → PyFloat) (optiAtt : Fin 4 → PyFloat) (optiOrigin : Position) :
    (Fin 3 → PyFloat) × Quat :=
  let d : Fin 3 → PyFloat := fun j => optiPos j - .num (optiOrigin j)
  (fun i => .num (rDown i 0) * d 0 + .num (rDown i 1) * d 1 + .num (rDown i 2) * d 2,
    rotToQuat (px4Rotation (quaternionOf optiAtt)))

/-- With its infinities replaced by NaN, it is the pose that `mocapPoseToPx4` gives. -/
theorem mocapPose_toDouble (optiPos : Fin 3 → PyFloat) (optiAtt : Fin 4 → PyFloat)
    (optiOrigin : Position) :
    mocapPoseToPx4 ⟨(optiPos 0).toDouble, (optiPos 1).toDouble, (optiPos 2).toDouble⟩
        (quaternionOf optiAtt) (Vector3.ofReal optiOrigin) =
      let pose := mocapPose optiPos optiAtt optiOrigin
      (⟨(pose.1 0).toDouble, (pose.1 1).toDouble, (pose.1 2).toDouble⟩, pose.2) := by
  simp only [mocapPoseToPx4, mocapPose, rDownDot, PyFloat.toDouble_add, PyFloat.toDouble_num_mul,
    PyFloat.toDouble_sub_num]
  rfl

variable (c : Config) (s : View) (t : ℚ)

/-- `_record_fmu_pose`. -/
def recordFmuPose (pos : Fin 3 → PyFloat) (quat : Quaternion) : List Push :=
  match (pos 0).finite?, (pos 1).finite?, (pos 2).finite? with
  | some _, some _, some _ =>
    let rpy := quatToRpyDeg quat
    let posError :=
      match s.lastOptiPos with
      | none => []
      | some optiPos =>
        let err : Fin 3 → PyFloat := fun i => pos i - optiPos i
        [⟨.posError, t, List.ofFn err ++ [norm3 err]⟩]
    [⟨.fmuPosePos, t, List.ofFn pos⟩, ⟨.fmuPoseRpy, t, numRow rpy⟩] ++ posError
  | _, _, _ => []

/-- `_record_opti_health_unlocked`. -/
def recordOptiHealth (force : Bool) : View × List Push :=
  let cutoff := t - c.optiRateWindowSec
  let arrivals := s.optiArrivalTimes.dropWhile (· < cutoff)
  let notDue :=
    match s.lastOptiHealthSampleT with
    | none => false
    | some last => decide (t - last < optiHealthUpdateSec * (4 / 5))
  if !force && notDue then ({ s with optiArrivalTimes := arrivals }, [])
  else
    let rateHz := (arrivals.length : ℚ) / c.optiRateWindowSec
    let lost : ℝ := if rateHz < c.optiLostHzThreshold then 1 else 0
    ({ s with optiArrivalTimes := arrivals, lastOptiHealthSampleT := some t },
      [⟨.optiHz, t, [.num (rateHz : ℝ)]⟩, ⟨.optiLost, t, [.num lost]⟩])

/-- The part of `_record_opti_timing_unlocked` that handles a delay, if there is one. -/
def recordOptiDelay (rawDelayMs : Option ℝ) : View × List Push :=
  match rawDelayMs with
  | none => (s, [])
  | some raw =>
    let cutoff := t - c.optiDelayAvgSec
    let window := (s.optiDelayWindow ++ [(t, raw)]).dropWhile fun x => decide (x.1 < cutoff)
    let meanDelayMs := (window.map Prod.snd).sum / window.length
    ({ s with optiDelayWindow := window },
      [⟨.optiTransportDelay, t, [.num raw, .num meanDelayMs]⟩])

/-- `_record_opti_timing_unlocked`. -/
def recordOptiTiming (rawDelayMs : Option ℝ) : View × List Push :=
  let s := { s with optiArrivalTimes := s.optiArrivalTimes ++ [t] }
  let (s, delay) := recordOptiDelay c s t rawDelayMs
  let (s, health) := recordOptiHealth c s t false
  (s, delay ++ health)

/-- `_opti_health_tick`. -/
def optiHealthTick : Handled :=
  let (s, pushed) := recordOptiHealth c s t false
  ⟨s, [], pushed⟩

end

end Viewer

end Hummingbird
