/-
  The live callbacks of `Px4ViewerNode`, `_cb_pos` to `_cb_fmu_odom`.
-/
import Hummingbird.Viewer.Node

namespace Hummingbird

namespace Viewer

open Rotation

/-- `int(value)` of an unsigned field, as it is logged. -/
def jsonNat (n : ℕ) : Json := .int n

/-- `json_list` of an array field. -/
def jsonArray {n : ℕ} (values : Fin n → PyFloat) : Json := jsonList (List.ofFn values)

/-- `json_list` of an array field, with a width. -/
def jsonArrayN {n : ℕ} (values : Fin n → PyFloat) (width : ℕ) : Json :=
  jsonListN (List.ofFn values) width

/-- Finite floats as an array. -/
def floats {n : ℕ} (v : Fin n → ℝ) : Fin n → PyFloat := fun i => .num (v i)

/-- `stamp_to_sec`. -/
def stampToSec (msg : PoseStamped) : ℚ := msg.sec.toInt + msg.nanosec.toNat * (1 / 1000000000)

noncomputable section

/-- The quaternion of a heading, which may be missing. -/
def headingQuat (heading : Option ℝ) : Quaternion :=
  match heading with
  | some yaw => Quaternion.ofReal (yawToQuat yaw)
  | none => Quaternion.ofReal (quat 1 0 0 0)

/-- `force` of `_cb_motors`: NumPy's `clip`, then the thrust curve of the mode. -/
def motorForce (c : Config) (controls : Fin 4 → ℝ) : Fin 4 → ℝ := fun i =>
  let clipped := min (max (controls i) 0) 1
  if c.viewerMode = .sim then clipped * sitlMaxRotorThrustN
  else clipped * clipped * c.maxRotorThrust

variable (c : Config) (s : View) (t : ℚ)

/-- `use_fallback` of `_cb_pos`: no odometry within the last second. -/
def useFallback : Bool :=
  c.realMode && (match s.lastFmuOdomRx with
    | none => true
    | some rx => decide (1 < t - rx))

/-- `_cb_pos`. -/
def cbPos (msg : VehicleLocalPosition) : Handled where
  view := s
  logged := [⟨"/fmu/out/vehicle_local_position",
    [("timestamp", jsonNat msg.timestamp.toNat),
      ("timestamp_sample", jsonNat msg.timestampSample.toNat),
      ("valid", .obj [("xy", .bool msg.xyValid), ("z", .bool msg.zValid),
        ("v_xy", .bool msg.vXyValid), ("v_z", .bool msg.vZValid)]),
      ("position", jsonArray msg.position),
      ("velocity", jsonArray msg.velocity),
      ("heading", jsonFloat msg.heading)]⟩]
  pushed := [⟨.pos, t, List.ofFn msg.position⟩, ⟨.vel, t, List.ofFn msg.velocity⟩] ++
    if useFallback c s t then
      recordFmuPose s t msg.position (headingQuat msg.heading.finite?)
    else []

/-- `_cb_pos_sp`. -/
def cbPosSp (msg : VehicleLocalPositionSetpoint) : Handled where
  view := s
  logged := [⟨"/fmu/out/vehicle_local_position_setpoint",
    [("timestamp", jsonNat msg.timestamp.toNat),
      ("position", jsonArray msg.position),
      ("velocity", jsonArray msg.velocity),
      ("yaw", jsonFloat msg.yaw)]⟩]
  pushed := [⟨.posSp, t, List.ofFn msg.position⟩, ⟨.velSp, t, List.ofFn msg.velocity⟩]

/-- `_cb_att`. -/
def cbAtt (msg : VehicleAttitude) : Handled :=
  let rpy := quatToRpyDeg (quaternionOf msg.q)
  { view := s
    logged := [⟨"/fmu/out/vehicle_attitude",
      [("timestamp", jsonNat msg.timestamp.toNat),
        ("timestamp_sample", jsonNat msg.timestampSample.toNat),
        ("q", jsonArrayN msg.q 4),
        ("rpy_deg", jsonArray (floats rpy))]⟩]
    pushed := [⟨.rpy, t, numRow rpy⟩] }

/-- `_cb_att_sp`. -/
def cbAttSp (msg : VehicleAttitudeSetpoint) : Handled :=
  let rpy := quatToRpyDeg (quaternionOf msg.qD)
  { view := s
    logged := [⟨"/fmu/out/vehicle_attitude_setpoint",
      [("timestamp", jsonNat msg.timestamp.toNat),
        ("q_d", jsonArrayN msg.qD 4),
        ("rpy_d_deg", jsonArray (floats rpy)),
        ("thrust_body", jsonArray msg.thrustBody)]⟩]
    pushed := [⟨.attSp, t, numRow rpy⟩] }

/-- `_cb_angular_velocity`. -/
def cbAngularVelocity (msg : VehicleAngularVelocity) : Handled where
  view := s
  logged := [⟨"/fmu/out/vehicle_angular_velocity",
    [("timestamp", jsonNat msg.timestamp.toNat),
      ("timestamp_sample", jsonNat msg.timestampSample.toNat),
      ("xyz", jsonArrayN msg.xyz 3),
      ("xyz_derivative", jsonArrayN msg.xyzDerivative 3)]⟩]
  pushed := [⟨.rates, t, List.ofFn msg.xyz⟩]

/-- `_cb_rates_sp`. -/
def cbRatesSp (msg : VehicleRatesSetpoint) : Handled where
  view := s
  logged := [⟨"/fmu/out/vehicle_rates_setpoint",
    [("timestamp", jsonNat msg.timestamp.toNat),
      ("xyz", jsonArrayN msg.rates 3),
      ("thrust_body", jsonArrayN msg.thrustBody 3)]⟩]
  pushed := [⟨.ratesSp, t, List.ofFn msg.rates⟩]

/-- `_cb_thrust`. -/
def cbThrust (msg : VehicleThrustSetpoint) : Handled where
  view := s
  logged := [⟨"/fmu/out/vehicle_thrust_setpoint",
    [("timestamp", jsonNat msg.timestamp.toNat),
      ("xyz", jsonArrayN msg.xyz 3)]⟩]
  pushed := [⟨.force, t, List.ofFn msg.xyz⟩]

/-- `_cb_torque`. -/
def cbTorque (msg : VehicleTorqueSetpoint) : Handled where
  view := s
  logged := [⟨"/fmu/out/vehicle_torque_setpoint",
    [("timestamp", jsonNat msg.timestamp.toNat),
      ("xyz", jsonArrayN msg.xyz 3)]⟩]
  pushed := [⟨.torque, t, List.ofFn msg.xyz⟩]

/-- `_cb_motors`. -/
def cbMotors (msg : ActuatorMotors) : Handled :=
  let controls := finiteN ((List.ofFn msg.control).map PyFloat.finite?) 4
  let force := motorForce c controls
  { view := s
    logged := [⟨"/fmu/out/actuator_motors",
      [("timestamp", jsonNat msg.timestamp.toNat),
        ("timestamp_sample", jsonNat msg.timestampSample.toNat),
        ("control", jsonArray msg.control),
        ("force_n_est", jsonArrayN (floats force) 4)]⟩]
    pushed := [⟨.motor, t, numRow force⟩] }

/-- `_cb_manual`. -/
def cbManual (msg : ManualControlSetpoint) : Handled where
  view := s
  logged := [⟨"/fmu/out/manual_control_setpoint",
    [("timestamp", jsonNat msg.timestamp.toNat),
      ("valid", .bool msg.valid),
      ("data_source", jsonNat msg.dataSource.toNat),
      ("sticks_moving", .bool msg.sticksMoving),
      ("roll_pitch_yaw_throttle", jsonArray msg.manual)]⟩]
  pushed := []

/-- `_cb_servos`. -/
def cbServos (msg : ActuatorServos) : Handled :=
  let values := (List.ofFn msg.control).map PyFloat.finite?
  let beta : Fin 2 → ℝ := fun i => finiteN (values.take 2) 2 i * c.betaLimitRad * rad2deg
  let alpha : Fin 4 → ℝ := fun i =>
    finiteN ((values.take 6).drop 2) 4 i * c.alphaLimitRad * rad2deg
  { view := s
    logged := [⟨"/fmu/out/actuator_servos",
      [("timestamp", jsonNat msg.timestamp.toNat),
        ("timestamp_sample", jsonNat msg.timestampSample.toNat),
        ("control", jsonArray msg.control),
        ("beta_deg", jsonArrayN (floats beta) 2),
        ("alpha_deg", jsonArrayN (floats alpha) 4)]⟩]
    pushed := [⟨.beta, t, numRow beta⟩, ⟨.alpha, t, numRow alpha⟩] }

/-- `_cb_status`. -/
def cbStatus (msg : HummingbirdStatus) : Handled where
  view := s
  logged := [⟨"/fmu/out/hummingbird_status",
    [("timestamp", jsonNat msg.timestamp.toNat),
      ("hb_cmd_source", jsonNat msg.hbCmdSource.toNat),
      ("hb_ctrl_mode", jsonNat msg.hbCtrlMode.toNat),
      ("hummingbird_airframe", .bool msg.hummingbirdAirframe),
      ("dds_command_enabled", .bool msg.ddsCommandEnabled),
      ("hummingbird_control_enabled", .bool msg.fullyActuatedControlEnabled)]⟩]
  pushed := [⟨.cmdState, t, [.num msg.hbCmdSource.toNat]⟩]

/-- `_cb_vehicle_status`. -/
def cbVehicleStatus (msg : VehicleStatus) : Handled where
  view := s
  logged := [⟨"/fmu/out/vehicle_status",
    [("timestamp", jsonNat msg.timestamp.toNat),
      ("nav_state", jsonNat msg.navState.toNat),
      ("nav_state_user_intention", jsonNat msg.navStateUserIntention.toNat),
      ("arming_state", jsonNat msg.armingState.toNat),
      ("latest_disarming_reason", jsonNat msg.latestDisarmingReason.toNat),
      ("failsafe", .bool msg.failsafe)]⟩]
  pushed := [⟨.flightState, t, [.num msg.navState.toNat]⟩]

/-- `raw_delay_ms` of `_cb_opti`. -/
def rawDelayMs (msg : PoseStamped) : Option ℝ :=
  let receiveStamp := t + c.t0
  let headerStamp := stampToSec msg
  if 0 < headerStamp then some (((receiveStamp - headerStamp) * 1000 : ℚ) : ℝ) else none

/-- The message is about another body than the one that is displayed. -/
def OtherBody (msg : PoseStamped) : Prop :=
  c.targetBodyName ≠ "" ∧ msg.frameId ≠ c.targetBodyName

instance (msg : PoseStamped) : Decidable (OtherBody c msg) := inferInstanceAs (Decidable (_ ∧ _))

/-- `_cb_opti`. -/
def cbOpti (msg : PoseStamped) : Handled :=
  if OtherBody c msg then ⟨s, [], []⟩
  else
    let raw := rawDelayMs c t msg
    let pose := mocapPose msg.position msg.orientation c.origin
    let rpy := quatToRpyDeg (Quaternion.ofReal pose.2)
    let (view, timing) := recordOptiTiming c { s with lastOptiPos := some pose.1 } t raw
    { view := view
      logged := [⟨c.optiTopic,
        [("header_stamp", .float (stampToSec msg : ℝ)),
          ("transport_delay_ms", match raw with
            | some delay => .float delay
            | none => .null),
          ("frame_id", .str msg.frameId),
          ("opti_position_z_up", jsonArray msg.position),
          ("opti_q_wxyz", jsonArrayN msg.orientation 4),
          ("px4_position_ned", jsonArray pose.1),
          ("px4_q_wxyz", jsonArrayN (quatArray pose.2) 4),
          ("px4_rpy_deg", jsonArray (floats rpy))]⟩]
      pushed := [⟨.optiPos, t, List.ofFn pose.1⟩, ⟨.optiRpy, t, numRow rpy⟩] ++ timing }

/-- `_cb_fmu_odom`. -/
def cbFmuOdom (msg : VehicleOdometry) : Handled where
  view := { s with lastFmuOdomRx := some t }
  logged := [⟨c.fmuOdomTopic,
    [("timestamp", jsonNat msg.timestamp.toNat),
      ("timestamp_sample", jsonNat msg.timestampSample.toNat),
      ("pose_frame", jsonNat msg.poseFrame.toNat),
      ("position", jsonArrayN msg.position 3),
      ("q_wxyz", jsonArrayN msg.q 4),
      ("velocity_frame", jsonNat msg.velocityFrame.toNat),
      ("velocity", jsonArrayN msg.velocity 3),
      ("angular_velocity", jsonArrayN msg.angularVelocity 3),
      ("position_variance", jsonArrayN msg.positionVariance 3),
      ("orientation_variance", jsonArrayN msg.orientationVariance 3),
      ("quality", .int msg.quality.toInt)]⟩]
  pushed := recordFmuPose { s with lastFmuOdomRx := some t } t msg.position
    (Quaternion.ofReal (normalizeQuat (quaternionOf msg.q)))

/-- The callback of the message's topic. -/
def callback : Message → Handled
  | .pos msg => cbPos c s t msg
  | .posSp msg => cbPosSp s t msg
  | .att msg => cbAtt s t msg
  | .attSp msg => cbAttSp s t msg
  | .angularVelocity msg => cbAngularVelocity s t msg
  | .ratesSp msg => cbRatesSp s t msg
  | .thrust msg => cbThrust s t msg
  | .torque msg => cbTorque s t msg
  | .motors msg => cbMotors c s t msg
  | .manual msg => cbManual s msg
  | .servos msg => cbServos c s t msg
  | .status msg => cbStatus s t msg
  | .vehicleStatus msg => cbVehicleStatus s t msg
  | .opti msg => cbOpti c s t msg

end

theorem cbOpti_other {c : Config} {s : View} {t : ℚ} {msg : PoseStamped} (h : OtherBody c msg) :
    cbOpti c s t msg = ⟨s, [], []⟩ := if_pos h

/-- What `_cb_opti` makes of a message about the body that is displayed. -/
theorem cbOpti_of {c : Config} {msg : PoseStamped} (h : ¬ OtherBody c msg) (s : View) (t : ℚ) :
    ∃ data : Dict, (cbOpti c s t msg).logged = [⟨c.optiTopic, data⟩] ∧
      data.lookup "header_stamp" = some (.float (stampToSec msg : ℝ)) ∧
      data.lookup "transport_delay_ms" = some (match rawDelayMs c t msg with
        | some delay => .float delay
        | none => .null) ∧
      data.lookup "px4_position_ned" =
        some (jsonArray (mocapPose msg.position msg.orientation c.origin).1) ∧
      data.lookup "px4_q_wxyz" =
        some (jsonArray (quatArray (mocapPose msg.position msg.orientation c.origin).2)) ∧
      data.lookup "px4_rpy_deg" = some (jsonArray (floats (quatToRpyDeg (Quaternion.ofReal
        (mocapPose msg.position msg.orientation c.origin).2)))) ∧
      (cbOpti c s t msg).pushed =
        [⟨.optiPos, t, List.ofFn (mocapPose msg.position msg.orientation c.origin).1⟩,
          ⟨.optiRpy, t, numRow (quatToRpyDeg (Quaternion.ofReal
            (mocapPose msg.position msg.orientation c.origin).2))⟩] ++
        (recordOptiTiming c
          { s with lastOptiPos := some (mocapPose msg.position msg.orientation c.origin).1 } t
          (rawDelayMs c t msg)).2 := by
  unfold cbOpti
  rw [if_neg h]
  exact ⟨_, rfl, rfl, rfl, rfl, congrArg some (jsonListN_ofFn _), rfl, rfl⟩

end Viewer

end Hummingbird
