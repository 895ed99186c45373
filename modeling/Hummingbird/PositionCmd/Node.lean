/-
  `Px4PositionCommand`, the offboard command node of `px4_position_cmd.cpp`.

  The state is the class's members; a method takes the state and returns it with what it
  published, in order. `onTick` is the control timer, the four `...Callback` functions are
  the subscriptions. Left out are the publishers and subscriptions themselves, the log lines
  with what only they read (the `..._missing_` flags, `check_inputs`, `note_input`,
  `last_control_tick_time_`), and the timer periods: a run may tick at any time.

  A tick reads the steady clock at its start (`now`); `start_RC2DDS_handoff` and
  `initial_pose_reached`, of which a tick calls at most one, read it again (`later`). The ROS
  clock (`ros`) only stamps messages.
-/
import Hummingbird.PositionCmd.Messages
import Hummingbird.Utils.Attitude
import Hummingbird.Utils.Path

namespace Hummingbird

open WithNaN

/-- `Px4PositionCommand::ControlMode`. -/
inductive ControlMode
  | waitOffboard
  | waitArm
  | pathActive
  | rc2ddsHandoff
  deriving DecidableEq

/-- The ROS parameters of the node. -/
structure Parameters where
  path : String := "pos"
  autoOffboard : Bool := true
  autoArm : Bool := false

/-- The members of `Px4PositionCommand`. A request time of `none` is `-infinity`. -/
structure Px4PositionCommand where
  nodeStartTime : Time
  lastControllerModeTime : Time
  lastLocalPositionTime : Time
  lastVehicleAttitudeTime : Time
  lastVehicleStatusTime : Time
  controllerMode : HummingbirdStatus
  localPosition : VehicleLocalPosition
  vehicleAttitude : VehicleAttitude
  vehicleStatus : VehicleStatus
  lastTarget : TargetCMD Double
  rc2ddsHandoffFilters : HandoffFilters
  trajectoryName : String
  autoOffboard : Bool
  autoArm : Bool
  hasControllerMode : Bool
  hasLocalPosition : Bool
  hasVehicleAttitude : Bool
  hasVehicleStatus : Bool
  previousDdsControlEnabled : Bool
  controlMode : ControlMode
  lastOffboardRequestTimeSec : Option ℚ
  lastArmRequestTimeSec : Option ℚ
  trajectoryStartTimeSec : ℚ
  posX : Double
  posY : Double
  posZ : Double

/-- The clock readings of one tick. -/
structure TickClock where
  now : Time
  later : Time
  ros : Time

/-- `elapsed_sec - last_request >= interval`, where a request never made is at `-infinity`. -/
def requestDue (last : Option ℚ) (elapsedSec interval : ℚ) : Bool :=
  match last with
  | none => true
  | some t => decide (interval ≤ elapsedSec - t)

/-- `timestamp_us`: the ROS clock in microseconds, as an unsigned 64-bit number. -/
def TickClock.timestampUs (c : TickClock) : UInt64 := UInt64.ofInt (c.ros.tdiv 1000)

namespace Px4PositionCommand

noncomputable section

/-- The node as its constructor leaves it at the steady time `now`. -/
def construct (p : Parameters) (now : Time) : Px4PositionCommand where
  nodeStartTime := now
  lastControllerModeTime := now
  lastLocalPositionTime := now
  lastVehicleAttitudeTime := now
  lastVehicleStatusTime := now
  controllerMode := {}
  localPosition := {}
  vehicleAttitude := {}
  vehicleStatus := {}
  lastTarget := TargetCMD.zero
  rc2ddsHandoffFilters := {}
  trajectoryName := p.path
  autoOffboard := p.autoOffboard
  autoArm := p.autoArm
  hasControllerMode := false
  hasLocalPosition := false
  hasVehicleAttitude := false
  hasVehicleStatus := false
  previousDdsControlEnabled := false
  controlMode := .waitOffboard
  lastOffboardRequestTimeSec := none
  lastArmRequestTimeSec := none
  trajectoryStartTimeSec := 0
  posX := 0
  posY := 0
  posZ := 0

/-! ## Subscriptions -/

def controllerModeCallback (s : Px4PositionCommand) (now : Time) (message : HummingbirdStatus) :
    Px4PositionCommand :=
  { s with controllerMode := message, hasControllerMode := true, lastControllerModeTime := now }

def localPositionCallback (s : Px4PositionCommand) (now : Time)
    (message : VehicleLocalPosition) : Px4PositionCommand :=
  { s with localPosition := message, hasLocalPosition := true, lastLocalPositionTime := now }

def vehicleAttitudeCallback (s : Px4PositionCommand) (now : Time) (message : VehicleAttitude) :
    Px4PositionCommand :=
  { s with
    vehicleAttitude := message, hasVehicleAttitude := true, lastVehicleAttitudeTime := now }

def vehicleStatusCallback (s : Px4PositionCommand) (now : Time) (message : VehicleStatus) :
    Px4PositionCommand :=
  { s with vehicleStatus := message, hasVehicleStatus := true, lastVehicleStatusTime := now }

/-! ## The conditions a tick tests -/

/-- `vehicle_local_position` is valid and not older than the timeout. -/
def localPositionFresh (s : Px4PositionCommand) (now : Time) : Bool :=
  s.hasLocalPosition && s.localPosition.xyValid && s.localPosition.zValid &&
    decide (secs (now - s.lastLocalPositionTime) ≤ messageTimeoutSec)

/-- `vehicle_attitude` is finite and not older than the timeout. -/
def vehicleAttitudeFresh (s : Px4PositionCommand) (now : Time) : Bool :=
  s.hasVehicleAttitude && decide (secs (now - s.lastVehicleAttitudeTime) ≤ messageTimeoutSec) &&
    s.vehicleAttitude.q.w.isfinite && s.vehicleAttitude.q.x.isfinite &&
    s.vehicleAttitude.q.y.isfinite && s.vehicleAttitude.q.z.isfinite

/-- `vehicle_status_fresh`. -/
def vehicleStatusFresh (s : Px4PositionCommand) (now : Time) : Bool :=
  s.hasVehicleStatus && decide (secs (now - s.lastVehicleStatusTime) ≤ messageTimeoutSec)

/-- `dds_control_enabled`. -/
def ddsControlEnabled (s : Px4PositionCommand) (now : Time) : Bool :=
  s.hasControllerMode && decide (secs (now - s.lastControllerModeTime) ≤ messageTimeoutSec) &&
    s.controllerMode.hbCmdSource == hbCmdSourceDds

/-- `offboard_mode_active`. -/
def offboardModeActive (s : Px4PositionCommand) : Bool :=
  s.vehicleStatus.navState == navigationStateOffboard

/-- `vehicle_armed`. -/
def vehicleArmed (s : Px4PositionCommand) : Bool :=
  s.vehicleStatus.armingState == armingStateArmed

/-! ## Handoff -/

/-- The pose `start` that `start_RC2DDS_handoff` seeds the filters with. -/
def handoffStart (s : Px4PositionCommand) (later : Time) : TargetCMD Double :=
  if s.localPositionFresh later then
    { initialPose with
      x := s.localPosition.x, y := s.localPosition.y, z := s.localPosition.z
      yaw := s.localPosition.heading }
  else initialPose

/-- `start_RC2DDS_handoff`. -/
def startRc2ddsHandoff (s : Px4PositionCommand) (later : Time) : Px4PositionCommand :=
  let start := s.handoffStart later
  { s with
    lastTarget := start
    rc2ddsHandoffFilters := s.rc2ddsHandoffFilters.reset start
    controlMode := .rc2ddsHandoff }

/-- `initial_pose_reached`. -/
def initialPoseReached (s : Px4PositionCommand) (initialTarget : TargetCMD Double)
    (later : Time) : Bool :=
  if !s.localPositionFresh later || !s.vehicleAttitudeFresh later then false
  else
    let posError : Vector3 :=
      ⟨s.localPosition.x - initialTarget.x, s.localPosition.y - initialTarget.y,
        s.localPosition.z - initialTarget.z⟩
    let rpy := quatToRpy s.vehicleAttitude.q.normalized
    let rollError := angleErrorAbs rpy.roll initialTarget.roll
    let pitchError := angleErrorAbs rpy.pitch initialTarget.pitch
    let attError := Double.max rollError pitchError
    let yawError := angleErrorAbs s.localPosition.heading initialTarget.yaw
    decide (posError.norm ≤ num posTol) && decide (yawError ≤ num yawTol) &&
      decide (attError ≤ num attTol)

/-- Three NaN components, for the fields a setpoint leaves unset. -/
def nanVector : Vector3 := ⟨nan, nan, nan⟩

/-- The setpoint of a handoff tick. -/
def handoffSetpoint (timestampUs : UInt64) (target : TargetCMD Double) :
    TrajectorySetpoint6dof where
  timestamp := timestampUs
  position := ⟨target.x, target.y, target.z⟩
  velocity := nanVector
  acceleration := nanVector
  jerk := nanVector
  quaternion := rpyToQuat ⟨target.roll, target.pitch, target.yaw⟩
  angularVelocity := nanVector

/-- `initial_target` of a handoff tick. -/
def handoffTarget (s : Px4PositionCommand) : TargetCMD Double :=
  { initialPose with yaw := unwrapNear initialPose.yaw s.lastTarget.yaw }

/-- `RC2DDS_handoff`. -/
def rc2ddsHandoff (s : Px4PositionCommand) (timestampUs : UInt64) (elapsedSec : ℚ)
    (later : Time) : Px4PositionCommand × List Publication :=
  let initialTarget := s.handoffTarget
  let (cmd, filters) := Hummingbird.rc2ddsHandoff initialTarget s.rc2ddsHandoffFilters
  let s := { s with lastTarget := cmd, rc2ddsHandoffFilters := filters }
  let published := [.trajectorySetpoint (handoffSetpoint timestampUs cmd)]
  if !s.initialPoseReached initialTarget later then (s, published)
  else
    ({ s with
      posX := num initialPoseXM
      posY := num initialPoseYM
      posZ := num initialPoseZM
      trajectoryStartTimeSec := elapsedSec
      controlMode := .pathActive
      lastTarget := initialTarget }, published)

/-! ## Waiting and following the path -/

/-- The fields that every command of the node shares. -/
def vehicleCommand (timestampUs : UInt64) (command : UInt32) (param2 : ℚ) : VehicleCommand where
  timestamp := timestampUs
  param1 := 1
  param2 := param2
  command := command
  targetSystem := targetSystemId
  targetComponent := targetComponentId
  sourceSystem := sourceSystemId
  sourceComponent := sourceComponentId
  confirmation := 0
  fromExternal := true

/-- The offboard request of `wait_offboard`. -/
def offboardCommand (timestampUs : UInt64) : VehicleCommand :=
  vehicleCommand timestampUs vehicleCmdDoSetMode 6

/-- The arm request of `wait_arm`. -/
def armCommand (timestampUs : UInt64) : VehicleCommand :=
  vehicleCommand timestampUs vehicleCmdComponentArmDisarm 0

/-- The mode request of `switch_to_position_control`. -/
def posctlCommand (timestampUs : UInt64) : VehicleCommand :=
  vehicleCommand timestampUs vehicleCmdDoSetMode 3

/-- `wait_arm`. -/
def waitArm (s : Px4PositionCommand) (timestampUs : UInt64) (elapsedSec : ℚ) (later : Time) :
    Px4PositionCommand × List Publication :=
  if !s.vehicleArmed && s.autoArm then
    if requestDue s.lastArmRequestTimeSec elapsedSec (messageTimeoutSec + commandRepeatSec) then
      ({ s with lastArmRequestTimeSec := some elapsedSec },
        [.vehicleCommand (armCommand timestampUs)])
    else (s, [])
  else (s.startRc2ddsHandoff later, [])

/-- `wait_offboard`. -/
def waitOffboard (s : Px4PositionCommand) (timestampUs : UInt64) (elapsedSec : ℚ)
    (later : Time) : Px4PositionCommand × List Publication :=
  if elapsedSec < commandDelaySec then (s, [])
  else if !s.offboardModeActive then
    if s.autoOffboard && requestDue s.lastOffboardRequestTimeSec elapsedSec commandRepeatSec then
      ({ s with lastOffboardRequestTimeSec := some elapsedSec },
        [.vehicleCommand (offboardCommand timestampUs)])
    else (s, [])
  else waitArm { s with controlMode := .waitArm } timestampUs elapsedSec later

/-- The path generator the parameter `path` names; an unknown name holds the initial pose. -/
def pathTarget (trajectoryName : String) (t : ℝ) : TargetCMD ℝ :=
  if trajectoryName = "pos" then posPath t
  else if trajectoryName = "att" then attPath t
  else if trajectoryName = "step_att" then stepAttPath t
  else if trajectoryName = "circle_demo" then circleDemo t
  else if trajectoryName = "demo_straight" then demoStraight t
  else TargetCMD.zero

/-- The target of a path tick. -/
def pathCommand (s : Px4PositionCommand) (elapsedSec : ℚ) : TargetCMD Double :=
  let trajectoryTimeSec : ℚ := elapsedSec - s.trajectoryStartTimeSec
  let target := (pathTarget s.trajectoryName trajectoryTimeSec).map num
  { target with x := s.posX + target.x, y := s.posY + target.y, z := s.posZ + target.z }

/-- The setpoint of a path tick. -/
def pathSetpoint (timestampUs : UInt64) (trajectoryName : String) (target : TargetCMD Double) :
    TrajectorySetpoint6dof :=
  let movingPath := trajectoryName = "pos" ∨ trajectoryName = "demo_straight"
  { timestamp := timestampUs
    position := ⟨target.x, target.y, target.z⟩
    velocity := ⟨if movingPath then target.vx else nan, if movingPath then target.vy else nan, nan⟩
    acceleration := nanVector
    jerk := nanVector
    quaternion := rpyToQuat ⟨target.roll, target.pitch, target.yaw⟩
    angularVelocity := nanVector }

/-- `path_active`. -/
def pathActive (s : Px4PositionCommand) (timestampUs : UInt64) (elapsedSec : ℚ) :
    Px4PositionCommand × List Publication :=
  let target := s.pathCommand elapsedSec
  ({ s with lastTarget := target },
    [.trajectorySetpoint (pathSetpoint timestampUs s.trajectoryName target)])

/-- `switch_to_position_control`. -/
def switchToPositionControl (s : Px4PositionCommand) (timestampUs : UInt64) :
    Px4PositionCommand × List Publication :=
  ({ s with controlMode := .waitOffboard }, [.vehicleCommand (posctlCommand timestampUs)])

/-! ## The control timer -/

/-- The heartbeat that a tick publishes while DDS control is enabled. -/
def offboardHeartbeat (timestampUs : UInt64) : OffboardControlMode where
  timestamp := timestampUs
  position := true
  velocity := false
  acceleration := false
  attitude := false
  bodyRate := false
  thrustAndTorque := false
  directActuator := false

/-- The `switch` at the end of `on_tick`. -/
def dispatch (s : Px4PositionCommand) (timestampUs : UInt64) (elapsedSec : ℚ) (later : Time) :
    Px4PositionCommand × List Publication :=
  match s.controlMode with
  | .waitOffboard => s.waitOffboard timestampUs elapsedSec later
  | .waitArm => s.waitArm timestampUs elapsedSec later
  | .pathActive => s.pathActive timestampUs elapsedSec
  | .rc2ddsHandoff => s.rc2ddsHandoff timestampUs elapsedSec later

/-- `elapsed_sec` of a tick. -/
def elapsedSec (s : Px4PositionCommand) (c : TickClock) : ℚ := secs (c.now - s.nodeStartTime)

/-- `on_tick`. -/
def onTick (s : Px4PositionCommand) (c : TickClock) : Px4PositionCommand × List Publication :=
  let elapsedSec := s.elapsedSec c
  let timestampUs := c.timestampUs
  let ddsControlEnabled := s.ddsControlEnabled c.now
  let (s, published) :=
    if s.previousDdsControlEnabled && !ddsControlEnabled &&
        (s.controlMode == .pathActive || s.controlMode == .rc2ddsHandoff) then
      s.switchToPositionControl timestampUs
    else (s, [])
  let s := { s with previousDdsControlEnabled := ddsControlEnabled }
  if !ddsControlEnabled then (s, published)
  else
    let published := published ++ [.offboardControlMode (offboardHeartbeat timestampUs)]
    if !s.vehicleStatusFresh c.now then
      (if s.controlMode == .pathActive then { s with controlMode := .waitOffboard } else s,
        published)
    else
      let armNotReady := s.autoArm && !s.vehicleArmed
      let s :=
        if s.controlMode == .pathActive && (!s.offboardModeActive || armNotReady) then
          { s with controlMode := if s.offboardModeActive then .waitArm else .waitOffboard }
        else s
      let (s, dispatched) := s.dispatch timestampUs elapsedSec c.later
      (s, published ++ dispatched)

end

end Px4PositionCommand

end Hummingbird
