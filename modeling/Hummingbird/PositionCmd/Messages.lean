/-
  The messages `px4_position_cmd` reads and publishes.

  A received message keeps the fields the control code reads; fields that only reach a log
  line are left out. A published message keeps every field the node sets.
-/
import Hummingbird.Utils.Double

namespace Hummingbird

/-! ## Received -/

/-- `px4_msgs::msg::HummingbirdStatus`. -/
structure HummingbirdStatus where
  hbCmdSource : UInt8 := 0

def hbCmdSourceRc : UInt8 := 0
def hbCmdSourceDds : UInt8 := 1

/-- `px4_msgs::msg::VehicleLocalPosition`. -/
structure VehicleLocalPosition where
  xyValid : Bool := false
  zValid : Bool := false
  x : Double := 0
  y : Double := 0
  z : Double := 0
  heading : Double := 0

/-- `px4_msgs::msg::VehicleAttitude`. -/
structure VehicleAttitude where
  q : Quaternion := ⟨0, 0, 0, 0⟩

/-- `px4_msgs::msg::VehicleStatus`. -/
structure VehicleStatus where
  navState : UInt8 := 0
  armingState : UInt8 := 0

def navigationStatePosctl : UInt8 := 2
def navigationStateOffboard : UInt8 := 14
def armingStateDisarmed : UInt8 := 1
def armingStateArmed : UInt8 := 2

/-! ## Published -/

/-- `px4_msgs::msg::OffboardControlMode`. -/
structure OffboardControlMode where
  timestamp : UInt64
  position : Bool
  velocity : Bool
  acceleration : Bool
  attitude : Bool
  bodyRate : Bool
  thrustAndTorque : Bool
  directActuator : Bool

/-- `px4_msgs::msg::TrajectorySetpoint6dof`. -/
structure TrajectorySetpoint6dof where
  timestamp : UInt64
  position : Vector3
  velocity : Vector3
  acceleration : Vector3
  jerk : Vector3
  quaternion : Quaternion
  angularVelocity : Vector3

/-- `px4_msgs::msg::VehicleCommand`. -/
structure VehicleCommand where
  timestamp : UInt64
  param1 : ℚ
  param2 : ℚ := 0
  command : UInt32
  targetSystem : UInt8
  targetComponent : UInt8
  sourceSystem : UInt8
  sourceComponent : UInt16
  confirmation : UInt8
  fromExternal : Bool

def vehicleCmdDoSetMode : UInt32 := 176
def vehicleCmdComponentArmDisarm : UInt32 := 400

/-- What the node hands to one of its three publishers. -/
inductive Publication
  | offboardControlMode (m : OffboardControlMode)
  | trajectorySetpoint (m : TrajectorySetpoint6dof)
  | vehicleCommand (m : VehicleCommand)

namespace Publication

def IsOffboardControlMode : Publication → Prop
  | offboardControlMode _ => True
  | _ => False

def IsTrajectorySetpoint : Publication → Prop
  | trajectorySetpoint _ => True
  | _ => False

def IsVehicleCommand : Publication → Prop
  | vehicleCommand _ => True
  | _ => False

/-- A request for PX4's main mode `mode` (`param2` of a `DO_SET_MODE` command). -/
def IsSetMode (mode : ℚ) : Publication → Prop
  | vehicleCommand m => m.command = vehicleCmdDoSetMode ∧ m.param2 = mode
  | _ => False

/-- The request for offboard mode. -/
def IsOffboardCommand : Publication → Prop := IsSetMode 6

/-- The request for position control (POSCTL). -/
def IsPosctlCommand : Publication → Prop := IsSetMode 3

/-- The arm command. -/
def IsArmCommand : Publication → Prop
  | vehicleCommand m => m.command = vehicleCmdComponentArmDisarm
  | _ => False

instance : DecidablePred IsTrajectorySetpoint
  | offboardControlMode _ => isFalse id
  | trajectorySetpoint _ => isTrue trivial
  | vehicleCommand _ => isFalse id

instance (mode : ℚ) : DecidablePred (IsSetMode mode)
  | offboardControlMode _ => isFalse id
  | trajectorySetpoint _ => isFalse id
  | vehicleCommand m =>
    inferInstanceAs (Decidable (m.command = vehicleCmdDoSetMode ∧ m.param2 = mode))

instance : DecidablePred IsOffboardCommand := inferInstanceAs (DecidablePred (IsSetMode 6))

instance : DecidablePred IsArmCommand
  | offboardControlMode _ => isFalse id
  | trajectorySetpoint _ => isFalse id
  | vehicleCommand m => inferInstanceAs (Decidable (m.command = vehicleCmdComponentArmDisarm))

instance : DecidablePred IsVehicleCommand
  | offboardControlMode _ => isFalse id
  | trajectorySetpoint _ => isFalse id
  | vehicleCommand _ => isTrue trivial

end Publication

end Hummingbird
