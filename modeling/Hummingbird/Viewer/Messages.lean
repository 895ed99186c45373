/-
  The messages that `px4_multirotor_viewer.py` subscribes to, with the fields that it reads. Their
  floats are Python floats, so a field that is left unset may be NaN.
-/
import Mathlib.Data.Fin.VecNotation
import Hummingbird.Viewer.Json

namespace Hummingbird

namespace Viewer

/-- `px4_msgs.msg.VehicleLocalPosition`. -/
structure VehicleLocalPosition where
  timestamp : UInt64
  timestampSample : UInt64
  xyValid : Bool
  zValid : Bool
  vXyValid : Bool
  vZValid : Bool
  x : PyFloat
  y : PyFloat
  z : PyFloat
  vx : PyFloat
  vy : PyFloat
  vz : PyFloat
  heading : PyFloat

/-- `px4_msgs.msg.VehicleLocalPositionSetpoint`. -/
structure VehicleLocalPositionSetpoint where
  timestamp : UInt64
  x : PyFloat
  y : PyFloat
  z : PyFloat
  vx : PyFloat
  vy : PyFloat
  vz : PyFloat
  yaw : PyFloat

/-- `px4_msgs.msg.VehicleAttitude`. -/
structure VehicleAttitude where
  timestamp : UInt64
  timestampSample : UInt64
  q : Fin 4 → PyFloat

/-- `px4_msgs.msg.VehicleAttitudeSetpoint`. -/
structure VehicleAttitudeSetpoint where
  timestamp : UInt64
  qD : Fin 4 → PyFloat
  thrustBody : Fin 3 → PyFloat

/-- `px4_msgs.msg.VehicleAngularVelocity`. -/
structure VehicleAngularVelocity where
  timestamp : UInt64
  timestampSample : UInt64
  xyz : Fin 3 → PyFloat
  xyzDerivative : Fin 3 → PyFloat

/-- `px4_msgs.msg.VehicleRatesSetpoint`. -/
structure VehicleRatesSetpoint where
  timestamp : UInt64
  roll : PyFloat
  pitch : PyFloat
  yaw : PyFloat
  thrustBody : Fin 3 → PyFloat

/-- `px4_msgs.msg.VehicleThrustSetpoint`. -/
structure VehicleThrustSetpoint where
  timestamp : UInt64
  xyz : Fin 3 → PyFloat

/-- `px4_msgs.msg.VehicleTorqueSetpoint`. -/
structure VehicleTorqueSetpoint where
  timestamp : UInt64
  xyz : Fin 3 → PyFloat

/-- `px4_msgs.msg.ActuatorMotors`. -/
structure ActuatorMotors where
  timestamp : UInt64
  timestampSample : UInt64
  control : Fin 12 → PyFloat

/-- `px4_msgs.msg.ManualControlSetpoint`. -/
structure ManualControlSetpoint where
  timestamp : UInt64
  valid : Bool
  dataSource : UInt8
  sticksMoving : Bool
  roll : PyFloat
  pitch : PyFloat
  yaw : PyFloat
  throttle : PyFloat

/-- `px4_msgs.msg.ActuatorServos`. -/
structure ActuatorServos where
  timestamp : UInt64
  timestampSample : UInt64
  control : Fin 6 → PyFloat

/-- `px4_msgs.msg.HummingbirdStatus`. -/
structure HummingbirdStatus where
  timestamp : UInt64
  hbCmdSource : UInt8
  hbCtrlMode : UInt8
  hummingbirdAirframe : Bool
  ddsCommandEnabled : Bool
  fullyActuatedControlEnabled : Bool

/-- `px4_msgs.msg.VehicleStatus`. -/
structure VehicleStatus where
  timestamp : UInt64
  navState : UInt8
  navStateUserIntention : UInt8
  armingState : UInt8
  latestDisarmingReason : UInt8
  failsafe : Bool

/-- `geometry_msgs.msg.PoseStamped`, the orientation in the order `(w, x, y, z)`. -/
structure PoseStamped where
  sec : Int32
  nanosec : UInt32
  frameId : String
  position : Fin 3 → PyFloat
  orientation : Fin 4 → PyFloat

/-- `px4_msgs.msg.VehicleOdometry`. -/
structure VehicleOdometry where
  timestamp : UInt64
  timestampSample : UInt64
  poseFrame : UInt8
  position : Fin 3 → PyFloat
  q : Fin 4 → PyFloat
  velocityFrame : UInt8
  velocity : Fin 3 → PyFloat
  angularVelocity : Fin 3 → PyFloat
  positionVariance : Fin 3 → PyFloat
  orientationVariance : Fin 3 → PyFloat
  quality : Int8

namespace VehicleLocalPosition

def position (msg : VehicleLocalPosition) : Fin 3 → PyFloat := ![msg.x, msg.y, msg.z]
def velocity (msg : VehicleLocalPosition) : Fin 3 → PyFloat := ![msg.vx, msg.vy, msg.vz]

end VehicleLocalPosition

namespace VehicleLocalPositionSetpoint

def position (msg : VehicleLocalPositionSetpoint) : Fin 3 → PyFloat := ![msg.x, msg.y, msg.z]
def velocity (msg : VehicleLocalPositionSetpoint) : Fin 3 → PyFloat := ![msg.vx, msg.vy, msg.vz]

end VehicleLocalPositionSetpoint

/-- `rates_sp` of a rates setpoint. -/
def VehicleRatesSetpoint.rates (msg : VehicleRatesSetpoint) : Fin 3 → PyFloat :=
  ![msg.roll, msg.pitch, msg.yaw]

/-- `manual` of a manual control setpoint. -/
def ManualControlSetpoint.manual (msg : ManualControlSetpoint) : Fin 4 → PyFloat :=
  ![msg.roll, msg.pitch, msg.yaw, msg.throttle]

/-- A message of one of the topics, apart from the odometry, which only feeds the FMU pose curve. -/
inductive Message
  | pos (msg : VehicleLocalPosition)
  | posSp (msg : VehicleLocalPositionSetpoint)
  | att (msg : VehicleAttitude)
  | attSp (msg : VehicleAttitudeSetpoint)
  | angularVelocity (msg : VehicleAngularVelocity)
  | ratesSp (msg : VehicleRatesSetpoint)
  | thrust (msg : VehicleThrustSetpoint)
  | torque (msg : VehicleTorqueSetpoint)
  | motors (msg : ActuatorMotors)
  | manual (msg : ManualControlSetpoint)
  | servos (msg : ActuatorServos)
  | status (msg : HummingbirdStatus)
  | vehicleStatus (msg : VehicleStatus)
  | opti (msg : PoseStamped)

end Viewer

end Hummingbird
