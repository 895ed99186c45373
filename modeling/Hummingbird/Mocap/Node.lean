/-
  `MocapToPx4`, the node of `mocap_to_px4.cpp`.

  A mocap message that passes the checks leaves its odometry in `pending_odom_`; the output
  timer publishes what it finds there, if it is fresh, and empties it. Left out is what only
  reaches the log (`has_input_`, `last_input_steady_`, `input_missing_` and the steady clock
  they are compared with), and the timer period.

  The ROS clock is not assumed to be monotone: every event carries the reading that its handler
  gets. A reading is never negative (`rclcpp::Time` cannot store a negative time point); the
  constructor that makes a time of a header stamp throws on a negative one, and nothing catches
  the exception, so the node has stopped.

  The fields of messages hold exact values, or NaN for what is not finite: a result that is too
  large for a double is infinite, and so is a double that is too large for a `float` field.
-/
import Hummingbird.Library.Machine
import Hummingbird.Mocap.Utils

namespace Hummingbird

open WithNaN Rotation

/-- A reading of the ROS clock, in nanoseconds. -/
structure RosTime where
  nanoseconds : ℕ
  bounded : nanoseconds < 2 ^ 63

/-- The time in microseconds. -/
def RosTime.micros (t : RosTime) : UInt64 := UInt64.ofNat (t.nanoseconds / 1000)

/-- `builtin_interfaces::msg::Time`. -/
structure Stamp where
  sec : Int32
  nanosec : UInt32

/-- The constructor `rclcpp::Time(stamp)`; `none` when it throws. -/
def Stamp.time (t : Stamp) : Option RosTime :=
  if h : 0 ≤ t.sec.toInt then
    some ⟨t.sec.toInt.toNat * 1000000000 + t.nanosec.toNat, by
      have hs := t.sec.toInt_lt
      have hn := t.nanosec.toNat_lt
      omega⟩
  else none

/-- `geometry_msgs::msg::PoseStamped`. -/
structure PoseStamped where
  stamp : Stamp
  frameId : String
  position : Vector3
  orientation : Quaternion

/-- `px4_msgs::msg::VehicleOdometry`. -/
structure VehicleOdometry where
  timestamp : UInt64
  timestampSample : UInt64
  poseFrame : UInt8
  position : Vector3
  q : Quaternion
  velocityFrame : UInt8
  velocity : Vector3
  angularVelocity : Vector3
  positionVariance : Vector3
  orientationVariance : Vector3
  velocityVariance : Vector3
  resetCounter : UInt8
  quality : Int8

def poseFrameNed : UInt8 := 1
def velocityFrameBodyFrd : UInt8 := 3

namespace MocapToPx4

/-- The ROS parameters of the node. The constructor throws unless `timing` holds. -/
structure Parameters where
  targetBodyName : String
  positionScale : ℝ
  optiOrigin : List ℝ
  positionStddev : ℝ
  orientationStddevDeg : ℝ
  quality : ℤ
  outputRateHz : ℚ
  maxSampleAgeSec : ℚ
  timing : 0 < outputRateHz ∧ 0 < maxSampleAgeSec

noncomputable section

/-- The default parameters. -/
def defaults : Parameters where
  targetBodyName := "Hummingbird"
  positionScale := 0.001
  optiOrigin := [0, 0, 0]
  positionStddev := 0.02
  orientationStddevDeg := 3
  quality := 100
  outputRateHz := 100
  maxSampleAgeSec := 1 / 10
  timing := by norm_num

/-- `opti_origin_`: the parameter, if it has three values. -/
def Parameters.origin (p : Parameters) : Position :=
  match p.optiOrigin with
  | [x, y, z] => ![x, y, z]
  | _ => 0

/-- `static_cast<float>`. -/
def toFloat : Double → Double := Double.finiteOrNan .single

/-- `position_variance_`. -/
def Parameters.positionVariance (p : Parameters) : Double :=
  toFloat (num (p.positionStddev * p.positionStddev))

/-- `orientation_variance_`. -/
def Parameters.orientationVariance (p : Parameters) : Double :=
  let orientationStddevRad := p.orientationStddevDeg * Real.pi / 180
  toFloat (num (orientationStddevRad * orientationStddevRad))

end

end MocapToPx4

/-- The members of `MocapToPx4` that its callbacks read and write; `stopped` after an exception
    has left a callback. -/
structure MocapToPx4 where
  pendingOdom : Option VehicleOdometry
  stopped : Bool

namespace MocapToPx4

/-- What the node hands to one of its two publishers. -/
inductive Publication
  | mocap (m : PoseStamped)
  | vehicleOdometry (m : VehicleOdometry)

def construct : MocapToPx4 := ⟨none, false⟩

noncomputable section

/-- `measurement_time`: the header stamp, unless it is missing or ahead of the clock. -/
def measurementTime (sampleTime now : RosTime) : RosTime :=
  if 0 < sampleTime.nanoseconds ∧ sampleTime.nanoseconds ≤ now.nanoseconds then sampleTime else now

/-- `opti_pos`. -/
def scaled (p : Parameters) (v : Vector3) : Vector3 :=
  Vector3.finiteOrNan .double
    ⟨p.positionScale • v.x, p.positionScale • v.y, p.positionScale • v.z⟩

variable (eigen : Matrix (Fin 3) (Fin 3) ℝ → Quat) (p : Parameters)

/-- The odometry of a valid pose. -/
def odometry (measured : RosTime) (optiPos : Position) (optiAtt : Quat) : VehicleOdometry :=
  let posePx4 := OptiDouble.mocapPoseToPx4 eigen optiPos optiAtt p.origin
  { timestamp := 0
    timestampSample := measured.micros
    poseFrame := poseFrameNed
    position := ⟨toFloat posePx4.pos.x, toFloat posePx4.pos.y, toFloat posePx4.pos.z⟩
    q :=
      let att := Quaternion.ofReal posePx4.att
      ⟨toFloat att.w, toFloat att.x, toFloat att.y, toFloat att.z⟩
    velocityFrame := velocityFrameBodyFrd
    velocity := ⟨nan, nan, nan⟩
    angularVelocity := ⟨nan, nan, nan⟩
    positionVariance := ⟨p.positionVariance, p.positionVariance, p.positionVariance⟩
    orientationVariance := ⟨p.orientationVariance, p.orientationVariance, p.orientationVariance⟩
    velocityVariance := ⟨num 1000000, num 1000000, num 1000000⟩
    resetCounter := 0
    quality := Int8.ofInt p.quality }

/-- `onMocap`. -/
def onMocap (s : MocapToPx4) (now : RosTime) (msg : PoseStamped) :
    MocapToPx4 × List Publication :=
  if p.targetBodyName ≠ "" ∧ msg.frameId ≠ p.targetBodyName then (s, [])
  else
    match msg.stamp.time with
    | none => ({ s with stopped := true }, [])
    | some sampleTime =>
      match (scaled p msg.position).reals, msg.orientation.reals with
      | some optiPos, some optiAtt =>
        if ‖optiAtt‖ < 1e-6 then (s, [])
        else
          ({ s with
              pendingOdom :=
                some (odometry eigen p (measurementTime sampleTime now) optiPos optiAtt) },
            [.mocap { msg with position := Vector3.ofReal optiPos }])
      | _, _ => (s, [])

/-- `sample_age_sec` of an odometry at the time `now`. -/
def sampleAgeSec (now : RosTime) (odom : VehicleOdometry) : ℚ :=
  secs ((now.nanoseconds : ℤ) - (odom.timestampSample.toNat : ℤ) * 1000)

/-- `publishPx4`. -/
def publishPx4 (s : MocapToPx4) (now : RosTime) : MocapToPx4 × List Publication :=
  match s.pendingOdom with
  | none => (s, [])
  | some odom =>
    let published :=
      if 0 ≤ sampleAgeSec now odom ∧ sampleAgeSec now odom ≤ p.maxSampleAgeSec then
        [.vehicleOdometry { odom with timestamp := now.micros }]
      else []
    ({ s with pendingOdom := none }, published)

/-- What the node handles: a mocap message or the output timer, with the clock's reading. -/
inductive Event
  | mocap (now : RosTime) (msg : PoseStamped)
  | tick (now : RosTime)

namespace Event

/-- The clock's reading in the handler. -/
def now : Event → RosTime
  | mocap now _ => now
  | tick now => now

def isTick : Event → Bool
  | mocap _ _ => false
  | tick _ => true

end Event

/-- Handle one event; after an exception nothing is handled any more. -/
def handle (s : MocapToPx4) (e : Event) : MocapToPx4 × List Publication :=
  if s.stopped then (s, [])
  else
    match e with
    | .mocap now msg => onMocap eigen p s now msg
    | .tick now => publishPx4 p s now

/-- The node, with events in any order: no clock orders them. -/
def node : Machine MocapToPx4 Event (List Publication) Unit where
  step := handle eigen p
  enter _ := ()
  leave _ := ()

end

abbrev Entry := Machine.Step MocapToPx4 Event (List Publication)

/-- What the node has handled, newest first. -/
abbrev History := List Entry

/-- Runs of the node. -/
abbrev IsRun (eigen : Matrix (Fin 3) (Fin 3) ℝ → Quat) (p : Parameters) (h : History)
    (s : MocapToPx4) : Prop :=
  Machine.Run (node eigen p) construct () h s ()

end MocapToPx4

end Hummingbird
