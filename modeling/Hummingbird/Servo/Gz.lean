/-
  `Px4ServoToGz`, the bridge from `ActuatorServos` to the simulated joints.

  The state is the class's members without the transport node, subscription and timer. A
  handler returns what it published on each of the eight joint topics, if anything. The zero
  commands of the constructor and of the destructor are left out.

  The phase of the wobble is a product of parameters and times of any size, so it may overflow;
  the commands and filters are real or NaN for that reason. No other result is too large.
-/
import Hummingbird.Library.Machine
import Hummingbird.Servo.Messages
import Hummingbird.Servo.Ppr
import Hummingbird.Utils.Lpf

namespace Hummingbird

open WithNaN

/-- The members of `Px4ServoToGz`. -/
structure Px4ServoToGz where
  wobbleStartTime : Time
  wobbleDeg : ℝ
  wobbleHz : ℝ
  servoPubsValid : Fin 8 → Bool
  servoLpf : Fin 8 → LPF Double
  lastActuatorMsgTime : Time
  returnStartTime : Time
  returningToZero : Bool

/-- What is published on the joint topics, in radians. -/
abbrev JointCommands := Fin 8 → Option Double

namespace Px4ServoToGz

noncomputable section

/-- The node as its constructor leaves it, with the parameters `servo_wobble_deg` and
    `servo_wobble_hz` and the publishers that could be advertised. -/
def construct (servoWobbleDeg servoWobbleHz : ℝ) (servoPubsValid : Fin 8 → Bool)
    (start now : Time) : Px4ServoToGz where
  wobbleStartTime := start
  wobbleDeg := clamp servoWobbleDeg 0 servoWobbleMaxDeg
  wobbleHz := max servoWobbleHz 0
  servoPubsValid := servoPubsValid
  servoLpf := fun _ => (LPF.ofTime (servoReturnTimeSec : ℝ)).reset 0
  lastActuatorMsgTime := now
  returnStartTime := now
  returningToZero := false

/-- Publish on every valid publisher. -/
def publish (s : Px4ServoToGz) (command : Fin 8 → Double) : JointCommands :=
  fun i => if s.servoPubsValid i then some (command i) else none

/-- The start of an outage, in the `publish_timer_` lambda. -/
def startReturn (s : Px4ServoToGz) (now : Time) : Px4ServoToGz :=
  if !s.returningToZero then { s with returningToZero := true, returnStartTime := now } else s

/-- The `publish_timer_` lambda. -/
def publishTimer (s : Px4ServoToGz) (now : Time) : Px4ServoToGz × JointCommands :=
  let inactiveTime := secs (now - s.lastActuatorMsgTime)
  if inactiveTime < ddsReceiveTimeoutSec then
    ({ s with returningToZero := false }, fun _ => none)
  else
    let s := s.startReturn now
    let returnElapsed := secs (now - s.returnStartTime)
    let returnFinished := servoReturnTimeSec ≤ returnElapsed
    let updated : Fin 8 → LPF Double := fun i => (s.servoLpf i).update 0
    let command : Fin 8 → Double := fun i => if returnFinished then 0 else (updated i).y
    let servoLpf : Fin 8 → LPF Double := fun i =>
      if returnFinished then (updated i).reset 0 else updated i
    ({ s with servoLpf := servoLpf }, s.publish command)

/-- `wobble_phase` of a message that is handled at this time. -/
def wobblePhase (s : Px4ServoToGz) (now : Time) : Double :=
  if 0 < s.wobbleDeg then
    Double.finiteOrNan .double (Double.finiteOrNan .double (num (2 * Real.pi * s.wobbleHz)) *
      num (secs (now - s.wobbleStartTime) : ℝ))
  else 0

/-- The command of one joint for a message: the clamped control times the joint's limit, with
    the wobble added when there is one. -/
def jointCommand (s : Px4ServoToGz) (now : Time) (msg : ActuatorServos) (i : Fin 8) : Double :=
  let controlIndex := servoControlIndex i
  let normalized : ℝ :=
    if (msg.control controlIndex).isfinite then clamp (msg.control controlIndex).value (-1) 1
    else 0
  let command : Double := num (normalized * servoLimitRad i)
  if 0 < s.wobbleDeg then
    clamp (command + num (s.wobbleDeg * Real.pi / 180) *
      Double.sin (s.wobblePhase now + num (servoWobblePhaseRad controlIndex)))
      (num (-servoLimitRad i)) (num (servoLimitRad i))
  else command

/-- `actuatorServosCallback`. -/
def actuatorServosCallback (s : Px4ServoToGz) (now : Time) (msg : ActuatorServos) :
    Px4ServoToGz × JointCommands :=
  let command := s.jointCommand now msg
  ({ s with
      lastActuatorMsgTime := now
      returningToZero := false
      servoLpf := fun i => (s.servoLpf i).reset (command i) },
    s.publish command)

def handle (s : Px4ServoToGz) : ServoEvent → Px4ServoToGz × JointCommands
  | .actuatorServos now message => s.actuatorServosCallback now message
  | .timer now => s.publishTimer now

def gzBridge : Machine Px4ServoToGz ServoEvent JointCommands Time where
  step := handle
  enter := ServoEvent.now
  leave := ServoEvent.now

end

/-! ## What the handlers do -/

section Handlers

variable {s : Px4ServoToGz} {now : Time}

theorem publishTimer_of_active
    (h : secs (now - s.lastActuatorMsgTime) < ddsReceiveTimeoutSec) :
    s.publishTimer now = ({ s with returningToZero := false }, fun _ => none) := by
  rw [publishTimer]
  exact if_pos h

/-- When the return to zero that a timer tick belongs to has started. -/
def returnStart (s : Px4ServoToGz) (now : Time) : Time :=
  if s.returningToZero then s.returnStartTime else now

theorem startReturn_eq : s.startReturn now =
    { s with returningToZero := true, returnStartTime := s.returnStart now } := by
  obtain ⟨_, _, _, _, _, _, _, returning⟩ := s
  cases returning <;> rfl

theorem publishTimer_of_returning
    (h : ddsReceiveTimeoutSec ≤ secs (now - s.lastActuatorMsgTime))
    (hf : secs (now - s.returnStart now) < servoReturnTimeSec) :
    s.publishTimer now =
      ({ s with
          returningToZero := true
          returnStartTime := s.returnStart now
          servoLpf := fun i => (s.servoLpf i).update 0 },
        s.publish fun i => ((s.servoLpf i).update 0).y) := by
  simp only [publishTimer, not_lt.mpr h, if_false, startReturn_eq, not_le.mpr hf]
  rfl

theorem publishTimer_of_finished
    (h : ddsReceiveTimeoutSec ≤ secs (now - s.lastActuatorMsgTime))
    (hf : servoReturnTimeSec ≤ secs (now - s.returnStart now)) :
    s.publishTimer now =
      ({ s with
          returningToZero := true
          returnStartTime := s.returnStart now
          servoLpf := fun i => ((s.servoLpf i).update 0).reset 0 },
        s.publish fun _ => 0) := by
  simp only [publishTimer, not_lt.mpr h, if_false, startReturn_eq, hf, if_true]
  rfl

/-- Without wobble a finite control gives its share of the joint's limit. -/
theorem jointCommand_of_num {msg : ActuatorServos} {i : Fin 8} (hw : s.wobbleDeg = 0)
    (hm : (msg.control (servoControlIndex i)).IsNum) :
    s.jointCommand now msg i =
      num (clamp (msg.control (servoControlIndex i)).value (-1) 1 * servoLimitRad i) := by
  simp [jointCommand, hw, Double.isfinite, hm]

/-- What no handler changes: the wobble, the publishers and the gains. -/
theorem handle_config (e : ServoEvent) :
    (s.handle e).1.wobbleDeg = s.wobbleDeg ∧
      (s.handle e).1.servoPubsValid = s.servoPubsValid ∧
      ∀ i, ((s.handle e).1.servoLpf i).alpha = (s.servoLpf i).alpha := by
  cases e with
  | actuatorServos now m => exact ⟨rfl, rfl, fun i => rfl⟩
  | timer now =>
    show (s.publishTimer now).1.wobbleDeg = _ ∧ (s.publishTimer now).1.servoPubsValid = _ ∧
      ∀ i, ((s.publishTimer now).1.servoLpf i).alpha = _
    rcases lt_or_ge (secs (now - s.lastActuatorMsgTime)) ddsReceiveTimeoutSec with h | h
    · rw [publishTimer_of_active h]
      exact ⟨rfl, rfl, fun i => rfl⟩
    rcases lt_or_ge (secs (now - s.returnStart now)) servoReturnTimeSec with hf | hf
    · rw [publishTimer_of_returning h hf]
      exact ⟨rfl, rfl, fun i => LPF.update_alpha _ _⟩
    · rw [publishTimer_of_finished h hf]
      exact ⟨rfl, rfl, fun i => LPF.update_alpha _ _⟩

end Handlers

end Px4ServoToGz

end Hummingbird
