/-
  What the two servo bridges handle: `ActuatorServos` messages and their timer.

  Of a message the bridges read the time stamp and the six control channels. A control is an
  exact real or NaN, which stands for every value that `std::isfinite` rejects.
-/
import Hummingbird.Params
import Hummingbird.Utils.Double

namespace Hummingbird

open WithNaN

/-- `px4_msgs::msg::ActuatorServos`. -/
structure ActuatorServos where
  timestamp : UInt64
  control : Fin 6 → Double

/-- The number in a `Double`; a NaN has none and gives 0. -/
def Double.value : Double → ℝ
  | nan => 0
  | num v => v

@[simp] theorem Double.value_num (v : ℝ) : Double.value (num v) = v := rfl

/-- All six controls are finite. -/
def ActuatorServos.Finite (m : ActuatorServos) : Prop := ∀ j, (m.control j).IsNum

/-- `std::all_of` over the six controls. -/
def ActuatorServos.allFinite (m : ActuatorServos) : Bool :=
  decide (∀ j, (m.control j).isfinite = true)

theorem ActuatorServos.allFinite_iff {m : ActuatorServos} : m.allFinite = true ↔ m.Finite := by
  simp only [allFinite, decide_eq_true_eq, Double.isfinite_iff]
  rfl

/-- An event of a servo bridge. Every handler reads the clock once. -/
inductive ServoEvent
  | actuatorServos (now : Time) (message : ActuatorServos)
  | timer (now : Time)

namespace ServoEvent

def now : ServoEvent → Time
  | actuatorServos now _ => now
  | timer now => now

/-- A message with finite controls. -/
def IsValid : ServoEvent → Prop
  | actuatorServos _ message => message.Finite
  | timer _ => False

end ServoEvent

end Hummingbird
