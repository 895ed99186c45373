/-
  A whole life of `Px4ServoToDynamixel` on the bus: constructor, callbacks and destructor.

  The life meets the same surroundings as the run of goals in `JointRange`: they say when the
  handlers run and what `rclcpp::ok` answers. What the node does is said on the bus, with the
  readings of the clock that the port recovery and the write-rate log make. `serve` is the life up
  to the destructor.
-/
import Hummingbird.Servo.JointRange
import Hummingbird.Servo.StartupFailure

namespace Hummingbird

open Dialogue BusHistory Bus

namespace Px4ServoToDynamixel

/-- What a life of the node meets: `port_handler_` is set or not when `initial_setting` fails, and
    `rclcpp::ok` in the destructor. -/
structure Lifetime extends Surroundings where
  portHandler : Bool
  okAtEnd : Bool

/-- The members of a node that is constructed. -/
structure ServoNode where
  bridge : Px4ServoToDynamixel
  recovery : PortRecovery
  writeCountWindow : UInt32
  lastWriteRateLog : Time

/-- The log of the write rate: the writes of a window, which has begun and ended at these times. -/
structure RateReport where
  writes : UInt32
  start : Time
  stop : Time

/-- How far the constructor and the callbacks have come. -/
inductive LifeStage
  | failed
  | returning
  | spun (node : ServoNode) (reports : List RateReport)

noncomputable section

/-- Goals as they are handed to `write_goal`. -/
def asInt32 (goal : GoalPpr) : Fin 6 → Int32 := fun i => Int32.ofInt (goal i)

/-! ## `initial_return_to_zero` -/

/-- The loop, whose checks make these readings; says whether it has ended. -/
def writeReturn (start : Time) :
    (Fin 6 → LPF ℝ) → PortRecovery → List LoopReading → Bus (PortRecovery × Bool)
  | _, s, [] => pure (s, false)
  | servoLpf, s, reading :: readings =>
    if reading.ok ∧ secs (reading.now - start) < servoStartupReturnTimeSec then do
      let servoLpf : Fin 6 → LPF ℝ := fun i => (servoLpf i).update 0
      let (s, _) ← writeGoal s (asInt32 fun i => toPpr (dxlServos i) (servoLpf i).y)
      writeReturn start servoLpf s readings
    else pure (s, true)

/-- `initial_return_to_zero`. -/
def writeInitialReturn (env : Surroundings) (s : PortRecovery) (initialPpr : Fin 6 → Int32) :
    Bus (PortRecovery × Bool) := do
  let servoLpf : Fin 6 → LPF ℝ := fun i =>
    (LPF.ofTime (servoStartupReturnTimeSec : ℝ)).reset (initialRad (dxlServos i) (initialPpr i))
  let (s, ended) ← writeReturn env.returnStart servoLpf s env.readings
  if ended ∧ env.okAfterReturn then do
    let (s, _) ← writeGoal s (asInt32 fun i => (dxlServos i).zeroPpr)
    pure (s, ended)
  else pure (s, ended)

/-! ## The callbacks -/

/-- `timeout_callback`, with its call of `write_goal`. -/
def timerTick (s : ServoNode) (now : Time) : Bus (ServoNode × Option RateReport) := do
  let (bridge, goal) := s.bridge.timeoutCallback now
  let s := { s with bridge }
  match goal with
  | none => pure (s, none)
  | some goal =>
    let (recovery, ok) ← writeGoal s.recovery (asInt32 goal)
    let s := { s with recovery }
    if !ok then pure (s, none)
    else
      let s := { s with writeCountWindow := s.writeCountWindow + 1 }
      let rateNow ← steadyNow
      if 5 ≤ secs (rateNow - s.lastWriteRateLog) then
        let logged ← steadyNow
        pure ({ s with writeCountWindow := 0, lastWriteRateLog := logged },
          some ⟨s.writeCountWindow, s.lastWriteRateLog, rateNow⟩)
      else pure (s, none)

/-- A callback of the executor. -/
def callback (s : ServoNode) : ServoEvent → Bus (ServoNode × Option RateReport)
  | .actuatorServos now msg => pure ({ s with bridge := s.bridge.ddsCallback now msg }, none)
  | .timer now => timerTick s now

/-- `rclcpp::spin`: the callbacks one after the other. -/
def spin : ServoNode → List ServoEvent → Bus (ServoNode × List RateReport)
  | s, [] => pure (s, [])
  | s, e :: events => do
    let (s, report) ← callback s e
    let (s, reports) ← spin s events
    pure (s, report.toList ++ reports)

/-! ## The destructor -/

/-- `torque_off_all`. Both handlers are set once the constructor has returned. -/
def torqueOffAll : Bus Bool := do
  let statuses ← (each fun i : Fin 6 =>
    OptionT.lift (write1 (dxlServos i).id addrTorqueEnable torqueOff)).run
  pure (statuses.any fun v => decide (∀ i, (v i).Ok))

/-- The destructor; returns what `torque_off_all` does, if it is called. -/
def destroy (okAtEnd : Bool) : Bus (Option Bool) := do
  if !okAtEnd then
    let success ← torqueOffAll
    closePort
    pure (some success)
  else
    closePort
    pure none

/-! ## The life -/

/-- The node as the constructor leaves it. -/
def constructed (ready : Time) (recovery : PortRecovery) : ServoNode where
  bridge := afterStartup ready
  recovery := recovery
  writeCountWindow := 0
  lastWriteRateLog := ready

/-- The constructor after `initial_setting`, and the callbacks. The members of the port recovery are
    still those that `initial_setting` has started with (`writeGoal_initial`). -/
def afterSetting (w : Lifetime) : Option (Fin 6 → Int32) → Bus LifeStage
  | none => pure .failed
  | some initialPpr => do
    let (recovery, ended) ← writeInitialReturn w.toSurroundings PortRecovery.initial initialPpr
    if ended then do
      let (node, reports) ← spin (constructed w.ready recovery) w.events
      pure (.spun node reports)
    else pure .returning

/-- A life up to the destructor. -/
def serve (w : Lifetime) : Bus LifeStage := (startup w.portHandler).run >>= afterSetting w

/-- Only a node that is constructed has a destructor. -/
def finish (okAtEnd : Bool) : LifeStage → Bus (LifeStage × Option Bool)
  | .failed => pure (.failed, none)
  | .returning => pure (.returning, none)
  | .spun node reports => do
    let success ← destroy okAtEnd
    pure (.spun node reports, success)

/-- A life. -/
def live (w : Lifetime) : Bus (LifeStage × Option Bool) := serve w >>= finish w.okAtEnd

/-- What is said in `initial_setting`, and its result. -/
def Lifetime.started (w : Lifetime) : BusHistory × Option (Fin 6 → Int32) :=
  (startup w.portHandler).run.run w.answer []

/-- What is said before the destructor. -/
def Lifetime.served (w : Lifetime) : BusHistory × LifeStage := (serve w).run w.answer []

/-- What is said in a life. -/
def Lifetime.history (w : Lifetime) : BusHistory := ((live w).run w.answer []).1

end

end Px4ServoToDynamixel

end Hummingbird
