/-
  `Px4ServoToDynamixel`, the bridge from `ActuatorServos` to the servos, after its startup.

  The state is the class's members without the port, the subscription and the timer, and
  without what only the write-rate log and the port recovery read. A timer tick returns the
  goals it hands to `write_goal`. `afterStartup` is the state in which the constructor leaves
  the node once `initial_setting` and `initial_return_to_zero` have run.
-/
import Hummingbird.Library.Machine
import Hummingbird.Servo.Messages
import Hummingbird.Servo.Ppr
import Hummingbird.Utils.Lpf

namespace Hummingbird

open WithNaN

/-- Goal positions of the six servos, in counts. -/
abbrev GoalPpr := Fin 6 → ℤ

/-- The members of `Px4ServoToDynamixel`. -/
structure Px4ServoToDynamixel where
  servoLpf : Fin 6 → LPF ℝ
  latestGoalPpr : GoalPpr
  lastDdsReceiveSteady : Time
  nodeReadySteady : Time
  returnStartSteady : Time
  lastTimeoutStart : Time
  lastPx4TimestampUs : UInt64
  ddsReceived : Bool
  noDdsReported : Bool
  ddsTimeoutReported : Bool
  returningToZero : Bool
  zeroReturnComplete : Bool
  haveGoal : Bool

namespace Px4ServoToDynamixel

noncomputable section

/-- The node after its startup, at the time `now`. -/
def afterStartup (now : Time) : Px4ServoToDynamixel where
  servoLpf := fun _ => (LPF.ofTime (servoReturnTimeSec : ℝ)).reset 0
  latestGoalPpr := fun _ => 0
  lastDdsReceiveSteady := now
  nodeReadySteady := now
  returnStartSteady := 0
  lastTimeoutStart := 0
  lastPx4TimestampUs := 0
  ddsReceived := false
  noDdsReported := false
  ddsTimeoutReported := false
  returningToZero := false
  zeroReturnComplete := false
  haveGoal := false

/-- The angle that a message commands for a servo. -/
def messageRad (msg : ActuatorServos) (j : Fin 6) : ℝ :=
  clamp (msg.control j).value (-1) 1 * (dxlServos j).angleLimitRad

/-- `dds_callback`. -/
def ddsCallback (s : Px4ServoToDynamixel) (receiveTime : Time) (msg : ActuatorServos) :
    Px4ServoToDynamixel :=
  if !msg.allFinite then s
  else
    { s with
      lastDdsReceiveSteady := receiveTime
      lastPx4TimestampUs := msg.timestamp
      ddsReceived := true
      ddsTimeoutReported := false
      returningToZero := false
      zeroReturnComplete := false
      servoLpf := fun j => (s.servoLpf j).reset (messageRad msg j)
      latestGoalPpr := fun j => toPpr (dxlServos j) (messageRad msg j)
      haveGoal := true }

/-- The start of an outage, in `timeout_callback`. -/
def startReturn (s : Px4ServoToDynamixel) (now : Time) : Px4ServoToDynamixel :=
  if !s.returningToZero then
    { s with
      returningToZero := true
      ddsTimeoutReported := true
      returnStartSteady := now
      lastTimeoutStart := s.lastDdsReceiveSteady }
  else s

/-- One step of the return to zero, in `timeout_callback`. -/
def stepReturn (s : Px4ServoToDynamixel) (now : Time) : Px4ServoToDynamixel :=
  let returnElapsedSec := secs (now - s.returnStartSteady)
  let returnFinished := servoReturnTimeSec ≤ returnElapsedSec
  let nextLpf : Fin 6 → LPF ℝ := fun j =>
    if returnFinished then s.servoLpf j else (s.servoLpf j).update 0
  let rad : Fin 6 → ℝ := fun j => if returnFinished then 0 else (nextLpf j).y
  let s := { s with latestGoalPpr := fun j => toPpr (dxlServos j) (rad j) }
  if ¬ returnFinished then { s with servoLpf := nextLpf }
  else
    { s with
      servoLpf := fun j => (s.servoLpf j).reset 0
      returningToZero := false
      zeroReturnComplete := true }

/-- `timeout_callback`. -/
def timeoutCallback (s : Px4ServoToDynamixel) (now : Time) :
    Px4ServoToDynamixel × Option GoalPpr :=
  if !s.ddsReceived || !s.haveGoal then
    let waitSec := secs (now - s.nodeReadySteady)
    (if 1 ≤ waitSec ∧ !s.noDdsReported then { s with noDdsReported := true } else s, none)
  else
    let receiveGapSec := secs (now - s.lastDdsReceiveSteady)
    let s :=
      if ddsReceiveTimeoutSec ≤ receiveGapSec ∧ !s.zeroReturnComplete then
        (s.startReturn now).stepReturn now
      else s
    (s, some s.latestGoalPpr)

def handle (s : Px4ServoToDynamixel) : ServoEvent → Px4ServoToDynamixel × Option GoalPpr
  | .actuatorServos now message => (s.ddsCallback now message, none)
  | .timer now => s.timeoutCallback now

def dxlBridge : Machine Px4ServoToDynamixel ServoEvent (Option GoalPpr) Time where
  step := handle
  enter := ServoEvent.now
  leave := ServoEvent.now

end

/-! ## What the handlers do -/

section Handlers

variable {s : Px4ServoToDynamixel} {now : Time} {msg : ActuatorServos}

/-- A message with a control that is not finite changes nothing. -/
theorem ddsCallback_of_invalid (h : ¬ msg.Finite) : s.ddsCallback now msg = s := by
  have hguard : msg.allFinite = false := by
    rw [← ActuatorServos.allFinite_iff] at h
    simpa using h
  simp [ddsCallback, hguard]

theorem ddsCallback_of_valid (h : msg.Finite) :
    s.ddsCallback now msg = { s with
      lastDdsReceiveSteady := now
      lastPx4TimestampUs := msg.timestamp
      ddsReceived := true
      ddsTimeoutReported := false
      returningToZero := false
      zeroReturnComplete := false
      servoLpf := fun j => (s.servoLpf j).reset (messageRad msg j)
      latestGoalPpr := fun j => toPpr (dxlServos j) (messageRad msg j)
      haveGoal := true } := by
  simp [ddsCallback, ActuatorServos.allFinite_iff.mpr h]

/-- When the return to zero that a timer tick belongs to has started. -/
def returnStart (s : Px4ServoToDynamixel) (now : Time) : Time :=
  if s.returningToZero then s.returnStartSteady else now

theorem startReturn_eq : s.startReturn now = { s with
    returningToZero := true
    ddsTimeoutReported := !s.returningToZero || s.ddsTimeoutReported
    returnStartSteady := s.returnStart now
    lastTimeoutStart :=
      if s.returningToZero then s.lastTimeoutStart else s.lastDdsReceiveSteady } := by
  obtain ⟨_, _, _, _, _, _, _, _, _, _, returning, _, _⟩ := s
  cases returning <;> rfl

theorem stepReturn_of_returning (hf : secs (now - s.returnStartSteady) < servoReturnTimeSec) :
    s.stepReturn now = { s with
      servoLpf := fun j => (s.servoLpf j).update 0
      latestGoalPpr := fun j => toPpr (dxlServos j) ((s.servoLpf j).update 0).y } := by
  simp only [stepReturn, not_le.mpr hf, if_false, not_false_eq_true, if_true]

theorem stepReturn_of_finished (hf : servoReturnTimeSec ≤ secs (now - s.returnStartSteady)) :
    s.stepReturn now = { s with
      servoLpf := fun j => (s.servoLpf j).reset 0
      latestGoalPpr := fun j => (dxlServos j).zeroPpr
      returningToZero := false
      zeroReturnComplete := true } := by
  simp only [stepReturn, hf, not_true_eq_false, if_false, if_true, toPpr_zero]

theorem timeoutCallback_of_waiting (h : s.ddsReceived = false) :
    (s.timeoutCallback now).2 = none ∧ (s.timeoutCallback now).1.ddsReceived = false := by
  have hguard : (!s.ddsReceived || !s.haveGoal) = true := by simp [h]
  unfold timeoutCallback
  rw [if_pos hguard]
  dsimp only
  split <;> exact ⟨rfl, h⟩

theorem timeoutCallback_of_holding (hd : s.ddsReceived = true) (hg : s.haveGoal = true)
    (h : secs (now - s.lastDdsReceiveSteady) < ddsReceiveTimeoutSec ∨
      s.zeroReturnComplete = true) :
    s.timeoutCallback now = (s, some s.latestGoalPpr) := by
  have hguard : ¬ (ddsReceiveTimeoutSec ≤ secs (now - s.lastDdsReceiveSteady) ∧
      (!s.zeroReturnComplete) = true) := by
    rintro ⟨hle, hn⟩
    rcases h with h | h
    · exact absurd hle (not_le.mpr h)
    · simp [h] at hn
  simp only [timeoutCallback, hd, hg, Bool.not_true, Bool.or_self, Bool.false_eq_true, if_false,
    hguard]

theorem timeoutCallback_of_outage (hd : s.ddsReceived = true) (hg : s.haveGoal = true)
    (h : ddsReceiveTimeoutSec ≤ secs (now - s.lastDdsReceiveSteady))
    (hn : s.zeroReturnComplete = false) :
    s.timeoutCallback now = ((s.startReturn now).stepReturn now,
      some ((s.startReturn now).stepReturn now).latestGoalPpr) := by
  simp [timeoutCallback, hd, hg, h, hn]

theorem timeoutCallback_of_returning (hd : s.ddsReceived = true) (hg : s.haveGoal = true)
    (h : ddsReceiveTimeoutSec ≤ secs (now - s.lastDdsReceiveSteady))
    (hn : s.zeroReturnComplete = false)
    (hf : secs (now - s.returnStart now) < servoReturnTimeSec) :
    s.timeoutCallback now =
      ({ s.startReturn now with
          servoLpf := fun j => (s.servoLpf j).update 0
          latestGoalPpr := fun j => toPpr (dxlServos j) ((s.servoLpf j).update 0).y },
        some fun j => toPpr (dxlServos j) ((s.servoLpf j).update 0).y) := by
  rw [timeoutCallback_of_outage hd hg h hn, stepReturn_of_returning (by rwa [startReturn_eq])]
  simp only [startReturn_eq]

theorem timeoutCallback_of_finished (hd : s.ddsReceived = true) (hg : s.haveGoal = true)
    (h : ddsReceiveTimeoutSec ≤ secs (now - s.lastDdsReceiveSteady))
    (hn : s.zeroReturnComplete = false)
    (hf : servoReturnTimeSec ≤ secs (now - s.returnStart now)) :
    s.timeoutCallback now =
      ({ s.startReturn now with
          servoLpf := fun j => (s.servoLpf j).reset 0
          latestGoalPpr := fun j => (dxlServos j).zeroPpr
          returningToZero := false
          zeroReturnComplete := true },
        some fun j => (dxlServos j).zeroPpr) := by
  rw [timeoutCallback_of_outage hd hg h hn, stepReturn_of_finished (by rwa [startReturn_eq])]
  simp only [startReturn_eq]

theorem startReturn_servoLpf : (s.startReturn now).servoLpf = s.servoLpf := by
  rw [startReturn_eq]

theorem timeoutCallback_alpha (j : Fin 6) :
    ((s.timeoutCallback now).1.servoLpf j).alpha = (s.servoLpf j).alpha := by
  have hstep : (((s.startReturn now).stepReturn now).servoLpf j).alpha =
      (s.servoLpf j).alpha := by
    rcases lt_or_ge (secs (now - (s.startReturn now).returnStartSteady)) servoReturnTimeSec
      with hf | hf
    · rw [stepReturn_of_returning hf, LPF.update_alpha, startReturn_servoLpf]
    · rw [stepReturn_of_finished hf, LPF.reset_alpha, startReturn_servoLpf]
  unfold timeoutCallback
  dsimp only
  split_ifs
  · rfl
  · rfl
  · exact hstep
  · rfl

/-- No handler changes the gains. -/
theorem handle_alpha (e : ServoEvent) (j : Fin 6) :
    ((s.handle e).1.servoLpf j).alpha = (s.servoLpf j).alpha := by
  cases e with
  | timer now => exact timeoutCallback_alpha j
  | actuatorServos now m =>
    show ((s.ddsCallback now m).servoLpf j).alpha = (s.servoLpf j).alpha
    by_cases hm : m.Finite
    · rw [ddsCallback_of_valid hm, LPF.reset_alpha]
    · rw [ddsCallback_of_invalid hm]

/-- A message commands at most half a turn. -/
theorem messageRad_inRange (msg : ActuatorServos) (j : Fin 6) : InRange (messageRad msg j) := by
  obtain ⟨-, -, -, -, hlim0, hlim⟩ := dxlServos_range j
  have hmem : clamp (msg.control j).value (-1) 1 ∈ Set.Icc (-1 : ℝ) 1 :=
    clamp_mem (by norm_num) _
  have habs : |clamp (msg.control j).value (-1) 1| ≤ 1 := abs_le.mpr hmem
  rw [InRange, messageRad, abs_mul, abs_of_nonneg hlim0]
  calc |clamp (msg.control j).value (-1) 1| * (dxlServos j).angleLimitRad
      ≤ 1 * (dxlServos j).angleLimitRad := mul_le_mul_of_nonneg_right habs hlim0
    _ ≤ Real.pi := by rw [one_mul]; exact hlim

end Handlers

end Px4ServoToDynamixel

end Hummingbird
