/-
  `_ingest_replay_record` of `px4_multirotor_viewer.py`.

  A record is dispatched on its topic; the functions `ingest...` are its branches. `none` stands
  for an exception, for which no record of the live callbacks gives rise.
-/
import Hummingbird.Viewer.Callbacks
import Hummingbird.Viewer.Replay

namespace Hummingbird

namespace Viewer

open Rotation

noncomputable section

variable (c : Config) (s : View) (t : ℚ) (data : Dict)

/-- A vector that is pushed as it is read, with 0 for what is missing. -/
def ingestVector (buffer : Buffer) (key : String) (width : ℕ) : Option (List Push) := do
  let v ← vecFromLog data key width
  some [⟨buffer, t, numRow v⟩]

/-- Three values that are pushed as they are stored, with NaN for what is missing. -/
def ingestCells (buffer : Buffer) (key : String) : Option (List Push) := do
  let row ← cellsFromLog data key
  some [⟨buffer, t, row⟩]

/-- A velocity is pushed if there is one. -/
def ingestVelocity (buffer : Buffer) : Option (List Push) :=
  match data.lookup "velocity" with
  | none => some []
  | some _ => ingestCells t data buffer "velocity"

/-- An integer. -/
def ingestInt (buffer : Buffer) (key : String) : Option (List Push) := do
  let n ← intFromLog data key (-1)
  some [⟨buffer, t, [.num n]⟩]

/-- The quaternion that is read with `vec_from_log`. -/
def quatFromLog (key : String) : Option Quaternion := do
  let q ← vecFromLog data key 4
  some ⟨.num (q 0), .num (q 1), .num (q 2), .num (q 3)⟩

/-- A vector that was derived when it was logged, or else is derived now. -/
def derivedFromLog (key : String) {width : ℕ} (derive : Fin width → ℝ) : Option (Fin width → ℝ) :=
  match data.lookup key with
  | some _ => vecFromLog data key width
  | none => some derive

/-- The branch of `/fmu/out/vehicle_local_position`. -/
def ingestPos : Option (List Push) := do
  let pos ← vecFromLog data "position" 3
  let vel ← ingestVelocity t data .vel
  let fmuPose :=
    if c.realMode then recordFmuPose s t (floats pos) (headingQuat (floatFromLog data "heading"))
    else []
  some ([⟨.pos, t, numRow pos⟩] ++ vel ++ fmuPose)

/-- The branch of `/fmu/out/vehicle_local_position_setpoint`. -/
def ingestPosSp : Option (List Push) := do
  let pos ← ingestVector t data .posSp "position" 3
  let vel ← ingestVelocity t data .velSp
  some (pos ++ vel)

/-- The branches of the two attitude topics. -/
def ingestAttitude (buffer : Buffer) (qKey rpyKey : String) : Option (List Push) := do
  let q ← quatFromLog data qKey
  let rpy ← derivedFromLog data rpyKey (quatToRpyDeg q)
  some [⟨buffer, t, numRow rpy⟩]

/-- The branch of `/fmu/out/actuator_motors`. -/
def ingestMotors : Option (List Push) := do
  let controls ← vecFromLog data "control" 4
  let force ← derivedFromLog data "force_n_est" (motorForce c controls)
  some [⟨.motor, t, numRow force⟩]

/-- The branch of `/fmu/out/manual_control_setpoint`. -/
def ingestManual : Option (List Push) := do
  let _ ← vecFromLog data "roll_pitch_yaw_throttle" 4
  some []

/-- The branch of `/fmu/out/actuator_servos`. -/
def ingestServos : Option (List Push) := do
  let controls ← vecFromLog data "control" 6
  let beta ← derivedFromLog data "beta_deg" fun i : Fin 2 =>
    controls (i.castLE (by decide)) * c.betaLimitRad * rad2deg
  let alpha ← derivedFromLog data "alpha_deg" fun i : Fin 4 =>
    controls (i.natAdd 2) * c.alphaLimitRad * rad2deg
  some [⟨.beta, t, numRow beta⟩, ⟨.alpha, t, numRow alpha⟩]

/-- `raw_delay_ms` of a record: the one logged, or else from its times. -/
def rawDelayFromLog (wallTime : Option ℚ) : Option ℝ :=
  match floatFromLog data "transport_delay_ms" with
  | some delay => some delay
  | none =>
    match wallTime, floatFromLog data "header_stamp" with
    | some wall, some headerStamp =>
      if 0 < headerStamp then some (((wall : ℝ) - headerStamp) * 1000) else none
    | _, _ => none

/-- The branch of a record with `px4_position_ned`. -/
def ingestOpti (wallTime : Option ℚ) : Option (View × List Push) := do
  let pos ← vecFromLog data "px4_position_ned" 3
  let q ← quatFromLog data "px4_q_wxyz"
  let rpy ← derivedFromLog data "px4_rpy_deg" (quatToRpyDeg q)
  let timing := recordOptiTiming c { s with lastOptiPos := some (floats pos) } t
    (rawDelayFromLog data wallTime)
  some (timing.1, [⟨.optiPos, t, numRow pos⟩, ⟨.optiRpy, t, numRow rpy⟩] ++ timing.2)

/-- The branch of the odometry. -/
def ingestFmuOdom : Option (View × List Push) := do
  let pos ← vecFromLog data "position" 3
  let q ← quatFromLog data "q_wxyz"
  some ({ s with lastFmuOdomRx := some t },
    recordFmuPose { s with lastFmuOdomRx := some t } t (floats pos) q)

/-- The branches of the topics that PX4 publishes under a fixed name. -/
def ingestFixed (topic : String) : Option (Option (List Push)) :=
  if topic = "/fmu/out/vehicle_local_position" then some (ingestPos c s t data)
  else if topic = "/fmu/out/vehicle_local_position_setpoint" then some (ingestPosSp t data)
  else if topic = "/fmu/out/vehicle_angular_velocity" then some (ingestCells t data .rates "xyz")
  else if topic = "/fmu/out/vehicle_rates_setpoint" then some (ingestCells t data .ratesSp "xyz")
  else if topic = "/fmu/out/vehicle_attitude" then some (ingestAttitude t data .rpy "q" "rpy_deg")
  else if topic = "/fmu/out/vehicle_attitude_setpoint" then
    some (ingestAttitude t data .attSp "q_d" "rpy_d_deg")
  else if topic = "/fmu/out/vehicle_thrust_setpoint" then some (ingestVector t data .force "xyz" 3)
  else if topic = "/fmu/out/vehicle_torque_setpoint" then some (ingestVector t data .torque "xyz" 3)
  else if topic = "/fmu/out/actuator_motors" then some (ingestMotors c t data)
  else if topic = "/fmu/out/manual_control_setpoint" then some (ingestManual data)
  else if topic = "/fmu/out/actuator_servos" then some (ingestServos c t data)
  else if topic = "/fmu/out/hummingbird_status" then
    some (ingestInt t data .cmdState "hb_cmd_source")
  else if topic = "/fmu/out/vehicle_status" then some (ingestInt t data .flightState "nav_state")
  else none

/-- What is done with the record itself. -/
def ingestTopic (topic : String) (wallTime : Option ℚ) : Option (View × List Push) :=
  match ingestFixed c s t data topic with
  | some rows => rows.map fun pushed => (s, pushed)
  | none =>
    if (data.lookup "px4_position_ned").isSome then ingestOpti c s t data wallTime
    else if topic = c.fmuOdomTopic ∨ topic = "/fmu/out/vehicle_odometry" then ingestFmuOdom s t data
    else some (s, [])

/-- `_ingest_replay_record`: in real mode it first does what the timer does live. -/
def ingestReplayRecord (record : ReplayRecord Dict) : Option (View × List Push) := do
  let tick := if c.realMode then recordOptiHealth c s record.replayT false else (s, [])
  let (s', pushed) ← ingestTopic c tick.1 record.replayT record.record.data
    (record.record.topic.getD "") record.record.wallTime
  some (s', tick.2 ++ pushed)

end

/-! ## What the branches make of what was written -/

section Branches

variable {t : ℚ} {data : Dict} {buffer : Buffer} {key : String} {n : ℕ}

theorem jsonArrayN_self (v : Fin n → PyFloat) : jsonArrayN v n = jsonArray v := jsonListN_ofFn v

theorem ingestVector_of {v : Fin n → PyFloat} (h : data.lookup key = some (jsonArray v)) :
    ingestVector t data buffer key n = some [⟨buffer, t, numRow fun i => (v i).orZero⟩] := by
  unfold ingestVector
  rw [vecFromLog_of_jsonList h]
  rfl

theorem ingestCells_of {v : Fin 3 → PyFloat} (h : data.lookup key = some (jsonArray v)) :
    ingestCells t data buffer key = some [⟨buffer, t, List.ofFn fun i => (v i).stored⟩] := by
  unfold ingestCells
  rw [cellsFromLog_of_jsonList h]
  rfl

theorem ingestVelocity_of {v : Fin 3 → PyFloat} (h : data.lookup "velocity" = some (jsonArray v)) :
    ingestVelocity t data buffer = some [⟨buffer, t, List.ofFn fun i => (v i).stored⟩] := by
  unfold ingestVelocity
  rw [h]
  exact ingestCells_of h

theorem ingestInt_of {k : ℕ} (h : data.lookup key = some (jsonNat k)) :
    ingestInt t data buffer key = some [⟨buffer, t, [.num k]⟩] := by
  unfold ingestInt intFromLog
  rw [h]
  simp [jsonNat]

/-- What was derived live is not derived again. -/
theorem derivedFromLog_of {v derive : Fin n → ℝ}
    (h : data.lookup key = some (jsonArray (floats v))) :
    derivedFromLog data key derive = some v := by
  unfold derivedFromLog
  rw [h]
  exact vecFromLog_of_jsonList h

theorem quatFromLog_of {q : Fin 4 → PyFloat} (h : data.lookup key = some (jsonArray q)) :
    quatFromLog data key = some ⟨.num (q 0).orZero, .num (q 1).orZero, .num (q 2).orZero,
      .num (q 3).orZero⟩ := by
  unfold quatFromLog
  rw [vecFromLog_of_jsonList h]
  rfl

theorem ingestAttitude_of {q : Fin 4 → PyFloat} {rpy : Fin 3 → ℝ} {rpyKey : String}
    (hq : data.lookup key = some (jsonArray q))
    (hrpy : data.lookup rpyKey = some (jsonArray (floats rpy))) :
    ingestAttitude t data buffer key rpyKey = some [⟨buffer, t, numRow rpy⟩] := by
  unfold ingestAttitude
  rw [quatFromLog_of hq]
  show (derivedFromLog data rpyKey _ >>= _) = _
  rw [derivedFromLog_of hrpy]
  rfl

theorem floatFromLog_of {x : PyFloat} (h : data.lookup key = some (jsonFloat x)) :
    floatFromLog data key = x.finite? := by
  unfold floatFromLog
  rw [h]
  exact toFloat_jsonFloat x

theorem ingestPos_of {c : Config} {s : View} {pos vel : Fin 3 → PyFloat} {heading : PyFloat}
    (hpos : data.lookup "position" = some (jsonArray pos))
    (hvel : data.lookup "velocity" = some (jsonArray vel))
    (hheading : data.lookup "heading" = some (jsonFloat heading)) :
    ingestPos c s t data = some ([⟨.pos, t, numRow fun i => (pos i).orZero⟩,
      ⟨.vel, t, List.ofFn fun i => (vel i).stored⟩] ++
      if c.realMode then
        recordFmuPose s t (floats fun i => (pos i).orZero) (headingQuat heading.finite?)
      else []) := by
  unfold ingestPos
  rw [vecFromLog_of_jsonList hpos, ingestVelocity_of hvel, floatFromLog_of hheading]
  rfl

theorem ingestPosSp_of {pos vel : Fin 3 → PyFloat}
    (hpos : data.lookup "position" = some (jsonArray pos))
    (hvel : data.lookup "velocity" = some (jsonArray vel)) :
    ingestPosSp t data = some [⟨.posSp, t, numRow fun i => (pos i).orZero⟩,
      ⟨.velSp, t, List.ofFn fun i => (vel i).stored⟩] := by
  unfold ingestPosSp
  rw [ingestVector_of hpos, ingestVelocity_of hvel]
  rfl

theorem ingestMotors_of {c : Config} {k : ℕ} {control : Fin k → PyFloat} {force : Fin 4 → ℝ}
    (hcontrol : data.lookup "control" = some (jsonArray control))
    (hforce : data.lookup "force_n_est" = some (jsonArray (floats force))) :
    ingestMotors c t data = some [⟨.motor, t, numRow force⟩] := by
  have hcontrols : ∃ v, vecFromLog data "control" 4 = some v := by
    unfold vecFromLog
    rw [hcontrol]
    exact ⟨_, rfl⟩
  obtain ⟨v, hv⟩ := hcontrols
  unfold ingestMotors
  rw [hv]
  show (derivedFromLog data "force_n_est" _ >>= _) = _
  rw [derivedFromLog_of hforce]
  rfl

theorem ingestServos_of {c : Config} {control : Fin 6 → PyFloat} {beta : Fin 2 → ℝ}
    {alpha : Fin 4 → ℝ} (hcontrol : data.lookup "control" = some (jsonArray control))
    (hbeta : data.lookup "beta_deg" = some (jsonArray (floats beta)))
    (halpha : data.lookup "alpha_deg" = some (jsonArray (floats alpha))) :
    ingestServos c t data = some [⟨.beta, t, numRow beta⟩, ⟨.alpha, t, numRow alpha⟩] := by
  unfold ingestServos
  rw [vecFromLog_of_jsonList hcontrol]
  show (derivedFromLog data "beta_deg" _ >>= _) = _
  rw [derivedFromLog_of hbeta]
  show (derivedFromLog data "alpha_deg" _ >>= _) = _
  rw [derivedFromLog_of halpha]
  rfl

theorem ingestManual_of {v : Fin 4 → PyFloat}
    (h : data.lookup "roll_pitch_yaw_throttle" = some (jsonArray v)) :
    ingestManual data = some [] := by
  unfold ingestManual
  rw [vecFromLog_of_jsonList h]
  rfl

theorem ingestOpti_of {c : Config} {s : View} {pos : Fin 3 → PyFloat} {q : Fin 4 → PyFloat}
    {rpy : Fin 3 → ℝ} (hpos : data.lookup "px4_position_ned" = some (jsonArray pos))
    (hq : data.lookup "px4_q_wxyz" = some (jsonArray q))
    (hrpy : data.lookup "px4_rpy_deg" = some (jsonArray (floats rpy))) (wallTime : Option ℚ) :
    ∃ s', ingestOpti c s t data wallTime = some (s',
      [⟨.optiPos, t, numRow fun i => (pos i).orZero⟩, ⟨.optiRpy, t, numRow rpy⟩] ++
        (recordOptiTiming c { s with lastOptiPos := some (floats fun i => (pos i).orZero) } t
          (rawDelayFromLog data wallTime)).2) := by
  unfold ingestOpti
  rw [vecFromLog_of_jsonList hpos, quatFromLog_of hq]
  refine ⟨(recordOptiTiming c { s with lastOptiPos := some (floats fun i => (pos i).orZero) } t
    (rawDelayFromLog data wallTime)).1, ?_⟩
  show (derivedFromLog data "px4_rpy_deg" _ >>= _) = _
  rw [derivedFromLog_of hrpy]
  rfl

theorem ingestFmuOdom_of {s : View} {pos : Fin 3 → PyFloat} {q : Fin 4 → PyFloat}
    (hpos : data.lookup "position" = some (jsonArray pos))
    (hq : data.lookup "q_wxyz" = some (jsonArray q)) :
    ingestFmuOdom s t data = some ({ s with lastFmuOdomRx := some t },
      recordFmuPose { s with lastFmuOdomRx := some t } t (floats fun i => (pos i).orZero)
        ⟨.num (q 0).orZero, .num (q 1).orZero, .num (q 2).orZero, .num (q 3).orZero⟩) := by
  unfold ingestFmuOdom
  rw [vecFromLog_of_jsonList hpos, quatFromLog_of hq]
  rfl

/-- The delay of a mocap message is the one that was logged; without a header stamp there is none,
    live or later. -/
theorem rawDelayFromLog_of {c : Config} {msg : PoseStamped} {receive : ℚ}
    (hstamp : data.lookup "header_stamp" = some (.float (stampToSec msg : ℝ)))
    (hdelay : data.lookup "transport_delay_ms" = some (match rawDelayMs c receive msg with
      | some delay => .float delay
      | none => .null)) (wallTime : Option ℚ) :
    rawDelayFromLog data wallTime = rawDelayMs c receive msg := by
  unfold rawDelayFromLog floatFromLog
  rw [hstamp, hdelay]
  cases hraw : rawDelayMs c receive msg with
  | some delay => rfl
  | none =>
    have hle : ¬ 0 < (stampToSec msg : ℝ) := by
      intro hpos
      unfold rawDelayMs at hraw
      rw [if_pos (by exact_mod_cast hpos)] at hraw
      cases hraw
    cases wallTime with
    | none => rfl
    | some wall => exact if_neg hle

end Branches

end Viewer

end Hummingbird
