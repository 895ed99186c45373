/-
  `_ingest_replay_record` of `px4_multirotor_viewer.py` on records of any JSON values.

  The branches are those of `ingestReplayRecord`, with all that they convert, whether or not it is
  pushed. `Readable` says which records raise no exception (`returns_ingestReplayRecord`); it does
  not depend on what was ingested before.
-/
import Hummingbird.Viewer.PyValue
import Hummingbird.Viewer.ReplayRows

namespace Hummingbird

namespace Viewer

namespace Raw

open Raising Rotation

noncomputable section

variable (lib : TextLibrary) (c : Config) (s : View) (t : ℚ) (data : Value)

/-- A vector that is pushed as it is read. -/
def ingestVector (buffer : Buffer) (key : String) (width : ℕ) : Except PyError (List Push) := do
  let v ← data.vecFromLog lib key width
  pure [⟨buffer, t, numRow v⟩]

/-- The branches of the two rates topics. -/
def ingestRates (buffer : Buffer) : Except PyError (List Push) := do
  let v ← data.subscript "xyz"
  let row ← v.asarray3 lib
  pure [⟨buffer, t, row⟩]

/-- A velocity is pushed if there is one. -/
def ingestVelocity (buffer : Buffer) : Except PyError (List Push) := do
  let given ← data.contains "velocity"
  if given then do
    let v ← data.subscript "velocity"
    let values ← v.firstThree
    let row ← Value.storeRow lib t values 3
    pure [⟨buffer, t, row⟩]
  else pure []

/-- The quaternion that is read with `vec_from_log`. -/
def quatFromLog (key : String) : Except PyError Quaternion := do
  let q ← data.vecFromLog lib key 4
  pure ⟨.num (q 0), .num (q 1), .num (q 2), .num (q 3)⟩

/-- A vector that was derived when it was logged, or else is derived now. -/
def derivedFromLog (key : String) {width : ℕ} (derive : Fin width → ℝ) :
    Except PyError (Fin width → ℝ) := do
  let given ← data.contains key
  if given then data.vecFromLog lib key width else pure derive

/-- `json_float(data.get(key))`. -/
def numberFromLog (key : String) : Except PyError (Option ℚ) := do
  let v ← data.get? key
  (v.getD .none).jsonFloat lib

/-- `int(data.get(key, default))`. -/
def intFromLog (key : String) (default : ℤ) : Except PyError ℤ := do
  let v ← data.get? key
  (v.getD (.int default)).toInt lib

/-- The FMU pose of a position, which is drawn in real mode. -/
def ingestFmuPose (pos : Fin 3 → ℝ) : Except PyError (List Push) :=
  if c.realMode then do
    let heading ← numberFromLog lib data "heading"
    pure (recordFmuPose s t (floats pos) (headingQuat (heading.map fun q : ℚ => (q : ℝ))))
  else pure []

/-- The branch of `/fmu/out/vehicle_local_position`. -/
def ingestPos : Except PyError (List Push) := do
  let pos ← data.vecFromLog lib "position" 3
  let vel ← ingestVelocity lib t data .vel
  let fmuPose ← ingestFmuPose lib c s t data pos
  pure ([⟨.pos, t, numRow pos⟩] ++ vel ++ fmuPose)

/-- The branch of `/fmu/out/vehicle_local_position_setpoint`. -/
def ingestPosSp : Except PyError (List Push) := do
  let pos ← ingestVector lib t data .posSp "position" 3
  let vel ← ingestVelocity lib t data .velSp
  pure (pos ++ vel)

/-- The branches of the two attitude topics. -/
def ingestAttitude (buffer : Buffer) (qKey rpyKey : String) : Except PyError (List Push) := do
  let q ← quatFromLog lib data qKey
  let rpy ← derivedFromLog lib data rpyKey (quatToRpyDeg q)
  pure [⟨buffer, t, numRow rpy⟩]

/-- The branch of `/fmu/out/actuator_motors`. -/
def ingestMotors : Except PyError (List Push) := do
  let controls ← data.vecFromLog lib "control" 4
  let force ← derivedFromLog lib data "force_n_est" (motorForce c controls)
  pure [⟨.motor, t, numRow force⟩]

/-- The branch of `/fmu/out/manual_control_setpoint`. -/
def ingestManual : Except PyError (List Push) := do
  let _ ← data.vecFromLog lib "roll_pitch_yaw_throttle" 4
  let _ ← intFromLog lib data "data_source" 0
  pure []

/-- The branch of `/fmu/out/actuator_servos`. -/
def ingestServos : Except PyError (List Push) := do
  let controls ← data.vecFromLog lib "control" 6
  let beta ← derivedFromLog lib data "beta_deg" fun i : Fin 2 =>
    controls (i.castAdd 4) * c.betaLimitRad * rad2deg
  let alpha ← derivedFromLog lib data "alpha_deg" fun i : Fin 4 =>
    controls (i.natAdd 2) * c.alphaLimitRad * rad2deg
  pure [⟨.beta, t, numRow beta⟩, ⟨.alpha, t, numRow alpha⟩]

/-- The branch of `/fmu/out/hummingbird_status`. -/
def ingestStatus : Except PyError (List Push) := do
  let cmdSource ← intFromLog lib data "hb_cmd_source" (-1)
  let row ← Value.storeRow lib t [.int cmdSource] 1
  let _ ← intFromLog lib data "hb_ctrl_mode" (-1)
  pure [⟨.cmdState, t, row⟩]

/-- The branch of `/fmu/out/vehicle_status`. -/
def ingestVehicleStatus : Except PyError (List Push) := do
  let navState ← intFromLog lib data "nav_state" (-1)
  let row ← Value.storeRow lib t [.int navState] 1
  let _ ← intFromLog lib data "arming_state" (-1)
  let _ ← intFromLog lib data "latest_disarming_reason" (-1)
  pure [⟨.flightState, t, row⟩]

/-- `raw_delay_ms` of a record: the one logged, or else from its times. -/
def rawDelayFromLog (fields : Fields) : Except PyError (Option ℝ) := do
  let delay ← numberFromLog lib data "transport_delay_ms"
  match delay with
  | some delay => pure (some (delay : ℝ))
  | none =>
    let wallTime ← ((fields.lookup "wall_time").getD .none).jsonFloat lib
    let headerStamp ← numberFromLog lib data "header_stamp"
    match wallTime, headerStamp with
    | some wall, some headerStamp =>
      pure (if 0 < headerStamp then some (((wall : ℝ) - headerStamp) * 1000) else none)
    | _, _ => pure none

/-- The branch of a record with `px4_position_ned`. -/
def ingestOpti (fields : Fields) : Except PyError (View × List Push) := do
  let pos ← data.vecFromLog lib "px4_position_ned" 3
  let q ← quatFromLog lib data "px4_q_wxyz"
  let rpy ← derivedFromLog lib data "px4_rpy_deg" (quatToRpyDeg q)
  let raw ← rawDelayFromLog lib data fields
  let timing := recordOptiTiming c { s with lastOptiPos := some (floats pos) } t raw
  pure (timing.1, [⟨.optiPos, t, numRow pos⟩, ⟨.optiRpy, t, numRow rpy⟩] ++ timing.2)

/-- The branch of the odometry. -/
def ingestFmuOdom : Except PyError (View × List Push) := do
  let pos ← data.vecFromLog lib "position" 3
  let q ← quatFromLog lib data "q_wxyz"
  pure ({ s with lastFmuOdomRx := some t },
    recordFmuPose { s with lastFmuOdomRx := some t } t (floats pos) q)

/-- The branches of the topics that PX4 publishes under a fixed name. -/
def ingestFixed (topic : String) : Option (Except PyError (List Push)) :=
  if topic = "/fmu/out/vehicle_local_position" then some (ingestPos lib c s t data)
  else if topic = "/fmu/out/vehicle_local_position_setpoint" then some (ingestPosSp lib t data)
  else if topic = "/fmu/out/vehicle_angular_velocity" then some (ingestRates lib t data .rates)
  else if topic = "/fmu/out/vehicle_rates_setpoint" then some (ingestRates lib t data .ratesSp)
  else if topic = "/fmu/out/vehicle_attitude" then
    some (ingestAttitude lib t data .rpy "q" "rpy_deg")
  else if topic = "/fmu/out/vehicle_attitude_setpoint" then
    some (ingestAttitude lib t data .attSp "q_d" "rpy_d_deg")
  else if topic = "/fmu/out/vehicle_thrust_setpoint" then
    some (ingestVector lib t data .force "xyz" 3)
  else if topic = "/fmu/out/vehicle_torque_setpoint" then
    some (ingestVector lib t data .torque "xyz" 3)
  else if topic = "/fmu/out/actuator_motors" then some (ingestMotors lib c t data)
  else if topic = "/fmu/out/manual_control_setpoint" then some (ingestManual lib data)
  else if topic = "/fmu/out/actuator_servos" then some (ingestServos lib c t data)
  else if topic = "/fmu/out/hummingbird_status" then some (ingestStatus lib t data)
  else if topic = "/fmu/out/vehicle_status" then some (ingestVehicleStatus lib t data)
  else none

/-- What is done with the record itself. -/
def ingestTopic (topic : String) (fields : Fields) : Except PyError (View × List Push) :=
  match ingestFixed lib c s t data topic with
  | some rows => do
    let pushed ← rows
    pure (s, pushed)
  | none => do
    let mocap ← data.contains "px4_position_ned"
    if mocap then ingestOpti lib c s t data fields
    else if topic = c.fmuOdomTopic ∨ topic = "/fmu/out/vehicle_odometry" then
      ingestFmuOdom lib s t data
    else pure (s, [])

end

/-- `topic`. -/
def topicOf (lib : TextLibrary) (fields : Fields) : String :=
  lib.str ((fields.lookup "topic").getD (.str ""))

/-- `data`. -/
def dataOf (fields : Fields) : Value := (fields.lookup "data").getD (.dict [])

/-- What the timer does live: in real mode every record comes with a health sample. -/
noncomputable def tick (c : Config) (s : View) (t : ℚ) : View × List Push :=
  if c.realMode then recordOptiHealth c s t false else (s, [])

/-- `_ingest_replay_record`. What it has pushed when it raises is left out. -/
noncomputable def ingestReplayRecord (lib : TextLibrary) (c : Config) (s : View)
    (record : ReplayRecord Fields) : Except PyError (View × List Push) := do
  let fields := record.record.data
  let (s', pushed) ← ingestTopic lib c (tick c s record.replayT).1 record.replayT (dataOf fields)
    (topicOf lib fields) fields
  pure (s', (tick c s record.replayT).2 ++ pushed)

/-! ## Which records are read -/

section Readable

variable (lib : TextLibrary) (d : Fields)

/-- What `vec_from_log` reads. -/
def VectorAt (key : String) (width : ℕ) : Prop := ∀ v, d.lookup key = some v → v.IsVector width

/-- What `json_float` reads. -/
def NumberAt (key : String) : Prop := ∀ v, d.lookup key = some v → v.Fits

/-- What `int` reads. -/
def IntAt (key : String) : Prop := ∀ v, d.lookup key = some v → v.IsInt lib

/-- What `int` reads, and makes an integer of that fits into a row. -/
def CellIntAt (key : String) : Prop :=
  ∀ v, d.lookup key = some v → ∃ n, v.toInt lib = .ok n ∧ ¬ Value.BeyondFloat n

/-- What fills a row with the time. -/
def TripleAt (key : String) : Prop := ∀ v, d.lookup key = some v → v.IsTriple lib

/-- What fills a row when read as an array. -/
def ArrayAt (key : String) : Prop := ∃ v, d.lookup key = some v ∧ v.IsArray lib

/-- What the branch of a topic reads. -/
def readableFixed (c : Config) (topic : String) : Option (Fields → Prop) :=
  if topic = "/fmu/out/vehicle_local_position" then some fun d =>
    VectorAt d "position" 3 ∧ TripleAt lib d "velocity" ∧ (c.realMode = true → NumberAt d "heading")
  else if topic = "/fmu/out/vehicle_local_position_setpoint" then some fun d =>
    VectorAt d "position" 3 ∧ TripleAt lib d "velocity"
  else if topic = "/fmu/out/vehicle_angular_velocity" then some fun d => ArrayAt lib d "xyz"
  else if topic = "/fmu/out/vehicle_rates_setpoint" then some fun d => ArrayAt lib d "xyz"
  else if topic = "/fmu/out/vehicle_attitude" then some fun d =>
    VectorAt d "q" 4 ∧ VectorAt d "rpy_deg" 3
  else if topic = "/fmu/out/vehicle_attitude_setpoint" then some fun d =>
    VectorAt d "q_d" 4 ∧ VectorAt d "rpy_d_deg" 3
  else if topic = "/fmu/out/vehicle_thrust_setpoint" then some fun d => VectorAt d "xyz" 3
  else if topic = "/fmu/out/vehicle_torque_setpoint" then some fun d => VectorAt d "xyz" 3
  else if topic = "/fmu/out/actuator_motors" then some fun d =>
    VectorAt d "control" 4 ∧ VectorAt d "force_n_est" 4
  else if topic = "/fmu/out/manual_control_setpoint" then some fun d =>
    VectorAt d "roll_pitch_yaw_throttle" 4 ∧ IntAt lib d "data_source"
  else if topic = "/fmu/out/actuator_servos" then some fun d =>
    VectorAt d "control" 6 ∧ VectorAt d "beta_deg" 2 ∧ VectorAt d "alpha_deg" 4
  else if topic = "/fmu/out/hummingbird_status" then some fun d =>
    CellIntAt lib d "hb_cmd_source" ∧ IntAt lib d "hb_ctrl_mode"
  else if topic = "/fmu/out/vehicle_status" then some fun d =>
    CellIntAt lib d "nav_state" ∧ IntAt lib d "arming_state" ∧ IntAt lib d "latest_disarming_reason"
  else none

/-- The data that the branch of the mocap records reads: the times only without a delay. -/
def ReadableOpti (fields : Fields) : Prop :=
  VectorAt d "px4_position_ned" 3 ∧ VectorAt d "px4_q_wxyz" 4 ∧ VectorAt d "px4_rpy_deg" 3 ∧
    NumberAt d "transport_delay_ms" ∧
    (((d.lookup "transport_delay_ms").getD .none).number? lib = none →
      NumberAt fields "wall_time" ∧ NumberAt d "header_stamp")

end Readable

section Returns

variable {lib : TextLibrary} {c : Config} {s : View} {t : ℚ} {d : Fields} {key : String}
  {buffer : Buffer}

theorem returns_vecFromLog {width : ℕ} :
    Returns ((Value.dict d).vecFromLog lib key width) ↔ VectorAt d key width := by
  rw [Value.returns_vecFromLog]
  constructor
  · rintro ⟨_, ⟨⟩, h⟩
    exact h
  · exact fun h => ⟨d, rfl, h⟩

theorem returns_ingestVector {width : ℕ} :
    Returns (ingestVector lib t (.dict d) buffer key width) ↔ VectorAt d key width :=
  (returns_bind_pure _).trans returns_vecFromLog

theorem returns_quatFromLog : Returns (quatFromLog lib (.dict d) key) ↔ VectorAt d key 4 :=
  (returns_bind_pure _).trans returns_vecFromLog

theorem returns_derivedFromLog {width : ℕ} {derive : Fin width → ℝ} :
    Returns (derivedFromLog lib (.dict d) key derive) ↔ VectorAt d key width := by
  show Returns (if (d.lookup key).isSome = true then _ else _) ↔ _
  rw [returns_ite, returns_vecFromLog]
  constructor
  · intro h v hv
    exact h.1 (hv ▸ rfl) v hv
  · exact fun h => ⟨fun _ => h, fun _ => returns_pure derive⟩

/-- A default that is read does not make a difference. -/
theorem getD_iff {P : Value → Prop} (default : Value) (hd : P default) (x : Option Value) :
    P (x.getD default) ↔ ∀ v, x = some v → P v := by
  cases x with
  | none => exact iff_of_true hd fun v hv => nomatch hv
  | some v =>
    constructor
    · rintro h _ ⟨⟩
      exact h
    · exact fun h => h v rfl

theorem returns_numberFromLog : Returns (numberFromLog lib (.dict d) key) ↔ NumberAt d key := by
  show Returns (((d.lookup key).getD .none).jsonFloat lib) ↔ _
  rw [Value.returns_jsonFloat]
  exact getD_iff .none trivial _

theorem returns_intFromLog {default : ℤ} :
    Returns (intFromLog lib (.dict d) key default) ↔ IntAt lib d key := by
  show Returns (((d.lookup key).getD (.int default)).toInt lib) ↔ _
  rw [Value.returns_toInt]
  exact getD_iff (.int default) trivial _

theorem returns_velocityRow {v : Value} :
    Returns (do
      let values ← v.firstThree
      let row ← Value.storeRow lib t values 3
      pure [(⟨buffer, t, row⟩ : Push)]) ↔ v.IsTriple lib := by
  rw [returns_bind_iff]
  refine exists_congr fun values => and_congr_right fun _ => ?_
  rw [returns_bind_pure, Value.returns_storeRow]

theorem returns_ingestVelocity :
    Returns (ingestVelocity lib t (.dict d) buffer) ↔ TripleAt lib d "velocity" := by
  have hread : ∀ v, d.lookup "velocity" = some v → (Value.dict d).subscript "velocity" = .ok v := by
    intro v hv
    unfold Value.subscript
    dsimp only
    rw [hv]
    rfl
  show Returns (if (d.lookup "velocity").isSome = true then _ else _) ↔ _
  rw [returns_ite]
  unfold TripleAt
  constructor
  · intro h v hv
    have hsome := h.1 (hv ▸ rfl)
    rw [hread v hv] at hsome
    exact returns_velocityRow.mp hsome
  · intro h
    refine ⟨fun hsome => ?_, fun _ => returns_pure _⟩
    obtain ⟨v, hv⟩ := Option.isSome_iff_exists.mp hsome
    rw [hread v hv]
    exact returns_velocityRow.mpr (h v hv)

theorem returns_ingestRates :
    Returns (ingestRates lib t (.dict d) buffer) ↔ ArrayAt lib d "xyz" := by
  unfold ingestRates ArrayAt Value.subscript
  rw [returns_bind_iff]
  dsimp only
  cases d.lookup "xyz" with
  | none =>
    refine iff_of_false ?_ ?_
    · rintro ⟨_, ⟨⟩, _⟩
    · rintro ⟨_, ⟨⟩, _⟩
  | some v =>
    have hrow : Returns (do
        let row ← v.asarray3 lib
        pure [(⟨buffer, t, row⟩ : Push)]) ↔ v.IsArray lib :=
      (returns_bind_pure _).trans Value.returns_asarray3
    constructor
    · rintro ⟨_, ⟨⟩, h⟩
      exact ⟨v, rfl, hrow.mp h⟩
    · rintro ⟨_, ⟨⟩, h⟩
      exact ⟨v, rfl, hrow.mpr h⟩

theorem returns_storeInt {n : ℤ} :
    Returns (Value.storeRow lib t [.int n] 1) ↔ ¬ Value.BeyondFloat n := by
  rw [Value.returns_storeRow, List.forall_mem_singleton]
  exact and_iff_right (Or.inl rfl)

theorem not_beyondFloat_neg_one : ¬ Value.BeyondFloat (-1) := by decide +kernel

/-- An integer that is stored in a row before what follows. -/
theorem returns_intRow {α : Type} {f : ℤ → List PyFloat → Except PyError α} {P : Prop}
    (hf : ∀ n row, Returns (f n row) ↔ P) :
    Returns (do
      let n ← intFromLog lib (.dict d) key (-1)
      let row ← Value.storeRow lib t [.int n] 1
      f n row) ↔ CellIntAt lib d key ∧ P := by
  have hrow : ∀ n, Returns (do
      let row ← Value.storeRow lib t [.int n] 1
      f n row) ↔ ¬ Value.BeyondFloat n ∧ P := by
    intro n
    rw [returns_bind_of_const fun row _ => hf n row, returns_storeInt]
  rw [returns_bind_iff]
  simp only [hrow, ← and_assoc, exists_and_right]
  refine and_congr_left' ?_
  exact getD_iff (P := fun v => ∃ n, v.toInt lib = .ok n ∧ ¬ Value.BeyondFloat n) (.int (-1))
    ⟨-1, rfl, not_beyondFloat_neg_one⟩ (d.lookup key)

theorem returns_ingestPos : Returns (ingestPos lib c s t (.dict d)) ↔
    VectorAt d "position" 3 ∧ TripleAt lib d "velocity" ∧
      (c.realMode = true → NumberAt d "heading") := by
  unfold ingestPos
  rw [returns_bind_of_const, returns_vecFromLog]
  intro pos _
  rw [returns_bind_of_const, returns_ingestVelocity]
  intro vel _
  rw [returns_bind_pure, ingestFmuPose, returns_ite, returns_bind_pure, returns_numberFromLog]
  exact and_iff_left fun _ => returns_pure []

theorem returns_ingestPosSp : Returns (ingestPosSp lib t (.dict d)) ↔
    VectorAt d "position" 3 ∧ TripleAt lib d "velocity" := by
  unfold ingestPosSp
  rw [returns_bind_of_const, returns_ingestVector]
  intro pos _
  rw [returns_bind_pure, returns_ingestVelocity]

theorem returns_ingestAttitude {rpyKey : String} :
    Returns (ingestAttitude lib t (.dict d) buffer key rpyKey) ↔
      VectorAt d key 4 ∧ VectorAt d rpyKey 3 := by
  unfold ingestAttitude
  rw [returns_bind_of_const, returns_quatFromLog]
  intro q _
  rw [returns_bind_pure, returns_derivedFromLog]

theorem returns_ingestMotors : Returns (ingestMotors lib c t (.dict d)) ↔
    VectorAt d "control" 4 ∧ VectorAt d "force_n_est" 4 := by
  unfold ingestMotors
  rw [returns_bind_of_const, returns_vecFromLog]
  intro controls _
  rw [returns_bind_pure, returns_derivedFromLog]

theorem returns_ingestManual : Returns (ingestManual lib (.dict d)) ↔
    VectorAt d "roll_pitch_yaw_throttle" 4 ∧ IntAt lib d "data_source" := by
  unfold ingestManual
  rw [returns_bind_of_const, returns_vecFromLog]
  intro _ _
  rw [returns_bind_pure, returns_intFromLog]

theorem returns_ingestServos : Returns (ingestServos lib c t (.dict d)) ↔
    VectorAt d "control" 6 ∧ VectorAt d "beta_deg" 2 ∧ VectorAt d "alpha_deg" 4 := by
  unfold ingestServos
  rw [returns_bind_of_const, returns_vecFromLog]
  intro controls _
  rw [returns_bind_of_const, returns_derivedFromLog]
  intro beta _
  rw [returns_bind_pure, returns_derivedFromLog]

theorem returns_ingestStatus : Returns (ingestStatus lib t (.dict d)) ↔
    CellIntAt lib d "hb_cmd_source" ∧ IntAt lib d "hb_ctrl_mode" := by
  apply returns_intRow
  intro n row
  rw [returns_bind_pure, returns_intFromLog]

theorem returns_ingestVehicleStatus : Returns (ingestVehicleStatus lib t (.dict d)) ↔
    CellIntAt lib d "nav_state" ∧ IntAt lib d "arming_state" ∧
      IntAt lib d "latest_disarming_reason" := by
  apply returns_intRow
  intro n row
  rw [returns_bind_of_const, returns_intFromLog]
  intro _ _
  rw [returns_bind_pure, returns_intFromLog]

theorem numberFromLog_of (h : NumberAt d key) : numberFromLog lib (.dict d) key =
    .ok (((d.lookup key).getD .none).number? lib) :=
  Value.jsonFloat_of_fits ((getD_iff .none trivial _).mpr h)

/-- The delay of a record whose numbers are read. -/
theorem returns_rawDelayFromLog {fields : Fields} :
    Returns (rawDelayFromLog lib (.dict d) fields) ↔ NumberAt d "transport_delay_ms" ∧
      (((d.lookup "transport_delay_ms").getD .none).number? lib = none →
        NumberAt fields "wall_time" ∧ NumberAt d "header_stamp") := by
  by_cases hdelay : NumberAt d "transport_delay_ms"
  · unfold rawDelayFromLog
    rw [numberFromLog_of hdelay, and_iff_right hdelay]
    cases ((d.lookup "transport_delay_ms").getD .none).number? lib with
    | some delay => exact iff_of_true (returns_pure _) fun h => nomatch h
    | none =>
      have htimes : Returns (do
          let wallTime ← ((fields.lookup "wall_time").getD .none).jsonFloat lib
          let headerStamp ← numberFromLog lib (.dict d) "header_stamp"
          match wallTime, headerStamp with
          | some wall, some headerStamp =>
            pure (if 0 < headerStamp then some (((wall : ℝ) - headerStamp) * 1000) else none)
          | _, _ => pure (none : Option ℝ)) ↔
            NumberAt fields "wall_time" ∧ NumberAt d "header_stamp" := by
        rw [returns_bind_of_const (P := NumberAt d "header_stamp"), Value.returns_jsonFloat]
        · exact and_congr_left' (getD_iff .none trivial _)
        · intro wallTime _
          rw [returns_bind_of_const (P := True), returns_numberFromLog, and_true]
          intro headerStamp _
          cases wallTime with
          | none => exact iff_true_intro (returns_pure _)
          | some wall =>
            cases headerStamp with
            | none => exact iff_true_intro (returns_pure _)
            | some headerStamp => exact iff_true_intro (returns_pure _)
      exact htimes.trans ⟨fun h _ => h, fun h => h rfl⟩
  · refine iff_of_false (fun h => hdelay ?_) fun h => hdelay h.1
    obtain ⟨delay, hok, -⟩ := returns_bind_iff.mp h
    exact returns_numberFromLog.mp ⟨delay, hok⟩

theorem returns_ingestOpti {fields : Fields} :
    Returns (ingestOpti lib c s t (.dict d) fields) ↔ ReadableOpti lib d fields := by
  unfold ingestOpti
  rw [returns_bind_of_const, returns_vecFromLog]
  · rfl
  intro pos _
  rw [returns_bind_of_const, returns_quatFromLog]
  intro q _
  rw [returns_bind_of_const, returns_derivedFromLog]
  intro rpy _
  rw [← returns_rawDelayFromLog]
  exact returns_bind_pure _

theorem returns_ingestFmuOdom : Returns (ingestFmuOdom lib s t (.dict d)) ↔
    VectorAt d "position" 3 ∧ VectorAt d "q_wxyz" 4 := by
  unfold ingestFmuOdom
  rw [returns_bind_of_const, returns_vecFromLog]
  intro pos _
  rw [returns_bind_pure, returns_quatFromLog]

end Returns

/-! ## Any data -/

section AnyData

variable {lib : TextLibrary} {c : Config} {s : View} {t : ℚ} {data : Value}

/-- A branch that begins by reading a dictionary. -/
theorem returns_iff_dict {α : Type} {f : Value → Except PyError α} {P : Fields → Prop}
    (hdict : ∀ d, Returns (f (.dict d)) ↔ P d) (hother : ∀ v, Returns (f v) → ∃ d, v = .dict d) :
    Returns (f data) ↔ ∃ d, data = .dict d ∧ P d := by
  constructor
  · intro h
    obtain ⟨d, rfl⟩ := hother data h
    exact ⟨d, rfl, (hdict d).mp h⟩
  · rintro ⟨d, rfl, h⟩
    exact (hdict d).mpr h

theorem dict_of_vecFromLog {v : Value} {key : String} {width : ℕ}
    (h : Returns (v.vecFromLog lib key width)) : ∃ d, v = .dict d := by
  obtain ⟨d, hd, -⟩ := Value.returns_vecFromLog.mp h
  exact ⟨d, hd⟩

theorem dict_of_get? {v : Value} {key : String} (h : Returns (v.get? key)) : ∃ d, v = .dict d := by
  cases v with
  | dict d => exact ⟨d, rfl⟩
  | _ => exact absurd h (not_returns_error _)

theorem dict_of_subscript {v : Value} {key : String} (h : Returns (v.subscript key)) :
    ∃ d, v = .dict d := by
  cases v with
  | dict d => exact ⟨d, rfl⟩
  | _ => exact absurd h (not_returns_error _)

/-- Two tables with the same tests. -/
theorem rel_ite {α β : Type} {R : α → β → Prop} {p : Prop} [Decidable p] {x y : Option α}
    {x' y' : Option β} (h : Option.Rel R x x') (h' : Option.Rel R y y') :
    Option.Rel R (if p then x else y) (if p then x' else y') := by
  split
  · exact h
  · exact h'

theorem returns_ingestFixed (topic : String) :
    Option.Rel (fun x P => Returns x ↔ ∃ d, data = .dict d ∧ P d)
      (ingestFixed lib c s t data topic) (readableFixed lib c topic) := by
  unfold ingestFixed readableFixed
  refine rel_ite (.some ?_) ?_
  · exact returns_iff_dict (fun d => returns_ingestPos) fun v h =>
      dict_of_vecFromLog (returns_left h)
  refine rel_ite (.some ?_) ?_
  · exact returns_iff_dict (fun d => returns_ingestPosSp) fun v h =>
      dict_of_vecFromLog (returns_left (returns_left h))
  refine rel_ite (.some ?_) ?_
  · exact returns_iff_dict (fun d => returns_ingestRates) fun v h =>
      dict_of_subscript (returns_left h)
  refine rel_ite (.some ?_) ?_
  · exact returns_iff_dict (fun d => returns_ingestRates) fun v h =>
      dict_of_subscript (returns_left h)
  refine rel_ite (.some ?_) ?_
  · exact returns_iff_dict (f := fun v => ingestAttitude lib t v .rpy "q" "rpy_deg")
      (fun d => returns_ingestAttitude) fun v h =>
        dict_of_vecFromLog (returns_left (returns_left h))
  refine rel_ite (.some ?_) ?_
  · exact returns_iff_dict (f := fun v => ingestAttitude lib t v .attSp "q_d" "rpy_d_deg")
      (fun d => returns_ingestAttitude) fun v h =>
        dict_of_vecFromLog (returns_left (returns_left h))
  refine rel_ite (.some ?_) ?_
  · exact returns_iff_dict (fun d => returns_ingestVector) fun v h =>
      dict_of_vecFromLog (returns_left h)
  refine rel_ite (.some ?_) ?_
  · exact returns_iff_dict (fun d => returns_ingestVector) fun v h =>
      dict_of_vecFromLog (returns_left h)
  refine rel_ite (.some ?_) ?_
  · exact returns_iff_dict (fun d => returns_ingestMotors) fun v h =>
      dict_of_vecFromLog (returns_left h)
  refine rel_ite (.some ?_) ?_
  · exact returns_iff_dict (fun d => returns_ingestManual) fun v h =>
      dict_of_vecFromLog (returns_left h)
  refine rel_ite (.some ?_) ?_
  · exact returns_iff_dict (fun d => returns_ingestServos) fun v h =>
      dict_of_vecFromLog (returns_left h)
  refine rel_ite (.some ?_) ?_
  · exact returns_iff_dict (fun d => returns_ingestStatus) fun v h =>
      dict_of_get? (returns_left (returns_left h))
  refine rel_ite (.some ?_) .none
  · exact returns_iff_dict (fun d => returns_ingestVehicleStatus) fun v h =>
      dict_of_get? (returns_left (returns_left h))

end AnyData

/-- The records that raise no exception. -/
def Readable (lib : TextLibrary) (c : Config) (fields : Fields) : Prop :=
  match readableFixed lib c (topicOf lib fields) with
  | some P => ∃ d, dataOf fields = .dict d ∧ P d
  | none => ∃ mocap, (dataOf fields).contains "px4_position_ned" = .ok mocap ∧
      (mocap = true → ∃ d, dataOf fields = .dict d ∧ ReadableOpti lib d fields) ∧
      (mocap = false → (topicOf lib fields = c.fmuOdomTopic ∨
        topicOf lib fields = "/fmu/out/vehicle_odometry") →
          ∃ d, dataOf fields = .dict d ∧ VectorAt d "position" 3 ∧ VectorAt d "q_wxyz" 4)

/-- A branch is taken or not whatever was ingested before. -/
theorem returns_ingestTopic {lib : TextLibrary} {c : Config} {s : View} {t : ℚ} {fields : Fields} :
    Returns (ingestTopic lib c s t (dataOf fields) (topicOf lib fields) fields) ↔
      Readable lib c fields := by
  have hfixed : Option.Rel _ (ingestFixed lib c s t (dataOf fields) (topicOf lib fields)) _ :=
    returns_ingestFixed (topicOf lib fields)
  unfold ingestTopic Readable
  generalize ingestFixed lib c s t (dataOf fields) (topicOf lib fields) = branch at hfixed ⊢
  generalize readableFixed lib c (topicOf lib fields) = readable at hfixed ⊢
  cases hfixed with
  | some h => exact (returns_bind_pure _).trans h
  | none =>
    refine returns_bind_iff.trans (exists_congr fun mocap => and_congr_right fun _ => ?_)
    cases mocap with
    | true =>
      have hopti : Returns (ingestOpti lib c s t (dataOf fields) fields) ↔
          ∃ d, dataOf fields = .dict d ∧ ReadableOpti lib d fields :=
        returns_iff_dict (f := fun v => ingestOpti lib c s t v fields)
          (fun d => returns_ingestOpti) fun v h => dict_of_vecFromLog (returns_left h)
      rw [if_pos rfl, hopti]
      constructor
      · exact fun h => ⟨fun _ => h, fun hf => (nomatch hf)⟩
      · exact fun h => h.1 rfl
    | false =>
      have hodom : Returns (ingestFmuOdom lib s t (dataOf fields)) ↔
          ∃ d, dataOf fields = .dict d ∧ VectorAt d "position" 3 ∧ VectorAt d "q_wxyz" 4 :=
        returns_iff_dict (fun d => returns_ingestFmuOdom)
          fun v h => dict_of_vecFromLog (returns_left h)
      rw [if_neg Bool.false_ne_true, returns_ite, hodom]
      constructor
      · exact fun h => ⟨fun hf => (nomatch hf), fun _ => h.1⟩
      · exact fun h => ⟨h.2 rfl, fun _ => returns_pure _⟩

theorem returns_ingestReplayRecord {lib : TextLibrary} {c : Config} {s : View}
    {record : ReplayRecord Fields} : Returns (ingestReplayRecord lib c s record) ↔
      Readable lib c record.record.data := by
  unfold ingestReplayRecord
  rw [← returns_ingestTopic]
  exact (returns_bind_of_const (P := True) fun x _ => iff_true_intro (returns_pure _)).trans
    (and_iff_left trivial)

/-! ## What a record leaves behind -/

/-- The buffers of the mocap statistics. -/
def isStatistic : Buffer → Bool
  | .optiTransportDelay => true
  | .optiHz => true
  | .optiLost => true
  | _ => false

/-- A branch that pushes no statistics. -/
def NoStatistic (x : Except PyError (List Push)) : Prop :=
  ∀ pushed, x = .ok pushed → ∀ p ∈ pushed, isStatistic p.buffer = false

/-- A mocap record. -/
def IsMocap (lib : TextLibrary) (fields : Fields) : Prop :=
  topicOf lib fields ∉ fixedTopics ∧ (dataOf fields).contains "px4_position_ned" = .ok true

/-- The delay of a mocap record that is read. -/
noncomputable def delayOf (lib : TextLibrary) (fields : Fields) : Option ℝ :=
  match rawDelayFromLog lib (dataOf fields) fields with
  | .ok raw => raw
  | .error _ => none

section Branches

variable {lib : TextLibrary} {c : Config} {s : View} {t : ℚ} {data : Value} {buffer : Buffer}
  {key : String}

theorem noStatistic_pure {pushed : List Push} (h : ∀ p ∈ pushed, isStatistic p.buffer = false) :
    NoStatistic (pure pushed) := by
  intro pushed' heq
  obtain rfl := Except.ok.inj heq
  exact h

theorem noStatistic_bind {α : Type} {x : Except PyError α} {f : α → Except PyError (List Push)}
    (h : ∀ a, x = .ok a → NoStatistic (f a)) : NoStatistic (x >>= f) := by
  intro pushed heq
  cases x with
  | error e => cases heq
  | ok a => exact h a rfl pushed heq

theorem noStatistic_singleton {row : List PyFloat} (hb : isStatistic buffer = false) :
    NoStatistic (pure [⟨buffer, t, row⟩]) := by
  apply noStatistic_pure
  intro p hp
  rw [List.mem_singleton.mp hp]
  exact hb

theorem noStatistic_ingestVector {n : ℕ} (hb : isStatistic buffer = false) :
    NoStatistic (ingestVector lib t data buffer key n) :=
  noStatistic_bind fun _ _ => noStatistic_singleton hb

theorem noStatistic_ingestRates (hb : isStatistic buffer = false) :
    NoStatistic (ingestRates lib t data buffer) :=
  noStatistic_bind fun _ _ => noStatistic_bind fun _ _ => noStatistic_singleton hb

theorem noStatistic_ingestVelocity (hb : isStatistic buffer = false) :
    NoStatistic (ingestVelocity lib t data buffer) := by
  refine noStatistic_bind fun given _ => ?_
  cases given with
  | true =>
    exact noStatistic_bind fun _ _ => noStatistic_bind fun _ _ => noStatistic_bind fun _ _ =>
      noStatistic_singleton hb
  | false => exact noStatistic_pure fun p hp => absurd hp List.not_mem_nil

theorem noStatistic_ingestAttitude {rpyKey : String} (hb : isStatistic buffer = false) :
    NoStatistic (ingestAttitude lib t data buffer key rpyKey) :=
  noStatistic_bind fun _ _ => noStatistic_bind fun _ _ => noStatistic_singleton hb

theorem recordFmuPose_noStatistic {pos : Fin 3 → PyFloat} {quat : Quaternion} {p : Push}
    (hp : p ∈ recordFmuPose s t pos quat) : isStatistic p.buffer = false := by
  have hfmu := recordFmuPose_isFmuPose s t pos quat p hp
  revert hfmu
  cases p.buffer <;> decide

theorem noStatistic_ingestFmuPose {pos : Fin 3 → ℝ} :
    NoStatistic (ingestFmuPose lib c s t data pos) := by
  unfold ingestFmuPose
  split
  · exact noStatistic_bind fun _ _ => noStatistic_pure fun p => recordFmuPose_noStatistic
  · exact noStatistic_pure fun p hp => absurd hp List.not_mem_nil

theorem noStatistic_ingestPos : NoStatistic (ingestPos lib c s t data) := by
  refine noStatistic_bind fun pos _ => noStatistic_bind fun vel hvel =>
    noStatistic_bind fun fmuPose hfmu => noStatistic_pure ?_
  intro p hp
  rw [List.mem_append, List.mem_append] at hp
  rcases hp with (hp | hp) | hp
  · rw [List.mem_singleton.mp hp]
    rfl
  · exact noStatistic_ingestVelocity rfl vel hvel p hp
  · exact noStatistic_ingestFmuPose fmuPose hfmu p hp

theorem noStatistic_ingestPosSp : NoStatistic (ingestPosSp lib t data) := by
  refine noStatistic_bind fun pos hpos => noStatistic_bind fun vel hvel => noStatistic_pure ?_
  intro p hp
  rcases List.mem_append.mp hp with hp | hp
  · exact noStatistic_ingestVector rfl pos hpos p hp
  · exact noStatistic_ingestVelocity rfl vel hvel p hp

theorem noStatistic_ingestServos : NoStatistic (ingestServos lib c t data) := by
  refine noStatistic_bind fun _ _ => noStatistic_bind fun _ _ => noStatistic_bind fun _ _ =>
    noStatistic_pure ?_
  intro p hp
  simp only [List.mem_cons, List.not_mem_nil, or_false] at hp
  rcases hp with rfl | rfl
  · rfl
  · rfl

/-- A topic with a branch of its own pushes no statistics. -/
theorem ingestFixed_noStatistic {topic : String} (h : topic ∈ fixedTopics) :
    ∃ x, ingestFixed lib c s t data topic = some x ∧ NoStatistic x := by
  simp only [fixedTopics, List.mem_cons, List.not_mem_nil, or_false] at h
  rcases h with rfl | rfl | rfl | rfl | rfl | rfl | rfl | rfl | rfl | rfl | rfl | rfl | rfl
  · exact ⟨_, rfl, noStatistic_ingestPos⟩
  · exact ⟨_, rfl, noStatistic_ingestPosSp⟩
  · exact ⟨_, rfl, noStatistic_ingestRates rfl⟩
  · exact ⟨_, rfl, noStatistic_ingestRates rfl⟩
  · exact ⟨_, rfl, noStatistic_ingestAttitude rfl⟩
  · exact ⟨_, rfl, noStatistic_ingestAttitude rfl⟩
  · exact ⟨_, rfl, noStatistic_ingestVector rfl⟩
  · exact ⟨_, rfl, noStatistic_ingestVector rfl⟩
  · exact ⟨_, rfl, noStatistic_bind fun _ _ => noStatistic_bind fun _ _ =>
      noStatistic_singleton rfl⟩
  · exact ⟨_, rfl, noStatistic_bind fun _ _ => noStatistic_bind fun _ _ =>
      noStatistic_pure fun p hp => absurd hp List.not_mem_nil⟩
  · exact ⟨_, rfl, noStatistic_ingestServos⟩
  · exact ⟨_, rfl, noStatistic_bind fun _ _ => noStatistic_bind fun _ _ =>
      noStatistic_bind fun _ _ => noStatistic_singleton rfl⟩
  · exact ⟨_, rfl, noStatistic_bind fun _ _ => noStatistic_bind fun _ _ =>
      noStatistic_bind fun _ _ => noStatistic_bind fun _ _ => noStatistic_singleton rfl⟩

theorem ingestFixed_eq_none_of {topic : String} (h : topic ∉ fixedTopics) :
    ingestFixed lib c s t data topic = none := by
  simp only [fixedTopics, List.mem_cons, List.not_mem_nil, or_false, not_or] at h
  simp [ingestFixed, h]

end Branches

section Record

variable {lib : TextLibrary} {c : Config} {s s' : View} {t : ℚ} {fields : Fields}
  {pushed : List Push}

theorem ingestOpti_eq_ok (h : ingestOpti lib c s t (dataOf fields) fields = .ok (s', pushed)) :
    ∃ pos row row',
      s' = (recordOptiTiming c { s with lastOptiPos := some pos } t (delayOf lib fields)).1 ∧
      pushed = [⟨.optiPos, t, row⟩, ⟨.optiRpy, t, row'⟩] ++
        (recordOptiTiming c { s with lastOptiPos := some pos } t (delayOf lib fields)).2 := by
  obtain ⟨pos, -, h⟩ := bind_eq_ok.mp h
  obtain ⟨q, -, h⟩ := bind_eq_ok.mp h
  obtain ⟨rpy, -, h⟩ := bind_eq_ok.mp h
  obtain ⟨raw, hraw, h⟩ := bind_eq_ok.mp h
  have hdelay : delayOf lib fields = raw := by
    unfold delayOf
    rw [hraw]
  cases h
  rw [hdelay]
  exact ⟨floats pos, numRow pos, numRow rpy, rfl, rfl⟩

/-- What a record that is read does to the view, and what it pushes: a mocap record feeds the
    statistics, another one leaves them alone. -/
theorem ingestTopic_cases
    (h : ingestTopic lib c s t (dataOf fields) (topicOf lib fields) fields = .ok (s', pushed)) :
    (¬ IsMocap lib fields ∧ (s' = s ∨ s' = { s with lastFmuOdomRx := some t }) ∧
        ∀ p ∈ pushed, isStatistic p.buffer = false) ∨
      IsMocap lib fields ∧ ∃ pos row row',
        s' = (recordOptiTiming c { s with lastOptiPos := some pos } t (delayOf lib fields)).1 ∧
        pushed = [⟨.optiPos, t, row⟩, ⟨.optiRpy, t, row'⟩] ++
          (recordOptiTiming c { s with lastOptiPos := some pos } t (delayOf lib fields)).2 := by
  unfold ingestTopic at h
  by_cases htopic : topicOf lib fields ∈ fixedTopics
  · obtain ⟨x, hx, hown⟩ : ∃ x, ingestFixed lib c s t (dataOf fields) (topicOf lib fields) =
        some x ∧ NoStatistic x := ingestFixed_noStatistic htopic
    rw [hx] at h
    obtain ⟨rows, hrows, h⟩ := bind_eq_ok.mp h
    cases h
    exact Or.inl ⟨fun hm => hm.1 htopic, Or.inl rfl, hown pushed hrows⟩
  · rw [ingestFixed_eq_none_of htopic] at h
    obtain ⟨mocap, hmocap, h⟩ := bind_eq_ok.mp h
    cases mocap with
    | true => exact Or.inr ⟨⟨htopic, hmocap⟩, ingestOpti_eq_ok h⟩
    | false =>
      have hnot : ¬ IsMocap lib fields := by
        intro hm
        cases hm.2.symm.trans hmocap
      refine Or.inl ⟨hnot, ?_⟩
      rw [if_neg Bool.false_ne_true] at h
      split at h
      · obtain ⟨pos, -, h⟩ := bind_eq_ok.mp h
        obtain ⟨q, -, h⟩ := bind_eq_ok.mp h
        cases h
        exact ⟨Or.inr rfl, fun p hp => recordFmuPose_noStatistic hp⟩
      · cases h
        exact ⟨Or.inl rfl, fun p hp => absurd hp List.not_mem_nil⟩

end Record

/-! ## Arrivals and rows of the statistics -/

instance (x : Except PyError Bool) (b : Bool) : Decidable (x = .ok b) :=
  match x with
  | .ok a => decidable_of_iff (a = b) ⟨congrArg Except.ok, Except.ok.inj⟩
  | .error _ => isFalse nofun

instance (lib : TextLibrary) (fields : Fields) : Decidable (IsMocap lib fields) :=
  inferInstanceAs (Decidable (_ ∧ _))

/-- The arrival of a mocap record. -/
def arrivalOf (lib : TextLibrary) (record : ReplayRecord Fields) : List ℚ :=
  if IsMocap lib record.record.data then [record.replayT] else []

/-- The delay rows. -/
def delayRowsIn (pushed : List Push) : List Push :=
  pushed.filter fun p => p.buffer = .optiTransportDelay

/-- The health rows. -/
def healthRowsIn (pushed : List Push) : List Push :=
  pushed.filter fun p => p.buffer = .optiHz ∨ p.buffer = .optiLost

theorem delayRowsIn_append (a b : List Push) :
    delayRowsIn (a ++ b) = delayRowsIn a ++ delayRowsIn b := List.filter_append a b

theorem healthRowsIn_append (a b : List Push) :
    healthRowsIn (a ++ b) = healthRowsIn a ++ healthRowsIn b := List.filter_append a b

/-- Rows of other buffers are neither. -/
theorem rowsIn_of_noStatistic {pushed : List Push}
    (h : ∀ p ∈ pushed, isStatistic p.buffer = false) :
    delayRowsIn pushed = [] ∧ healthRowsIn pushed = [] := by
  constructor
  · apply List.filter_eq_nil_iff.mpr
    intro p hp hdelay
    have hno := h p hp
    rw [of_decide_eq_true hdelay] at hno
    cases hno
  · apply List.filter_eq_nil_iff.mpr
    intro p hp hhealth
    have hno := h p hp
    rcases of_decide_eq_true hhealth with hb | hb
    · rw [hb] at hno
      cases hno
    · rw [hb] at hno
      cases hno

end Raw

end Viewer

end Hummingbird
