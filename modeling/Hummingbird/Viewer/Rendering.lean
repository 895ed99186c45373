/-
  What the node does about an input, live and when its record is replayed.

  `Renders` compares the two for the curves that single messages are drawn into, for a replay in any
  view, at any time and with any parameters: `renders_hear` says that the replay shows what was
  shown live exactly if the message is `Faithful`. The curves of the FMU pose are in `FmuPose`.
-/
import Hummingbird.Viewer.FmuPose

namespace Hummingbird

namespace Viewer

open Rotation

/-! ## Inputs -/

/-- What the node does something about. -/
inductive Input
  | message (msg : Message)
  | odometry (msg : VehicleOdometry)
  | healthTick
  | own (r : OwnRecord)

/-- An input with the node's time, and the times that the logger puts into its record. -/
structure Heard where
  t : ℚ
  elapsed : ℚ
  wall : ℚ
  input : Input

noncomputable section

/-- What the live viewer does. -/
def hear (c : Config) (s : View) (e : Heard) : Handled :=
  match e.input with
  | .message msg => callback c s e.t msg
  | .odometry msg => cbFmuOdom c s e.t msg
  | .healthTick => optiHealthTick c s e.t
  | .own r => ⟨s, [r.logged], []⟩

end

/-! ## Curves that single messages are drawn into -/

/-- The other ones are the FMU pose with the error computed from it, and the statistics of the
    mocap messages. -/
def Buffer.isDirect : Buffer → Bool
  | .fmuPosePos => false
  | .fmuPoseRpy => false
  | .posError => false
  | .optiTransportDelay => false
  | .optiHz => false
  | .optiLost => false
  | _ => true

/-- The rows of these curves. -/
def direct (pushed : List Push) : List Push := pushed.filter fun p => p.buffer.isDirect

/-- The same row at another time. -/
def Push.atTime (t : ℚ) (p : Push) : Push := { p with t := t }

/-- A replay shows the message as it was shown live. -/
def Input.IsFaithful (c : Config) : Input → Prop
  | .message msg => Faithful c msg
  | _ => True

theorem direct_append (a b : List Push) : direct (a ++ b) = direct a ++ direct b := by
  unfold direct
  rw [List.filter_append]

theorem direct_recordFmuPose (s : View) (t : ℚ) (pos : Fin 3 → PyFloat) (quat : Quaternion) :
    direct (recordFmuPose s t pos quat) = [] := by
  apply List.filter_eq_nil_iff.mpr
  intro p hp
  unfold recordFmuPose at hp
  split at hp
  · dsimp only at hp
    split at hp
    · simp only [List.mem_append, List.mem_cons, List.not_mem_nil, or_false] at hp
      rcases hp with rfl | rfl <;> simp [Buffer.isDirect]
    · simp only [List.mem_append, List.mem_cons, List.not_mem_nil, or_false] at hp
      rcases hp with (rfl | rfl) | rfl <;> simp [Buffer.isDirect]
  · cases hp

theorem direct_fmuPose_ite (b : Bool) (s : View) (t : ℚ) (pos : Fin 3 → PyFloat)
    (quat : Quaternion) : direct (if b then recordFmuPose s t pos quat else []) = [] := by
  split
  · exact direct_recordFmuPose s t pos quat
  · rfl

theorem direct_recordOptiHealth (c : Config) (s : View) (t : ℚ) (force : Bool) :
    direct (recordOptiHealth c s t force).2 = [] := by
  unfold recordOptiHealth
  dsimp only
  split
  · split <;> rfl
  · split <;> rfl

theorem direct_recordOptiTiming (c : Config) (s : View) (t : ℚ) (raw : Option ℝ) :
    direct (recordOptiTiming c s t raw).2 = [] := by
  unfold recordOptiTiming
  dsimp only
  rw [direct_append, direct_recordOptiHealth]
  cases raw <;> rfl

/-! ## The replay of one record -/

/-- From every view, the records of what was done live are ingested at the time `t`, as far as they
    are loaded, with as many rows as were pushed then, and the same ones apart from the time exactly
    if `P`. -/
def Renders (c : Config) (t : ℚ) (live : Handled) (P : Prop) : Prop :=
  ∀ l ∈ live.logged, l.topic ≠ "viewer_meta" → ∀ (s : View) (wall : ℚ), ∃ s' pushed,
    ingestTopic c s t l.data l.topic (some wall) = some (s', pushed) ∧
      (direct pushed).length = (direct live.pushed).length ∧
        (direct pushed = (direct live.pushed).map (Push.atTime t) ↔ P)

section Renders

variable {c : Config} {t : ℚ} {l : Logged} {live : Handled} {P : Prop}

/-- A record whose topic has a branch of its own. -/
theorem renders_of_fixed (rows : List Push) (hlogged : live.logged = [l])
    (hingest : ∀ s, ∃ pushed, ingestFixed c s t l.data l.topic = some (some pushed) ∧
      direct pushed = rows)
    (hlength : rows.length = (direct live.pushed).length)
    (hrows : rows = (direct live.pushed).map (Push.atTime t) ↔ P) : Renders c t live P := by
  intro l' hl _ s wall
  rw [hlogged] at hl
  obtain rfl := List.mem_singleton.mp hl
  obtain ⟨pushed, heq, hdirect⟩ := hingest s
  refine ⟨s, pushed, ?_, ?_, ?_⟩
  · unfold ingestTopic
    rw [heq]
    rfl
  · rw [hdirect, hlength]
  · rw [hdirect, hrows]

/-- The same, where the rows never differ. -/
theorem renders_exact (rows : List Push) (hlogged : live.logged = [l])
    (hingest : ∀ s, ∃ pushed, ingestFixed c s t l.data l.topic = some (some pushed) ∧
      direct pushed = rows)
    (hrows : rows = (direct live.pushed).map (Push.atTime t)) (hP : P) : Renders c t live P := by
  refine renders_of_fixed rows hlogged hingest ?_ (iff_of_true hrows hP)
  rw [hrows, List.length_map]

/-- Nothing that is drawn directly is pushed, live or later. -/
theorem renders_nothing (hlive : direct live.pushed = []) (hP : P)
    (hingest : ∀ l ∈ live.logged, l.topic ≠ "viewer_meta" → ∀ (s : View) (wall : ℚ), ∃ s' pushed,
      ingestTopic c s t l.data l.topic (some wall) = some (s', pushed) ∧ direct pushed = []) :
    Renders c t live P := by
  intro l hl hmeta s wall
  obtain ⟨s', pushed, heq, hdirect⟩ := hingest l hl hmeta s wall
  refine ⟨s', pushed, heq, ?_, ?_⟩
  · rw [hdirect, hlive]
  · rw [hdirect, hlive]
    exact iff_of_true rfl hP

theorem logged_array {n : ℕ} (v : Fin n → PyFloat) :
    some (jsonArrayN v n) = some (jsonArray v) :=
  congrArg some (jsonArrayN_self v)

variable (c₀ : Config) (s₀ : View) (t₀ : ℚ)

theorem renders_pos (msg : VehicleLocalPosition) :
    Renders c t (cbPos c₀ s₀ t₀ msg) (Faithful c₀ (.pos msg)) := by
  have hlive : direct (cbPos c₀ s₀ t₀ msg).pushed =
      [⟨.pos, t₀, List.ofFn msg.position⟩, ⟨.vel, t₀, List.ofFn msg.velocity⟩] := by
    show direct (_ ++ if useFallback c₀ s₀ t₀ then _ else _) = _
    rw [direct_append, direct_fmuPose_ite]
    rfl
  refine renders_of_fixed [⟨.pos, t, numRow fun i => (msg.position i).orZero⟩,
    ⟨.vel, t, List.ofFn fun i => (msg.velocity i).stored⟩] rfl ?_ ?_ ?_
  · intro s
    refine ⟨_, congrArg some (ingestPos_of rfl rfl rfl), ?_⟩
    rw [direct_append, direct_fmuPose_ite]
    rfl
  · rw [hlive]
    rfl
  · rw [hlive]
    refine Iff.trans ?_
      (and_congr (ofFn_orZero_eq_iff msg.position) (ofFn_stored_eq_iff msg.velocity))
    simp [Push.atTime, numRow]

theorem renders_posSp (msg : VehicleLocalPositionSetpoint) :
    Renders c t (cbPosSp s₀ t₀ msg) (Faithful c₀ (.posSp msg)) := by
  refine renders_of_fixed [⟨.posSp, t, numRow fun i => (msg.position i).orZero⟩,
    ⟨.velSp, t, List.ofFn fun i => (msg.velocity i).stored⟩] rfl ?_ rfl ?_
  · exact fun _ => ⟨_, congrArg some (ingestPosSp_of rfl rfl), rfl⟩
  · refine Iff.trans ?_
      (and_congr (ofFn_orZero_eq_iff msg.position) (ofFn_stored_eq_iff msg.velocity))
    simp [direct, Buffer.isDirect, cbPosSp, Push.atTime, numRow]

theorem renders_att (msg : VehicleAttitude) :
    Renders c t (cbAtt s₀ t₀ msg) (Faithful c₀ (.att msg)) := by
  apply renders_exact _ rfl _ rfl trivial
  exact fun _ => ⟨_, congrArg some (ingestAttitude_of (logged_array msg.q) rfl), rfl⟩

theorem renders_attSp (msg : VehicleAttitudeSetpoint) :
    Renders c t (cbAttSp s₀ t₀ msg) (Faithful c₀ (.attSp msg)) := by
  apply renders_exact _ rfl _ rfl trivial
  exact fun _ => ⟨_, congrArg some (ingestAttitude_of (logged_array msg.qD) rfl), rfl⟩

theorem renders_angularVelocity (msg : VehicleAngularVelocity) :
    Renders c t (cbAngularVelocity s₀ t₀ msg) (Faithful c₀ (.angularVelocity msg)) := by
  refine renders_of_fixed [⟨.rates, t, List.ofFn fun i => (msg.xyz i).stored⟩] rfl ?_ rfl ?_
  · exact fun _ => ⟨_, congrArg some (ingestCells_of (logged_array msg.xyz)), rfl⟩
  · refine Iff.trans ?_ (ofFn_stored_eq_iff msg.xyz)
    simp [direct, Buffer.isDirect, cbAngularVelocity, Push.atTime]

theorem renders_ratesSp (msg : VehicleRatesSetpoint) :
    Renders c t (cbRatesSp s₀ t₀ msg) (Faithful c₀ (.ratesSp msg)) := by
  refine renders_of_fixed [⟨.ratesSp, t, List.ofFn fun i => (msg.rates i).stored⟩] rfl ?_ rfl ?_
  · exact fun _ => ⟨_, congrArg some (ingestCells_of (logged_array msg.rates)), rfl⟩
  · refine Iff.trans ?_ (ofFn_stored_eq_iff msg.rates)
    simp [direct, Buffer.isDirect, cbRatesSp, Push.atTime]

theorem renders_thrust (msg : VehicleThrustSetpoint) :
    Renders c t (cbThrust s₀ t₀ msg) (Faithful c₀ (.thrust msg)) := by
  refine renders_of_fixed [⟨.force, t, numRow fun i => (msg.xyz i).orZero⟩] rfl ?_ rfl ?_
  · exact fun _ => ⟨_, congrArg some (ingestVector_of (logged_array msg.xyz)), rfl⟩
  · refine Iff.trans ?_ (ofFn_orZero_eq_iff msg.xyz)
    simp [direct, Buffer.isDirect, cbThrust, Push.atTime, numRow]

theorem renders_torque (msg : VehicleTorqueSetpoint) :
    Renders c t (cbTorque s₀ t₀ msg) (Faithful c₀ (.torque msg)) := by
  refine renders_of_fixed [⟨.torque, t, numRow fun i => (msg.xyz i).orZero⟩] rfl ?_ rfl ?_
  · exact fun _ => ⟨_, congrArg some (ingestVector_of (logged_array msg.xyz)), rfl⟩
  · refine Iff.trans ?_ (ofFn_orZero_eq_iff msg.xyz)
    simp [direct, Buffer.isDirect, cbTorque, Push.atTime, numRow]

theorem renders_motors (msg : ActuatorMotors) :
    Renders c t (cbMotors c₀ s₀ t₀ msg) (Faithful c₀ (.motors msg)) := by
  apply renders_exact _ rfl _ rfl trivial
  exact fun _ => ⟨_, congrArg some (ingestMotors_of rfl (logged_array _)), rfl⟩

theorem renders_manual (msg : ManualControlSetpoint) :
    Renders c t (cbManual s₀ msg) (Faithful c₀ (.manual msg)) := by
  apply renders_exact _ rfl _ rfl trivial
  exact fun _ => ⟨_, congrArg some (ingestManual_of rfl), rfl⟩

theorem renders_servos (msg : ActuatorServos) :
    Renders c t (cbServos c₀ s₀ t₀ msg) (Faithful c₀ (.servos msg)) := by
  apply renders_exact _ rfl _ rfl trivial
  exact fun _ => ⟨_, congrArg some (ingestServos_of rfl (logged_array _) (logged_array _)), rfl⟩

theorem renders_status (msg : HummingbirdStatus) :
    Renders c t (cbStatus s₀ t₀ msg) (Faithful c₀ (.status msg)) := by
  apply renders_exact _ rfl _ rfl trivial
  exact fun _ => ⟨_, congrArg some (ingestInt_of rfl), rfl⟩

theorem renders_vehicleStatus (msg : VehicleStatus) :
    Renders c t (cbVehicleStatus s₀ t₀ msg) (Faithful c₀ (.vehicleStatus msg)) := by
  apply renders_exact _ rfl _ rfl trivial
  exact fun _ => ⟨_, congrArg some (ingestInt_of rfl), rfl⟩

/-- A mocap message, which comes on a topic of its own. -/
theorem renders_opti (hopti : c₀.optiTopic ∉ fixedTopics) (msg : PoseStamped) :
    Renders c t (cbOpti c₀ s₀ t₀ msg) (Faithful c₀ (.opti msg)) := by
  by_cases hbody : OtherBody c₀ msg
  · rw [cbOpti_other hbody]
    exact fun l hl => absurd hl List.not_mem_nil
  obtain ⟨data, hlogged, -, -, hpos, hq, hrpy, hpushed⟩ := cbOpti_of hbody s₀ t₀
  let pose := mocapPose msg.position msg.orientation c₀.origin
  have hlive : direct (cbOpti c₀ s₀ t₀ msg).pushed = [⟨.optiPos, t₀, List.ofFn pose.1⟩,
      ⟨.optiRpy, t₀, numRow (quatToRpyDeg (Quaternion.ofReal pose.2))⟩] := by
    rw [hpushed, direct_append, direct_recordOptiTiming]
    rfl
  have hfaithful : Faithful c₀ (.opti msg) ↔ ∀ i, (pose.1 i).IsFinite := by
    refine Iff.trans ?_ (mocapPose_isFinite_iff _ _ _).symm
    exact ⟨fun h => (h.resolve_left hbody).1, fun h => Or.inr ⟨h, hopti⟩⟩
  intro l hl _ s wall
  rw [hlogged] at hl
  obtain rfl := List.mem_singleton.mp hl
  have hbranch : ingestTopic c s t data c₀.optiTopic (some wall) =
      ingestOpti c s t data (some wall) := by
    unfold ingestTopic
    rw [ingestFixed_eq_none hopti, hpos]
    rfl
  obtain ⟨s', heq⟩ := ingestOpti_of (c := c) (s := s) (t := t) hpos hq hrpy (some wall)
  refine ⟨s', _, hbranch.trans heq, ?_⟩
  rw [hlive, direct_append, direct_recordOptiTiming, hfaithful]
  refine ⟨rfl, Iff.trans ?_ (ofFn_orZero_eq_iff pose.1)⟩
  simp [direct, Buffer.isDirect, Push.atTime, numRow, pose]

/-- Of the odometry only the FMU pose is drawn. -/
theorem renders_odometry (hodom : c₀.fmuOdomTopic ∉ fixedTopics) (msg : VehicleOdometry) :
    Renders c t (cbFmuOdom c₀ s₀ t₀ msg) True := by
  refine renders_nothing (direct_recordFmuPose _ _ _ _) trivial ?_
  intro l hl _ s wall
  obtain rfl := List.mem_singleton.mp hl
  rw [ingestTopic_of_other hodom rfl]
  split
  · refine ⟨_, _, ingestFmuOdom_of (logged_array msg.position) (logged_array msg.q), ?_⟩
    exact direct_recordFmuPose _ _ _ _
  · exact ⟨s, [], rfl, rfl⟩

/-- The health timer writes nothing. -/
theorem renders_healthTick : Renders c t (optiHealthTick c₀ s₀ t₀) True :=
  fun _ hl => absurd hl List.not_mem_nil

/-- A record of the viewer's own. -/
theorem renders_own (r : OwnRecord) : Renders c t ⟨s₀, [r.logged], []⟩ True := by
  refine renders_nothing rfl trivial ?_
  intro l hl hmeta s wall
  obtain rfl := List.mem_singleton.mp hl
  have hmissing : ∀ key ∈ ["px4_position_ned", "position", "q_wxyz"],
      r.logged.data.lookup key = none := by
    simp only [List.mem_cons, List.not_mem_nil, or_false, forall_eq_or_imp, forall_eq]
    cases r with
    | viewerMeta metadata => exact absurd rfl hmeta
    | viewerSubscription topic type => exact ⟨rfl, rfl, rfl⟩
    | viewerSubscriptionError topic error => exact ⟨rfl, rfl, rfl⟩
    | viewerWarning message => exact ⟨rfl, rfl, rfl⟩
    | viewerLoggerStats written dropped => exact ⟨rfl, rfl, rfl⟩
  rw [ingestTopic_of_other (ownTopics_other _ r.topic_mem).1 (hmissing _ (by decide))]
  split
  · -- the replay takes the record for an odometry, of which nothing is missed
    unfold ingestFmuOdom quatFromLog vecFromLog
    rw [hmissing "position" (by decide), hmissing "q_wxyz" (by decide)]
    exact ⟨_, _, rfl, direct_recordFmuPose _ _ _ _⟩
  · exact ⟨s, [], rfl, rfl⟩

/-- Whatever the node hears: what its record is replayed to. -/
theorem renders_hear (hopti : c₀.optiTopic ∉ fixedTopics) (hodom : c₀.fmuOdomTopic ∉ fixedTopics)
    (e : Heard) : Renders c t (hear c₀ s₀ e) (e.input.IsFaithful c₀) := by
  obtain ⟨t₀, elapsed, wall, input⟩ := e
  cases input with
  | message msg =>
    cases msg with
    | pos msg => exact renders_pos c₀ s₀ t₀ msg
    | posSp msg => exact renders_posSp c₀ s₀ t₀ msg
    | att msg => exact renders_att c₀ s₀ t₀ msg
    | attSp msg => exact renders_attSp c₀ s₀ t₀ msg
    | angularVelocity msg => exact renders_angularVelocity c₀ s₀ t₀ msg
    | ratesSp msg => exact renders_ratesSp c₀ s₀ t₀ msg
    | thrust msg => exact renders_thrust c₀ s₀ t₀ msg
    | torque msg => exact renders_torque c₀ s₀ t₀ msg
    | motors msg => exact renders_motors c₀ s₀ t₀ msg
    | manual msg => exact renders_manual c₀ s₀ msg
    | servos msg => exact renders_servos c₀ s₀ t₀ msg
    | status msg => exact renders_status c₀ s₀ t₀ msg
    | vehicleStatus msg => exact renders_vehicleStatus c₀ s₀ t₀ msg
    | opti msg => exact renders_opti c₀ s₀ t₀ hopti msg
  | odometry msg => exact renders_odometry c₀ s₀ t₀ hodom msg
  | healthTick => exact renders_healthTick c₀ s₀ t₀
  | own r => exact renders_own s₀ r

end Renders

end Viewer

end Hummingbird
