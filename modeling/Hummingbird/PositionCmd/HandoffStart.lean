/-
  The first setpoint of a handoff, next to the pose measured at its start.

  `start_RC2DDS_handoff` takes x, y, z and the yaw of its start pose from
  `vehicle_local_position`; roll and pitch it leaves at those of the initial pose, and
  `vehicle_attitude` is not read. `bumplessStarts_iff`: over every run, the first setpoints of
  all handoffs are within the filter gain of the measured pose on all six axes exactly if
  every such handoff started from a level vehicle whose position and heading are numbers.
-/
import Hummingbird.PositionCmd.HandoffTrajectory

namespace Hummingbird

namespace Px4PositionCommand

open WithNaN AddCommGroup

/-! ## The measured pose -/

/-- The pose that the last local position and attitude report. -/
noncomputable def measuredPose (s : Px4PositionCommand) : TargetCMD Double :=
  let rpy := quatToRpy s.vehicleAttitude.q.normalized
  { TargetCMD.zero with
    x := s.localPosition.x
    y := s.localPosition.y
    z := s.localPosition.z
    roll := rpy.roll
    pitch := rpy.pitch
    yaw := s.localPosition.heading }

/-- Local position and attitude are fresh and valid at the time `later`, and the quaternion
    is not zero. -/
def PoseMeasured (s : Px4PositionCommand) (later : Time) : Prop :=
  s.localPositionFresh later = true ∧ s.vehicleAttitudeFresh later = true ∧
    0 < s.vehicleAttitude.q.squaredNorm

/-- On every axis `cmd` is within the filter gain times the distance from `pose` to the initial
    pose of `pose`. -/
structure WithinGain (cmd pose : TargetCMD Double) : Prop where
  x : (cmd.x - pose.x).abs ≤ LPF.gain handoffRuntime • (pose.x - initialPose.x).abs
  y : (cmd.y - pose.y).abs ≤ LPF.gain handoffRuntime • (pose.y - initialPose.y).abs
  z : (cmd.z - pose.z).abs ≤ LPF.gain handoffRuntime • (pose.z - initialPose.z).abs
  roll : angleDist cmd.roll pose.roll ≤
    LPF.gain handoffRuntime • angleDist pose.roll initialPose.roll
  pitch : angleDist cmd.pitch pose.pitch ≤
    LPF.gain handoffRuntime • angleDist pose.pitch initialPose.pitch
  yaw : angleDist cmd.yaw pose.yaw ≤
    LPF.gain handoffRuntime • angleDist pose.yaw initialPose.yaw

/-- Position and heading are numbers, and roll and pitch are those of the initial pose. -/
structure Level (pose : TargetCMD Double) : Prop where
  x : pose.x.IsNum
  y : pose.y.IsNum
  z : pose.z.IsNum
  roll : pose.roll = initialPose.roll
  pitch : pose.pitch = initialPose.pitch
  yaw : pose.yaw.IsNum

/-! ## The axes -/

section Axes

theorem gain_lt_one : LPF.gain handoffRuntime < 1 := by
  have hpos := LPF.one_sub_gain_pos (T := handoffRuntime) (by norm_num [handoffRuntime])
  linarith

/-- The first value of a handoff is the gain away from where it started. -/
theorem abs_handoffValue_one_sub (target start : ℝ) :
    |handoffValue target start 1 - start| = LPF.gain handoffRuntime * |start - target| := by
  have heq : handoffValue target start 1 - start =
      LPF.gain handoffRuntime * (target - start) := by
    unfold handoffValue
    ring
  rw [heq, abs_mul, abs_of_pos (LPF.gain_pos _), abs_sub_comm]

/-- An axis whose filter starts at the measured value. -/
theorem handoffValue_one_within (target start : ℝ) :
    Double.abs (num (handoffValue target start 1) - num start) ≤
      LPF.gain handoffRuntime • Double.abs (num start - num target) := by
  simp [abs_handoffValue_one_sub]

/-- The yaw axis, whose target is a representative of the initial yaw. -/
theorem handoffYaw_one_within {yaw start : ℝ} (hyaw : IsYawTarget yaw start) :
    angleDist (num (handoffValue yaw start 1)) (num start) ≤
      LPF.gain handoffRuntime • angleDist (num start) (num initialPoseYawRad) := by
  have hle : |handoffValue yaw start 1 - start| ≤ Real.pi :=
    (abs_handoffValue_sub_start_le yaw start 1).trans hyaw.near
  have hcomm : angleDist (num start) (num initialPoseYawRad) = num |yaw - start| := by
    have hdist := angleDist_of_modEq hyaw.congruent hyaw.near
    rw [← hdist, angleDist_num, angleDist_num, ← Real.Angle.abs_toReal_neg, ← Real.Angle.coe_neg,
      neg_sub]
  rw [angleDist_of_modEq modEq_rfl hle, hcomm, abs_handoffValue_one_sub, abs_sub_comm start yaw,
    smul_num, smul_eq_mul]
  exact num_le_num.mpr le_rfl

/-- An axis whose filter stays at the target: within the gain only at the target itself. -/
theorem angleDist_within_gain_iff {target : ℝ} {measured : Double}
    (hm : ∀ m, measured = num m → |m - target| ≤ Real.pi) :
    angleDist (num target) measured ≤ LPF.gain handoffRuntime • angleDist measured (num target) ↔
      measured = num target := by
  cases measured with
  | nan => simp
  | num m =>
    have hle : |m - target| ≤ Real.pi := hm m rfl
    have hle' : |target - m| ≤ Real.pi := by rwa [abs_sub_comm]
    rw [angleDist_of_modEq modEq_rfl hle, angleDist_of_modEq modEq_rfl hle', smul_num,
      smul_eq_mul, num_le_num, abs_sub_comm target m, num_inj]
    constructor
    · intro h
      have hnonneg := abs_nonneg (m - target)
      have hzero : |m - target| = 0 := by nlinarith [gain_lt_one]
      exact sub_eq_zero.mp (abs_eq_zero.mp hzero)
    · rintro rfl
      simp

end Axes

/-! ## The first setpoint -/

/-- `P` holds of the start `kₛ` and of the first setpoint tick `k` of every handoff of the
    history that started with the pose measured. -/
def OnFirstSetpoints (P : Entry → Entry → Prop) (h : History) : Prop :=
  ∀ a k m kₛ b c cₛ, h = a ++ k :: (m ++ kₛ :: b) → kₛ.event = .tick cₛ → StartedHandoff kₛ →
    PoseMeasured kₛ.pre cₛ.later → (∀ k' ∈ m, StaysInHandoff k' ∧ ¬ PublishesSetpoint k') →
      k.event = .tick c → PublishesSetpoint k → P kₛ k

/-- The setpoint that the tick `k` publishes is that of a command within the filter gain of
    the pose measured at `kₛ`. -/
def BumplessStart (kₛ k : Entry) : Prop :=
  ∃ c, k.event = .tick c ∧
    k.out = [heartbeat c,
      .trajectorySetpoint (handoffSetpoint c.timestampUs k.post.rc2ddsHandoffFilters.output)] ∧
    WithinGain k.post.rc2ddsHandoffFilters.output kₛ.pre.measuredPose

/-- The vehicle was level when the handoff started. -/
def LevelStart (kₛ : Entry) : Prop := Level kₛ.pre.measuredPose

/-- A tick of the handoff that publishes leaves the filters one step further. -/
theorem TickBranch.handoff_filters {s s' : Px4PositionCommand} {c : TickClock}
    {out : List Publication} (hb : TickBranch s c s' out)
    (hm : s.controlMode = .rc2ddsHandoff) (hset : ∃ m ∈ out, m.IsTrajectorySetpoint) :
    s'.rc2ddsHandoffFilters = s.handoffFilters := by
  obtain ⟨hd, hs, -⟩ := hb.setpoint_iff.mp hset
  have hdm := dispatchMode_eq_rc2ddsHandoff_iff.mpr hm
  have hreach : ¬ s.ReachesWaitArm c := fun h => h.controlMode_ne hm
  cases hb with
  | handoff => rfl
  | handoffReached => rfl
  | _ => simp_all

/-- An axis within the gain of a measurement was measured. -/
theorem WithinGain.isNum {cmd pose : TargetCMD Double} (hw : WithinGain cmd pose) :
    pose.x.IsNum ∧ pose.y.IsNum ∧ pose.z.IsNum ∧ pose.yaw.IsNum := by
  obtain ⟨hx, hy, hz, -, -, hyaw⟩ := hw
  refine ⟨?_, ?_, ?_, ?_⟩
  · by_contra hn
    simp [not_isNum_iff.mp hn] at hx
  · by_contra hn
    simp [not_isNum_iff.mp hn] at hy
  · by_contra hn
    simp [not_isNum_iff.mp hn] at hz
  · by_contra hn
    simp [not_isNum_iff.mp hn] at hyaw

/-- The command after one handoff tick from a start that shares position and heading with the
    measured pose and is level. -/
theorem withinGain_handoffCommand_iff {start : TargetCMD ℝ} {yaw : ℝ} {pose : TargetCMD Double}
    (hyaw : IsYawTarget yaw start.yaw) (hroll : start.roll = initialPoseRollRad)
    (hpitch : start.pitch = initialPosePitchRad) (hx : pose.x = num start.x)
    (hy : pose.y = num start.y) (hz : pose.z = num start.z) (hpsi : pose.yaw = num start.yaw)
    (hr : ∀ m, pose.roll = num m → |m - initialPoseRollRad| ≤ Real.pi)
    (hp : ∀ m, pose.pitch = num m → |m - initialPosePitchRad| ≤ Real.pi) :
    WithinGain ((handoffCommand start yaw 1).map num) pose ↔ Level pose := by
  have hroll1 : ((handoffCommand start yaw 1).map num).roll = num initialPoseRollRad := by
    simp [TargetCMD.map, handoffCommand, handoffValue, hroll]
  have hpitch1 : ((handoffCommand start yaw 1).map num).pitch = num initialPosePitchRad := by
    simp [TargetCMD.map, handoffCommand, handoffValue, hpitch]
  constructor
  · intro hw
    obtain ⟨-, -, -, hwr, hwp, -⟩ := hw
    refine ⟨by simp [hx], by simp [hy], by simp [hz], ?_, ?_, by simp [hpsi]⟩
    · rw [hroll1] at hwr
      exact (angleDist_within_gain_iff hr).mp hwr
    · rw [hpitch1] at hwp
      exact (angleDist_within_gain_iff hp).mp hwp
  · intro hl
    refine ⟨?_, ?_, ?_, ?_, ?_, ?_⟩
    · rw [hx]
      exact handoffValue_one_within initialPoseXM start.x
    · rw [hy]
      exact handoffValue_one_within initialPoseYM start.y
    · rw [hz]
      exact handoffValue_one_within initialPoseZM start.z
    · rw [hroll1]
      exact (angleDist_within_gain_iff hr).mpr hl.roll
    · rw [hpitch1]
      exact (angleDist_within_gain_iff hp).mpr hl.pitch
    · rw [hpsi]
      exact handoffYaw_one_within hyaw

section Runs

variable {p : Parameters} {t₀ t : Time} {h : History} {s : Px4PositionCommand}

/-- When the first setpoint of one handoff is within the gain of the measured pose. -/
theorem IsRun.bumplessStart_iff {m b : History} {k kₛ : Entry} {c cₛ : TickClock}
    (hr : IsRun p t₀ (k :: (m ++ kₛ :: b)) s t) (hcₛ : kₛ.event = .tick cₛ)
    (hstart : StartedHandoff kₛ) (hmeas : PoseMeasured kₛ.pre cₛ.later)
    (hstay : ∀ k' ∈ m, StaysInHandoff k' ∧ ¬ PublishesSetpoint k') (hc : k.event = .tick c)
    (hset : PublishesSetpoint k) : BumplessStart kₛ k ↔ LevelStart kₛ := by
  by_cases hnum : kₛ.pre.localPosition.x.IsNum ∧ kₛ.pre.localPosition.y.IsNum ∧
      kₛ.pre.localPosition.z.IsNum ∧ kₛ.pre.localPosition.heading.IsNum
  · obtain ⟨x, hx⟩ := isNum_iff.mp hnum.1
    obtain ⟨y, hy⟩ := isNum_iff.mp hnum.2.1
    obtain ⟨z, hz⟩ := isNum_iff.mp hnum.2.2.1
    obtain ⟨heading, hheading⟩ := isNum_iff.mp hnum.2.2.2
    -- the start pose has the measured position and heading, and is level
    let start : TargetCMD ℝ :=
      { TargetCMD.zero with
        x := x, y := y, z := z, roll := initialPoseRollRad, pitch := initialPosePitchRad
        yaw := heading }
    have hpose : kₛ.pre.handoffStart cₛ.later = start.map num := by
      rw [handoffStart, hmeas.1, if_pos rfl, hx, hy, hz, hheading]
      rfl
    obtain ⟨yaw, hyaw⟩ := exists_isYawTarget heading
    cases hr with
    | @handle _ s t e hr _ _ =>
      obtain rfl : e = .tick c := hc
      have hzero : setpointTicks m = 0 := by
        refine List.countP_eq_zero.mpr fun k' hk' => ?_
        simpa using (hstay k' hk').2
      have hs := IsRun.inHandoff hr hstart hcₛ hpose hyaw fun k' hk' => (hstay k' hk').1
      rw [hzero] at hs
      have hb := onTick_branch s c
      have hfilters : (s.onTick c).1.rc2ddsHandoffFilters = s.handoffFilters :=
        hb.handoff_filters hs.mode hset
      have hcmd : (s.onTick c).1.rc2ddsHandoffFilters.output =
          (handoffCommand start yaw 1).map num := by
        rw [hfilters]
        exact hs.handoffFilters_output hyaw
      have hout := hb.handoff_out hs.mode hset
      have hiff : WithinGain (s.onTick c).1.rc2ddsHandoffFilters.output kₛ.pre.measuredPose ↔
          LevelStart kₛ := by
        rw [hcmd]
        refine withinGain_handoffCommand_iff hyaw rfl rfl hx hy hz hheading ?_ ?_
        · intro m hm
          rw [initialPoseRollRad, sub_zero]
          exact abs_quatToRpy_roll_le hm
        · intro m hm
          rw [initialPosePitchRad, sub_zero]
          have hpi := Real.pi_pos
          exact (abs_quatToRpy_pitch_le hm).trans (by linarith)
      rw [← hiff]
      constructor
      · rintro ⟨-, -, -, hw⟩
        exact hw
      · intro hw
        refine ⟨c, rfl, ?_, hw⟩
        show (s.onTick c).2 = _
        rw [hout, ← hfilters]
        rfl
  · refine iff_of_false ?_ ?_
    · rintro ⟨-, -, -, hw⟩
      exact hnum hw.isNum
    · intro hl
      exact hnum ⟨hl.x, hl.y, hl.z, hl.yaw⟩

/-- The first setpoints of all handoffs of a run are within the gain of the measured pose
    exactly if all of these handoffs started level. -/
theorem bumplessStarts_iff (hr : IsRun p t₀ h s t) :
    OnFirstSetpoints BumplessStart h ↔ OnFirstSetpoints (fun kₛ _ => LevelStart kₛ) h := by
  have hiff : OnFirstSetpoints (fun kₛ k => BumplessStart kₛ k ↔ LevelStart kₛ) h := by
    rintro a k m kₛ b c cₛ rfl hcₛ hstart hmeas hstay hc hset
    obtain ⟨s', t', hr', -⟩ := hr.of_append
    exact IsRun.bumplessStart_iff hr' hcₛ hstart hmeas hstay hc hset
  constructor
  · intro h a k m kₛ b c cₛ he hcₛ hstart hmeas hstay hc hset
    exact (hiff a k m kₛ b c cₛ he hcₛ hstart hmeas hstay hc hset).mp
      (h a k m kₛ b c cₛ he hcₛ hstart hmeas hstay hc hset)
  · intro h a k m kₛ b c cₛ he hcₛ hstart hmeas hstay hc hset
    exact (hiff a k m kₛ b c cₛ he hcₛ hstart hmeas hstay hc hset).mpr
      (h a k m kₛ b c cₛ he hcₛ hstart hmeas hstay hc hset)

end Runs

/-- A vehicle hovering at the initial pose, pitched by `arcsin 0.96`: a handoff starts at 0.6 s
    and its first setpoint follows at 0.7 s. -/
noncomputable def pitchedEvents : List Event :=
  [.hummingbirdStatus 0 ⟨hbCmdSourceDds⟩,
    .vehicleLocalPosition 0
      ⟨true, true, num initialPoseXM, num initialPoseYM, num initialPoseZM, num 0⟩,
    .vehicleAttitude 0 ⟨⟨num (4 / 5), num 0, num (3 / 5), num 0⟩⟩,
    .vehicleStatus 0 ⟨navigationStateOffboard, armingStateArmed⟩,
    tickAt 600000000,
    tickAt 700000000]

theorem pitchedEvents_timed : node.Timed 0 pitchedEvents := by
  simp [pitchedEvents, tickAt, clockAt, Machine.Timed, node, Event.enter, Event.leave]

theorem bumplessStarts_iff_pitched :
    OnFirstSetpoints BumplessStart (node.trace (construct {} 0) pitchedEvents []) ↔
      OnFirstSetpoints (fun kₛ _ => LevelStart kₛ)
        (node.trace (construct {} 0) pitchedEvents []) := by
  obtain ⟨s, t, hr⟩ := Machine.run_trace (construct {} 0) 0 pitchedEvents pitchedEvents_timed
  exact bumplessStarts_iff hr

theorem pitched_quaternion :
    (⟨num (4 / 5), num 0, num (3 / 5), num 0⟩ : Quaternion).squaredNorm = num 1 := by
  unfold Quaternion.squaredNorm
  simp only [num_mul, num_add, num_inj]
  norm_num

/-- The vehicle of `pitchedEvents` is not level. -/
theorem pitched_not_level {pose : TargetCMD Double}
    (hpitch : pose.pitch = (quatToRpy ⟨num (4 / 5), num 0, num (3 / 5), num 0⟩).pitch) :
    ¬ Level pose := by
  intro hl
  have heq : (quatToRpy ⟨num (4 / 5), num 0, num (3 / 5), num 0⟩).pitch =
      num (Real.arcsin (24 / 25)) := by
    have hsin : (2 : ℝ) • (num (4 / 5) * num (3 / 5) - num 0 * num 0 : Double) =
        num (24 / 25) := by
      simp only [num_mul, num_sub, smul_num, num_inj, smul_eq_mul]
      norm_num
    have hlt : ¬ (num 1 : Double) ≤ num |24 / 25| := by
      rw [num_le_num, abs_of_pos (by norm_num)]
      norm_num
    unfold quatToRpy
    dsimp only
    rw [hsin, Double.abs_num, if_neg hlt, Double.asin_num]
  have hzero : Real.arcsin (24 / 25) = 0 :=
    num.inj (heq.symm.trans (hpitch.symm.trans hl.pitch))
  have := Real.arcsin_eq_zero_iff.mp hzero
  norm_num at this

/-- What the node holds when the handoff of `pitchedEvents` starts. -/
noncomputable def pitched : Px4PositionCommand :=
  ((((construct {} 0).controllerModeCallback 0 ⟨hbCmdSourceDds⟩).localPositionCallback 0
    ⟨true, true, num initialPoseXM, num initialPoseYM, num initialPoseZM, num 0⟩
    ).vehicleAttitudeCallback 0 ⟨⟨num (4 / 5), num 0, num (3 / 5), num 0⟩⟩).vehicleStatusCallback 0
    ⟨navigationStateOffboard, armingStateArmed⟩

theorem pitched_starts : StartedHandoff (node.record pitched (tickAt 600000000)) :=
  (onTick_branch pitched (clockAt 600000000)).started_iff.mpr
    ⟨by decide +kernel, by decide +kernel, Or.inr (by decide +kernel), by decide +kernel⟩

theorem pitched_poseMeasured : PoseMeasured pitched 600000000 := by
  refine ⟨by decide +kernel, by decide +kernel, ?_⟩
  show 0 < (⟨num (4 / 5), num 0, num (3 / 5), num 0⟩ : Quaternion).squaredNorm
  rw [pitched_quaternion]
  exact num_lt_num.mpr one_pos

theorem bumplessStarts_fails :
    ¬ ∀ (p : Parameters) (t₀ t : Time) (h : History) (s : Px4PositionCommand),
      IsRun p t₀ h s t → OnFirstSetpoints BumplessStart h := by
  intro hall
  obtain ⟨s, t, hr⟩ := Machine.run_trace (construct {} 0) 0 pitchedEvents pitchedEvents_timed
  have hset : PublishesSetpoint
      (node.record (pitched.onTick (clockAt 600000000)).1 (tickAt 700000000)) :=
    (onTick_branch _ _).setpoint_iff.mpr
      ⟨by decide +kernel, by decide +kernel, Or.inr (by decide +kernel)⟩
  have hbump := hall {} 0 t _ s hr [] _ [] (node.record pitched (tickAt 600000000)) _
    (clockAt 700000000) (clockAt 600000000) rfl rfl pitched_starts pitched_poseMeasured
    (fun _ hk => absurd hk List.not_mem_nil) rfl hset
  have hlevel := (IsRun.bumplessStart_iff (m := []) hr rfl pitched_starts pitched_poseMeasured
    (fun _ hk => absurd hk List.not_mem_nil) rfl hset).mp hbump
  refine pitched_not_level ?_ hlevel
  show (quatToRpy (⟨num (4 / 5), num 0, num (3 / 5), num 0⟩ : Quaternion).normalized).pitch = _
  rw [Quaternion.normalized_of_unit pitched_quaternion trivial trivial trivial trivial]

end Px4PositionCommand

end Hummingbird
