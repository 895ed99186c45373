/-
  What one tick of `Px4PositionCommand` can do.

  `TickBranch s c s' out` lists the ways through `on_tick`: under which conditions on the
  state each is taken, which state it leaves and what it publishes. `onTick_branch` says that
  every tick takes one of them. Everything later about ticks is a case analysis on it; no
  later proof unfolds `onTick`.
-/
import Hummingbird.PositionCmd.Node

namespace Hummingbird

namespace Px4PositionCommand

open WithNaN

/-- Armed, or arming is left to the operator: the negation of `arm_not_ready`. -/
def armReady (s : Px4PositionCommand) : Bool := s.vehicleArmed || !s.autoArm

/-- The active control state that path following requires. -/
def activeState (s : Px4PositionCommand) : Bool := s.offboardModeActive && s.armReady

/-- The mode the `switch` of a tick sees: a path tick outside the active control state has
    fallen back to one of the waiting modes. -/
def dispatchMode (s : Px4PositionCommand) : ControlMode :=
  if s.controlMode = .pathActive ∧ s.activeState = false then
    if s.offboardModeActive then .waitArm else .waitOffboard
  else s.controlMode

/-- The tick gets to `wait_arm`, from the `switch` or from `wait_offboard`. -/
def ReachesWaitArm (s : Px4PositionCommand) (c : TickClock) : Prop :=
  s.dispatchMode = .waitArm ∨
    s.dispatchMode = .waitOffboard ∧ commandDelaySec ≤ s.elapsedSec c ∧
      s.offboardModeActive = true

/-- An arm request is due. -/
def armDue (s : Px4PositionCommand) (c : TickClock) : Bool :=
  requestDue s.lastArmRequestTimeSec (s.elapsedSec c) (messageTimeoutSec + commandRepeatSec)

/-- An offboard request is due. -/
def offboardDue (s : Px4PositionCommand) (c : TickClock) : Bool :=
  requestDue s.lastOffboardRequestTimeSec (s.elapsedSec c) commandRepeatSec

/-- The heartbeat of the tick. -/
noncomputable def heartbeat (c : TickClock) : Publication :=
  .offboardControlMode (offboardHeartbeat c.timestampUs)

/-- The filters after a handoff tick. -/
noncomputable def handoffFilters (s : Px4PositionCommand) : HandoffFilters :=
  s.rc2ddsHandoffFilters.step s.handoffTarget

/-- The ways through `on_tick`. -/
inductive TickBranch (s : Px4PositionCommand) (c : TickClock) :
    Px4PositionCommand → List Publication → Prop
  | takeover (hd : s.ddsControlEnabled c.now = false)
      (hp : s.previousDdsControlEnabled = true)
      (hm : s.controlMode = .pathActive ∨ s.controlMode = .rc2ddsHandoff) :
      TickBranch s c
        { s with controlMode := .waitOffboard, previousDdsControlEnabled := false }
        [.vehicleCommand (posctlCommand c.timestampUs)]
  | released (hd : s.ddsControlEnabled c.now = false)
      (hn : ¬ (s.previousDdsControlEnabled = true ∧
        (s.controlMode = .pathActive ∨ s.controlMode = .rc2ddsHandoff))) :
      TickBranch s c { s with previousDdsControlEnabled := false } []
  | statusStale (hd : s.ddsControlEnabled c.now = true)
      (hs : s.vehicleStatusFresh c.now = false) :
      TickBranch s c
        { s with
          previousDdsControlEnabled := true
          controlMode := if s.controlMode = .pathActive then .waitOffboard else s.controlMode }
        [heartbeat c]
  | waitOffboard (hd : s.ddsControlEnabled c.now = true)
      (hs : s.vehicleStatusFresh c.now = true) (hm : s.dispatchMode = .waitOffboard)
      (hw : s.elapsedSec c < commandDelaySec ∨ s.offboardModeActive = false ∧
        (s.autoOffboard && s.offboardDue c) = false) :
      TickBranch s c
        { s with previousDdsControlEnabled := true, controlMode := .waitOffboard }
        [heartbeat c]
  | offboardRequest (hd : s.ddsControlEnabled c.now = true)
      (hs : s.vehicleStatusFresh c.now = true) (hm : s.dispatchMode = .waitOffboard)
      (he : commandDelaySec ≤ s.elapsedSec c) (ho : s.offboardModeActive = false)
      (ha : s.autoOffboard = true) (hr : s.offboardDue c = true) :
      TickBranch s c
        { s with
          previousDdsControlEnabled := true
          controlMode := .waitOffboard
          lastOffboardRequestTimeSec := some (s.elapsedSec c) }
        [heartbeat c, .vehicleCommand (offboardCommand c.timestampUs)]
  | waitArm (hd : s.ddsControlEnabled c.now = true)
      (hs : s.vehicleStatusFresh c.now = true) (hm : s.ReachesWaitArm c)
      (ha : s.armReady = false) (hr : s.armDue c = false) :
      TickBranch s c
        { s with previousDdsControlEnabled := true, controlMode := .waitArm } [heartbeat c]
  | armRequest (hd : s.ddsControlEnabled c.now = true)
      (hs : s.vehicleStatusFresh c.now = true) (hm : s.ReachesWaitArm c)
      (ha : s.armReady = false) (hr : s.armDue c = true) :
      TickBranch s c
        { s with
          previousDdsControlEnabled := true
          controlMode := .waitArm
          lastArmRequestTimeSec := some (s.elapsedSec c) }
        [heartbeat c, .vehicleCommand (armCommand c.timestampUs)]
  | startHandoff (hd : s.ddsControlEnabled c.now = true)
      (hs : s.vehicleStatusFresh c.now = true) (hm : s.ReachesWaitArm c)
      (ha : s.armReady = true) :
      TickBranch s c
        (startRc2ddsHandoff { s with previousDdsControlEnabled := true } c.later) [heartbeat c]
  | path (hd : s.ddsControlEnabled c.now = true) (hs : s.vehicleStatusFresh c.now = true)
      (hm : s.controlMode = .pathActive) (ha : s.activeState = true) :
      TickBranch s c
        { s with
          previousDdsControlEnabled := true
          lastTarget := s.pathCommand (s.elapsedSec c) }
        [heartbeat c, .trajectorySetpoint (pathSetpoint c.timestampUs s.trajectoryName
          (s.pathCommand (s.elapsedSec c)))]
  | handoff (hd : s.ddsControlEnabled c.now = true) (hs : s.vehicleStatusFresh c.now = true)
      (hm : s.controlMode = .rc2ddsHandoff)
      (hp : s.initialPoseReached s.handoffTarget c.later = false) :
      TickBranch s c
        { s with
          previousDdsControlEnabled := true
          lastTarget := s.handoffFilters.output
          rc2ddsHandoffFilters := s.handoffFilters }
        [heartbeat c, .trajectorySetpoint (handoffSetpoint c.timestampUs s.handoffFilters.output)]
  | handoffReached (hd : s.ddsControlEnabled c.now = true)
      (hs : s.vehicleStatusFresh c.now = true) (hm : s.controlMode = .rc2ddsHandoff)
      (hp : s.initialPoseReached s.handoffTarget c.later = true) :
      TickBranch s c
        { s with
          previousDdsControlEnabled := true
          lastTarget := s.handoffTarget
          rc2ddsHandoffFilters := s.handoffFilters
          posX := num initialPoseXM
          posY := num initialPoseYM
          posZ := num initialPoseZM
          trajectoryStartTimeSec := s.elapsedSec c
          controlMode := .pathActive }
        [heartbeat c, .trajectorySetpoint (handoffSetpoint c.timestampUs s.handoffFilters.output)]

/-! ## The methods a tick dispatches to -/

section Methods

variable {s : Px4PositionCommand} {timestampUs : UInt64} {elapsedSec : ℚ} {later : Time}

theorem arm_guard (s : Px4PositionCommand) : (!s.vehicleArmed && s.autoArm) = !s.armReady := by
  simp [armReady]

theorem waitArm_of_ready (ha : s.armReady = true) :
    s.waitArm timestampUs elapsedSec later = (s.startRc2ddsHandoff later, []) := by
  simp [Px4PositionCommand.waitArm, arm_guard, ha]

theorem waitArm_of_due (ha : s.armReady = false)
    (hr : requestDue s.lastArmRequestTimeSec elapsedSec
      (messageTimeoutSec + commandRepeatSec) = true) :
    s.waitArm timestampUs elapsedSec later =
      ({ s with lastArmRequestTimeSec := some elapsedSec },
        [.vehicleCommand (armCommand timestampUs)]) := by
  simp [Px4PositionCommand.waitArm, arm_guard, ha, hr]

theorem waitArm_of_not_due (ha : s.armReady = false)
    (hr : requestDue s.lastArmRequestTimeSec elapsedSec
      (messageTimeoutSec + commandRepeatSec) = false) :
    s.waitArm timestampUs elapsedSec later = (s, []) := by
  simp [Px4PositionCommand.waitArm, arm_guard, ha, hr]

theorem waitOffboard_of_early (he : elapsedSec < commandDelaySec) :
    s.waitOffboard timestampUs elapsedSec later = (s, []) := by
  simp [Px4PositionCommand.waitOffboard, he]

theorem waitOffboard_of_offboard (he : commandDelaySec ≤ elapsedSec)
    (ho : s.offboardModeActive = true) :
    s.waitOffboard timestampUs elapsedSec later =
      Px4PositionCommand.waitArm { s with controlMode := .waitArm } timestampUs elapsedSec
        later := by
  simp [Px4PositionCommand.waitOffboard, not_lt.mpr he, ho]

theorem waitOffboard_of_due (he : commandDelaySec ≤ elapsedSec)
    (ho : s.offboardModeActive = false)
    (hr : (s.autoOffboard && requestDue s.lastOffboardRequestTimeSec elapsedSec
      commandRepeatSec) = true) :
    s.waitOffboard timestampUs elapsedSec later =
      ({ s with lastOffboardRequestTimeSec := some elapsedSec },
        [.vehicleCommand (offboardCommand timestampUs)]) := by
  simp only [Px4PositionCommand.waitOffboard, not_lt.mpr he, ho, hr, if_false, Bool.not_false,
    if_true]

theorem waitOffboard_of_not_due (he : commandDelaySec ≤ elapsedSec)
    (ho : s.offboardModeActive = false)
    (hr : (s.autoOffboard && requestDue s.lastOffboardRequestTimeSec elapsedSec
      commandRepeatSec) = false) :
    s.waitOffboard timestampUs elapsedSec later = (s, []) := by
  simp only [Px4PositionCommand.waitOffboard, not_lt.mpr he, ho, hr, if_false, Bool.not_false,
    if_true, Bool.false_eq_true]

theorem rc2ddsHandoff_of_not_reached
    (hp : s.initialPoseReached s.handoffTarget later = false) :
    s.rc2ddsHandoff timestampUs elapsedSec later =
      ({ s with lastTarget := s.handoffFilters.output, rc2ddsHandoffFilters := s.handoffFilters },
        [.trajectorySetpoint (handoffSetpoint timestampUs s.handoffFilters.output)]) := by
  -- `initial_pose_reached` does not read the members written before it is called
  have hguard : initialPoseReached
      { s with lastTarget := s.handoffFilters.output, rc2ddsHandoffFilters := s.handoffFilters }
      s.handoffTarget later = false := hp
  unfold Px4PositionCommand.rc2ddsHandoff
  dsimp only [Hummingbird.rc2ddsHandoff]
  rw [← handoffFilters, hguard]
  rfl

theorem rc2ddsHandoff_of_reached (hp : s.initialPoseReached s.handoffTarget later = true) :
    s.rc2ddsHandoff timestampUs elapsedSec later =
      ({ s with
          lastTarget := s.handoffTarget
          rc2ddsHandoffFilters := s.handoffFilters
          posX := num initialPoseXM
          posY := num initialPoseYM
          posZ := num initialPoseZM
          trajectoryStartTimeSec := elapsedSec
          controlMode := .pathActive },
        [.trajectorySetpoint (handoffSetpoint timestampUs s.handoffFilters.output)]) := by
  have hguard : initialPoseReached
      { s with lastTarget := s.handoffFilters.output, rc2ddsHandoffFilters := s.handoffFilters }
      s.handoffTarget later = true := hp
  unfold Px4PositionCommand.rc2ddsHandoff
  dsimp only [Hummingbird.rc2ddsHandoff]
  rw [← handoffFilters, hguard]
  rfl

theorem dispatch_of_pathActive (hm : s.controlMode = .pathActive) :
    s.dispatch timestampUs elapsedSec later = s.pathActive timestampUs elapsedSec := by
  rw [dispatch, hm]

theorem dispatch_of_rc2ddsHandoff (hm : s.controlMode = .rc2ddsHandoff) :
    s.dispatch timestampUs elapsedSec later =
      s.rc2ddsHandoff timestampUs elapsedSec later := by
  rw [dispatch, hm]

end Methods

/-! ## Every tick takes one of the branches -/

/-- The state the `switch` of a tick sees while DDS control is enabled and status is fresh. -/
def dispatched (s : Px4PositionCommand) : Px4PositionCommand :=
  { s with previousDdsControlEnabled := true, controlMode := s.dispatchMode }

theorem dispatched_of_mode {s : Px4PositionCommand} {m : ControlMode} (hm : s.dispatchMode = m) :
    s.dispatched = { s with previousDdsControlEnabled := true, controlMode := m } := by
  rw [dispatched, hm]

/-- Only a path tick outside the active control state is dispatched in another mode. -/
theorem controlMode_of_dispatchMode {s : Px4PositionCommand}
    (hm : s.dispatchMode = .pathActive ∨ s.dispatchMode = .rc2ddsHandoff) :
    s.controlMode = s.dispatchMode ∧ (s.controlMode = .pathActive → s.activeState = true) := by
  unfold dispatchMode at hm ⊢
  by_cases h : s.controlMode = .pathActive ∧ s.activeState = false
  · rw [if_pos h] at hm
    split at hm <;> simp at hm
  · rw [if_neg h]
    exact ⟨rfl, fun hp => by simpa [hp] using h⟩

variable {s : Px4PositionCommand} {c : TickClock}

theorem TickBranch.of_waitArm (hd : s.ddsControlEnabled c.now = true)
    (hs : s.vehicleStatusFresh c.now = true) (hm : s.ReachesWaitArm c)
    {d : Px4PositionCommand}
    (he : d = { s with previousDdsControlEnabled := true, controlMode := .waitArm }) :
    TickBranch s c (d.waitArm c.timestampUs (s.elapsedSec c) c.later).1
      (heartbeat c :: (d.waitArm c.timestampUs (s.elapsedSec c) c.later).2) := by
  have hready : d.armReady = s.armReady := by rw [he]; rfl
  have hlast : d.lastArmRequestTimeSec = s.lastArmRequestTimeSec := by rw [he]
  cases ha : s.armReady with
  | true =>
    rw [waitArm_of_ready (hready.trans ha), he]
    exact .startHandoff hd hs hm ha
  | false =>
    cases hr : s.armDue c with
    | true =>
      rw [waitArm_of_due (hready.trans ha) (by rw [hlast]; exact hr), he]
      exact .armRequest hd hs hm ha hr
    | false =>
      rw [waitArm_of_not_due (hready.trans ha) (by rw [hlast]; exact hr), he]
      exact .waitArm hd hs hm ha hr

theorem TickBranch.of_waitOffboard (hd : s.ddsControlEnabled c.now = true)
    (hs : s.vehicleStatusFresh c.now = true) (hm : s.dispatchMode = .waitOffboard)
    {d : Px4PositionCommand}
    (he : d = { s with previousDdsControlEnabled := true, controlMode := .waitOffboard }) :
    TickBranch s c (d.waitOffboard c.timestampUs (s.elapsedSec c) c.later).1
      (heartbeat c :: (d.waitOffboard c.timestampUs (s.elapsedSec c) c.later).2) := by
  have hoff : d.offboardModeActive = s.offboardModeActive := by rw [he]; rfl
  rcases lt_or_ge (s.elapsedSec c) commandDelaySec with hlt | hge
  · rw [waitOffboard_of_early hlt, he]
    exact .waitOffboard hd hs hm (Or.inl hlt)
  cases ho : s.offboardModeActive with
  | true =>
    rw [waitOffboard_of_offboard hge (hoff.trans ho)]
    exact .of_waitArm hd hs (Or.inr ⟨hm, hge, ho⟩) (by rw [he])
  | false =>
    cases hr : s.autoOffboard && s.offboardDue c with
    | true =>
      obtain ⟨hauto, hdue⟩ := Bool.and_eq_true_iff.mp hr
      rw [waitOffboard_of_due hge (hoff.trans ho) (by rw [he]; exact hr), he]
      exact .offboardRequest hd hs hm hge ho hauto hdue
    | false =>
      rw [waitOffboard_of_not_due hge (hoff.trans ho) (by rw [he]; exact hr), he]
      exact .waitOffboard hd hs hm (Or.inr ⟨ho, hr⟩)

/-- The `switch` of a tick takes one of the branches of its mode. -/
theorem TickBranch.of_dispatch (hd : s.ddsControlEnabled c.now = true)
    (hs : s.vehicleStatusFresh c.now = true) :
    TickBranch s c (s.dispatched.dispatch c.timestampUs (s.elapsedSec c) c.later).1
      (heartbeat c :: (s.dispatched.dispatch c.timestampUs (s.elapsedSec c) c.later).2) := by
  cases hm : s.dispatchMode with
  | waitOffboard =>
    rw [dispatched_of_mode hm]
    exact .of_waitOffboard hd hs hm rfl
  | waitArm =>
    rw [dispatched_of_mode hm]
    exact .of_waitArm hd hs (Or.inl hm) rfl
  | pathActive =>
    obtain ⟨hmode, hactive⟩ := controlMode_of_dispatchMode (Or.inl hm)
    have hpath := hmode.trans hm
    have hd' : s.dispatched = { s with previousDdsControlEnabled := true } := by
      rw [dispatched_of_mode hm, ← hpath]
    rw [hd', dispatch_of_pathActive (s := { s with previousDdsControlEnabled := true }) hpath]
    exact .path hd hs hpath (hactive hpath)
  | rc2ddsHandoff =>
    have hmode := (controlMode_of_dispatchMode (Or.inr hm)).1.trans hm
    have hd' : s.dispatched = { s with previousDdsControlEnabled := true } := by
      rw [dispatched_of_mode hm, ← hmode]
    rw [hd', dispatch_of_rc2ddsHandoff (s := { s with previousDdsControlEnabled := true }) hmode]
    cases hp : s.initialPoseReached s.handoffTarget c.later with
    | false =>
      rw [rc2ddsHandoff_of_not_reached (s := { s with previousDdsControlEnabled := true }) hp]
      exact .handoff hd hs hmode hp
    | true =>
      rw [rc2ddsHandoff_of_reached (s := { s with previousDdsControlEnabled := true }) hp]
      exact .handoffReached hd hs hmode hp

/-- A tick without DDS control, away from the edge that hands control back. -/
theorem onTick_of_released (hd : s.ddsControlEnabled c.now = false)
    (hn : ¬ (s.previousDdsControlEnabled = true ∧
      (s.controlMode = .pathActive ∨ s.controlMode = .rc2ddsHandoff))) :
    s.onTick c = ({ s with previousDdsControlEnabled := false }, []) := by
  have hedge : (s.previousDdsControlEnabled &&
      (s.controlMode == .pathActive || s.controlMode == .rc2ddsHandoff)) = false := by
    simpa using hn
  simp only [onTick, hd, hedge, Bool.not_false, Bool.and_true, Bool.false_eq_true, if_false,
    if_true]

/-- The tick at which DDS control ends while the node publishes setpoints. -/
theorem onTick_of_takeover (hd : s.ddsControlEnabled c.now = false)
    (hp : s.previousDdsControlEnabled = true)
    (hm : s.controlMode = .pathActive ∨ s.controlMode = .rc2ddsHandoff) :
    s.onTick c = ({ s with controlMode := .waitOffboard, previousDdsControlEnabled := false },
      [.vehicleCommand (posctlCommand c.timestampUs)]) := by
  have hedge : (s.previousDdsControlEnabled &&
      (s.controlMode == .pathActive || s.controlMode == .rc2ddsHandoff)) = true := by
    simpa [hp] using hm
  simp only [onTick, hd, hedge, switchToPositionControl, Bool.not_false, Bool.and_true, if_true]

/-- What is left of a tick once DDS control is found enabled. -/
theorem onTick_of_enabled (hd : s.ddsControlEnabled c.now = true) :
    s.onTick c =
      if !s.vehicleStatusFresh c.now then
        (if s.controlMode == .pathActive then
          { s with previousDdsControlEnabled := true, controlMode := .waitOffboard }
        else { s with previousDdsControlEnabled := true }, [heartbeat c])
      else ((s.dispatched.dispatch c.timestampUs (s.elapsedSec c) c.later).1,
        heartbeat c :: (s.dispatched.dispatch c.timestampUs (s.elapsedSec c) c.later).2) := by
  have hguard : (!s.offboardModeActive || (s.autoArm && !s.vehicleArmed)) = !s.activeState := by
    simp only [activeState, armReady]
    cases s.offboardModeActive <;> cases s.autoArm <;> cases s.vehicleArmed <;> rfl
  have hdispatched :
      (if (s.controlMode == .pathActive && !s.activeState) = true then
        { s with
          previousDdsControlEnabled := true
          controlMode := if s.offboardModeActive then .waitArm else .waitOffboard }
      else { s with previousDdsControlEnabled := true }) = s.dispatched := by
    unfold dispatched dispatchMode
    by_cases h : s.controlMode = .pathActive ∧ s.activeState = false
    · rw [if_pos (by simp [h.1, h.2]), if_pos h]
    · rw [if_neg (by simpa using h), if_neg h]
  rw [← hdispatched, ← hguard]
  simp only [onTick, hd, Bool.not_true, Bool.and_false, Bool.false_and, Bool.false_eq_true,
    if_false]
  rfl

theorem onTick_branch (s : Px4PositionCommand) (c : TickClock) :
    TickBranch s c (s.onTick c).1 (s.onTick c).2 := by
  cases hd : s.ddsControlEnabled c.now with
  | false =>
    by_cases hedge : s.previousDdsControlEnabled = true ∧
        (s.controlMode = .pathActive ∨ s.controlMode = .rc2ddsHandoff)
    · rw [onTick_of_takeover hd hedge.1 hedge.2]
      exact .takeover hd hedge.1 hedge.2
    · rw [onTick_of_released hd hedge]
      exact .released hd hedge
  | true =>
    rw [onTick_of_enabled hd]
    cases hs : s.vehicleStatusFresh c.now with
    | false =>
      have hstale : (if (s.controlMode == .pathActive) = true then
            { s with previousDdsControlEnabled := true, controlMode := .waitOffboard }
          else { s with previousDdsControlEnabled := true }) =
          { s with
            previousDdsControlEnabled := true
            controlMode := if s.controlMode = .pathActive then .waitOffboard
              else s.controlMode } := by
        by_cases hp : s.controlMode = .pathActive <;> simp [hp]
      rw [hstale]
      exact .statusStale hd hs
    | true => exact .of_dispatch hd hs

/-! ## When a tick does what -/

section Branch

open Publication

variable {s s' : Px4PositionCommand} {c : TickClock} {out : List Publication}

theorem dispatchMode_eq_rc2ddsHandoff_iff :
    s.dispatchMode = .rc2ddsHandoff ↔ s.controlMode = .rc2ddsHandoff := by
  constructor
  · intro h
    exact (controlMode_of_dispatchMode (Or.inr h)).1.trans h
  · intro h
    simp [dispatchMode, h]

theorem dispatchMode_eq_pathActive_iff :
    s.dispatchMode = .pathActive ↔ s.controlMode = .pathActive ∧ s.activeState = true := by
  constructor
  · intro h
    obtain ⟨hm, ha⟩ := controlMode_of_dispatchMode (Or.inl h)
    exact ⟨hm.trans h, ha (hm.trans h)⟩
  · rintro ⟨hm, ha⟩
    simp [dispatchMode, hm, ha]

theorem ReachesWaitArm.dispatchMode (h : s.ReachesWaitArm c) :
    s.dispatchMode = .waitArm ∨ s.dispatchMode = .waitOffboard := by
  rcases h with h | h
  · exact Or.inl h
  · exact Or.inr h.1

/-- `wait_arm` is never reached from the handoff. -/
theorem ReachesWaitArm.controlMode_ne (h : s.ReachesWaitArm c) :
    s.controlMode ≠ .rc2ddsHandoff := by
  intro hm
  rw [← dispatchMode_eq_rc2ddsHandoff_iff] at hm
  rcases h.dispatchMode with h | h <;> simp [h] at hm

theorem not_reachesWaitArm_of_pathActive (hm : s.controlMode = .pathActive)
    (ha : s.activeState = true) : ¬ s.ReachesWaitArm c := by
  intro h
  have hp := dispatchMode_eq_pathActive_iff.mpr ⟨hm, ha⟩
  rcases h.dispatchMode with h | h <;> simp [h] at hp

theorem not_reachesWaitArm_of_waitOffboard (hm : s.dispatchMode = .waitOffboard)
    (hw : s.elapsedSec c < commandDelaySec ∨ s.offboardModeActive = false) :
    ¬ s.ReachesWaitArm c := by
  rintro (h | ⟨-, he, ho⟩)
  · simp [h] at hm
  · rcases hw with hw | hw
    · exact absurd he (not_le.mpr hw)
    · simp [ho] at hw

/-- A tick publishes a setpoint exactly in the two modes that follow a trajectory. -/
theorem TickBranch.setpoint_iff (hb : TickBranch s c s' out) :
    (∃ m ∈ out, m.IsTrajectorySetpoint) ↔
      s.ddsControlEnabled c.now = true ∧ s.vehicleStatusFresh c.now = true ∧
        (s.dispatchMode = .pathActive ∨ s.dispatchMode = .rc2ddsHandoff) := by
  cases hb with
  | path hd hs hm ha =>
    simp [heartbeat, IsTrajectorySetpoint, hd, hs, dispatchMode_eq_pathActive_iff, hm, ha]
  | handoff hd hs hm _ =>
    simp [heartbeat, IsTrajectorySetpoint, hd, hs, dispatchMode_eq_rc2ddsHandoff_iff, hm]
  | handoffReached hd hs hm _ =>
    simp [heartbeat, IsTrajectorySetpoint, hd, hs, dispatchMode_eq_rc2ddsHandoff_iff, hm]
  | startHandoff hd hs hm =>
    rcases hm.dispatchMode with hm | hm <;> simp [heartbeat, IsTrajectorySetpoint, hm]
  | armRequest hd hs hm =>
    rcases hm.dispatchMode with hm | hm <;> simp [heartbeat, IsTrajectorySetpoint, hm]
  | waitArm hd hs hm =>
    rcases hm.dispatchMode with hm | hm <;> simp [heartbeat, IsTrajectorySetpoint, hm]
  | _ => simp_all [heartbeat, IsTrajectorySetpoint]

@[simp] theorem armCommand_command (timestampUs : UInt64) :
    (armCommand timestampUs).command = vehicleCmdComponentArmDisarm := rfl

@[simp] theorem offboardCommand_command (timestampUs : UInt64) :
    (offboardCommand timestampUs).command = vehicleCmdDoSetMode := rfl

@[simp] theorem posctlCommand_command (timestampUs : UInt64) :
    (posctlCommand timestampUs).command = vehicleCmdDoSetMode := rfl

@[simp] theorem vehicleCmdDoSetMode_ne : vehicleCmdDoSetMode ≠ vehicleCmdComponentArmDisarm := by
  decide

/-- A tick publishes an arm command exactly when it gets to `wait_arm` with one due. -/
theorem TickBranch.armCommand_iff (hb : TickBranch s c s' out) :
    (∃ m ∈ out, m.IsArmCommand) ↔
      s.ddsControlEnabled c.now = true ∧ s.vehicleStatusFresh c.now = true ∧
        s.ReachesWaitArm c ∧ s.armReady = false ∧ s.armDue c = true := by
  cases hb with
  | armRequest hd hs hm ha hr =>
    simp [heartbeat, IsArmCommand, hd, hs, hm, ha, hr]
  | takeover hd => simp [IsArmCommand, hd]
  | offboardRequest hd hs hm he ho =>
    have hreach : ¬ s.ReachesWaitArm c := not_reachesWaitArm_of_waitOffboard hm (Or.inr ho)
    simp [heartbeat, IsArmCommand, hreach]
  | waitOffboard hd hs hm hw =>
    have hreach := not_reachesWaitArm_of_waitOffboard hm (hw.imp_right And.left)
    simp [heartbeat, IsArmCommand, hreach]
  | path hd hs hm ha =>
    have hreach : ¬ s.ReachesWaitArm c := not_reachesWaitArm_of_pathActive hm ha
    simp [heartbeat, IsArmCommand, hreach]
  | handoff hd hs hm _ =>
    have hreach : ¬ s.ReachesWaitArm c := fun h => h.controlMode_ne hm
    simp [heartbeat, IsArmCommand, hreach]
  | handoffReached hd hs hm _ =>
    have hreach : ¬ s.ReachesWaitArm c := fun h => h.controlMode_ne hm
    simp [heartbeat, IsArmCommand, hreach]
  | released hd => simp [hd]
  | statusStale hd hs => simp [heartbeat, IsArmCommand, hs]
  | waitArm hd hs hm ha hr => simp [heartbeat, IsArmCommand, hr]
  | startHandoff hd hs hm ha => simp [heartbeat, IsArmCommand, ha]

/-- A tick starts a handoff exactly when it gets to `wait_arm` and is ready. -/
theorem TickBranch.started_iff (hb : TickBranch s c s' out) :
    (s.controlMode ≠ .rc2ddsHandoff ∧ s'.controlMode = .rc2ddsHandoff) ↔
      s.ddsControlEnabled c.now = true ∧ s.vehicleStatusFresh c.now = true ∧
        s.ReachesWaitArm c ∧ s.armReady = true := by
  cases hb with
  | takeover hd => simp [hd]
  | released hd => simp [hd]
  | statusStale hd hs =>
    by_cases hm : s.controlMode = .pathActive <;> simp [hs, hm]
  | waitOffboard hd hs hm hw =>
    have hreach := not_reachesWaitArm_of_waitOffboard hm (hw.imp_right And.left)
    simp [hreach]
  | offboardRequest hd hs hm he ho =>
    have hreach : ¬ s.ReachesWaitArm c := not_reachesWaitArm_of_waitOffboard hm (Or.inr ho)
    simp [hreach]
  | waitArm hd hs hm ha => simp [ha]
  | armRequest hd hs hm ha => simp [ha]
  | startHandoff hd hs hm ha =>
    simp [startRc2ddsHandoff, hd, hs, hm, ha, hm.controlMode_ne]
  | path hd hs hm ha =>
    have hreach : ¬ s.ReachesWaitArm c := not_reachesWaitArm_of_pathActive hm ha
    simp [hm, hreach]
  | handoff hd hs hm =>
    have hreach : ¬ s.ReachesWaitArm c := fun h => h.controlMode_ne hm
    simp [hm, hreach]
  | handoffReached hd hs hm =>
    have hreach : ¬ s.ReachesWaitArm c := fun h => h.controlMode_ne hm
    simp [hreach]

/-- What a tick does that starts a handoff. -/
theorem TickBranch.startHandoff_inv (hb : TickBranch s c s' out)
    (hm : s.controlMode ≠ .rc2ddsHandoff) (hm' : s'.controlMode = .rc2ddsHandoff) :
    s' = startRc2ddsHandoff { s with previousDdsControlEnabled := true } c.later ∧
      out = [heartbeat c] := by
  obtain ⟨hd, hs, hreach, ha⟩ := hb.started_iff.mp ⟨hm, hm'⟩
  cases hb with
  | startHandoff => exact ⟨rfl, rfl⟩
  | _ => simp_all

/-- What a tick does that finds DDS control enabled and the status stale. -/
theorem TickBranch.statusStale_inv (hb : TickBranch s c s' out)
    (hd : s.ddsControlEnabled c.now = true) (hs : s.vehicleStatusFresh c.now = false) :
    s' = { s with
        previousDdsControlEnabled := true
        controlMode := if s.controlMode = .pathActive then .waitOffboard else s.controlMode } ∧
      out = [heartbeat c] := by
  cases hb with
  | statusStale => exact ⟨rfl, rfl⟩
  | _ => simp_all

/-- What a path tick does in the active control state. -/
theorem TickBranch.path_inv (hb : TickBranch s c s' out)
    (hd : s.ddsControlEnabled c.now = true) (hs : s.vehicleStatusFresh c.now = true)
    (hm : s.controlMode = .pathActive) (ha : s.activeState = true) :
    s' = { s with
        previousDdsControlEnabled := true
        lastTarget := s.pathCommand (s.elapsedSec c) } ∧
      out = [heartbeat c, .trajectorySetpoint (pathSetpoint c.timestampUs s.trajectoryName
        (s.pathCommand (s.elapsedSec c)))] := by
  have hdm := dispatchMode_eq_pathActive_iff.mpr ⟨hm, ha⟩
  have hreach : ¬ s.ReachesWaitArm c := not_reachesWaitArm_of_pathActive hm ha
  cases hb with
  | path => exact ⟨rfl, rfl⟩
  | _ => simp_all

/-- What a handoff tick does that finds the initial pose reached. -/
theorem TickBranch.handoffReached_inv (hb : TickBranch s c s' out)
    (hd : s.ddsControlEnabled c.now = true) (hs : s.vehicleStatusFresh c.now = true)
    (hm : s.controlMode = .rc2ddsHandoff)
    (hp : s.initialPoseReached s.handoffTarget c.later = true) :
    s' = { s with
      previousDdsControlEnabled := true
      lastTarget := s.handoffTarget
      rc2ddsHandoffFilters := s.handoffFilters
      posX := num initialPoseXM
      posY := num initialPoseYM
      posZ := num initialPoseZM
      trajectoryStartTimeSec := s.elapsedSec c
      controlMode := .pathActive } := by
  have hdm := dispatchMode_eq_rc2ddsHandoff_iff.mpr hm
  have hreach : ¬ s.ReachesWaitArm c := fun h => h.controlMode_ne hm
  cases hb with
  | handoffReached => rfl
  | _ => simp_all

end Branch

end Px4PositionCommand

end Hummingbird
