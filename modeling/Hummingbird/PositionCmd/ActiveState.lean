/-
  The vehicle state that `Px4PositionCommand` requires for setpoints and for arming.

  A path tick re-checks that the vehicle is in the active control state (offboard and, under
  `auto_arm`, armed) and stops its setpoints in the same tick. A handoff tick does not: it
  publishes whatever the vehicle reports. `setpointsOnlyWhenActive_iff` says that this is
  the only way for a setpoint to go out outside the active control state.

  Offboard mode is checked on the way from `wait_offboard` into `wait_arm`, but a node that
  is already in `wait_arm` arms without it. `armsOnlyInOffboard_iff` says that this is the only
  way for an arm command to go out outside offboard mode.
-/
import Hummingbird.PositionCmd.Publications

namespace Hummingbird

namespace Px4PositionCommand

/-! ## Setpoints -/

/-- A tick that publishes a setpoint has a fresh status in the active control state. -/
def SetpointsOnlyWhenActive (p : Parameters) (c : TickClock) (k : Entry) (past : History) :
    Prop :=
  PublishesSetpoint k → StatusFresh past c.now ∧ ActiveReported p past

/-- The tick finds the node in the handoff and the vehicle, by a fresh status, outside the
    active control state. -/
def HandoffOutsideActiveState (p : Parameters) (c : TickClock) (k : Entry) (past : History) :
    Prop :=
  DdsControl past c.now ∧ StatusFresh past c.now ∧ k.pre.controlMode = .rc2ddsHandoff ∧
    ¬ ActiveReported p past

/-- When the setpoint of one tick breaks the rule. -/
theorem TickBranch.setpoint_active_iff {s s' : Px4PositionCommand} {c : TickClock}
    {out : List Publication} (hb : TickBranch s c s' out) :
    ((∃ m ∈ out, m.IsTrajectorySetpoint) →
        s.vehicleStatusFresh c.now = true ∧ s.activeState = true) ↔
      ¬ (s.ddsControlEnabled c.now = true ∧ s.vehicleStatusFresh c.now = true ∧
        s.controlMode = .rc2ddsHandoff ∧ ¬ s.activeState = true) := by
  rw [hb.setpoint_iff, dispatchMode_eq_rc2ddsHandoff_iff, dispatchMode_eq_pathActive_iff]
  constructor
  · rintro h ⟨hd, hs, hm, ha⟩
    exact ha (h ⟨hd, hs, Or.inr hm⟩).2
  · rintro h ⟨hd, hs, ⟨-, ha⟩ | hm⟩
    · exact ⟨hs, ha⟩
    · by_contra hcon
      exact h ⟨hd, hs, hm, fun ha => hcon ⟨hs, ha⟩⟩

/-- Setpoints outside the active control state come from handoff ticks outside it, and from
    nowhere else. -/
theorem setpointsOnlyWhenActive_iff {p : Parameters} {t₀ t : Time} {h : History}
    {s : Px4PositionCommand} (hr : IsRun p t₀ h s t) :
    OnTicks (SetpointsOnlyWhenActive p) h ↔
      OnTicks (fun c k past => ¬ HandoffOutsideActiveState p c k past) h := by
  refine onTicks_congr (hr.onTicks ?_)
  intro past s t c hr _ hb
  have hs := IsRun.reflects hr
  unfold SetpointsOnlyWhenActive HandoffOutsideActiveState
  rw [← hs.ddsControlEnabled_iff, ← hs.vehicleStatusFresh_iff, ← hs.activeState_iff]
  exact hb.setpoint_active_iff

/-- DDS control in offboard mode; a handoff starts at 0.6 s, the vehicle leaves offboard mode
    at 0.65 s and the tick at 0.7 s still publishes a setpoint. -/
def leaveOffboardEvents : List Event :=
  [.hummingbirdStatus 0 ⟨hbCmdSourceDds⟩,
    .vehicleStatus 0 ⟨navigationStateOffboard, armingStateArmed⟩,
    tickAt 600000000,
    .vehicleStatus 650000000 ⟨navigationStatePosctl, armingStateArmed⟩,
    tickAt 700000000]

theorem leaveOffboardEvents_timed : node.Timed 0 leaveOffboardEvents := by
  simp [leaveOffboardEvents, tickAt, clockAt, Machine.Timed, node, Event.enter, Event.leave]

theorem setpointsOnlyWhenActive_iff_leaveOffboard :
    OnTicks (SetpointsOnlyWhenActive {}) (node.trace (construct {} 0) leaveOffboardEvents []) ↔
      OnTicks (fun c k past => ¬ HandoffOutsideActiveState {} c k past)
        (node.trace (construct {} 0) leaveOffboardEvents []) := by
  obtain ⟨s, t, hr⟩ :=
    Machine.run_trace (construct {} 0) 0 leaveOffboardEvents leaveOffboardEvents_timed
  exact setpointsOnlyWhenActive_iff hr

theorem setpointsOnlyWhenActive_fails :
    ¬ ∀ (p : Parameters) (t₀ t : Time) (h : History) (s : Px4PositionCommand),
      IsRun p t₀ h s t → OnTicks (SetpointsOnlyWhenActive p) h := by
  intro hall
  obtain ⟨s, t, hr⟩ :=
    Machine.run_trace (construct {} 0) 0 leaveOffboardEvents leaveOffboardEvents_timed
  have hnew := (hall {} 0 t _ s hr).newest rfl
  have hactive := hnew ((onTick_branch _ _).setpoint_iff.mpr
    ⟨by decide +kernel, by decide +kernel, Or.inr (by decide +kernel)⟩)
  obtain ⟨-, ⟨t', m, hm, hnav⟩, -⟩ := hactive
  obtain ⟨-, rfl⟩ := Prod.mk.inj (Option.some.inj hm)
  exact absurd hnav (by decide)

/-! ## Arming -/

/-- A tick that publishes an arm command does so under `auto_arm` and DDS control, with a
    fresh status that reports the vehicle unarmed and in offboard mode. -/
def ArmsOnlyInOffboard (p : Parameters) (c : TickClock) (k : Entry) (past : History) : Prop :=
  PublishesArmCommand k → p.autoArm = true ∧ DdsControl past c.now ∧ StatusFresh past c.now ∧
    ¬ ArmedReported past ∧ OffboardReported past

/-- The tick finds the node waiting in `wait_arm` with a request due, and an unarmed vehicle
    that is not, by a fresh status, in offboard mode. -/
def WaitsToArmOutsideOffboard (p : Parameters) (c : TickClock) (k : Entry) (past : History) :
    Prop :=
  p.autoArm = true ∧ DdsControl past c.now ∧ StatusFresh past c.now ∧ ¬ ArmedReported past ∧
    ¬ OffboardReported past ∧ k.pre.controlMode = .waitArm ∧ k.pre.armDue c = true

/-- Outside offboard mode a tick gets to `wait_arm` only by having been there. -/
theorem reachesWaitArm_iff_of_not_offboard {s : Px4PositionCommand} {c : TickClock}
    (ho : s.offboardModeActive = false) : s.ReachesWaitArm c ↔ s.controlMode = .waitArm := by
  unfold ReachesWaitArm dispatchMode
  rw [ho]
  by_cases h : s.controlMode = .pathActive ∧ s.activeState = false
  · rw [if_pos h]
    simp [h.1]
  · rw [if_neg h]
    simp

theorem armReady_eq_false_iff (s : Px4PositionCommand) :
    s.armReady = false ↔ s.autoArm = true ∧ s.vehicleArmed = false := by
  unfold armReady
  cases s.autoArm <;> cases s.vehicleArmed <;> decide

/-- When the arm command of one tick breaks the rule. -/
theorem TickBranch.armCommand_offboard_iff {s s' : Px4PositionCommand} {c : TickClock}
    {out : List Publication} (hb : TickBranch s c s' out) :
    ((∃ m ∈ out, m.IsArmCommand) →
        s.autoArm = true ∧ s.ddsControlEnabled c.now = true ∧
          s.vehicleStatusFresh c.now = true ∧ ¬ s.vehicleArmed = true ∧
          s.offboardModeActive = true) ↔
      ¬ (s.autoArm = true ∧ s.ddsControlEnabled c.now = true ∧
        s.vehicleStatusFresh c.now = true ∧ ¬ s.vehicleArmed = true ∧
        ¬ s.offboardModeActive = true ∧ s.controlMode = .waitArm ∧ s.armDue c = true) := by
  rw [hb.armCommand_iff, armReady_eq_false_iff]
  cases ho : s.offboardModeActive with
  | true =>
    have hfalse : ¬ ¬ (true = true) := fun h => h rfl
    constructor
    · rintro - ⟨-, -, -, -, h, -⟩
      exact hfalse h
    · rintro - ⟨hd, hs, -, ⟨hauto, harm⟩, -⟩
      exact ⟨hauto, hd, hs, by simp [harm], rfl⟩
  | false =>
    rw [reachesWaitArm_iff_of_not_offboard ho]
    constructor
    · rintro h ⟨hauto, hd, hs, harm, -, hm, hr⟩
      have harm' : s.vehicleArmed = false := by simpa using harm
      exact absurd (h ⟨hd, hs, hm, ⟨hauto, harm'⟩, hr⟩).2.2.2.2 (by decide)
    · rintro h ⟨hd, hs, hm, ⟨hauto, harm⟩, hr⟩
      exact absurd ⟨hauto, hd, hs, by simp [harm], by decide, hm, hr⟩ h

/-- Arm commands outside offboard mode come from a node that is already in `wait_arm`, and
    from nowhere else. -/
theorem armsOnlyInOffboard_iff {p : Parameters} {t₀ t : Time} {h : History}
    {s : Px4PositionCommand} (hr : IsRun p t₀ h s t) :
    OnTicks (ArmsOnlyInOffboard p) h ↔
      OnTicks (fun c k past => ¬ WaitsToArmOutsideOffboard p c k past) h := by
  refine onTicks_congr (hr.onTicks ?_)
  intro past s t c hr _ hb
  have hs := IsRun.reflects hr
  unfold ArmsOnlyInOffboard WaitsToArmOutsideOffboard
  rw [← hs.ddsControlEnabled_iff, ← hs.vehicleStatusFresh_iff, ← hs.vehicleArmed_iff,
    ← hs.offboardModeActive_iff, ← hs.autoArm]
  exact hb.armCommand_offboard_iff

/-- `auto_arm` with an unarmed vehicle in offboard mode, which is asked to arm at 0.6 s. It
    leaves offboard mode, still unarmed, and is asked to arm again at 2.7 s. -/
def armOutsideOffboardEvents : List Event :=
  [.hummingbirdStatus 0 ⟨hbCmdSourceDds⟩,
    .vehicleStatus 0 ⟨navigationStateOffboard, armingStateDisarmed⟩,
    tickAt 600000000,
    .hummingbirdStatus 2600000000 ⟨hbCmdSourceDds⟩,
    .vehicleStatus 2600000000 ⟨navigationStatePosctl, armingStateDisarmed⟩,
    tickAt 2700000000]

theorem armOutsideOffboardEvents_timed : node.Timed 0 armOutsideOffboardEvents := by
  simp [armOutsideOffboardEvents, tickAt, clockAt, Machine.Timed, node, Event.enter, Event.leave]

theorem armsOnlyInOffboard_iff_armOutsideOffboard :
    OnTicks (ArmsOnlyInOffboard ⟨"pos", true, true⟩)
        (node.trace (construct ⟨"pos", true, true⟩ 0) armOutsideOffboardEvents []) ↔
      OnTicks (fun c k past => ¬ WaitsToArmOutsideOffboard ⟨"pos", true, true⟩ c k past)
        (node.trace (construct ⟨"pos", true, true⟩ 0) armOutsideOffboardEvents []) := by
  obtain ⟨s, t, hr⟩ := Machine.run_trace (construct ⟨"pos", true, true⟩ 0) 0
    armOutsideOffboardEvents armOutsideOffboardEvents_timed
  exact armsOnlyInOffboard_iff hr

theorem armsOnlyInOffboard_fails :
    ¬ ∀ (p : Parameters) (t₀ t : Time) (h : History) (s : Px4PositionCommand),
      IsRun p t₀ h s t → OnTicks (ArmsOnlyInOffboard p) h := by
  intro hall
  obtain ⟨s, t, hr⟩ := Machine.run_trace (construct ⟨"pos", true, true⟩ 0) 0
    armOutsideOffboardEvents armOutsideOffboardEvents_timed
  have hnew := (hall _ 0 t _ s hr).newest rfl
  have harm := hnew ((onTick_branch _ _).armCommand_iff.mpr
    ⟨by decide +kernel, by decide +kernel, Or.inl (by decide +kernel), by decide +kernel,
      by decide +kernel⟩)
  obtain ⟨-, -, -, -, t', m, hm, hnav⟩ := harm
  obtain ⟨-, rfl⟩ := Prod.mk.inj (Option.some.inj hm)
  exact absurd hnav (by decide)

end Px4PositionCommand

end Hummingbird
