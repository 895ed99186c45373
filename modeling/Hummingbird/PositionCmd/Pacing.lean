/-
  When `Px4PositionCommand` asks for offboard mode and for arming.

  Both requests go through a limiter (`last_offboard_request_time_sec_` and
  `last_arm_request_time_sec_`) that no mode change and no takeover resets, so its invariant
  is one of the whole run: `limited_offboard` and `limited_arm` say that the member is the time
  of the newest request and that all requests are spaced. `command_pacing` adds what each
  request requires of the history.

  The delay before the first request counts from the start of the node, not from the change to
  DDS control; `delayedAfterChange_iff` says when a request comes too early after one.
-/
import Hummingbird.Library.Pacing
import Hummingbird.PositionCmd.Publications

namespace Hummingbird

namespace Px4PositionCommand

open Pacing Publication

/-! ## One tick -/

section Branch

variable {s s' : Px4PositionCommand} {c : TickClock} {out : List Publication}

theorem requestDue_iff {last : Option ℚ} {elapsedSec interval : ℚ} :
    requestDue last elapsedSec interval = true ↔ Due interval last elapsedSec := by
  cases last <;> simp [requestDue, Due]

theorem not_isOffboardCommand_armCommand (timestampUs : UInt64) :
    ¬ (Publication.vehicleCommand (armCommand timestampUs)).IsOffboardCommand :=
  fun h => vehicleCmdDoSetMode_ne h.1.symm

/-- A tick publishes an offboard command exactly when it waits for offboard mode with one due. -/
theorem TickBranch.offboardCommand_iff (hb : TickBranch s c s' out) :
    (∃ m ∈ out, m.IsOffboardCommand) ↔
      s.ddsControlEnabled c.now = true ∧ s.vehicleStatusFresh c.now = true ∧
        s.dispatchMode = .waitOffboard ∧ commandDelaySec ≤ s.elapsedSec c ∧
        s.offboardModeActive = false ∧ s.autoOffboard = true ∧ s.offboardDue c = true := by
  have hreach : s.ReachesWaitArm c → s.dispatchMode = .waitOffboard →
      ¬ s.offboardModeActive = false := by
    rintro (h | ⟨-, -, ho⟩) hm hn
    · exact absurd (h.symm.trans hm) (by decide)
    · exact absurd (ho.symm.trans hn) (by decide)
  cases hb with
  | offboardRequest hd hs hm he ho ha hr =>
    simp [heartbeat, IsOffboardCommand, IsSetMode, offboardCommand, vehicleCommand, hd, hs, hm,
      he, ho, ha, hr]
  | takeover hd => simp [not_isOffboardCommand_posctlCommand, hd]
  | released hd => simp [hd]
  | statusStale hd hs => simp [heartbeat, IsOffboardCommand, IsSetMode, hs]
  | waitOffboard hd hs hm hw =>
    have hnot : ¬ (commandDelaySec ≤ s.elapsedSec c ∧ s.offboardModeActive = false ∧
        s.autoOffboard = true ∧ s.offboardDue c = true) := by
      rintro ⟨he, -, ha, hr⟩
      rcases hw with hw | ⟨-, hw⟩
      · exact absurd he (not_le.mpr hw)
      · exact absurd hw (by simp [ha, hr])
    simp only [heartbeat, IsOffboardCommand, IsSetMode, List.mem_singleton, exists_eq_left,
      false_iff]
    exact fun h => hnot h.2.2.2
  | waitArm hd hs hm ha hr =>
    simp only [heartbeat, IsOffboardCommand, IsSetMode, List.mem_singleton, exists_eq_left,
      false_iff]
    exact fun h => hreach hm h.2.2.1 h.2.2.2.2.1
  | startHandoff hd hs hm ha =>
    simp only [heartbeat, IsOffboardCommand, IsSetMode, List.mem_singleton, exists_eq_left,
      false_iff]
    exact fun h => hreach hm h.2.2.1 h.2.2.2.2.1
  | armRequest hd hs hm ha hr =>
    have hnone : ¬ ∃ m ∈ [heartbeat c, .vehicleCommand (armCommand c.timestampUs)],
        m.IsOffboardCommand := by
      simp only [List.mem_pair]
      rintro ⟨m, rfl | rfl, h⟩
      · exact h
      · exact not_isOffboardCommand_armCommand _ h
    exact iff_of_false hnone fun h => hreach hm h.2.2.1 h.2.2.2.2.1
  | path hd hs hm ha =>
    have hm' := dispatchMode_eq_pathActive_iff.mpr ⟨hm, ha⟩
    simp [heartbeat, IsOffboardCommand, IsSetMode, hm']
  | handoff hd hs hm =>
    have hm' := dispatchMode_eq_rc2ddsHandoff_iff.mpr hm
    simp [heartbeat, IsOffboardCommand, IsSetMode, hm']
  | handoffReached hd hs hm =>
    have hm' := dispatchMode_eq_rc2ddsHandoff_iff.mpr hm
    simp [heartbeat, IsOffboardCommand, IsSetMode, hm']

/-- The limiter of the offboard requests over one tick. -/
theorem TickBranch.limited_offboard (hb : TickBranch s c s' out) {ts : List ℚ}
    (h : Limited commandRepeatSec ts s.lastOffboardRequestTimeSec) :
    Limited commandRepeatSec
      ((out.filter fun m => m.IsOffboardCommand).map (fun _ => s.elapsedSec c) ++ ts)
      s'.lastOffboardRequestTimeSec := by
  cases hb with
  | offboardRequest hd hs hm he ho ha hr =>
    exact h.pass (by decide) (requestDue_iff.mp hr)
  | takeover =>
    rw [List.filter_singleton, decide_eq_false (not_isOffboardCommand_posctlCommand _)]
    exact h
  | _ => exact h

/-- The limiter of the arm requests over one tick. -/
theorem TickBranch.limited_arm (hb : TickBranch s c s' out) {ts : List ℚ}
    (h : Limited (messageTimeoutSec + commandRepeatSec) ts s.lastArmRequestTimeSec) :
    Limited (messageTimeoutSec + commandRepeatSec)
      ((out.filter fun m => m.IsArmCommand).map (fun _ => s.elapsedSec c) ++ ts)
      s'.lastArmRequestTimeSec := by
  cases hb with
  | armRequest hd hs hm ha hr =>
    exact h.pass (by norm_num [messageTimeoutSec, commandRepeatSec]) (requestDue_iff.mp hr)
  | _ => exact h

end Branch

/-! ## The requests of a run -/

/-- When the publications of a kind went out, newest first, in seconds since `t₀`: the time of
    the handler, once for each of them. -/
def commandTimes (kind : Publication → Prop) [DecidablePred kind] (t₀ : Time) :
    History → List ℚ
  | [] => []
  | k :: past =>
    (k.out.filter fun m => kind m).map (fun _ => secs (k.event.enter - t₀)) ++
      commandTimes kind t₀ past

def PublishesOffboardCommand (k : Entry) : Prop := ∃ m ∈ k.out, m.IsOffboardCommand

/-- An offboard command goes out under `auto_offboard` and DDS control, to a vehicle that by a
    fresh status is in another mode, `command_delay_sec` after the start of the node. -/
def AsksForOffboard (p : Parameters) (t₀ : Time) (c : TickClock) (k : Entry) (past : History) :
    Prop :=
  PublishesOffboardCommand k → p.autoOffboard = true ∧ DdsControl past c.now ∧
    StatusFresh past c.now ∧ ¬ OffboardReported past ∧ commandDelaySec ≤ secs (c.now - t₀)

/-- An arm command goes out under `auto_arm`, to a vehicle that by a fresh status is not
    armed. -/
def AsksToArm (p : Parameters) (c : TickClock) (k : Entry) (past : History) : Prop :=
  PublishesArmCommand k → p.autoArm = true ∧ StatusFresh past c.now ∧ ¬ ArmedReported past

/-- How the node paces its requests over a run. -/
structure PacesCommands (p : Parameters) (t₀ : Time) (h : History) : Prop where
  fromTicks : ∀ k ∈ h, k.out ≠ [] → k.event.isTick = true
  offboardWhen : OnTicks (AsksForOffboard p t₀) h
  offboardApart : Spaced commandRepeatSec (commandTimes IsOffboardCommand t₀ h)
  armWhen : OnTicks (AsksToArm p) h
  armApart : Spaced (messageTimeoutSec + commandRepeatSec) (commandTimes IsArmCommand t₀ h)

section Runs

variable {p : Parameters} {t₀ t : Time} {h : History} {s : Px4PositionCommand}

/-- A message handler publishes nothing. -/
theorem handle_out_eq_nil (s : Px4PositionCommand) {e : Event} (he : e.isTick = false) :
    (s.handle e).2 = [] := by
  cases e with
  | tick c => simp [Event.isTick] at he
  | _ => rfl

/-- `last_offboard_request_time_sec_` limits the offboard requests of the whole run. -/
theorem IsRun.limited_offboard (hr : IsRun p t₀ h s t) :
    Limited commandRepeatSec (commandTimes IsOffboardCommand t₀ h)
      s.lastOffboardRequestTimeSec := by
  refine Machine.Run.invariant (P := fun h s _ => Limited commandRepeatSec
    (commandTimes IsOffboardCommand t₀ h) s.lastOffboardRequestTimeSec) hr (.start _) ?_
  intro h s t e hr ih _ _
  cases e with
  | tick c =>
    have htick := (onTick_branch s c).limited_offboard ih
    rw [(IsRun.reflects hr).elapsedSec_eq] at htick
    exact htick
  | _ => exact ih

/-- `last_arm_request_time_sec_` limits the arm requests of the whole run. -/
theorem IsRun.limited_arm (hr : IsRun p t₀ h s t) :
    Limited (messageTimeoutSec + commandRepeatSec) (commandTimes IsArmCommand t₀ h)
      s.lastArmRequestTimeSec := by
  refine Machine.Run.invariant (P := fun h s _ => Limited (messageTimeoutSec + commandRepeatSec)
    (commandTimes IsArmCommand t₀ h) s.lastArmRequestTimeSec) hr (.start _) ?_
  intro h s t e hr ih _ _
  cases e with
  | tick c =>
    have htick := (onTick_branch s c).limited_arm ih
    rw [(IsRun.reflects hr).elapsedSec_eq] at htick
    exact htick
  | _ => exact ih

theorem IsRun.asksForOffboard (hr : IsRun p t₀ h s t) : OnTicks (AsksForOffboard p t₀) h := by
  refine hr.onTicks ?_
  rintro past s t c hr _ hb hout
  have hs := IsRun.reflects hr
  obtain ⟨hd, hf, -, he, ho, ha, -⟩ := hb.offboardCommand_iff.mp hout
  refine ⟨hs.autoOffboard ▸ ha, (hs.ddsControlEnabled_iff _).mp hd,
    (hs.vehicleStatusFresh_iff _).mp hf, ?_, hs.elapsedSec_eq c ▸ he⟩
  rw [← hs.offboardModeActive_iff, ho]
  decide

theorem IsRun.asksToArm (hr : IsRun p t₀ h s t) : OnTicks (AsksToArm p) h := by
  refine hr.onTicks ?_
  rintro past s t c hr _ hb hout
  have hs := IsRun.reflects hr
  obtain ⟨-, hf, -, hready, -⟩ := hb.armCommand_iff.mp hout
  have hnot : ¬ (p.autoArm = true → ArmedReported past) := by
    rw [← hs.armReady_iff, hready]
    decide
  obtain ⟨ha, harm⟩ := Classical.not_imp.mp hnot
  exact ⟨ha, (hs.vehicleStatusFresh_iff _).mp hf, harm⟩

theorem command_pacing (hr : IsRun p t₀ h s t) : PacesCommands p t₀ h where
  fromTicks := by
    intro k hk hout
    obtain ⟨a, past, rfl⟩ := List.append_of_mem hk
    obtain ⟨s', t', hr', -⟩ := hr.of_append
    obtain ⟨-, -, -, -, hstep, -⟩ := hr'.newest
    by_contra hn
    exact hout (hstep.trans (handle_out_eq_nil k.pre (by simpa using hn)))
  offboardWhen := hr.asksForOffboard
  offboardApart := hr.limited_offboard.spaced
  armWhen := hr.asksToArm
  armApart := hr.limited_arm.spaced

end Runs

/-- `auto_arm` with an unarmed vehicle in position control: an offboard request at 0.6 s and
    one at 1.6 s; the vehicle goes to offboard mode and is asked to arm at 1.7 s. -/
def requestEvents : List Event :=
  [.hummingbirdStatus 0 ⟨hbCmdSourceDds⟩,
    .vehicleStatus 0 ⟨navigationStatePosctl, armingStateDisarmed⟩,
    tickAt 600000000, tickAt 700000000,
    .hummingbirdStatus 1500000000 ⟨hbCmdSourceDds⟩,
    .vehicleStatus 1500000000 ⟨navigationStatePosctl, armingStateDisarmed⟩,
    tickAt 1600000000,
    .vehicleStatus 1650000000 ⟨navigationStateOffboard, armingStateDisarmed⟩,
    tickAt 1700000000]

theorem requestEvents_timed : node.Timed 0 requestEvents := by
  simp [requestEvents, tickAt, clockAt, Machine.Timed, node, Event.enter, Event.leave]

theorem command_pacing_requests :
    PacesCommands ⟨"pos", true, true⟩ 0
      (node.trace (construct ⟨"pos", true, true⟩ 0) requestEvents []) := by
  obtain ⟨s, t, hr⟩ := Machine.run_trace (construct ⟨"pos", true, true⟩ 0) 0 requestEvents
    requestEvents_timed
  exact command_pacing hr

/-! ## The delay after a change to DDS control -/

/-- The entry is a tick at which DDS control is enabled and was not at the tick before. -/
def ChangesToDds (k : Entry) (past : History) : Prop :=
  ∃ c, k.event = .tick c ∧ DdsControl past c.now ∧ ¬ DdsTick (lastTick past)

/-- At the time `now`, the last change to DDS control is less than `command_delay_sec` ago. -/
def ChangedRecently (now : Time) : History → Prop :=
  Past.Since (Past.At fun k past => ¬ ChangesToDds k past)
    (Past.At fun k past => ChangesToDds k past ∧ secs (now - k.event.enter) < commandDelaySec)

/-- A tick that publishes an offboard command comes at least `command_delay_sec` after the
    last change to DDS control, which may be at this tick. -/
def DelayedAfterChange (c : TickClock) (k : Entry) (past : History) : Prop :=
  PublishesOffboardCommand k → ¬ ChangedRecently c.now (k :: past)

/-- The tick comes less than `command_delay_sec` after the last change to DDS control and finds
    a vehicle to be requested into offboard mode: `auto_offboard`, the node past its own start
    delay and waiting for offboard mode or following the path, a fresh status with another mode
    and a request due. -/
def RequestsSoonAfterChange (p : Parameters) (t₀ : Time) (c : TickClock) (k : Entry)
    (past : History) : Prop :=
  ChangedRecently c.now (k :: past) ∧ p.autoOffboard = true ∧
    commandDelaySec ≤ secs (c.now - t₀) ∧
    (k.pre.controlMode = .waitOffboard ∨ k.pre.controlMode = .pathActive) ∧
    DdsControl past c.now ∧ StatusFresh past c.now ∧ ¬ OffboardReported past ∧
    k.pre.offboardDue c = true

/-- Outside offboard mode a tick waits for it from `wait_offboard` and from the path. -/
theorem dispatchMode_eq_waitOffboard_iff {s : Px4PositionCommand}
    (ho : s.offboardModeActive = false) : s.dispatchMode = .waitOffboard ↔
      s.controlMode = .waitOffboard ∨ s.controlMode = .pathActive := by
  have ha : s.activeState = false := by simp [activeState, ho]
  unfold dispatchMode
  rw [ho, ha]
  cases s.controlMode <;> decide

/-- Offboard commands come too early after a change to DDS control exactly at the ticks that
    find a vehicle to be requested that soon: the delay is not measured from the change. -/
theorem delayedAfterChange_iff {p : Parameters} {t₀ t : Time} {h : History}
    {s : Px4PositionCommand} (hr : IsRun p t₀ h s t) :
    OnTicks DelayedAfterChange h ↔
      OnTicks (fun c k past => ¬ RequestsSoonAfterChange p t₀ c k past) h := by
  refine onTicks_congr (hr.onTicks ?_)
  intro past s t c hr _ hb
  have hs := IsRun.reflects hr
  have hout : PublishesOffboardCommand (node.record s (.tick c)) ↔
      p.autoOffboard = true ∧ commandDelaySec ≤ secs (c.now - t₀) ∧
        (s.controlMode = .waitOffboard ∨ s.controlMode = .pathActive) ∧
        DdsControl past c.now ∧ StatusFresh past c.now ∧ ¬ OffboardReported past ∧
        s.offboardDue c = true := by
    rw [← hs.autoOffboard, ← hs.elapsedSec_eq, ← hs.ddsControlEnabled_iff,
      ← hs.vehicleStatusFresh_iff, ← hs.offboardModeActive_iff, Bool.not_eq_true]
    refine hb.offboardCommand_iff.trans ⟨?_, ?_⟩
    · rintro ⟨hd, hf, hm, he, ho, ha, hdue⟩
      exact ⟨ha, he, (dispatchMode_eq_waitOffboard_iff ho).mp hm, hd, hf, ho, hdue⟩
    · rintro ⟨ha, he, hm, hd, hf, ho, hdue⟩
      exact ⟨hd, hf, (dispatchMode_eq_waitOffboard_iff ho).mpr hm, he, ho, ha, hdue⟩
  unfold DelayedAfterChange RequestsSoonAfterChange
  rw [hout]
  constructor
  · rintro h ⟨hrecent, hreq⟩
    exact h hreq hrecent
  · intro h hreq hrecent
    exact h ⟨hrecent, hreq⟩

/-- RC control from the start; the pilot gives control to DDS at 0.65 s and the tick at 0.7 s
    requests offboard mode. -/
def requestAtChangeEvents : List Event :=
  [.hummingbirdStatus 0 ⟨hbCmdSourceRc⟩,
    .vehicleStatus 0 ⟨navigationStatePosctl, armingStateArmed⟩,
    tickAt 600000000,
    .hummingbirdStatus 650000000 ⟨hbCmdSourceDds⟩,
    tickAt 700000000]

theorem requestAtChangeEvents_timed : node.Timed 0 requestAtChangeEvents := by
  simp [requestAtChangeEvents, tickAt, clockAt, Machine.Timed, node, Event.enter, Event.leave]

theorem delayedAfterChange_iff_requestAtChange :
    OnTicks DelayedAfterChange (node.trace (construct {} 0) requestAtChangeEvents []) ↔
      OnTicks (fun c k past => ¬ RequestsSoonAfterChange {} 0 c k past)
        (node.trace (construct {} 0) requestAtChangeEvents []) := by
  obtain ⟨s, t, hr⟩ :=
    Machine.run_trace (construct {} 0) 0 requestAtChangeEvents requestAtChangeEvents_timed
  exact delayedAfterChange_iff hr

theorem delayedAfterChange_fails :
    ¬ ∀ (p : Parameters) (t₀ t : Time) (h : History) (s : Px4PositionCommand),
      IsRun p t₀ h s t → OnTicks DelayedAfterChange h := by
  intro hall
  obtain ⟨s, t, hr⟩ :=
    Machine.run_trace (construct {} 0) 0 requestAtChangeEvents requestAtChangeEvents_timed
  have hnew := (hall {} 0 t _ s hr).newest rfl
  refine hnew ((onTick_branch _ _).offboardCommand_iff.mpr
    ⟨by decide +kernel, by decide +kernel, by decide +kernel, by decide +kernel,
      by decide +kernel, by decide +kernel, by decide +kernel⟩) ?_
  -- the change is at this very tick: the tick before it saw RC control
  refine .here ⟨⟨clockAt 700000000, rfl, ⟨_, _, rfl, by decide +kernel, rfl⟩, ?_⟩, ?_⟩
  · rintro ⟨c, -, t', m, hm, -, hsource⟩
    obtain ⟨-, rfl⟩ := Prod.mk.inj (Option.some.inj hm)
    exact absurd hsource (by decide)
  · decide +kernel

end Px4PositionCommand

end Hummingbird
