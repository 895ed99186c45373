/-
  The request to leave offboard mode when the pilot takes over.

  A tick at which DDS control ends requests POSCTL only if `control_mode_` is then still one
  of the two modes that publish setpoints. After setpoints have gone out, a stale status or
  the loss of offboard mode or of arming moves `path_active` to a waiting mode without a
  request, and the request is then missing at the takeover. `requestsPosctl_iff` says that
  this is the only way for it to be missing; `requestsPosctl_fails` is such a run.
-/
import Hummingbird.PositionCmd.Modes

namespace Hummingbird

namespace Px4PositionCommand

/-- If the newest entry is a tick, it has DDS control. -/
def KeepsDdsControl : History → Prop
  | [] => True
  | k :: past => ∀ c, k.event = .tick c → DdsControl past c.now

/-- DDS control ends at a tick with this past: the tick before it had it, this one has not. -/
def DdsControlEnds (c : TickClock) (past : History) : Prop :=
  DdsTick (lastTick past) ∧ ¬ DdsControl past c.now

/-- A setpoint has been published since DDS control was last enabled. -/
def SetpointUnderDdsControl (past : History) : Prop :=
  Past.Since KeepsDdsControl (Past.Newest PublishesSetpoint) past

/-- At the end of DDS control, after setpoints, with the vehicle last reported in offboard
    mode. -/
def TakenOverInOffboard (c : TickClock) (past : History) : Prop :=
  DdsControlEnds c past ∧ SetpointUnderDdsControl past ∧ OffboardReported past

def RequestsPosctl (c : TickClock) (k : Entry) (past : History) : Prop :=
  TakenOverInOffboard c past → PublishesPosctlCommand k

/-- Nothing has interrupted the handoff that the node last started, nor the path after it. -/
def NotInterrupted (p : Parameters) (past : History) : Prop :=
  Past.Since (fun g => ¬ Interrupts p g) (Past.Newest StartedHandoff) past

/-- At the end of DDS control the request goes out exactly in the publishing modes. -/
theorem TickBranch.posctl_iff {s s' : Px4PositionCommand} {c : TickClock}
    {out : List Publication} (hb : TickBranch s c s' out)
    (hd : s.ddsControlEnabled c.now = false) (hp : s.previousDdsControlEnabled = true) :
    (∃ m ∈ out, m.IsPosctlCommand) ↔ Publishing s.controlMode := by
  rcases hb.out_of_released hd with ⟨-, hm, hout, -⟩ | ⟨hn, hout, -⟩
  · rw [hout]
    exact iff_of_true ⟨_, List.mem_singleton_self _, isPosctlCommand_posctlCommand _⟩ hm
  · rw [hout]
    refine iff_of_false ?_ fun hm => hn ⟨hp, hm⟩
    rintro ⟨m, hm, -⟩
    exact List.not_mem_nil hm

/-- The request is missing at a takeover exactly when the publishing modes had been left
    before it. -/
theorem requestsPosctl_iff {p : Parameters} {t₀ t : Time} {h : History}
    {s : Px4PositionCommand} (hr : IsRun p t₀ h s t) :
    OnTicks RequestsPosctl h ↔
      OnTicks (fun c _ past => TakenOverInOffboard c past → NotInterrupted p past) h := by
  refine onTicks_congr (hr.onTicks ?_)
  intro past s t c hr _ hb
  have hs := IsRun.reflects hr
  refine imp_congr_right fun hover => ?_
  have hd : s.ddsControlEnabled c.now = false := by
    have hnot := hover.1.2
    rw [← hs.ddsControlEnabled_iff] at hnot
    simpa using hnot
  have hp := (IsRun.previousDdsControlEnabled_iff hr).mpr hover.1.1
  calc PublishesPosctlCommand (node.record s (.tick c))
      ↔ Publishing s.controlMode := hb.posctl_iff hd hp
    _ ↔ NotInterrupted p past := IsRun.publishing_iff hr

/-- A hovering vehicle reaches the path at 0.7 s. `VehicleStatus` then goes stale, the tick at
    1.6 s falls back to `wait_offboard`, and the pilot takes over at 1.65 s. -/
noncomputable def staleStatusEvents : List Event :=
  [.hummingbirdStatus 0 ⟨hbCmdSourceDds⟩,
    .vehicleLocalPosition 0
      ⟨true, true, .num initialPoseXM, .num initialPoseYM, .num initialPoseZM, .num 0⟩,
    .vehicleAttitude 0 ⟨⟨.num 1, .num 0, .num 0, .num 0⟩⟩,
    .vehicleStatus 0 ⟨navigationStateOffboard, armingStateArmed⟩,
    tickAt 600000000,
    tickAt 700000000,
    .hummingbirdStatus 1500000000 ⟨hbCmdSourceDds⟩,
    tickAt 1600000000,
    .hummingbirdStatus 1650000000 ⟨hbCmdSourceRc⟩,
    tickAt 1700000000]

theorem staleStatusEvents_timed : node.Timed 0 staleStatusEvents := by
  simp [staleStatusEvents, tickAt, clockAt, Machine.Timed, node, Event.enter, Event.leave]

theorem requestsPosctl_iff_staleStatus :
    OnTicks RequestsPosctl (node.trace (construct {} 0) staleStatusEvents []) ↔
      OnTicks (fun c _ past => TakenOverInOffboard c past → NotInterrupted {} past)
        (node.trace (construct {} 0) staleStatusEvents []) := by
  obtain ⟨s, t, hr⟩ :=
    Machine.run_trace (construct {} 0) 0 staleStatusEvents staleStatusEvents_timed
  exact requestsPosctl_iff hr

/-- The hovering vehicle under DDS control, before and after the tick with a stale status. -/
noncomputable def statusLost : Px4PositionCommand :=
  hoveringPath.controllerModeCallback 1500000000 ⟨hbCmdSourceDds⟩

noncomputable def fallenBack : Px4PositionCommand := (statusLost.onTick (clockAt 1600000000)).1

theorem fallenBack_controlMode : fallenBack.controlMode = .waitOffboard := by
  have hb := onTick_branch statusLost (clockAt 1600000000)
  have hd : statusLost.ddsControlEnabled 1600000000 = true := by decide +kernel
  have hs : statusLost.vehicleStatusFresh 1600000000 = false := by
    rw [statusLost, hoveringPath_eq, hoveringHandoff_eq]
    decide +kernel
  have hm : statusLost.controlMode = .pathActive := by
    rw [statusLost, hoveringPath_eq]
    rfl
  rw [fallenBack, (hb.statusStale_inv hd hs).1]
  exact if_pos hm

theorem hoveringHandoff_publishes :
    PublishesSetpoint (node.record hoveringHandoff (tickAt 700000000)) := by
  have hb := onTick_branch hoveringHandoff (clockAt 700000000)
  refine hb.setpoint_iff.mpr ⟨?_, ?_, Or.inr (dispatchMode_eq_rc2ddsHandoff_iff.mpr ?_)⟩
  · rw [hoveringHandoff_eq]
    decide +kernel
  · rw [hoveringHandoff_eq]
    decide +kernel
  · rw [hoveringHandoff_eq]
    rfl

theorem requestsPosctl_fails :
    ¬ ∀ (p : Parameters) (t₀ t : Time) (h : History) (s : Px4PositionCommand),
      IsRun p t₀ h s t → OnTicks RequestsPosctl h := by
  intro hall
  obtain ⟨s, t, hr⟩ :=
    Machine.run_trace (construct {} 0) 0 staleStatusEvents staleStatusEvents_timed
  have hnew := (hall {} 0 t _ s hr).newest rfl
  have hb := onTick_branch (fallenBack.controllerModeCallback 1650000000 ⟨hbCmdSourceRc⟩)
    (clockAt 1700000000)
  have hposctl := hnew ⟨⟨?_, ?_⟩, ?_, ?_⟩
  · have hm := (hb.posctl_iff (by decide +kernel) ?_).mp hposctl
    · have hwait : Publishing fallenBack.controlMode := hm
      rw [fallenBack_controlMode] at hwait
      exact not_publishing_waitOffboard hwait
    · have hd : statusLost.ddsControlEnabled 1600000000 = true := by decide +kernel
      exact (onTick_branch statusLost (clockAt 1600000000)).previousDdsControlEnabled.trans hd
  · exact ⟨_, rfl, 1500000000, ⟨hbCmdSourceDds⟩, rfl, by decide +kernel, rfl⟩
  · rintro ⟨t', m, hm, -, hsource⟩
    obtain ⟨-, rfl⟩ := Prod.mk.inj (Option.some.inj hm)
    exact absurd hsource (by decide)
  · refine .later ?_ (.later ?_ (.later ?_ (.here hoveringHandoff_publishes)))
    · rintro c ⟨⟩
    · rintro c ⟨⟩
      exact ⟨1500000000, ⟨hbCmdSourceDds⟩, rfl, by decide +kernel, rfl⟩
    · rintro c ⟨⟩
  · exact ⟨0, ⟨navigationStateOffboard, armingStateArmed⟩, rfl, rfl⟩

end Px4PositionCommand

end Hummingbird
