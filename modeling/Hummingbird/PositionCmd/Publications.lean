/-
  What a tick of `Px4PositionCommand` publishes.

  Without DDS control a tick is silent, except for the one POSCTL request at the edge where
  control ends (`TickBranch.out_of_released`). With DDS control it publishes the heartbeat and
  at most one message after it (`TickBranch.out_of_enabled`), and with a stale
  `VehicleStatus` nothing after it (`TickBranch.statusStale_inv`). `tick_publications` states
  this for every tick of every run, in terms of what the history says.
-/
import Hummingbird.PositionCmd.Run

namespace Hummingbird

namespace Px4PositionCommand

open Publication

/-! ## One tick -/

section Branch

variable {s s' : Px4PositionCommand} {c : TickClock} {out : List Publication}

/-- The node publishes setpoints in these two modes. -/
def Publishing (m : ControlMode) : Prop := m = .pathActive ∨ m = .rc2ddsHandoff

instance : DecidablePred Publishing := fun m =>
  inferInstanceAs (Decidable (m = .pathActive ∨ m = .rc2ddsHandoff))

theorem TickBranch.out_of_released (hb : TickBranch s c s' out)
    (hd : s.ddsControlEnabled c.now = false) :
    (s.previousDdsControlEnabled = true ∧ Publishing s.controlMode ∧
        out = [.vehicleCommand (posctlCommand c.timestampUs)] ∧
        s'.controlMode = .waitOffboard) ∨
      (¬ (s.previousDdsControlEnabled = true ∧ Publishing s.controlMode) ∧ out = [] ∧
        s'.controlMode = s.controlMode) := by
  cases hb with
  | takeover _ hp hm => exact Or.inl ⟨hp, hm, rfl, rfl⟩
  | released _ hn => exact Or.inr ⟨hn, rfl, rfl⟩
  | _ => simp_all

/-- With DDS control the heartbeat comes first, and at most one setpoint or request, never
    the POSCTL request, comes after it. -/
theorem TickBranch.out_of_enabled (hb : TickBranch s c s' out)
    (hd : s.ddsControlEnabled c.now = true) :
    out = [heartbeat c] ∨ ∃ m, out = [heartbeat c, m] ∧
      (m.IsTrajectorySetpoint ∨ m.IsVehicleCommand ∧ ¬ m.IsPosctlCommand) := by
  have hoffboard : ∀ ts, ¬ (Publication.vehicleCommand (offboardCommand ts)).IsPosctlCommand := by
    rintro ts ⟨-, h⟩
    revert h
    simp [offboardCommand, vehicleCommand]
  have harm : ∀ ts, ¬ (Publication.vehicleCommand (armCommand ts)).IsPosctlCommand := by
    rintro ts ⟨h, -⟩
    exact vehicleCmdDoSetMode_ne h.symm
  cases hb with
  | takeover hd' => simp [hd] at hd'
  | released hd' => simp [hd] at hd'
  | statusStale => exact Or.inl rfl
  | waitOffboard => exact Or.inl rfl
  | waitArm => exact Or.inl rfl
  | startHandoff => exact Or.inl rfl
  | offboardRequest => exact Or.inr ⟨_, rfl, Or.inr ⟨trivial, hoffboard _⟩⟩
  | armRequest => exact Or.inr ⟨_, rfl, Or.inr ⟨trivial, harm _⟩⟩
  | path => exact Or.inr ⟨_, rfl, Or.inl trivial⟩
  | handoff => exact Or.inr ⟨_, rfl, Or.inl trivial⟩
  | handoffReached => exact Or.inr ⟨_, rfl, Or.inl trivial⟩

end Branch

/-! ## Every tick of a run -/

/-- What a tick without DDS control publishes: nothing, or one POSCTL request. -/
structure PublishesTakeoverOnly (past : History) (k : Entry) : Prop where
  posctl : ∀ m ∈ k.out, m.IsPosctlCommand
  nothingElse : ∀ m ∈ k.out, ¬ m.IsOffboardControlMode ∧ ¬ m.IsTrajectorySetpoint ∧
    ¬ m.IsOffboardCommand ∧ ¬ m.IsArmCommand
  atMostOne : k.out.length ≤ 1
  atEdge : k.out ≠ [] ↔ DdsTick (lastTick past) ∧
    (k.pre.controlMode = .pathActive ∨ k.pre.controlMode = .rc2ddsHandoff)
  modeAfter : k.out ≠ [] → k.post.controlMode = .waitOffboard

/-- How the publications of one tick go together. -/
structure PublishesInOrder (k : Entry) : Prop where
  heartbeatFirst : ∀ a m b, k.out = a ++ .trajectorySetpoint m :: b →
    ∃ x ∈ a, x.IsOffboardControlMode
  atMostOneSetpoint : k.out.Pairwise fun m m' =>
    ¬ (m.IsTrajectorySetpoint ∧ m'.IsTrajectorySetpoint)
  setpointOrCommand : ¬ ((∃ m ∈ k.out, m.IsTrajectorySetpoint) ∧ ∃ m ∈ k.out, m.IsVehicleCommand)
  posctlAlone : ¬ ((∃ m ∈ k.out, m.IsPosctlCommand) ∧ ∃ m ∈ k.out, m.IsOffboardControlMode)
  atMostOneCommand : k.out.Pairwise fun m m' => ¬ (m.IsVehicleCommand ∧ m'.IsVehicleCommand)

def PublishesSetpoint (k : Entry) : Prop := ∃ m ∈ k.out, m.IsTrajectorySetpoint

def PublishesArmCommand (k : Entry) : Prop := ∃ m ∈ k.out, m.IsArmCommand

def PublishesPosctlCommand (k : Entry) : Prop := ∃ m ∈ k.out, m.IsPosctlCommand

theorem isPosctlCommand_posctlCommand (timestampUs : UInt64) :
    (Publication.vehicleCommand (posctlCommand timestampUs)).IsPosctlCommand := ⟨rfl, rfl⟩

theorem not_isOffboardCommand_posctlCommand (timestampUs : UInt64) :
    ¬ (Publication.vehicleCommand (posctlCommand timestampUs)).IsOffboardCommand := by
  rintro ⟨-, h⟩
  revert h
  simp [posctlCommand, vehicleCommand]

theorem publishesTakeoverOnly_of_nil {past : History} {k : Entry} (hout : k.out = [])
    (hn : ¬ (DdsTick (lastTick past) ∧ Publishing k.pre.controlMode)) :
    PublishesTakeoverOnly past k where
  posctl := by simp [hout]
  nothingElse := by simp [hout]
  atMostOne := by simp [hout]
  atEdge := ⟨fun h => absurd hout h, fun h => absurd h hn⟩
  modeAfter := fun h => absurd hout h

theorem publishesTakeoverOnly_of_posctl {past : History} {k : Entry} {timestampUs : UInt64}
    (hout : k.out = [.vehicleCommand (posctlCommand timestampUs)])
    (he : DdsTick (lastTick past) ∧ Publishing k.pre.controlMode)
    (hm : k.post.controlMode = .waitOffboard) : PublishesTakeoverOnly past k where
  posctl := by
    intro m hm
    rw [hout, List.mem_singleton] at hm
    exact hm ▸ isPosctlCommand_posctlCommand _
  nothingElse := by
    intro m hm
    rw [hout, List.mem_singleton] at hm
    subst hm
    refine ⟨id, id, not_isOffboardCommand_posctlCommand _, ?_⟩
    exact vehicleCmdDoSetMode_ne
  atMostOne := by simp [hout]
  atEdge := ⟨fun _ => he, fun _ => by simp [hout]⟩
  modeAfter := fun _ => hm

theorem publishesInOrder_of_nil {k : Entry} (hout : k.out = []) : PublishesInOrder k where
  heartbeatFirst := by simp [hout]
  atMostOneSetpoint := by simp [hout]
  setpointOrCommand := by simp [hout]
  posctlAlone := by simp [hout]
  atMostOneCommand := by simp [hout]

theorem publishesInOrder_of_posctl {k : Entry} {timestampUs : UInt64}
    (hout : k.out = [.vehicleCommand (posctlCommand timestampUs)]) : PublishesInOrder k where
  heartbeatFirst := by
    intro a m b h
    rw [hout] at h
    cases a with
    | nil => simp at h
    | cons x a => simp at h
  atMostOneSetpoint := by simp [hout]
  setpointOrCommand := by simp [hout, IsTrajectorySetpoint]
  posctlAlone := by simp [hout, IsOffboardControlMode]
  atMostOneCommand := by simp [hout]

theorem publishesInOrder_of_heartbeat {k : Entry} {c : TickClock} (hout : k.out = [heartbeat c]) :
    PublishesInOrder k where
  heartbeatFirst := by
    intro a m b h
    rw [hout] at h
    cases a with
    | nil => simp [heartbeat] at h
    | cons x a => simp at h
  atMostOneSetpoint := by simp [hout]
  setpointOrCommand := by simp [hout, heartbeat, IsTrajectorySetpoint]
  posctlAlone := by simp [hout, heartbeat, IsPosctlCommand, IsSetMode]
  atMostOneCommand := by simp [hout]

theorem publishesInOrder_of_pair {k : Entry} {c : TickClock} {m : Publication}
    (hout : k.out = [heartbeat c, m])
    (hm : m.IsTrajectorySetpoint ∨ m.IsVehicleCommand ∧ ¬ m.IsPosctlCommand) :
    PublishesInOrder k := by
  have hfirst : ∀ a m' b, k.out = a ++ .trajectorySetpoint m' :: b →
      ∃ x ∈ a, x.IsOffboardControlMode := by
    intro a m' b h
    rw [hout] at h
    cases a with
    | nil => simp [heartbeat] at h
    | cons x a =>
      obtain ⟨rfl, -⟩ := List.cons.inj h
      exact ⟨_, List.mem_cons_self, trivial⟩
  cases m with
  | offboardControlMode m => exact absurd hm (by simp [IsTrajectorySetpoint, IsVehicleCommand])
  | trajectorySetpoint m =>
    constructor
    · exact hfirst
    all_goals simp [hout, heartbeat, IsTrajectorySetpoint, IsVehicleCommand, IsPosctlCommand,
      IsSetMode]
  | vehicleCommand m =>
    have hposctl : ¬ (Publication.vehicleCommand m).IsPosctlCommand := by
      rcases hm with hm | hm
      · exact absurd hm id
      · exact hm.2
    constructor
    · exact hfirst
    · simp [hout, heartbeat, IsTrajectorySetpoint]
    · simp [hout, heartbeat, IsTrajectorySetpoint]
    · rintro ⟨⟨x, hx, hp⟩, -⟩
      rw [hout] at hx
      rcases List.mem_pair.mp hx with rfl | rfl
      · exact hp
      · exact hposctl hp
    · simp [hout, heartbeat, IsVehicleCommand]

/-- What a tick publishes, by what the history before it says. -/
def PublishesAsSeen (c : TickClock) (k : Entry) (past : History) : Prop :=
  (¬ DdsControl past c.now → PublishesTakeoverOnly past k) ∧
  (DdsControl past c.now → ¬ StatusFresh past c.now → ∃ m, k.out = [.offboardControlMode m]) ∧
  PublishesInOrder k

/-- Every tick of every run publishes as the history before it says. -/
theorem tick_publications {p : Parameters} {t₀ t : Time} {h : History} {s : Px4PositionCommand}
    (hr : IsRun p t₀ h s t) : OnTicks PublishesAsSeen h := by
  refine hr.onTicks ?_
  intro past s t c hr _ hb
  have hs := IsRun.reflects hr
  have hprev := IsRun.previousDdsControlEnabled_iff hr
  unfold PublishesAsSeen
  rw [← hs.ddsControlEnabled_iff, ← hs.vehicleStatusFresh_iff]
  cases hd : s.ddsControlEnabled c.now with
  | false =>
    rcases hb.out_of_released hd with ⟨hp, hm, hout, hafter⟩ | ⟨hn, hout, -⟩
    · refine ⟨fun _ => ?_, fun h => absurd h (by simp), publishesInOrder_of_posctl hout⟩
      exact publishesTakeoverOnly_of_posctl hout ⟨hprev.mp hp, hm⟩ hafter
    · refine ⟨fun _ => ?_, fun h => absurd h (by simp), publishesInOrder_of_nil hout⟩
      exact publishesTakeoverOnly_of_nil hout fun he => hn ⟨hprev.mpr he.1, he.2⟩
  | true =>
    refine ⟨fun h => absurd rfl h, fun _ hstale => ?_, ?_⟩
    · exact ⟨_, (hb.statusStale_inv hd (by simpa using hstale)).2⟩
    · rcases hb.out_of_enabled hd with hout | ⟨m, hout, hm⟩
      · exact publishesInOrder_of_heartbeat hout
      · exact publishesInOrder_of_pair hout hm

/-! ## A takeover -/

/-- Clocks that all read `now`. -/
def clockAt (now : Time) : TickClock := ⟨now, now, now⟩

def tickAt (now : Time) : Event := .tick (clockAt now)

/-- DDS control with the vehicle in offboard mode; a handoff starts at 0.6 s, the pilot takes
    over at 0.65 s. -/
def takeoverEvents : List Event :=
  [.hummingbirdStatus 0 ⟨hbCmdSourceDds⟩,
    .vehicleStatus 0 ⟨navigationStateOffboard, armingStateArmed⟩,
    tickAt 600000000,
    .hummingbirdStatus 650000000 ⟨hbCmdSourceRc⟩,
    tickAt 700000000]

theorem takeoverEvents_timed : node.Timed 0 takeoverEvents := by
  simp [takeoverEvents, tickAt, clockAt, Machine.Timed, node, Event.enter, Event.leave]

theorem tick_publications_takeover :
    OnTicks PublishesAsSeen (node.trace (construct {} 0) takeoverEvents []) := by
  obtain ⟨s, t, hr⟩ := Machine.run_trace (construct {} 0) 0 takeoverEvents takeoverEvents_timed
  exact tick_publications hr

end Px4PositionCommand

end Hummingbird
