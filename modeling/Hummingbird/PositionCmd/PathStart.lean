/-
  How a run of `Px4PositionCommand` gets to follow a path.

  `path_active` is entered by the handoff tick that finds the initial pose reached, and left
  by the first tick without DDS control, a fresh status or the active control state.
  `IsRun.pathActive_since` finds that handoff tick in the history of every run that is in
  `path_active`, `IsRun.handoff_since` the start of the handoff before it, and
  `path_from_initialPose` puts them together for every path setpoint that is published.
-/
import Hummingbird.PositionCmd.Modes

namespace Hummingbird

namespace Px4PositionCommand

open WithNaN

/-- `trajectory_time_sec` of a path tick. -/
def trajectoryTimeSec (s : Px4PositionCommand) (c : TickClock) : ℚ :=
  s.elapsedSec c - s.trajectoryStartTimeSec

/-- `pos_x`, `pos_y`, `pos_z` are the initial pose. -/
structure AtInitialPosition (s : Px4PositionCommand) : Prop where
  x : s.posX = num initialPoseXM
  y : s.posY = num initialPoseYM
  z : s.posZ = num initialPoseZM

/-- The step keeps the node in `path_active` on the trajectory that began at `startSec`; if it
    is a tick, it has DDS control and a fresh status in the active control state. -/
structure StaysOnPath (p : Parameters) (startSec : ℚ) (k : Entry) (past : History) : Prop where
  before : k.pre.controlMode = .pathActive
  after : k.post.controlMode = .pathActive
  start : k.pre.trajectoryStartTimeSec = startSec
  tick : ∀ c, k.event = .tick c →
    DdsControl past c.now ∧ StatusFresh past c.now ∧ ActiveReported p past

/-- The step is the handoff tick, at the elapsed time `startSec`, in which
    `initial_pose_reached` returned true. -/
def EndsHandoffAt (t₀ : Time) (startSec : ℚ) (k : Entry) : Prop :=
  ∃ c, k.event = .tick c ∧ k.pre.controlMode = .rc2ddsHandoff ∧ PublishesSetpoint k ∧
    k.pre.initialPoseReached k.pre.handoffTarget c.later = true ∧ secs (c.now - t₀) = startSec

def StaysInHandoff (k : Entry) : Prop :=
  k.pre.controlMode = .rc2ddsHandoff ∧ k.post.controlMode = .rc2ddsHandoff

/-- A tick leaves the node in `path_active` in one of two ways. -/
theorem TickBranch.pathActive_cases {s s' : Px4PositionCommand} {c : TickClock}
    {out : List Publication} (hb : TickBranch s c s' out)
    (hp : Publishing s.controlMode → s.previousDdsControlEnabled = true)
    (hm : s'.controlMode = .pathActive) :
    s.ddsControlEnabled c.now = true ∧ s.vehicleStatusFresh c.now = true ∧
      ((s.controlMode = .pathActive ∧ s.activeState = true ∧
          s'.trajectoryStartTimeSec = s.trajectoryStartTimeSec ∧ s'.posX = s.posX ∧
          s'.posY = s.posY ∧ s'.posZ = s.posZ) ∨
        (s.controlMode = .rc2ddsHandoff ∧
          s.initialPoseReached s.handoffTarget c.later = true ∧
          s'.trajectoryStartTimeSec = s.elapsedSec c ∧ AtInitialPosition s')) := by
  cases hb with
  | path hd hs hm' ha => exact ⟨hd, hs, Or.inl ⟨hm', ha, rfl, rfl, rfl, rfl⟩⟩
  | handoffReached hd hs hm' hp' => exact ⟨hd, hs, Or.inr ⟨hm', hp', rfl, rfl, rfl, rfl⟩⟩
  | released hd hn => exact absurd ⟨hp (Or.inl hm), Or.inl hm⟩ hn
  | statusStale hd hs =>
    by_cases hpath : s.controlMode = .pathActive
    · simp [hpath] at hm
    · simp [hpath] at hm
  | handoff hd hs hm' => simp [hm'] at hm
  | _ => simp [startRc2ddsHandoff] at hm

section Runs

variable {p : Parameters} {t₀ t : Time} {h : History} {s : Px4PositionCommand}

/-- A run that is in the handoff has started it and stayed in it. -/
theorem IsRun.handoff_since (hr : IsRun p t₀ h s t) (hm : s.controlMode = .rc2ddsHandoff) :
    Past.Since (Past.Newest StaysInHandoff) (Past.Newest StartedHandoff) h := by
  have h0 : ¬ (construct p t₀).controlMode = .rc2ddsHandoff := by simp [construct]
  exact Machine.Run.since_entered (A := fun s => s.controlMode = .rc2ddsHandoff) hr h0 hm

/-- A run that is in `path_active` has entered it at the end of a handoff, at its trajectory
    start, and stayed on the path since. -/
theorem IsRun.pathActive_since (hr : IsRun p t₀ h s t) :
    s.controlMode = .pathActive → AtInitialPosition s ∧
      Past.Since (Past.At (StaysOnPath p s.trajectoryStartTimeSec))
        (Past.At fun k b => EndsHandoffAt t₀ s.trajectoryStartTimeSec k ∧
          Past.Since (Past.Newest StaysInHandoff) (Past.Newest StartedHandoff) b) h := by
  refine Machine.Run.invariant (P := fun h s _ => s.controlMode = .pathActive →
    AtInitialPosition s ∧
      Past.Since (Past.At (StaysOnPath p s.trajectoryStartTimeSec))
        (Past.At fun k b => EndsHandoffAt t₀ s.trajectoryStartTimeSec k ∧
          Past.Since (Past.Newest StaysInHandoff) (Past.Newest StartedHandoff) b) h) hr ?_ ?_
  · intro hm
    simp [construct] at hm
  · intro h s t e hr ih _ _ hm
    have hs := IsRun.reflects hr
    cases e with
    | tick c =>
      have hb := onTick_branch s c
      obtain ⟨hd, hf, hcase⟩ := hb.pathActive_cases (IsRun.previousDds_of_publishing hr) hm
      rcases hcase with ⟨hpath, ha, hstart, hx, hy, hz⟩ | ⟨hhand, hreached, hstart, hpos⟩
      · obtain ⟨hpos, hsince⟩ := ih hpath
        refine ⟨⟨hx.trans hpos.x, hy.trans hpos.y, hz.trans hpos.z⟩, ?_⟩
        show Past.Since (Past.At (StaysOnPath p (s.onTick c).1.trajectoryStartTimeSec)) _ _
        rw [show (node.step s (.tick c)).1 = (s.onTick c).1 from rfl, hstart]
        refine .later ⟨hpath, hm, rfl, ?_⟩ hsince
        intro c' hc
        obtain rfl := Event.tick.inj hc
        exact ⟨(hs.ddsControlEnabled_iff _).mp hd, (hs.vehicleStatusFresh_iff _).mp hf,
          hs.activeState_iff.mp ha⟩
      · refine ⟨hpos, .here ⟨⟨c, rfl, hhand, ?_, hreached, ?_⟩, IsRun.handoff_since hr hhand⟩⟩
        · exact hb.setpoint_iff.mpr
            ⟨hd, hf, Or.inr (dispatchMode_eq_rc2ddsHandoff_iff.mpr hhand)⟩
        · exact (hs.elapsedSec_eq c).symm.trans hstart.symm
    | _ =>
      obtain ⟨hpos, hsince⟩ := ih hm
      refine ⟨⟨hpos.x, hpos.y, hpos.z⟩, .later ⟨hm, hm, rfl, ?_⟩ hsince⟩
      rintro c ⟨⟩

end Runs

/-- The path setpoint of the tick `k` comes from a verified initial pose: the past splits into
    the start `kₛ` of a handoff, the handoff up to its end `k₀`, and the path since. -/
def FromInitialPose (p : Parameters) (t₀ : Time) (k : Entry) (past : History) : Prop :=
  AtInitialPosition k.pre ∧
  ∃ a k₀ b₁ kₛ b₂, past = a ++ k₀ :: (b₁ ++ kₛ :: b₂) ∧
    EndsHandoffAt t₀ k.pre.trajectoryStartTimeSec k₀ ∧
    StartedHandoff kₛ ∧ (∀ k' ∈ b₁, StaysInHandoff k') ∧
    (∀ a₁ k' a₂, k :: a = a₁ ++ k' :: a₂ →
      StaysOnPath p k.pre.trajectoryStartTimeSec k' (a₂ ++ k₀ :: (b₁ ++ kₛ :: b₂))) ∧
    (∀ k' ∈ k :: a, ∀ c', k'.event = .tick c' → 0 ≤ k'.pre.trajectoryTimeSec c') ∧
    (k :: a).Pairwise fun k₂ k₁ => ∀ c₂ c₁, k₂.event = .tick c₂ → k₁.event = .tick c₁ →
      k₁.pre.trajectoryTimeSec c₁ ≤ k₂.pre.trajectoryTimeSec c₂

theorem StaysOnPath.trajectoryTimeSec_eq {p : Parameters} {t₀ : Time} {startSec : ℚ}
    {k : Entry} {past g : History} (hk : StaysOnPath p startSec k past)
    (hs : Reflects p t₀ g k.pre) (c : TickClock) :
    k.pre.trajectoryTimeSec c = secs (c.now - t₀) - startSec := by
  rw [trajectoryTimeSec, hs.elapsedSec_eq, hk.start]

/-- Every path setpoint that is published comes from a verified initial pose. -/
theorem path_from_initialPose {p : Parameters} {t₀ t : Time} {h : History}
    {s : Px4PositionCommand} (hr : IsRun p t₀ h s t) :
    OnTicks (fun _ k past => PublishesSetpoint k → k.pre.dispatchMode = .pathActive →
      FromInitialPose p t₀ k past) h := by
  refine hr.onTicks ?_
  intro past s t c hr hrun hb hset hdm
  obtain ⟨hd, hf, -⟩ := hb.setpoint_iff.mp hset
  obtain ⟨hm, ha⟩ := dispatchMode_eq_pathActive_iff.mp hdm
  have hinv := (hb.path_inv hd hf hm ha).1
  have hm' : (s.onTick c).1.controlMode = .pathActive := by
    rw [hinv]
    exact hm
  have hstart : (s.onTick c).1.trajectoryStartTimeSec = s.trajectoryStartTimeSec := by
    rw [hinv]
  have hsince := (IsRun.pathActive_since hrun hm').2
  rw [hstart] at hsince
  obtain ⟨a', k₀, b, heq, ⟨hend, hhand⟩, hpath⟩ := Past.since_at_iff.mp hsince
  obtain ⟨b₁, kₛ, b₂, rfl, hstarted, hstay⟩ := Past.since_newest_iff.mp hhand
  cases a' with
  | nil =>
    obtain ⟨rfl, -⟩ := List.cons.inj heq
    obtain ⟨c₀, -, hhandoff, -⟩ := hend
    exact absurd (hm.symm.trans hhandoff) (by decide)
  | cons k' a =>
    obtain ⟨rfl, hpast⟩ := List.cons.inj heq
    obtain rfl : past = a ++ k₀ :: (b₁ ++ kₛ :: b₂) := hpast
    have htime : ∀ k' ∈ node.record s (.tick c) :: a, ∀ c', k'.event = .tick c' →
        k'.pre.trajectoryTimeSec c' = secs (c'.now - t₀) - s.trajectoryStartTimeSec := by
      intro k' hk' c' _
      obtain ⟨a₁, a₂, ha⟩ := List.append_of_mem hk'
      obtain ⟨g, hg⟩ := IsRun.reflects_of_mem hrun (k := k')
        (by rw [← List.cons_append]; exact List.mem_append_left _ hk')
      exact (hpath a₁ k' a₂ ha).trajectoryTimeSec_eq hg c'
    have hordered := Machine.Run.enter_ordered hrun
    rw [← List.cons_append, List.pairwise_append] at hordered
    refine ⟨(IsRun.pathActive_since hr hm).1, a, k₀, b₁, kₛ, b₂, rfl, hend, hstarted, hstay,
      hpath, ?_, ?_⟩
    · intro k' hk' c' hc'
      obtain ⟨c₀, hc₀, -, -, -, hsec⟩ := hend
      have hnow : c₀.now ≤ c'.now := by
        have hle := hordered.2.2 k' hk' k₀ List.mem_cons_self
        rw [hc₀, hc'] at hle
        exact hle
      rw [htime k' hk' c' hc', ← hsec, sub_nonneg]
      exact secs_mono (sub_le_sub_right hnow t₀)
    · refine hordered.1.imp_of_mem ?_
      intro k₂ k₁ hk₂ hk₁ hle c₂ c₁ hc₂ hc₁
      have hnow : c₁.now ≤ c₂.now := by
        rw [hc₁, hc₂] at hle
        exact hle
      rw [htime k₁ hk₁ c₁ hc₁, htime k₂ hk₂ c₂ hc₂]
      exact sub_le_sub_right (secs_mono (sub_le_sub_right hnow t₀)) _

/-- A hovering vehicle reaches the path at 0.7 s and follows it from 0.8 s. -/
noncomputable def pathEvents : List Event :=
  [.hummingbirdStatus 0 ⟨hbCmdSourceDds⟩,
    .vehicleLocalPosition 0
      ⟨true, true, num initialPoseXM, num initialPoseYM, num initialPoseZM, num 0⟩,
    .vehicleAttitude 0 ⟨⟨num 1, num 0, num 0, num 0⟩⟩,
    .vehicleStatus 0 ⟨navigationStateOffboard, armingStateArmed⟩,
    tickAt 600000000,
    tickAt 700000000,
    tickAt 800000000]

theorem pathEvents_timed : node.Timed 0 pathEvents := by
  simp [pathEvents, tickAt, clockAt, Machine.Timed, node, Event.enter, Event.leave]

theorem path_from_initialPose_hovering :
    OnTicks (fun _ k past => PublishesSetpoint k → k.pre.dispatchMode = .pathActive →
      FromInitialPose {} 0 k past) (node.trace (construct {} 0) pathEvents []) := by
  obtain ⟨s, t, hr⟩ := Machine.run_trace (construct {} 0) 0 pathEvents pathEvents_timed
  exact path_from_initialPose hr

end Px4PositionCommand

end Hummingbird
