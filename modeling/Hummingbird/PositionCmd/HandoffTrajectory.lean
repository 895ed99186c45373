/-
  The setpoints between the start of a handoff and its end.

  A handoff tick runs the six filters once, towards the initial pose and the yaw that
  `unwrapNear` picks; every other step of a run in the handoff leaves the filters alone.
  `InHandoff start yaw n s` says that `s` is `n` handoff ticks into the handoff that started
  at `start`; `IsRun.inHandoff` proves it along the run. `handoff_trajectory` reads the
  published setpoints off it.
-/
import Hummingbird.PositionCmd.PathStart

namespace Hummingbird

namespace Px4PositionCommand

open WithNaN AddCommGroup

instance : DecidablePred PublishesSetpoint := fun k =>
  inferInstanceAs (Decidable (∃ m ∈ k.out, m.IsTrajectorySetpoint))

/-- The ticks of the history that published a setpoint. -/
def setpointTicks (h : History) : ℕ := h.countP fun k => PublishesSetpoint k

/-! ## One tick in the handoff -/

section Branch

variable {s s' : Px4PositionCommand} {c : TickClock} {out : List Publication}

/-- A tick that stays in the handoff runs the filters and publishes, or does neither. -/
theorem TickBranch.handoff_cases (hb : TickBranch s c s' out)
    (hm : s.controlMode = .rc2ddsHandoff) (hm' : s'.controlMode = .rc2ddsHandoff) :
    ((∃ m ∈ out, m.IsTrajectorySetpoint) ∧ s'.rc2ddsHandoffFilters = s.handoffFilters ∧
        s'.lastTarget = s.handoffFilters.output) ∨
      (¬ (∃ m ∈ out, m.IsTrajectorySetpoint) ∧
        s'.rc2ddsHandoffFilters = s.rc2ddsHandoffFilters ∧ s'.lastTarget = s.lastTarget) := by
  cases hb with
  | handoff =>
    exact Or.inl ⟨⟨_, List.mem_cons_of_mem _ (List.mem_singleton_self _), trivial⟩, rfl, rfl⟩
  | released => exact Or.inr ⟨by simp, rfl, rfl⟩
  | statusStale =>
    exact Or.inr ⟨by simp [heartbeat, Publication.IsTrajectorySetpoint], rfl, rfl⟩
  | startHandoff _ _ hreach => exact absurd hm hreach.controlMode_ne
  | path _ _ hpath => simp [hm] at hpath
  | _ => simp at hm'

/-- What a handoff tick publishes. -/
theorem TickBranch.handoff_out (hb : TickBranch s c s' out)
    (hm : s.controlMode = .rc2ddsHandoff) (hset : ∃ m ∈ out, m.IsTrajectorySetpoint) :
    out = [heartbeat c,
      .trajectorySetpoint (handoffSetpoint c.timestampUs s.handoffFilters.output)] := by
  obtain ⟨hd, hs, -⟩ := hb.setpoint_iff.mp hset
  have hdm := dispatchMode_eq_rc2ddsHandoff_iff.mpr hm
  have hreach : ¬ s.ReachesWaitArm c := fun h => h.controlMode_ne hm
  cases hb with
  | handoff => rfl
  | handoffReached => rfl
  | _ => simp_all

end Branch

/-! ## Along a run -/

section Runs

variable {p : Parameters} {t₀ t : Time} {h : History} {s : Px4PositionCommand}

/-- The filters keep the gains of their constructor. -/
theorem IsRun.tuned (hr : IsRun p t₀ h s t) : s.rc2ddsHandoffFilters.Tuned := by
  refine Machine.Run.invariant (P := fun _ s _ => s.rc2ddsHandoffFilters.Tuned) hr ?_ ?_
  · exact HandoffFilters.tuned_default
  · intro h s t e _ ih _ _
    cases e with
    | tick c =>
      have hb := onTick_branch s c
      show (s.onTick c).1.rc2ddsHandoffFilters.Tuned
      revert hb
      generalize (s.onTick c).1 = s'
      generalize (s.onTick c).2 = out
      intro hb
      cases hb with
      | startHandoff => exact (ih.reset _).tuned
      | handoff => exact (ih.step _).tuned
      | handoffReached => exact (ih.step _).tuned
      | _ => exact ih
    | _ => exact ih

/-- Induction over a run that has stayed in the handoff which `kₛ` started, for a property of the
    number of handoff ticks and the state. -/
theorem IsRun.handoff_induction {P : ℕ → Px4PositionCommand → Prop} {a b : History} {kₛ : Entry}
    {cₛ : TickClock} (hr : IsRun p t₀ (a ++ kₛ :: b) s t) (hcₛ : kₛ.event = .tick cₛ)
    (hstay : ∀ k ∈ a, StaysInHandoff k)
    (hbegin : ∀ s t, IsRun p t₀ b s t → kₛ = node.record s (.tick cₛ) → P 0 (s.onTick cₛ).1)
    (hstep : ∀ n (s : Px4PositionCommand) (e : Event), P n s → s.controlMode = .rc2ddsHandoff →
      (s.handle e).1.controlMode = .rc2ddsHandoff →
        P (n + if PublishesSetpoint (node.record s e) then 1 else 0) (s.handle e).1) :
    P (setpointTicks a) s := by
  induction a generalizing s t with
  | nil =>
    cases hr with
    | @handle _ s t e hr _ _ =>
      obtain rfl : e = .tick cₛ := hcₛ
      exact hbegin s t hr rfl
  | cons k a ih =>
    cases hr with
    | @handle _ s t e hr _ _ =>
      have hs := ih hr fun k hk => hstay k (List.mem_cons_of_mem _ hk)
      obtain ⟨hm, hm'⟩ := hstay _ List.mem_cons_self
      have hnext := hstep _ s e hs hm hm'
      rw [setpointTicks, List.countP_cons]
      simp only [decide_eq_true_eq]
      exact hnext

/-- The node is `n` handoff ticks into a handoff from `start` towards the yaw `yaw`. -/
structure InHandoff (start : TargetCMD ℝ) (yaw : ℝ) (n : ℕ) (s : Px4PositionCommand) :
    Prop where
  mode : s.controlMode = .rc2ddsHandoff
  ready : s.rc2ddsHandoffFilters.Ready
  output : s.rc2ddsHandoffFilters.output = (handoffCommand start yaw n).map num
  lastYaw : s.lastTarget.yaw = num (handoffValue yaw start.yaw n)

/-- The yaw target of a handoff that starts at the heading `start`. -/
structure IsYawTarget (yaw start : ℝ) : Prop where
  chosen : unwrapNear (num initialPoseYawRad) (num start) = num yaw
  congruent : yaw ≡ initialPoseYawRad [PMOD 2 * Real.pi]
  near : |yaw - start| ≤ Real.pi

theorem exists_isYawTarget (start : ℝ) : ∃ yaw, IsYawTarget yaw start := by
  obtain ⟨yaw, hyaw, hc, hle⟩ := unwrapNear_num initialPoseYawRad start
  exact ⟨yaw, hyaw, hc, hle⟩

variable {start : TargetCMD ℝ} {yaw : ℝ} {n : ℕ}

/-- Both `unwrapNear` calls of a handoff tick give the yaw target. -/
theorem InHandoff.handoffTarget_eq (hs : InHandoff start yaw n s)
    (hyaw : IsYawTarget yaw start.yaw) :
    s.handoffTarget = { initialPose with yaw := num yaw } := by
  have hnear := unwrapNear_handoffValue hyaw.chosen hyaw.congruent hyaw.near n
  rw [handoffTarget, hs.lastYaw]
  simp only [initialPose, hnear]

/-- A handoff tick takes the filters one value further. -/
theorem InHandoff.handoffFilters_output (hs : InHandoff start yaw n s)
    (hyaw : IsYawTarget yaw start.yaw) :
    s.handoffFilters.output = (handoffCommand start yaw (n + 1)).map num := by
  rw [handoffFilters, hs.handoffTarget_eq hyaw]
  exact hs.ready.step_output hyaw.near hs.output

/-- A step of a run that stays in the handoff. -/
theorem InHandoff.handle (hs : InHandoff start yaw n s) (hyaw : IsYawTarget yaw start.yaw)
    (e : Event) (hm' : (s.handle e).1.controlMode = .rc2ddsHandoff) :
    InHandoff start yaw (n + if PublishesSetpoint (node.record s e) then 1 else 0)
      (s.handle e).1 := by
  cases e with
  | tick c =>
    have hb := onTick_branch s c
    rcases hb.handoff_cases hs.mode hm' with ⟨hset, hfilters, hlast⟩ | ⟨hset, hfilters, hlast⟩
    · have hset : PublishesSetpoint (node.record s (.tick c)) := hset
      have hout := hs.handoffFilters_output hyaw
      rw [if_pos hset]
      refine ⟨hm', ?_, ?_, ?_⟩
      · show (s.onTick c).1.rc2ddsHandoffFilters.Ready
        rw [hfilters]
        exact hs.ready.tuned.step _
      · show (s.onTick c).1.rc2ddsHandoffFilters.output = _
        rw [hfilters, hout]
      · show (s.onTick c).1.lastTarget.yaw = _
        rw [hlast, hout]
        rfl
    · have hset : ¬ PublishesSetpoint (node.record s (.tick c)) := hset
      rw [if_neg hset]
      refine ⟨hm', ?_, ?_, ?_⟩
      · show (s.onTick c).1.rc2ddsHandoffFilters.Ready
        rw [hfilters]
        exact hs.ready
      · show (s.onTick c).1.rc2ddsHandoffFilters.output = _
        rw [hfilters]
        exact hs.output
      · show (s.onTick c).1.lastTarget.yaw = _
        rw [hlast]
        exact hs.lastYaw
  | _ => exact ⟨hs.mode, hs.ready, hs.output, hs.lastYaw⟩

/-- The start of a handoff. -/
theorem StartedHandoff.inHandoff {c : TickClock} (hr : IsRun p t₀ h s t)
    (hstart : StartedHandoff (node.record s (.tick c)))
    (hpose : s.handoffStart c.later = start.map num) :
    InHandoff start yaw 0 (s.onTick c).1 := by
  have hb := onTick_branch s c
  obtain ⟨hpost, -⟩ := hb.startHandoff_inv hstart.1 hstart.2
  have hpose' : handoffStart { s with previousDdsControlEnabled := true } c.later =
    start.map num := hpose
  rw [hpost]
  refine ⟨rfl, (IsRun.tuned hr).reset _, ?_, ?_⟩
  · simp only [startRc2ddsHandoff, hpose']
    simp [HandoffFilters.output, HandoffFilters.reset, handoffCommand, TargetCMD.map,
      TargetCMD.zero, zero_eq]
  · simp only [startRc2ddsHandoff, hpose']
    simp [TargetCMD.map]

/-- `n` handoff ticks after the start, along any run that has stayed in the handoff. -/
theorem IsRun.inHandoff {a b : History} {kₛ : Entry} {cₛ : TickClock}
    (hr : IsRun p t₀ (a ++ kₛ :: b) s t) (hstart : StartedHandoff kₛ)
    (hcₛ : kₛ.event = .tick cₛ) (hpose : kₛ.pre.handoffStart cₛ.later = start.map num)
    (hyaw : IsYawTarget yaw start.yaw) (hstay : ∀ k ∈ a, StaysInHandoff k) :
    InHandoff start yaw (setpointTicks a) s := by
  apply IsRun.handoff_induction hr hcₛ hstay
  · rintro s t hbefore rfl
    exact hstart.inHandoff hbefore hpose
  · intro n s e hs _ hm'
    exact hs.handle hyaw e hm'

end Runs

/-! ## The setpoints -/

/-- The entries of `a`, handled after a handoff started at `start`, command the trajectory
    towards `yaw`: the `n`-th handoff tick after the start takes `yaw` as its target in both
    `unwrapNear` calls and publishes the `n`-th command. -/
def FollowsHandoff (start : TargetCMD ℝ) (yaw : ℝ) (a : History) : Prop :=
  ∀ a₁ k a₂ c, a = a₁ ++ k :: a₂ → k.event = .tick c → (∀ k' ∈ a₂, StaysInHandoff k') →
    PublishesSetpoint k →
      unwrapNear initialPose.yaw k.pre.lastTarget.yaw = num yaw ∧
      unwrapNear (num yaw) k.pre.rc2ddsHandoffFilters.yaw.y = num yaw ∧
      k.out = [heartbeat c, .trajectorySetpoint (handoffSetpoint c.timestampUs
        ((handoffCommand start yaw (setpointTicks a₂ + 1)).map num))]

/-- The command has `fraction` of the start error left in position and yaw. -/
structure LeavesFraction (fraction : ℝ) (start : TargetCMD ℝ) (yaw : ℝ) (cmd : TargetCMD ℝ) :
    Prop where
  x : cmd.x - initialPoseXM = fraction * (start.x - initialPoseXM)
  y : cmd.y - initialPoseYM = fraction * (start.y - initialPoseYM)
  z : cmd.z - initialPoseZM = fraction * (start.z - initialPoseZM)
  yaw : cmd.yaw - yaw = fraction * (start.yaw - yaw)

/-- A handoff from `start` after whose start `a` was handled sweeps to the initial pose. -/
def SweepsToInitialPose (start : TargetCMD ℝ) (a : History) : Prop :=
  ∃ yaw : ℝ, yaw ≡ initialPoseYawRad [PMOD 2 * Real.pi] ∧ |yaw - start.yaw| ≤ Real.pi ∧
    FollowsHandoff start yaw a ∧
    (∀ m n, m ≤ n → (handoffCommand start yaw n).yaw ∈
      Set.uIcc yaw (handoffCommand start yaw m).yaw) ∧
    (∀ n, |(handoffCommand start yaw n).yaw - start.yaw| ≤ Real.pi) ∧
    ∀ n : ℕ, handoffRuntime * rateHz = n →
      LeavesFraction 0.01 start yaw (handoffCommand start yaw n)

/-- The trajectory of every handoff of every run, from any start pose. -/
theorem handoff_trajectory {p : Parameters} {t₀ t : Time} {a b : History} {kₛ : Entry}
    {cₛ : TickClock} {s : Px4PositionCommand} {start : TargetCMD ℝ}
    (hr : IsRun p t₀ (a ++ kₛ :: b) s t) (hstart : StartedHandoff kₛ)
    (hcₛ : kₛ.event = .tick cₛ) (hpose : kₛ.pre.handoffStart cₛ.later = start.map num) :
    SweepsToInitialPose start a := by
  obtain ⟨yaw, hyaw⟩ := exists_isYawTarget start.yaw
  refine ⟨yaw, hyaw.congruent, hyaw.near, ?_, fun m n h => handoffValue_mem_uIcc _ _ h,
    fun n => (abs_handoffValue_sub_start_le _ _ n).trans hyaw.near, fun n hn => ?_⟩
  · rintro a₁ k a₂ c rfl hc hstay hset
    rw [List.append_assoc] at hr
    obtain ⟨s', t', hr', -⟩ := hr.of_append
    cases hr' with
    | @handle _ s t e hr' _ _ =>
      obtain rfl : e = .tick c := hc
      have hs := IsRun.inHandoff hr' hstart hcₛ hpose hyaw hstay
      have hout := (onTick_branch s c).handoff_out hs.mode hset
      rw [hs.handoffFilters_output hyaw] at hout
      have hfilter : s.rc2ddsHandoffFilters.yaw.y =
          num (handoffValue yaw start.yaw (setpointTicks a₂)) :=
        congrArg TargetCMD.yaw hs.output
      refine ⟨?_, ?_, hout⟩
      · exact congrArg TargetCMD.yaw (hs.handoffTarget_eq hyaw)
      · show unwrapNear (num yaw) s.rc2ddsHandoffFilters.yaw.y = num yaw
        rw [hfilter]
        exact unwrapNear_handoffTarget hyaw.near _
  · exact ⟨handoffValue_runtime _ _ hn, handoffValue_runtime _ _ hn,
      handoffValue_runtime _ _ hn, handoffValue_runtime _ _ hn⟩

/-- A vehicle away from the initial pose and exactly half a turn from its yaw. -/
noncomputable def turnStart : TargetCMD ℝ :=
  { TargetCMD.zero with x := 1, y := 2, z := -3, yaw := Real.pi }

noncomputable def turnEvents : List Event :=
  [.hummingbirdStatus 0 ⟨hbCmdSourceDds⟩,
    .vehicleLocalPosition 0 ⟨true, true, num 1, num 2, num (-3), num Real.pi⟩,
    .vehicleStatus 0 ⟨navigationStateOffboard, armingStateArmed⟩,
    tickAt 600000000,
    tickAt 602500000]

theorem turnEvents_timed : node.Timed 0 turnEvents := by
  simp [turnEvents, tickAt, clockAt, Machine.Timed, node, Event.enter, Event.leave]

noncomputable def turning : Px4PositionCommand :=
  (((construct {} 0).controllerModeCallback 0 ⟨hbCmdSourceDds⟩).localPositionCallback 0
    ⟨true, true, num 1, num 2, num (-3), num Real.pi⟩).vehicleStatusCallback 0
    ⟨navigationStateOffboard, armingStateArmed⟩

theorem turning_starts : StartedHandoff (node.record turning (tickAt 600000000)) :=
  (onTick_branch turning (clockAt 600000000)).started_iff.mpr
    ⟨by decide +kernel, by decide +kernel, Or.inr (by decide +kernel), by decide +kernel⟩

theorem turning_handoffStart : turning.handoffStart 600000000 = turnStart.map num := by
  have hfresh : turning.localPositionFresh 600000000 = true := by decide +kernel
  rw [handoffStart, hfresh]
  rfl

theorem handoff_trajectory_turn :
    SweepsToInitialPose turnStart
      [node.record (turning.onTick (clockAt 600000000)).1 (tickAt 602500000)] := by
  obtain ⟨s, t, hr⟩ := Machine.run_trace (construct {} 0) 0 turnEvents turnEvents_timed
  have hr : IsRun {} 0
      ([node.record (turning.onTick (clockAt 600000000)).1 (tickAt 602500000)] ++
        node.record turning (tickAt 600000000) ::
          node.trace (construct {} 0) (turnEvents.take 3) []) s t := hr
  exact handoff_trajectory hr turning_starts rfl turning_handoffStart

end Px4PositionCommand

end Hummingbird
