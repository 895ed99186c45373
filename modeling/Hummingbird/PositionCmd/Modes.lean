/-
  How `control_mode_` moves along a run of `Px4PositionCommand`.

  Setpoints are published in two modes, `path_active` and `RC2DDS_handoff`. A run enters them
  through `start_RC2DDS_handoff` only, and leaves them at the first tick that interrupts it:
  one without DDS control, or one that finds `path_active` without a fresh status in the
  active control state. `IsRun.publishing_iff` says that the node is in one of the two modes
  exactly when it has started a handoff and nothing has interrupted it since.
-/
import Hummingbird.PositionCmd.Publications

namespace Hummingbird

namespace Px4PositionCommand

open WithNaN

/-- The step runs `start_RC2DDS_handoff`, the only way into the handoff. -/
def StartedHandoff (k : Entry) : Prop :=
  k.pre.controlMode ≠ .rc2ddsHandoff ∧ k.post.controlMode = .rc2ddsHandoff

/-- The newest entry is a tick that takes the node out of the modes that publish setpoints. -/
def Interrupts (p : Parameters) : History → Prop
  | [] => False
  | k :: past => ∃ c, k.event = .tick c ∧ (¬ DdsControl past c.now ∨
      k.pre.controlMode = .pathActive ∧ (¬ StatusFresh past c.now ∨ ¬ ActiveReported p past))

theorem not_publishing_waitOffboard : ¬ Publishing .waitOffboard := by decide

theorem not_publishing_waitArm : ¬ Publishing .waitArm := by decide

section Branch

variable {s s' : Px4PositionCommand} {c : TickClock} {out : List Publication}

/-- Without DDS control a tick leaves the publishing modes, once the last tick had DDS
    control whenever the node is in one of them. -/
theorem TickBranch.not_publishing_of_released (hb : TickBranch s c s' out)
    (hp : Publishing s.controlMode → s.previousDdsControlEnabled = true)
    (hd : s.ddsControlEnabled c.now = false) : ¬ Publishing s'.controlMode := by
  rcases hb.out_of_released hd with ⟨-, -, -, hm⟩ | ⟨hn, -, hm⟩
  · rw [hm]
    exact not_publishing_waitOffboard
  · rw [hm]
    exact fun h => hn ⟨hp h, h⟩

/-- A tick that is dispatched to a waiting mode was waiting, or has just been interrupted. -/
theorem interrupted_of_dispatchMode (hm : ¬ Publishing s.dispatchMode)
    (hp : Publishing s.controlMode) : s.controlMode = .pathActive ∧ ¬ s.activeState = true := by
  rcases hp with hp | hp
  · refine ⟨hp, fun ha => hm (Or.inl ?_)⟩
    exact dispatchMode_eq_pathActive_iff.mpr ⟨hp, ha⟩
  · exact absurd (Or.inr (dispatchMode_eq_rc2ddsHandoff_iff.mpr hp)) hm

theorem ReachesWaitArm.not_publishing (h : s.ReachesWaitArm c) : ¬ Publishing s.dispatchMode := by
  rcases h.dispatchMode with h | h <;> rw [h]
  · exact not_publishing_waitArm
  · exact not_publishing_waitOffboard

/-- The mode after a tick with DDS control. -/
theorem TickBranch.publishing_iff_of_enabled (hb : TickBranch s c s' out)
    (hd : s.ddsControlEnabled c.now = true) :
    Publishing s'.controlMode ↔
      (s.controlMode ≠ .rc2ddsHandoff ∧ s'.controlMode = .rc2ddsHandoff) ∨
        ¬ (s.controlMode = .pathActive ∧ (¬ s.vehicleStatusFresh c.now = true ∨
          ¬ s.activeState = true)) ∧ Publishing s.controlMode := by
  -- a tick that stays in, or falls back to, a waiting mode
  have hwait : ¬ Publishing s.dispatchMode → ¬ Publishing s'.controlMode →
      (Publishing s'.controlMode ↔
        (s.controlMode ≠ .rc2ddsHandoff ∧ s'.controlMode = .rc2ddsHandoff) ∨
          ¬ (s.controlMode = .pathActive ∧ (¬ s.vehicleStatusFresh c.now = true ∨
            ¬ s.activeState = true)) ∧ Publishing s.controlMode) := by
    intro hm hm'
    refine ⟨fun h => absurd h hm', ?_⟩
    rintro (⟨-, h⟩ | ⟨hn, hp⟩)
    · exact Or.inr h
    · obtain ⟨hpath, ha⟩ := interrupted_of_dispatchMode hm hp
      exact absurd ⟨hpath, Or.inr ha⟩ hn
  cases hb with
  | takeover hd' => simp [hd] at hd'
  | released hd' => simp [hd] at hd'
  | statusStale _ hs =>
    by_cases hm : s.controlMode = .pathActive
    · simp [hm, hs, Publishing]
    · simp [hm, Publishing]
  | waitOffboard _ _ hm =>
    exact hwait (by rw [hm]; exact not_publishing_waitOffboard) not_publishing_waitOffboard
  | offboardRequest _ _ hm =>
    exact hwait (by rw [hm]; exact not_publishing_waitOffboard) not_publishing_waitOffboard
  | waitArm _ _ hm => exact hwait hm.not_publishing not_publishing_waitArm
  | armRequest _ _ hm => exact hwait hm.not_publishing not_publishing_waitArm
  | startHandoff _ _ hm =>
    exact iff_of_true (Or.inr rfl) (Or.inl ⟨hm.controlMode_ne, rfl⟩)
  | path _ hs hm ha => simp [hm, hs, ha, Publishing]
  | handoff _ _ hm => simp [hm, Publishing]
  | handoffReached _ _ hm => simp [hm, Publishing]

end Branch

/-! ## Along a run -/

section Runs

variable {p : Parameters} {t₀ t : Time} {h : History} {s : Px4PositionCommand}

/-- While the node is in a publishing mode, its last tick had DDS control. -/
theorem IsRun.previousDds_of_publishing (hr : IsRun p t₀ h s t) :
    Publishing s.controlMode → s.previousDdsControlEnabled = true := by
  refine Machine.Run.invariant
    (P := fun _ s _ => Publishing s.controlMode → s.previousDdsControlEnabled = true) hr ?_ ?_
  · intro h
    exact absurd h not_publishing_waitOffboard
  · intro h s t e _ ih _ _ hm
    cases e with
    | tick c =>
      have hb := onTick_branch s c
      rw [show (node.step s (.tick c)).1 = (s.onTick c).1 from rfl] at hm ⊢
      rw [hb.previousDdsControlEnabled]
      by_contra hd
      exact hb.not_publishing_of_released ih (by simpa using hd) hm
    | _ => exact ih hm

/-- The node publishes setpoints as long as nothing has interrupted the handoff it started. -/
theorem IsRun.publishing_iff (hr : IsRun p t₀ h s t) :
    Publishing s.controlMode ↔
      Past.Since (fun g => ¬ Interrupts p g) (Past.Newest StartedHandoff) h := by
  refine Machine.Run.invariant (P := fun h s _ => Publishing s.controlMode ↔
    Past.Since (fun g => ¬ Interrupts p g) (Past.Newest StartedHandoff) h) hr ?_ ?_
  · refine iff_of_false not_publishing_waitOffboard fun h => ?_
    cases h with
    | here h => exact h
  · intro h s t e hr ih _ _
    rw [Past.since_cons, ← ih]
    have hs := IsRun.reflects hr
    cases e with
    | tick c =>
      have hb := onTick_branch s c
      have hint : Interrupts p (node.record s (.tick c) :: h) ↔
          ¬ s.ddsControlEnabled c.now = true ∨ s.controlMode = .pathActive ∧
            (¬ s.vehicleStatusFresh c.now = true ∨ ¬ s.activeState = true) := by
        rw [hs.ddsControlEnabled_iff, hs.vehicleStatusFresh_iff, hs.activeState_iff]
        constructor
        · rintro ⟨c', hc, hi⟩
          obtain rfl := Event.tick.inj hc
          exact hi
        · intro hi
          exact ⟨c, rfl, hi⟩
      rw [hint]
      cases hd : s.ddsControlEnabled c.now with
      | false =>
        have hm' := hb.not_publishing_of_released (IsRun.previousDds_of_publishing hr) hd
        refine iff_of_false hm' ?_
        rintro (⟨-, h⟩ | ⟨hn, -⟩)
        · exact hm' (Or.inr h)
        · exact hn (Or.inl (by decide))
      | true =>
        have hne : ¬ ¬ true = true := fun h => h rfl
        rw [or_iff_right hne]
        exact hb.publishing_iff_of_enabled hd
    | _ =>
      have hquiet : ∀ e : Event, e.isTick = false → ¬ Interrupts p (node.record s e :: h) := by
        rintro e he ⟨c, rfl, -⟩
        simp [Event.isTick] at he
      constructor
      · intro hm
        exact Or.inr ⟨hquiet _ rfl, hm⟩
      · rintro (⟨hne, hm⟩ | ⟨-, hm⟩)
        · exact absurd hm hne
        · exact hm

end Runs

/-! ## A vehicle that hovers at the initial pose -/

theorem angleErrorAbs_zero : angleErrorAbs (num 0) (num 0) = num 0 := by
  have hpi : |(0 : ℝ) - 0| ≤ Real.pi := by
    rw [sub_zero, abs_zero]
    exact Real.pi_pos.le
  rw [angleErrorAbs, unwrapNear_of_abs_le hpi]
  simp

theorem quatToRpy_identity : quatToRpy ⟨num 1, num 0, num 0, num 0⟩ = ⟨num 0, num 0, num 0⟩ := by
  have harg : Complex.arg ⟨1, 0⟩ = 0 := Complex.arg_one
  have hlt : ¬ (1 : ℝ) ≤ 0 := by norm_num
  simp [quatToRpy, harg, hlt]

/-- Level at the initial pose with heading 0, and a handoff whose yaw command is 0: the
    initial pose is reached. -/
theorem initialPoseReached_of_hovering {s : Px4PositionCommand} {later : Time}
    (hp : s.localPositionFresh later = true) (ha : s.vehicleAttitudeFresh later = true)
    (hx : s.localPosition.x = num initialPoseXM) (hy : s.localPosition.y = num initialPoseYM)
    (hz : s.localPosition.z = num initialPoseZM) (hh : s.localPosition.heading = num 0)
    (hq : s.vehicleAttitude.q = ⟨num 1, num 0, num 0, num 0⟩)
    (hyaw : s.lastTarget.yaw = num 0) : s.initialPoseReached s.handoffTarget later = true := by
  have hpi : |(0 : ℝ) - 0| ≤ Real.pi := by
    rw [sub_zero, abs_zero]
    exact Real.pi_pos.le
  have hunit : (⟨num 1, num 0, num 0, num 0⟩ : Quaternion).normalized =
      ⟨num 1, num 0, num 0, num 0⟩ :=
    Quaternion.normalized_of_unit (by simp [Quaternion.squaredNorm]) trivial trivial trivial trivial
  have hpos : (0 : ℝ) ≤ posTol := by norm_num [posTol]
  have hyawTol : (0 : ℝ) ≤ yawTol := by unfold yawTol; positivity
  have hatt : (0 : ℝ) ≤ attTol := by unfold attTol; positivity
  simp [initialPoseReached, hp, ha, handoffTarget, initialPose, hx, hy, hz, hh, hq, hyaw, hunit,
    quatToRpy_identity, initialPoseRollRad, initialPosePitchRad, initialPoseYawRad,
    unwrapNear_of_abs_le hpi, angleErrorAbs_zero, Vector3.norm, Double.max, hpos, hyawTol, hatt]

/-- Everything reported at the start: DDS control, offboard mode, armed, hovering at the
    initial pose. -/
noncomputable def hovering : Px4PositionCommand :=
  ((((construct {} 0).controllerModeCallback 0 ⟨hbCmdSourceDds⟩).localPositionCallback 0
    ⟨true, true, num initialPoseXM, num initialPoseYM, num initialPoseZM, num 0⟩
    ).vehicleAttitudeCallback 0 ⟨⟨num 1, num 0, num 0, num 0⟩⟩).vehicleStatusCallback 0
    ⟨navigationStateOffboard, armingStateArmed⟩

/-- The handoff starts at 0.6 s. -/
noncomputable def hoveringHandoff : Px4PositionCommand := (hovering.onTick (clockAt 600000000)).1

/-- The handoff ends at 0.7 s. -/
noncomputable def hoveringPath : Px4PositionCommand :=
  (hoveringHandoff.onTick (clockAt 700000000)).1

theorem hoveringHandoff_eq :
    hoveringHandoff =
      startRc2ddsHandoff { hovering with previousDdsControlEnabled := true } 600000000 := by
  have hb := onTick_branch hovering (clockAt 600000000)
  have hstart := hb.started_iff.mpr
    ⟨by decide +kernel, by decide +kernel, Or.inr (by decide +kernel), by decide +kernel⟩
  exact (hb.startHandoff_inv hstart.1 hstart.2).1

theorem hoveringHandoff_reached :
    hoveringHandoff.initialPoseReached hoveringHandoff.handoffTarget 700000000 = true := by
  rw [hoveringHandoff_eq]
  refine initialPoseReached_of_hovering ?_ ?_ rfl rfl rfl rfl rfl ?_
  · decide +kernel
  · decide +kernel
  · have hfresh : localPositionFresh { hovering with previousDdsControlEnabled := true }
        600000000 = true := by
      decide +kernel
    simp only [startRc2ddsHandoff, handoffStart, hfresh, if_true]
    rfl

theorem hoveringPath_eq :
    hoveringPath = { hoveringHandoff with
      previousDdsControlEnabled := true
      lastTarget := hoveringHandoff.handoffTarget
      rc2ddsHandoffFilters := hoveringHandoff.handoffFilters
      posX := num initialPoseXM
      posY := num initialPoseYM
      posZ := num initialPoseZM
      trajectoryStartTimeSec := hoveringHandoff.elapsedSec (clockAt 700000000)
      controlMode := .pathActive } := by
  have hb := onTick_branch hoveringHandoff (clockAt 700000000)
  have hm : hoveringHandoff.controlMode = .rc2ddsHandoff := by
    rw [hoveringHandoff_eq]
    rfl
  have hd : hoveringHandoff.ddsControlEnabled 700000000 = true := by
    rw [hoveringHandoff_eq]
    decide +kernel
  have hs : hoveringHandoff.vehicleStatusFresh 700000000 = true := by
    rw [hoveringHandoff_eq]
    decide +kernel
  exact hb.handoffReached_inv hd hs hm hoveringHandoff_reached

end Px4PositionCommand

end Hummingbird
