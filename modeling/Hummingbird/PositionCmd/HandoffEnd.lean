/-
  The last setpoint of a handoff and the first setpoint of the path after it.

  The handoff ends on the measured pose; its setpoint is the output of the filters, which no
  one compares with the initial pose, and the path starts at the initial position.
  `pathStarts_within_remaining`: the step between the two setpoints is at most what the filters
  have left of the start error, plus what the path moves in between.
  `pathStarts_within_posTol_fails` is the run of an estimator jump, after which the step is
  larger than `pos_tol`.
-/
import Mathlib.Analysis.InnerProductSpace.PiL2
import Hummingbird.PositionCmd.HandoffTrajectory

namespace Hummingbird

namespace Px4PositionCommand

open WithNaN

/-! ## The position filters -/

/-- The position filters are `n` handoff ticks away from the start `(x, y, z)`. -/
structure SweepsPosition (x y z : ℝ) (n : ℕ) (f : HandoffFilters) : Prop where
  ready : f.Ready
  x : f.x.y = num (handoffValue initialPoseXM x n)
  y : f.y.y = num (handoffValue initialPoseYM y n)
  z : f.z.y = num (handoffValue initialPoseZM z n)

variable {x y z : ℝ} {n : ℕ}

/-- One update of one filter. -/
theorem update_handoffValue {g : LPF Double} {target start : ℝ}
    (hg : g.alpha = LPF.gain handoffRuntime ∧ g.initialized = true)
    (hgy : g.y = num (handoffValue target start n)) :
    (g.update (num target)).y = num (handoffValue target start (n + 1)) := by
  rw [LPF.update_y_num hg.2 hgy, hg.1, approach_handoffValue]

theorem SweepsPosition.step {f : HandoffFilters} (hf : SweepsPosition x y z n f) (yaw : Double) :
    SweepsPosition x y z (n + 1) (f.step { initialPose with yaw := yaw }) where
  ready := hf.ready.tuned.step _
  x := update_handoffValue hf.ready.x hf.x
  y := update_handoffValue hf.ready.y hf.y
  z := update_handoffValue hf.ready.z hf.z

/-- A step of a run that stays in the handoff. -/
theorem SweepsPosition.handle {s : Px4PositionCommand}
    (hf : SweepsPosition x y z n s.rc2ddsHandoffFilters) (hm : s.controlMode = .rc2ddsHandoff)
    (e : Event) (hm' : (s.handle e).1.controlMode = .rc2ddsHandoff) :
    SweepsPosition x y z (n + if PublishesSetpoint (node.record s e) then 1 else 0)
      (s.handle e).1.rc2ddsHandoffFilters := by
  cases e with
  | tick c =>
    have hb := onTick_branch s c
    show SweepsPosition _ _ _ _ (s.onTick c).1.rc2ddsHandoffFilters
    rcases hb.handoff_cases hm hm' with ⟨hset, hfilters, -⟩ | ⟨hset, hfilters, -⟩
    · have hset : PublishesSetpoint (node.record s (.tick c)) := hset
      rw [if_pos hset, hfilters]
      exact hf.step _
    · have hset : ¬ PublishesSetpoint (node.record s (.tick c)) := hset
      rw [if_neg hset, hfilters]
      exact hf
  | _ => exact hf

section Runs

variable {p : Parameters} {t₀ t : Time} {h : History} {s : Px4PositionCommand}

/-- The position filters along a run that has stayed in the handoff. -/
theorem IsRun.sweepsPosition {a b : History} {kₛ : Entry} {cₛ : TickClock}
    (hr : IsRun p t₀ (a ++ kₛ :: b) s t) (hstart : StartedHandoff kₛ)
    (hcₛ : kₛ.event = .tick cₛ) (hx : (kₛ.pre.handoffStart cₛ.later).x = num x)
    (hy : (kₛ.pre.handoffStart cₛ.later).y = num y)
    (hz : (kₛ.pre.handoffStart cₛ.later).z = num z) (hstay : ∀ k ∈ a, StaysInHandoff k) :
    SweepsPosition x y z (setpointTicks a) s.rc2ddsHandoffFilters := by
  apply IsRun.handoff_induction
    (P := fun n (s : Px4PositionCommand) => SweepsPosition x y z n s.rc2ddsHandoffFilters) hr hcₛ
    hstay
  · rintro s t hbefore rfl
    obtain ⟨hpost, -⟩ := (onTick_branch s cₛ).startHandoff_inv hstart.1 hstart.2
    rw [hpost]
    refine ⟨(IsRun.tuned hbefore).reset _, ?_, ?_, ?_⟩
    · rw [handoffValue_zero]
      exact hx
    · rw [handoffValue_zero]
      exact hy
    · rw [handoffValue_zero]
      exact hz
  · intro n s e hs hm hm'
    exact hs.handle hm e hm'

/-! ## From the last handoff tick to the first path tick -/

/-- The entry ends a handoff: the initial pose was found reached. -/
def EndsHandoff (k : Entry) : Prop :=
  k.pre.controlMode = .rc2ddsHandoff ∧ k.post.controlMode = .pathActive

/-- The entry publishes a path setpoint. -/
def PublishesPath (k : Entry) : Prop := k.pre.controlMode = .pathActive ∧ PublishesSetpoint k

/-- The setpoints of `k'` are within `d`, and 1.5 m/s since `k`, of the setpoints of `k`. -/
def StepsWithin (d : ℝ) (k : Entry) (c : TickClock) (k' : Entry) (c' : TickClock) : Prop :=
  ∀ m m', .trajectorySetpoint m ∈ k.out → .trajectorySetpoint m' ∈ k'.out →
    Vector3.dist m'.position m.position ≤ num (d + 3 / 2 * (secs (c'.now - c.now) : ℝ))

/-- `P` holds of every end of a handoff whose next tick publishes a path setpoint: `k` is the
    tick that ends the handoff, `past` what the node had handled before it and `k'` the next
    tick. -/
def OnPathStarts (P : History → Entry → TickClock → Entry → TickClock → Prop) (h : History) :
    Prop :=
  ∀ a k' m k past c c', h = a ++ k' :: (m ++ k :: past) → EndsHandoff k → k.event = .tick c →
    (∀ e ∈ m, e.event.isTick = false) → k'.event = .tick c' → PublishesPath k' →
      P past k c k' c'

/-- What a tick does that ends a handoff. -/
theorem TickBranch.endsHandoff_inv {s s' : Px4PositionCommand} {c : TickClock}
    {out : List Publication} (hb : TickBranch s c s' out)
    (hm : s.controlMode = .rc2ddsHandoff) (hm' : s'.controlMode = .pathActive) :
    s'.trajectoryStartTimeSec = s.elapsedSec c ∧
      out = [heartbeat c,
        .trajectorySetpoint (handoffSetpoint c.timestampUs s.handoffFilters.output)] := by
  cases hb with
  | handoffReached => exact ⟨rfl, rfl⟩
  | path _ _ hp => simp [hm] at hp
  | statusStale => simp [hm] at hm'
  | released => simp [hm] at hm'
  | handoff => simp [hm] at hm'
  | _ => simp [startRc2ddsHandoff] at hm'

/-- Messages do not move the trajectory start. -/
theorem IsRun.trajectoryStart_of_messages {m past : History} {k : Entry}
    (hr : IsRun p t₀ (m ++ k :: past) s t) (hm : ∀ e ∈ m, e.event.isTick = false) :
    s.trajectoryStartTimeSec = k.post.trajectoryStartTimeSec := by
  induction m generalizing s t with
  | nil =>
    obtain ⟨-, -, -, -, -, -, hs, -⟩ := Machine.Run.newest hr
    rw [hs]
  | cons e m ih =>
    cases hr with
    | @handle _ s _ e hr _ _ =>
      rw [← ih hr fun e he => hm e (List.mem_cons_of_mem _ he)]
      have htick := hm _ List.mem_cons_self
      cases e with
      | tick c => simp [Event.isTick, Machine.record] at htick
      | _ => rfl

end Runs

/-! ## The step between the two setpoints -/

/-- The Euclidean norm of three coordinates, as the norm of a vector. -/
theorem sqrt_eq_norm (a b c : ℝ) : √(a * a + b * b + c * c) = ‖!₂[a, b, c]‖ := by
  rw [EuclideanSpace.norm_eq]
  congr 1
  simp [Fin.sum_univ_three, sq]

/-- A path offset from the initial position, next to a handoff position with the fraction `r`
    of its start error left. -/
theorem sqrt_path_sub_handoff_le {r : ℝ} (hr : 0 ≤ r) (x y z x₀ y₀ z₀ px py pz : ℝ) :
    √((x₀ + px - (x₀ + r * (x - x₀))) * (x₀ + px - (x₀ + r * (x - x₀))) +
        (y₀ + py - (y₀ + r * (y - y₀))) * (y₀ + py - (y₀ + r * (y - y₀))) +
        (z₀ + pz - (z₀ + r * (z - z₀))) * (z₀ + pz - (z₀ + r * (z - z₀)))) ≤
      r * √((x - x₀) * (x - x₀) + (y - y₀) * (y - y₀) + (z - z₀) * (z - z₀)) +
        √(px * px + py * py + pz * pz) := by
  have hsub : !₂[x₀ + px - (x₀ + r * (x - x₀)), y₀ + py - (y₀ + r * (y - y₀)),
      z₀ + pz - (z₀ + r * (z - z₀))] = !₂[px, py, pz] - r • !₂[x - x₀, y - y₀, z - z₀] := by
    ext i
    fin_cases i <;> simp
  rw [sqrt_eq_norm, sqrt_eq_norm, sqrt_eq_norm, hsub]
  calc ‖!₂[px, py, pz] - r • !₂[x - x₀, y - y₀, z - z₀]‖
      ≤ ‖!₂[px, py, pz]‖ + ‖r • !₂[x - x₀, y - y₀, z - z₀]‖ := norm_sub_le _ _
    _ = r * ‖!₂[x - x₀, y - y₀, z - z₀]‖ + ‖!₂[px, py, pz]‖ := by
      rw [norm_smul, Real.norm_of_nonneg hr, add_comm]

section Runs

variable {p : Parameters} {t₀ t : Time} {h : History} {s : Px4PositionCommand}

/-- The step is within what the handoff that ends at `k` has left of its start error: `n` are
    the entries between its start `kₛ` and `k`. -/
def StepsWithinRemaining (past : History) (k : Entry) (c : TickClock) (k' : Entry)
    (c' : TickClock) : Prop :=
  ∃ n kₛ b cₛ, past = n ++ kₛ :: b ∧ kₛ.event = .tick cₛ ∧ StartedHandoff kₛ ∧
    (∀ e ∈ n, StaysInHandoff e) ∧
    ∀ x y z, (kₛ.pre.handoffStart cₛ.later).x = num x →
      (kₛ.pre.handoffStart cₛ.later).y = num y → (kₛ.pre.handoffStart cₛ.later).z = num z →
        StepsWithin ((1 - LPF.gain handoffRuntime) ^ (setpointTicks n + 1) *
          √((x - initialPoseXM) * (x - initialPoseXM) + (y - initialPoseYM) * (y - initialPoseYM) +
            (z - initialPoseZM) * (z - initialPoseZM))) k c k' c'

/-- Only a tick starts a handoff. -/
theorem StartedHandoff.tick {s : Px4PositionCommand} {e : Event}
    (hstart : StartedHandoff (node.record s e)) : ∃ c, e = .tick c := by
  cases e with
  | tick c => exact ⟨c, rfl⟩
  | _ => exact absurd hstart.2 hstart.1

/-- The setpoint of a path tick, when the trajectory began at the elapsed time `startSec`. -/
theorem AtInitialPosition.pathSetpoint_position {s : Px4PositionCommand}
    (hs : AtInitialPosition s) (timestampUs : UInt64) (elapsedSec : ℚ) :
    let offset := pathTarget s.trajectoryName (elapsedSec - s.trajectoryStartTimeSec : ℚ)
    (pathSetpoint timestampUs s.trajectoryName (s.pathCommand elapsedSec)).position =
      ⟨num (initialPoseXM + offset.x), num (initialPoseYM + offset.y),
        num (initialPoseZM + offset.z)⟩ := by
  simp [pathSetpoint, pathCommand, hs.x, hs.y, hs.z, TargetCMD.map]

/-- Every path, known or not, moves at most 1.5 m/s from the start. -/
theorem pathTarget_startsWithin (trajectoryName : String) {t : ℝ} (ht : 0 ≤ t) :
    StartsWithin (3 / 2) (pathTarget trajectoryName t) t := by
  unfold pathTarget
  split
  · exact posPath_startsWithin ht
  split
  · exact attPath_startsWithin ht
  split
  · exact stepAttPath_startsWithin ht
  split
  · exact circleDemo_startsWithin ht
  split
  · exact demoStraight_startsWithin ht
  · exact startsWithin_origin (by linarith) rfl rfl rfl

/-- A path setpoint next to the setpoint of a handoff tick. -/
theorem SweepsPosition.positionDist_le {f : HandoffFilters} (hf : SweepsPosition x y z n f)
    {s : Px4PositionCommand} (hs : AtInitialPosition s) (timestampUs timestampUs' : UInt64)
    {elapsedSec : ℚ} (ht : 0 ≤ elapsedSec - s.trajectoryStartTimeSec) :
    Vector3.dist (pathSetpoint timestampUs' s.trajectoryName (s.pathCommand elapsedSec)).position
        (handoffSetpoint timestampUs f.output).position ≤
      num ((1 - LPF.gain handoffRuntime) ^ n *
        √((x - initialPoseXM) * (x - initialPoseXM) + (y - initialPoseYM) * (y - initialPoseYM) +
          (z - initialPoseZM) * (z - initialPoseZM)) +
        3 / 2 * ((elapsedSec - s.trajectoryStartTimeSec : ℚ) : ℝ)) := by
  have ht' : (0 : ℝ) ≤ (elapsedSec - s.trajectoryStartTimeSec : ℚ) := by exact_mod_cast ht
  have hpath := pathTarget_startsWithin s.trajectoryName ht'
  unfold StartsWithin at hpath
  rw [hs.pathSetpoint_position]
  generalize pathTarget s.trajectoryName (elapsedSec - s.trajectoryStartTimeSec : ℚ) = offset at *
  simp only [Vector3.dist, handoffSetpoint, HandoffFilters.output, hf.x, hf.y, hf.z, handoffValue,
    Vector3.norm, num_sub, num_mul, num_add, Double.sqrt_num, num_le_num]
  have hstep := sqrt_path_sub_handoff_le (handoff_residual_pos n).le x y z initialPoseXM
    initialPoseYM initialPoseZM offset.x offset.y offset.z
  linarith

/-- What a tick publishes that follows the path. -/
theorem TickBranch.path_out {s s' : Px4PositionCommand} {c : TickClock} {out : List Publication}
    (hb : TickBranch s c s' out) (hm : s.controlMode = .pathActive)
    (hset : ∃ m ∈ out, m.IsTrajectorySetpoint) :
    out = [heartbeat c, .trajectorySetpoint (pathSetpoint c.timestampUs s.trajectoryName
      (s.pathCommand (s.elapsedSec c)))] := by
  obtain ⟨hd, hs, hdm⟩ := hb.setpoint_iff.mp hset
  rcases hdm with hdm | hdm
  · exact (hb.path_inv hd hs hm (dispatchMode_eq_pathActive_iff.mp hdm).2).2
  · rw [dispatchMode_eq_rc2ddsHandoff_iff.mp hdm] at hm
    exact absurd hm (by decide)

/-- The first path setpoint after a handoff, over every run. -/
theorem pathStarts_within_remaining (hr : IsRun p t₀ h s t) :
    OnPathStarts StepsWithinRemaining h := by
  rintro a k' m k past c c' rfl hend hc hm hc' hpath
  obtain ⟨s₁, t₁, hr₁, -⟩ := hr.of_append
  cases hr₁ with
  | @handle _ s₂ t₂ e hr₂ hin₂ _ =>
    obtain rfl : e = .tick c' := hc'
    -- the trajectory began at the tick that ended the handoff
    have hstartSec := IsRun.trajectoryStart_of_messages hr₂ hm
    have hs₂ := IsRun.reflects hr₂
    obtain ⟨hpos, -⟩ := IsRun.pathActive_since hr₂ hpath.1
    have htimes := hr₂.event_times (List.mem_append_right m List.mem_cons_self)
    obtain ⟨s₃, t₃, hr₃, -⟩ := hr₂.of_append
    cases hr₃ with
    | @handle _ s₄ t₄ e hr₄ _ hout₄ =>
      obtain rfl : e = .tick c := hc
      have hs₄ := IsRun.reflects hr₄
      have hb := onTick_branch s₄ c
      obtain ⟨hstart, hout⟩ := hb.endsHandoff_inv hend.1 hend.2
      obtain ⟨n, kₛ, b, rfl, hkₛ, hstay⟩ :=
        Past.since_newest_iff.mp (IsRun.handoff_since hr₄ hend.1)
      obtain ⟨s₅, t₅, hr₅, -⟩ := hr₄.of_append
      obtain ⟨cₛ, hcₛ⟩ : ∃ cₛ, kₛ.event = .tick cₛ := by
        cases hr₅ with
        | handle e _ _ _ => exact hkₛ.tick
      refine ⟨n, kₛ, b, cₛ, rfl, hcₛ, hkₛ, hstay, ?_⟩
      intro x y z hx hy hz mₖ mₖ' hmₖ hmₖ'
      have hsweep : SweepsPosition x y z (setpointTicks n + 1) s₄.handoffFilters :=
        (IsRun.sweepsPosition hr₄ hkₛ hcₛ hx hy hz hstay).step _
      -- what the two ticks publish
      have hmₖ : mₖ = handoffSetpoint c.timestampUs s₄.handoffFilters.output := by
        have hmem : .trajectorySetpoint mₖ ∈ (s₄.onTick c).2 := hmₖ
        rw [hout] at hmem
        simpa [heartbeat] using hmem
      have hmₖ' : mₖ' = pathSetpoint c'.timestampUs s₂.trajectoryName
          (s₂.pathCommand (s₂.elapsedSec c')) := by
        have hmem : .trajectorySetpoint mₖ' ∈ (s₂.onTick c').2 := hmₖ'
        rw [(onTick_branch s₂ c').path_out hpath.1 hpath.2] at hmem
        simpa [heartbeat] using hmem
      have hstartSec : s₂.trajectoryStartTimeSec = s₄.elapsedSec c := hstartSec.trans hstart
      have hsince : s₂.elapsedSec c' - s₂.trajectoryStartTimeSec = secs (c'.now - c.now) := by
        rw [hstartSec, hs₂.elapsedSec_eq, hs₄.elapsedSec_eq]
        unfold secs
        push_cast
        ring
      have hpos₀ : 0 ≤ s₂.elapsedSec c' - s₂.trajectoryStartTimeSec := by
        have hle : c.now ≤ c'.now := htimes.2.1.trans (htimes.2.2.trans hin₂)
        rw [hsince]
        have := secs_mono (sub_nonneg.mpr hle)
        simpa [secs] using this
      rw [hmₖ, hmₖ', ← hsince]
      exact hsweep.positionDist_le hpos c.timestampUs c'.timestampUs hpos₀

end Runs

/-! ## An estimator jump -/

/-- A handoff starts 5 m away from the initial pose at 0.6 s; the estimator jumps to the
    initial pose at 0.65 s, and the handoff ends at its first setpoint. -/
noncomputable def jumpEvents : List Event :=
  [.hummingbirdStatus 0 ⟨hbCmdSourceDds⟩,
    .vehicleLocalPosition 0
      ⟨true, true, num 5, num initialPoseYM, num initialPoseZM, num 0⟩,
    .vehicleAttitude 0 ⟨⟨num 1, num 0, num 0, num 0⟩⟩,
    .vehicleStatus 0 ⟨navigationStateOffboard, armingStateArmed⟩,
    tickAt 600000000,
    .vehicleLocalPosition 650000000
      ⟨true, true, num initialPoseXM, num initialPoseYM, num initialPoseZM, num 0⟩,
    tickAt 700000000,
    tickAt 702500000]

theorem jumpEvents_timed : node.Timed 0 jumpEvents := by
  simp [jumpEvents, tickAt, clockAt, Machine.Timed, node, Event.enter, Event.leave]

/-- The parameters of the run: the path `att`, which does not move. -/
def jumpParameters : Parameters := { path := "att" }

theorem pathStarts_within_remaining_jump :
    OnPathStarts StepsWithinRemaining (node.trace (construct jumpParameters 0) jumpEvents []) := by
  obtain ⟨s, t, hr⟩ :=
    Machine.run_trace (construct jumpParameters 0) 0 jumpEvents jumpEvents_timed
  exact pathStarts_within_remaining hr

/-- Before the handoff. -/
noncomputable def away : Px4PositionCommand :=
  ((((construct jumpParameters 0).controllerModeCallback 0 ⟨hbCmdSourceDds⟩).localPositionCallback 0
    ⟨true, true, num 5, num initialPoseYM, num initialPoseZM, num 0⟩).vehicleAttitudeCallback 0
    ⟨⟨num 1, num 0, num 0, num 0⟩⟩).vehicleStatusCallback 0
    ⟨navigationStateOffboard, armingStateArmed⟩

/-- In the handoff, after the jump. -/
noncomputable def jumped : Px4PositionCommand :=
  (away.onTick (clockAt 600000000)).1.localPositionCallback 650000000
    ⟨true, true, num initialPoseXM, num initialPoseYM, num initialPoseZM, num 0⟩

theorem away_starts : StartedHandoff (node.record away (tickAt 600000000)) :=
  (onTick_branch away (clockAt 600000000)).started_iff.mpr
    ⟨by decide +kernel, by decide +kernel, Or.inr (by decide +kernel), by decide +kernel⟩

theorem jumped_eq :
    jumped = (startRc2ddsHandoff { away with previousDdsControlEnabled := true }
      600000000).localPositionCallback 650000000
        ⟨true, true, num initialPoseXM, num initialPoseYM, num initialPoseZM, num 0⟩ := by
  have hpost := ((onTick_branch away (clockAt 600000000)).startHandoff_inv away_starts.1
    away_starts.2).1
  unfold jumped
  rw [hpost]
  rfl

theorem away_localPositionFresh :
    localPositionFresh { away with previousDdsControlEnabled := true } 600000000 = true := by
  decide +kernel

theorem jumped_reached : jumped.initialPoseReached jumped.handoffTarget 700000000 = true := by
  rw [jumped_eq]
  refine initialPoseReached_of_hovering ?_ ?_ rfl rfl rfl rfl rfl ?_
  · decide +kernel
  · decide +kernel
  · simp only [localPositionCallback, startRc2ddsHandoff, handoffStart, away_localPositionFresh,
      if_true]
    rfl

/-- The position filters after the only tick of the handoff. -/
theorem jumped_sweeps :
    SweepsPosition 5 initialPoseYM initialPoseZM 1 jumped.handoffFilters := by
  have hstart : SweepsPosition 5 initialPoseYM initialPoseZM 0 jumped.rc2ddsHandoffFilters := by
    rw [jumped_eq]
    simp only [localPositionCallback, startRc2ddsHandoff, handoffStart, away_localPositionFresh,
      if_true]
    refine ⟨HandoffFilters.tuned_default.reset _, ?_, ?_, ?_⟩
    · rw [handoffValue_zero]
      rfl
    · rw [handoffValue_zero]
      rfl
    · rw [handoffValue_zero]
      rfl
  exact hstart.step _

/-- After one tick more than half of the start error is left. -/
theorem half_le_residual : 1 / 2 ≤ 1 - LPF.gain handoffRuntime := by
  by_contra hlt
  have hpos := LPF.one_sub_gain_pos (T := handoffRuntime) (by norm_num [handoffRuntime])
  obtain ⟨n, hn7, hn⟩ : ∃ n : ℕ, 7 ≤ n ∧ handoffRuntime * rateHz = n :=
    ⟨3200, by norm_num, by norm_num [handoffRuntime, rateHz]⟩
  -- `n` factors below 1/2 leave less than the 1% that the gain is chosen for
  have hpow := LPF.one_sub_gain_pow (by norm_num [handoffRuntime]) hn
  have hle : (1 - LPF.gain handoffRuntime) ^ n ≤ (1 - LPF.gain handoffRuntime) ^ 7 :=
    pow_le_pow_of_le_one hpos.le (LPF.one_sub_gain_lt_one _).le hn7
  have hhalf : (1 - LPF.gain handoffRuntime) ^ 7 ≤ (1 / 2 : ℝ) ^ 7 :=
    pow_le_pow_left₀ hpos.le (not_le.mp hlt).le _
  rw [hpow] at hle
  have hnum : (1 / 2 : ℝ) ^ 7 < 0.01 := by norm_num
  linarith

/-- `path_active` after the jump. -/
noncomputable def jumpedPath : Px4PositionCommand := (jumped.onTick (clockAt 700000000)).1

theorem jumped_mode : jumped.controlMode = .rc2ddsHandoff := by
  rw [jumped_eq]
  rfl

theorem jumpedPath_eq :
    jumpedPath = { jumped with
      previousDdsControlEnabled := true
      lastTarget := jumped.handoffTarget
      rc2ddsHandoffFilters := jumped.handoffFilters
      posX := num initialPoseXM
      posY := num initialPoseYM
      posZ := num initialPoseZM
      trajectoryStartTimeSec := jumped.elapsedSec (clockAt 700000000)
      controlMode := .pathActive } := by
  refine (onTick_branch jumped (clockAt 700000000)).handoffReached_inv ?_ ?_ jumped_mode
    jumped_reached
  · rw [jumped_eq]
    decide +kernel
  · rw [jumped_eq]
    decide +kernel

theorem jumpedPath_publishes :
    PublishesPath (node.record jumpedPath (tickAt 702500000)) := by
  have hm : jumpedPath.controlMode = .pathActive := by
    rw [jumpedPath_eq]
  refine ⟨hm, (onTick_branch _ _).setpoint_iff.mpr ⟨?_, ?_, Or.inl ?_⟩⟩
  · rw [jumpedPath_eq, jumped_eq]
    decide +kernel
  · rw [jumpedPath_eq, jumped_eq]
    decide +kernel
  · refine dispatchMode_eq_pathActive_iff.mpr ⟨hm, ?_⟩
    rw [jumpedPath_eq, jumped_eq]
    decide +kernel

/-- The step after the jump is what the filter has left of the 5 m. -/
theorem jumped_positionDist (timestampUs timestampUs' : UInt64) (elapsedSec : ℚ) :
    Vector3.dist
        (pathSetpoint timestampUs' jumpedPath.trajectoryName
          (jumpedPath.pathCommand elapsedSec)).position
        (handoffSetpoint timestampUs jumped.handoffFilters.output).position =
      num ((1 - LPF.gain handoffRuntime) * 5) := by
  have hpos : AtInitialPosition jumpedPath := by
    rw [jumpedPath_eq]
    exact ⟨rfl, rfl, rfl⟩
  have hname : jumpedPath.trajectoryName = "att" := by
    rw [jumpedPath_eq, jumped_eq]
    rfl
  have hstill : ∀ t, (pathTarget "att" t).x = 0 ∧ (pathTarget "att" t).y = 0 ∧
      (pathTarget "att" t).z = 0 := fun t => ⟨rfl, rfl, rfl⟩
  have hfixed : ∀ v, handoffValue v v 1 = v := fun v => by simp [handoffValue]
  have hx : |initialPoseXM - handoffValue initialPoseXM 5 1| =
      (1 - LPF.gain handoffRuntime) * 5 := by
    rw [abs_sub_handoffValue]
    norm_num [initialPoseXM]
  have hsweep := jumped_sweeps
  rw [hpos.pathSetpoint_position, hname]
  simp only [Vector3.dist, handoffSetpoint, HandoffFilters.output, hsweep.x, hsweep.y, hsweep.z,
    hstill, hfixed, Vector3.norm, num_sub, num_mul, num_add, Double.sqrt_num, add_zero, sub_self,
    mul_zero, Real.sqrt_mul_self_eq_abs, hx]

theorem pathStarts_within_posTol_fails :
    ¬ ∀ (p : Parameters) (t₀ t : Time) (h : History) (s : Px4PositionCommand),
      IsRun p t₀ h s t → OnPathStarts (fun _ k c k' c' => StepsWithin posTol k c k' c') h := by
  intro hall
  obtain ⟨s, t, hr⟩ :=
    Machine.run_trace (construct jumpParameters 0) 0 jumpEvents jumpEvents_timed
  have hend : EndsHandoff (node.record jumped (tickAt 700000000)) := by
    refine ⟨jumped_mode, ?_⟩
    show jumpedPath.controlMode = .pathActive
    rw [jumpedPath_eq]
  have hout := ((onTick_branch jumped (clockAt 700000000)).endsHandoff_inv hend.1 hend.2).2
  have hout' := (onTick_branch jumpedPath (clockAt 702500000)).path_out jumpedPath_publishes.1
    jumpedPath_publishes.2
  have hstep := hall jumpParameters 0 t _ s hr [] _ [] (node.record jumped (tickAt 700000000)) _
    (clockAt 700000000) (clockAt 702500000) rfl hend rfl
    (fun _ hk => absurd hk List.not_mem_nil) rfl jumpedPath_publishes
    (handoffSetpoint (clockAt 700000000).timestampUs jumped.handoffFilters.output)
    (pathSetpoint (clockAt 702500000).timestampUs jumpedPath.trajectoryName
      (jumpedPath.pathCommand (jumpedPath.elapsedSec (clockAt 702500000))))
    (by show _ ∈ (jumped.onTick _).2; rw [hout]; simp)
    (by show _ ∈ (jumpedPath.onTick _).2; rw [hout']; simp)
  have hsecs : secs ((clockAt 702500000).now - (clockAt 700000000).now) = 1 / 400 := by
    decide +kernel
  rw [jumped_positionDist, hsecs, num_le_num, posTol] at hstep
  have hhalf := half_le_residual
  norm_num at hstep
  linarith

end Px4PositionCommand

end Hummingbird
