/-
  How fast the setpoints of `Px4PositionCommand` move along a path.

  While a run stays in `path_active`, the trajectory time goes on with the clock
  (`IsRun.trajectoryStart_of_stays`), so what bounds the path in time bounds the setpoints that are
  published, at whatever times the node ticks and whatever it receives in between. `path_slew` is
  that bound for any two setpoints of one stay.
-/
import Hummingbird.PositionCmd.HandoffEnd
import Hummingbird.Utils.Slew

namespace Hummingbird

open Stitch

/-- The envelope of the path that the parameter `path` names; without a path the vehicle holds. -/
noncomputable def pathEnvelope (trajectoryName : String) : Envelope :=
  if trajectoryName = "pos" then ⟨segment ℝ 0 1, {0}, 3 / 4, 0⟩
  else if trajectoryName = "att" then
    ⟨{0}, Set.Icc (-pitchMax) pitchMax, 0, pitchMax * deg 9⟩
  else if trajectoryName = "step_att" then ⟨{0}, Set.Icc 0 (deg 60), 0, deg (5 / 2)⟩
  else if trajectoryName = "circle_demo" then
    ⟨Metric.sphere (-(1 / 2)) (1 / 2), {0}, deg 6, 0⟩
  else if trajectoryName = "demo_straight" then ⟨segment ℝ 0 Complex.I, {0}, 3 / 2, 0⟩
  else ⟨{0}, {0}, 0, 0⟩

namespace Px4PositionCommand

open WithNaN

theorem pathTarget_staysWithin (trajectoryName : String) :
    StaysWithin (pathTarget trajectoryName) (pathEnvelope trajectoryName) := by
  unfold pathTarget pathEnvelope
  split_ifs
  · exact posPath_staysWithin
  · exact attPath_staysWithin
  · exact stepAttPath_staysWithin
  · exact circleDemo_staysWithin
  · exact demoStraight_staysWithin
  · exact staysWithin_of_pitch (fun t => rfl) (fun t _ => rfl) fun s t _ _ => by
      simp [TargetCMD.zero]

/-! ## One setpoint -/

/-- The setpoint commands the place `z` in the plane of the initial pose and the pitch `θ`. -/
structure Commands (m : TrajectorySetpoint6dof) (z : ℂ) (θ : ℝ) : Prop where
  position : m.position =
    ⟨num (initialPoseXM + z.re), num (initialPoseYM + z.im), num initialPoseZM⟩
  quaternion : m.quaternion = ⟨num (Real.cos (θ / 2)), num 0, num (Real.sin (θ / 2)), num 0⟩

/-- A velocity is commanded in the plane and at most at this speed, or none at all. -/
def VelocityWithin (speed : ℝ) (m : TrajectorySetpoint6dof) : Prop :=
  m.velocity = nanVector ∨ ∃ v : ℂ, ‖v‖ ≤ speed ∧ m.velocity = ⟨num v.re, num v.im, nan⟩

theorem rpyToQuat_pitch (θ : ℝ) :
    rpyToQuat ⟨num 0, num θ, num 0⟩ =
      ⟨num (Real.cos (θ / 2)), num 0, num (Real.sin (θ / 2)), num 0⟩ := by
  have hhalf : 2⁻¹ * θ = θ / 2 := inv_mul_eq_div 2 θ
  rw [rpyToQuat_num]
  simp [halfAngleProduct, hhalf]

theorem pathSetpoint_commands {s : Px4PositionCommand} (hs : AtInitialPosition s)
    (timestampUs : UInt64) (elapsedSec : ℚ) :
    Commands (pathSetpoint timestampUs s.trajectoryName (s.pathCommand elapsedSec))
      (pathTarget s.trajectoryName (elapsedSec - s.trajectoryStartTimeSec : ℚ)).place
      (pathTarget s.trajectoryName (elapsedSec - s.trajectoryStartTimeSec : ℚ)).pitch := by
  obtain ⟨hz, hroll, hyaw⟩ := (pathTarget_staysWithin s.trajectoryName).level
    (elapsedSec - s.trajectoryStartTimeSec : ℚ)
  refine ⟨?_, ?_⟩
  · rw [hs.pathSetpoint_position timestampUs elapsedSec, hz, add_zero]
    rfl
  · rw [← rpyToQuat_pitch]
    simp only [pathSetpoint, pathCommand, TargetCMD.map]
    rw [hroll, hyaw]

theorem pathSetpoint_velocityWithin {s : Px4PositionCommand} (timestampUs : UInt64)
    {elapsedSec : ℚ} (h0 : 0 ≤ elapsedSec - s.trajectoryStartTimeSec) :
    VelocityWithin (pathEnvelope s.trajectoryName).speed
      (pathSetpoint timestampUs s.trajectoryName (s.pathCommand elapsedSec)) := by
  have hle := (pathTarget_staysWithin s.trajectoryName).velocity
    (elapsedSec - s.trajectoryStartTimeSec : ℚ) (by exact_mod_cast h0)
  by_cases hmoving : s.trajectoryName = "pos" ∨ s.trajectoryName = "demo_straight"
  · refine Or.inr ⟨_, hle, ?_⟩
    simp only [pathSetpoint, if_pos hmoving]
    rfl
  · left
    simp only [pathSetpoint, if_neg hmoving]
    rfl

/-! ## One stay on the path -/

/-- The step stays in `path_active`. -/
def StaysPathActive (k : Entry) : Prop :=
  k.pre.controlMode = .pathActive ∧ k.post.controlMode = .pathActive

section Runs

variable {p : Parameters} {t₀ t : Time} {h : History} {s : Px4PositionCommand}

/-- The trajectory that is followed began when it did at any earlier step of the stay. -/
theorem IsRun.trajectoryStart_of_stays {a b : History} {k₁ : Entry}
    (hr : IsRun p t₀ (a ++ k₁ :: b) s t) (hstay : ∀ k ∈ a ++ [k₁], StaysPathActive k) :
    s.trajectoryStartTimeSec = k₁.pre.trajectoryStartTimeSec := by
  have hstep : ∀ {h : History} {s : Px4PositionCommand} {t : Time} (e : Event),
      IsRun p t₀ h s t → StaysPathActive (node.record s e) →
        (s.handle e).1.trajectoryStartTimeSec = s.trajectoryStartTimeSec := by
    intro h s t e hr ⟨hm, hm'⟩
    cases e with
    | tick c =>
      obtain ⟨-, -, ⟨-, -, hstart, -⟩ | ⟨hhand, -⟩⟩ :=
        (onTick_branch s c).pathActive_cases (IsRun.previousDds_of_publishing hr) hm'
      · exact hstart
      · exact absurd (hm.symm.trans hhand) (by decide)
    | _ => rfl
  induction a generalizing s t with
  | nil =>
    cases hr with
    | handle e hr _ _ => exact hstep e hr (hstay _ (List.mem_singleton_self _))
  | cons k a ih =>
    cases hr with
    | @handle _ s' t' e hr _ _ =>
      have hnext := hstep e hr (hstay _ List.mem_cons_self)
      exact hnext.trans (ih hr fun k hk => hstay k (List.mem_cons_of_mem _ hk))

/-- A setpoint that is published in `path_active` is the path's, at a time when it has begun. -/
theorem IsRun.path_setpoint {c : TickClock} {m : TrajectorySetpoint6dof} (hr : IsRun p t₀ h s t)
    (hnow : t ≤ c.now) (hm : s.controlMode = .pathActive)
    (hset : .trajectorySetpoint m ∈ (s.onTick c).2) :
    0 ≤ s.trajectoryTimeSec c ∧
      Commands m (pathTarget p.path (s.trajectoryTimeSec c)).place
        (pathTarget p.path (s.trajectoryTimeSec c)).pitch ∧
      VelocityWithin (pathEnvelope p.path).speed m := by
  obtain ⟨hpos, hsince⟩ := IsRun.pathActive_since hr hm
  have hs := IsRun.reflects hr
  have h0 : 0 ≤ s.trajectoryTimeSec c := by
    obtain ⟨a, k₀, b, rfl, ⟨⟨c₀, hc₀, -, -, -, hsec⟩, -⟩, -⟩ := Past.since_at_iff.mp hsince
    have htimes := hr.event_times (List.mem_append_right a List.mem_cons_self)
    rw [hc₀] at htimes
    have hle : c₀.now ≤ c.now := htimes.2.1.trans (htimes.2.2.trans hnow)
    rw [trajectoryTimeSec, hs.elapsedSec_eq, ← hsec, sub_nonneg]
    exact secs_mono (sub_le_sub_right hle t₀)
  have hout := (onTick_branch s c).path_out hm ⟨_, hset, trivial⟩
  have heq : m = pathSetpoint c.timestampUs s.trajectoryName (s.pathCommand (s.elapsedSec c)) := by
    rw [hout] at hset
    simpa [heartbeat] using hset
  rw [heq, ← hs.trajectoryName]
  exact ⟨h0, pathSetpoint_commands hpos c.timestampUs (s.elapsedSec c),
    pathSetpoint_velocityWithin c.timestampUs h0⟩

end Runs

/-! ## Two setpoints -/

/-- The target of the path at the trajectory time of the tick `k`. -/
noncomputable def Entry.target (path : String) (c : TickClock) (k : Entry) : TargetCMD ℝ :=
  pathTarget path (k.pre.trajectoryTimeSec c)

/-- The setpoint of the tick `k` is the path's at a time when it has begun, which is within the
    envelope, and from every earlier setpoint of the same stay it has moved no further than the
    time between the two ticks allows. -/
def SlewsWithin (path : String) (c : TickClock) (k : Entry) (past : History) : Prop :=
  ∀ m, .trajectorySetpoint m ∈ k.out → 0 ≤ k.pre.trajectoryTimeSec c ∧
    Commands m (k.target path c).place (k.target path c).pitch ∧
    (k.target path c).place ∈ (pathEnvelope path).places ∧
    (k.target path c).pitch ∈ (pathEnvelope path).pitches ∧
    VelocityWithin (pathEnvelope path).speed m ∧
    ∀ a k₁ b c₁ m₁, past = a ++ k₁ :: b → (∀ k' ∈ a ++ [k₁], StaysPathActive k') →
      k₁.event = .tick c₁ → .trajectorySetpoint m₁ ∈ k₁.out →
      Commands m₁ (k₁.target path c₁).place (k₁.target path c₁).pitch ∧
        ‖(k.target path c).place - (k₁.target path c₁).place‖ ≤
          (pathEnvelope path).speed * (secs (c.now - c₁.now) : ℝ) ∧
        |(k.target path c).pitch - (k₁.target path c₁).pitch| ≤
          (pathEnvelope path).pitchRate * (secs (c.now - c₁.now) : ℝ)

/-- The setpoints of every run that follow a path. -/
theorem path_slew {p : Parameters} {t₀ t : Time} {h : History} {s : Px4PositionCommand}
    (hrun : IsRun p t₀ h s t) :
    OnTicks (fun c k past => k.pre.controlMode = .pathActive →
      SlewsWithin p.path c k past) h := by
  rw [onTicks_iff_append]
  rintro a k past c rfl hc hm m hset
  obtain ⟨s', t', hr, -⟩ := hrun.of_append
  cases hr with
  | @handle _ s t e hr hin _ =>
    obtain rfl : e = .tick c := hc
    have hwithin := pathTarget_staysWithin p.path
    obtain ⟨h0, hcommands, hvelocity⟩ := IsRun.path_setpoint hr hin hm hset
    have h0' : (0 : ℝ) ≤ s.trajectoryTimeSec c := by exact_mod_cast h0
    refine ⟨h0, hcommands, hwithin.place _ h0', hwithin.pitch _ h0', hvelocity, ?_⟩
    rintro b k₁ past₁ c₁ m₁ rfl hstay hc₁ hset₁
    have hstart := IsRun.trajectoryStart_of_stays hr hstay
    obtain ⟨s₁, t₁, hr₁, hle₁⟩ := hr.of_append
    cases hr₁ with
    | @handle _ s₁ t₁ e hr₁ hin₁ hout₁ =>
      obtain rfl : e = .tick c₁ := hc₁
      have hm₁ : s₁.controlMode = .pathActive :=
        (hstay _ (List.mem_append_right b (List.mem_singleton_self _))).1
      obtain ⟨h0₁, hcommands₁, -⟩ := IsRun.path_setpoint hr₁ hin₁ hm₁ hset₁
      have h0₁' : (0 : ℝ) ≤ s₁.trajectoryTimeSec c₁ := by exact_mod_cast h0₁
      -- the trajectory times are as far apart as the ticks
      have hbetween : |(s.trajectoryTimeSec c : ℝ) - s₁.trajectoryTimeSec c₁| =
          (secs (c.now - c₁.now) : ℝ) := by
        have hdiff : s.trajectoryTimeSec c - s₁.trajectoryTimeSec c₁ = secs (c.now - c₁.now) := by
          have hstart : s.trajectoryStartTimeSec = s₁.trajectoryStartTimeSec := hstart
          rw [trajectoryTimeSec, trajectoryTimeSec, hstart, (IsRun.reflects hr).elapsedSec_eq,
            (IsRun.reflects hr₁).elapsedSec_eq]
          unfold secs
          push_cast
          ring
        have hle : c₁.now ≤ c.now := hout₁.trans (hle₁.trans hin)
        have hnonneg : 0 ≤ secs (c.now - c₁.now) := by
          simpa [secs] using secs_mono (sub_nonneg.mpr hle)
        rw [← Rat.cast_sub, hdiff, abs_of_nonneg (by exact_mod_cast hnonneg)]
      refine ⟨hcommands₁, ?_, ?_⟩
      · rw [← hbetween]
        exact hwithin.speed _ _ h0₁' h0'
      · rw [← hbetween]
        exact hwithin.pitchRate _ _ h0₁' h0'

/-- The hovering vehicle again, with a second tick on the path. -/
noncomputable def slewEvents : List Event := pathEvents ++ [tickAt 900000000]

theorem path_slew_hovering :
    OnTicks (fun c k past => k.pre.controlMode = .pathActive →
      SlewsWithin "pos" c k past) (node.trace (construct {} 0) slewEvents []) := by
  have htimed : node.Timed 0 slewEvents := by
    simp [slewEvents, pathEvents, tickAt, clockAt, Machine.Timed, node, Event.enter, Event.leave]
  obtain ⟨s, t, hr⟩ := Machine.run_trace (construct {} 0) 0 slewEvents htimed
  exact path_slew hr

end Px4PositionCommand

end Hummingbird
