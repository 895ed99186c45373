/-
  Which setpoints of `Px4PositionCommand` are usable: finite position, unit quaternion.

  A path setpoint always is. A handoff setpoint is built from the six filters, and these are
  seeded at `start_RC2DDS_handoff` from `vehicle_local_position`. Position is guarded by the
  validity flags there, the heading is not: a NaN heading goes into the yaw filter, every
  update keeps it (`SeededFilters.step`), and every quaternion of that handoff is NaN.
  `usable_iff` says that this is the only way to an unusable setpoint.
-/
import Hummingbird.PositionCmd.HandoffTrajectory

namespace Hummingbird

namespace Px4PositionCommand

open WithNaN

/-- Three finite position components and a finite quaternion of norm 1. -/
def Usable (m : TrajectorySetpoint6dof) : Prop :=
  m.position.x.IsNum ∧ m.position.y.IsNum ∧ m.position.z.IsNum ∧ m.quaternion.IsUnit

/-- Every setpoint of the step is usable. -/
def PublishesUsable (k : Entry) : Prop := ∀ m, .trajectorySetpoint m ∈ k.out → Usable m

/-- What PX4 promises of `VehicleLocalPosition`: `x`, `y`, `z` are finite when `xy_valid` and
    `z_valid` hold. -/
def ValidPositionsFinite (h : History) : Prop :=
  ∀ k ∈ h, ∀ now m, k.event = .vehicleLocalPosition now m → m.xyValid = true →
    m.zValid = true → m.x.IsNum ∧ m.y.IsNum ∧ m.z.IsNum

/-- The last local position is valid and fresh at the time `later`, with a NaN heading. -/
def HeadingNaN (h : History) (later : Time) : Prop :=
  ∃ t m, lastLocalPosition h = some (t, m) ∧ ((m.xyValid = true ∧ m.zValid = true ∧
    secs (later - t) ≤ messageTimeoutSec) ∧ m.heading = nan)

/-- The run is in a handoff whose start read a NaN heading. -/
def SeededWithNaN (h : History) : Prop :=
  Past.Since (Past.Newest StaysInHandoff)
    (Past.At fun k past => StartedHandoff k ∧ ∃ c, k.event = .tick c ∧ HeadingNaN past c.later) h

/-! ## The filters -/

/-- The filters hold numbers, except that the yaw filter holds NaN exactly if `nanYaw`. -/
structure SeededFilters (nanYaw : Prop) (f : HandoffFilters) : Prop where
  ready : f.Ready
  x : f.x.y.IsNum
  y : f.y.y.IsNum
  z : f.z.y.IsNum
  roll : f.roll.y.IsNum
  pitch : f.pitch.y.IsNum
  yaw : ¬ f.yaw.y.IsNum ↔ nanYaw

/-- One handoff tick keeps what the filters were seeded with. -/
theorem SeededFilters.step {nanYaw : Prop} {f : HandoffFilters} (hf : SeededFilters nanYaw f)
    (reference : Double) :
    SeededFilters nanYaw
      (f.step { initialPose with yaw := unwrapNear initialPose.yaw reference }) := by
  have hyaw : (unwrapNear (unwrapNear initialPose.yaw reference) f.yaw.y).IsNum := by
    obtain ⟨v, hv⟩ := isNum_iff.mp (isNum_unwrapNear_num initialPoseYawRad reference)
    rw [show initialPose.yaw = num initialPoseYawRad from rfl, hv]
    exact isNum_unwrapNear_num v _
  refine ⟨hf.ready.tuned.step _, ?_, ?_, ?_, ?_, ?_, ?_⟩
  · exact (LPF.isNum_update_y_iff hf.ready.x.2 (isNum_num _)).mpr hf.x
  · exact (LPF.isNum_update_y_iff hf.ready.y.2 (isNum_num _)).mpr hf.y
  · exact (LPF.isNum_update_y_iff hf.ready.z.2 (isNum_num _)).mpr hf.z
  · exact (LPF.isNum_update_y_iff hf.ready.roll.2 (isNum_num _)).mpr hf.roll
  · exact (LPF.isNum_update_y_iff hf.ready.pitch.2 (isNum_num _)).mpr hf.pitch
  · exact (LPF.isNum_update_y_iff hf.ready.yaw.2 hyaw).not.trans hf.yaw

/-- A handoff setpoint is usable unless the yaw filter holds NaN. -/
theorem SeededFilters.setpoint_usable_iff {nanYaw : Prop} {f : HandoffFilters}
    (hf : SeededFilters nanYaw f) (timestampUs : UInt64) :
    Usable (handoffSetpoint timestampUs f.output) ↔ ¬ nanYaw := by
  rw [← hf.yaw, not_not]
  obtain ⟨roll, hroll⟩ := isNum_iff.mp hf.roll
  obtain ⟨pitch, hpitch⟩ := isNum_iff.mp hf.pitch
  have hquat : (handoffSetpoint timestampUs f.output).quaternion =
      rpyToQuat ⟨num roll, num pitch, f.yaw.y⟩ := by
    simp [handoffSetpoint, HandoffFilters.output, hroll, hpitch]
  constructor
  · rintro ⟨-, -, -, hunit⟩
    rw [hquat] at hunit
    by_contra hnan
    rw [not_isNum_iff.mp hnan, rpyToQuat_nan_yaw] at hunit
    exact hunit.1
  · intro hnum
    obtain ⟨yaw, hyaw⟩ := isNum_iff.mp hnum
    refine ⟨hf.x, hf.y, hf.z, ?_⟩
    rw [hquat, hyaw]
    exact rpyToQuat_isUnit roll pitch yaw

/-- A path setpoint at the initial position is usable. -/
theorem AtInitialPosition.usable {s : Px4PositionCommand} (hs : AtInitialPosition s)
    (timestampUs : UInt64) (elapsedSec : ℚ) :
    Usable (pathSetpoint timestampUs s.trajectoryName (s.pathCommand elapsedSec)) := by
  refine ⟨?_, ?_, ?_, ?_⟩
  · simp [pathSetpoint, pathCommand, hs.x, TargetCMD.map]
  · simp [pathSetpoint, pathCommand, hs.y, TargetCMD.map]
  · simp [pathSetpoint, pathCommand, hs.z, TargetCMD.map]
  · exact rpyToQuat_isUnit _ _ _

/-! ## Along a run -/

section Runs

variable {p : Parameters} {t₀ t : Time} {h : History} {s : Px4PositionCommand}

theorem ValidPositionsFinite.of_append {a b : History} (hv : ValidPositionsFinite (a ++ b)) :
    ValidPositionsFinite b :=
  fun k hk => hv k (List.mem_append_right a hk)

/-- The last local position is one of those received. -/
theorem ValidPositionsFinite.last (hv : ValidPositionsFinite h) {now : Time}
    {m : VehicleLocalPosition} (hlast : lastLocalPosition h = some (now, m))
    (hxy : m.xyValid = true) (hz : m.zValid = true) : m.x.IsNum ∧ m.y.IsNum ∧ m.z.IsNum := by
  obtain ⟨k, hk, hrecv⟩ := List.exists_of_findSome?_eq_some hlast
  refine hv k hk now m ?_ hxy hz
  cases he : k.event with
  | vehicleLocalPosition now' m' =>
    rw [he] at hrecv
    obtain ⟨rfl, rfl⟩ := Prod.mk.inj (Option.some.inj hrecv)
    rfl
  | _ => simp [he, Event.receivedLocalPosition] at hrecv

/-- The start pose has a finite position. -/
theorem Reflects.handoffStart_position (hs : Reflects p t₀ h s) (hv : ValidPositionsFinite h)
    (later : Time) : (s.handoffStart later).x.IsNum ∧ (s.handoffStart later).y.IsNum ∧
      (s.handoffStart later).z.IsNum := by
  unfold handoffStart
  split
  · rename_i hfresh
    have hcond : s.hasLocalPosition = true ∧ (s.localPosition.xyValid = true ∧
        s.localPosition.zValid = true) := by
      simp only [localPositionFresh, Bool.and_eq_true] at hfresh
      exact ⟨hfresh.1.1.1, hfresh.1.1.2, hfresh.1.2⟩
    have hlast := hs.localPosition
    revert hlast
    cases hrecv : lastLocalPosition h with
    | none =>
      rintro ⟨hno, -⟩
      simp [hcond.1] at hno
    | some r =>
      rintro ⟨-, -, hm⟩
      rw [hm] at hcond ⊢
      exact hv.last hrecv hcond.2.1 hcond.2.2
  · exact ⟨trivial, trivial, trivial⟩

/-- The start yaw is NaN exactly if the heading that it is read from is. -/
theorem Reflects.handoffStart_yaw_iff (hs : Reflects p t₀ h s) (later : Time) :
    ¬ (s.handoffStart later).yaw.IsNum ↔ HeadingNaN h later := by
  unfold HeadingNaN
  rw [← hs.localPosition.iff fun t m => (m.xyValid = true ∧ m.zValid = true ∧
    secs (later - t) ≤ messageTimeoutSec) ∧ m.heading = nan, not_isNum_iff]
  have hfresh : s.localPositionFresh later = true ↔ s.hasLocalPosition = true ∧
      s.localPosition.xyValid = true ∧ s.localPosition.zValid = true ∧
      secs (later - s.lastLocalPositionTime) ≤ messageTimeoutSec := by
    simp [localPositionFresh, and_assoc]
  rw [← and_assoc, ← hfresh, handoffStart]
  cases s.localPositionFresh later <;> simp [initialPose]

/-- Along a handoff the filters hold what its start put into them. -/
theorem IsRun.seededFilters (hr : IsRun p t₀ h s t) :
    ValidPositionsFinite h → s.controlMode = .rc2ddsHandoff →
      SeededFilters (SeededWithNaN h) s.rc2ddsHandoffFilters := by
  refine Machine.Run.invariant (P := fun h s _ => ValidPositionsFinite h →
    s.controlMode = .rc2ddsHandoff →
      SeededFilters (SeededWithNaN h) s.rc2ddsHandoffFilters) hr ?_ ?_
  · intro _ hm
    simp [construct] at hm
  · intro h s t e hr ih _ _ hv hm'
    have hvalid : ValidPositionsFinite h := hv.of_append (a := [_])
    have hs := IsRun.reflects hr
    by_cases hm : s.controlMode = .rc2ddsHandoff
    · -- the step stays in the handoff
      have hseed : SeededWithNaN (node.record s e :: h) ↔ SeededWithNaN h := by
        unfold SeededWithNaN
        rw [Past.since_cons]
        constructor
        · rintro (⟨hstart, -⟩ | ⟨-, hseed⟩)
          · exact absurd hm hstart.1
          · exact hseed
        · intro hseed
          exact Or.inr ⟨⟨hm, hm'⟩, hseed⟩
      rw [hseed]
      have hf := ih hvalid hm
      cases e with
      | tick c =>
        rcases (onTick_branch s c).handoff_cases hm hm' with ⟨-, hfilters, -⟩ | ⟨-, hfilters, -⟩
        · show SeededFilters _ (s.onTick c).1.rc2ddsHandoffFilters
          rw [hfilters]
          exact hf.step _
        · show SeededFilters _ (s.onTick c).1.rc2ddsHandoffFilters
          rw [hfilters]
          exact hf
      | _ => exact hf
    · -- the step starts the handoff
      cases e with
      | tick c =>
        have hstart : StartedHandoff (node.record s (.tick c)) := ⟨hm, hm'⟩
        have hpost := ((onTick_branch s c).startHandoff_inv hm hm').1
        have hpos := hs.handoffStart_position hvalid c.later
        have hseed : SeededWithNaN (node.record s (.tick c) :: h) ↔ HeadingNaN h c.later := by
          unfold SeededWithNaN
          rw [Past.since_cons]
          constructor
          · rintro (⟨-, c', hc, hnan⟩ | ⟨hstay, -⟩)
            · obtain rfl := Event.tick.inj hc
              exact hnan
            · exact absurd hstay.1 hm
          · intro hnan
            exact Or.inl ⟨hstart, c, rfl, hnan⟩
        rw [hseed, ← hs.handoffStart_yaw_iff]
        show SeededFilters _ (s.onTick c).1.rc2ddsHandoffFilters
        rw [hpost]
        refine ⟨(IsRun.tuned hr).reset _, hpos.1, hpos.2.1, hpos.2.2, ?_, ?_, Iff.rfl⟩
        · show (s.handoffStart c.later).roll.IsNum
          unfold handoffStart
          split <;> trivial
        · show (s.handoffStart c.later).pitch.IsNum
          unfold handoffStart
          split <;> trivial
      | _ => exact absurd hm' hm

/-- When the setpoint of a handoff tick is usable. -/
theorem IsRun.handoff_usable_iff (hr : IsRun p t₀ h s t) (hv : ValidPositionsFinite h)
    {c : TickClock} (hm : s.controlMode = .rc2ddsHandoff)
    (hset : PublishesSetpoint (node.record s (.tick c))) :
    PublishesUsable (node.record s (.tick c)) ↔ ¬ SeededWithNaN h := by
  have hout := (onTick_branch s c).handoff_out hm hset
  have hf : SeededFilters (SeededWithNaN h) s.handoffFilters :=
    (IsRun.seededFilters hr hv hm).step _
  rw [← hf.setpoint_usable_iff c.timestampUs]
  constructor
  · intro h
    refine h _ ?_
    show _ ∈ (s.onTick c).2
    rw [hout]
    exact List.mem_cons_of_mem _ (List.mem_singleton_self _)
  · intro h m hm
    have hm : .trajectorySetpoint m ∈ (s.onTick c).2 := hm
    rw [hout] at hm
    rcases List.mem_pair.mp hm with hm | hm
    · simp [heartbeat] at hm
    · obtain rfl := Publication.trajectorySetpoint.inj hm
      exact h

/-- The tick publishes a setpoint of a handoff that was seeded with a NaN heading. -/
def PublishesSeededWithNaN (c : TickClock) (k : Entry) (past : History) : Prop :=
  DdsControl past c.now ∧ StatusFresh past c.now ∧ k.pre.controlMode = .rc2ddsHandoff ∧
    SeededWithNaN past

/-- The setpoint of a path tick is usable. -/
theorem IsRun.path_usable (hr : IsRun p t₀ h s t) {c : TickClock}
    (hd : s.ddsControlEnabled c.now = true) (hf : s.vehicleStatusFresh c.now = true)
    (hm : s.controlMode = .pathActive) (ha : s.activeState = true) :
    PublishesUsable (node.record s (.tick c)) := by
  intro m hmem
  have hmem : .trajectorySetpoint m ∈ (s.onTick c).2 := hmem
  rw [((onTick_branch s c).path_inv hd hf hm ha).2] at hmem
  rcases List.mem_pair.mp hmem with hmem | hmem
  · simp [heartbeat] at hmem
  · obtain rfl := Publication.trajectorySetpoint.inj hmem
    exact (IsRun.pathActive_since hr hm).1.usable _ _

/-- When the setpoint of a tick, if it publishes one, is usable. -/
theorem IsRun.tick_usable_iff (hr : IsRun p t₀ h s t) (hv : ValidPositionsFinite h)
    (c : TickClock) : PublishesUsable (node.record s (.tick c)) ↔
      ¬ PublishesSeededWithNaN c (node.record s (.tick c)) h := by
  have hs := IsRun.reflects hr
  have hb := onTick_branch s c
  unfold PublishesSeededWithNaN
  rw [← hs.ddsControlEnabled_iff, ← hs.vehicleStatusFresh_iff]
  by_cases hset : PublishesSetpoint (node.record s (.tick c))
  · obtain ⟨hd, hf, hdm | hdm⟩ := hb.setpoint_iff.mp hset
    · obtain ⟨hm, ha⟩ := dispatchMode_eq_pathActive_iff.mp hdm
      refine iff_of_true (IsRun.path_usable hr hd hf hm ha) ?_
      rintro ⟨-, -, hm', -⟩
      exact absurd (hm.symm.trans hm') (by decide)
    · have hm := dispatchMode_eq_rc2ddsHandoff_iff.mp hdm
      rw [IsRun.handoff_usable_iff hr hv hm hset]
      constructor
      · rintro hn ⟨-, -, -, hseed⟩
        exact hn hseed
      · intro hn hseed
        exact hn ⟨hd, hf, hm, hseed⟩
  · refine iff_of_true ?_ ?_
    · intro m hm
      exact absurd ⟨_, hm, trivial⟩ hset
    · rintro ⟨hd, hf, hm, -⟩
      exact hset (hb.setpoint_iff.mpr
        ⟨hd, hf, Or.inr (dispatchMode_eq_rc2ddsHandoff_iff.mpr hm)⟩)

/-- Every setpoint of a run is usable exactly if no handoff that published one was seeded with
    a NaN heading. -/
theorem usable_iff (hr : IsRun p t₀ h s t) (hv : ValidPositionsFinite h) :
    OnTicks (fun _ k _ => PublishesUsable k) h ↔
      OnTicks (fun c k past => ¬ PublishesSeededWithNaN c k past) h := by
  have hticks : OnTicks (fun c k past => ValidPositionsFinite past →
      (PublishesUsable k ↔ ¬ PublishesSeededWithNaN c k past)) h := by
    refine hr.onTicks ?_
    intro past s t c hr _ _ hv
    exact IsRun.tick_usable_iff hr hv c
  refine onTicks_congr (onTicks_iff_append.mpr ?_)
  intro a k b c he hk
  refine onTicks_iff_append.mp hticks a k b c he hk ?_
  rw [he] at hv
  exact (hv.of_append).of_append (a := [k])

end Runs

/-- A valid local position with a NaN heading, and a handoff that starts from it. -/
noncomputable def nanHeadingEvents : List Event :=
  [.hummingbirdStatus 0 ⟨hbCmdSourceDds⟩,
    .vehicleStatus 0 ⟨navigationStateOffboard, armingStateArmed⟩,
    .vehicleLocalPosition 0 ⟨true, true, num 0, num 0, num (-1), nan⟩,
    tickAt 600000000,
    tickAt 602500000]

theorem nanHeadingEvents_timed : node.Timed 0 nanHeadingEvents := by
  simp [nanHeadingEvents, tickAt, clockAt, Machine.Timed, node, Event.enter, Event.leave]

theorem nanHeadingEvents_valid :
    ValidPositionsFinite (node.trace (construct {} 0) nanHeadingEvents []) := by
  intro k hk now m he _ _
  simp only [nanHeadingEvents, Machine.trace, List.mem_cons, List.not_mem_nil, or_false] at hk
  rcases hk with rfl | rfl | rfl | rfl | rfl <;> cases he
  exact ⟨trivial, trivial, trivial⟩

theorem usable_iff_nanHeading :
    OnTicks (fun _ k _ => PublishesUsable k) (node.trace (construct {} 0) nanHeadingEvents []) ↔
      OnTicks (fun c k past => ¬ PublishesSeededWithNaN c k past)
        (node.trace (construct {} 0) nanHeadingEvents []) := by
  obtain ⟨s, t, hr⟩ :=
    Machine.run_trace (construct {} 0) 0 nanHeadingEvents nanHeadingEvents_timed
  exact usable_iff hr nanHeadingEvents_valid

theorem usable_fails :
    ¬ ∀ (p : Parameters) (t₀ t : Time) (h : History) (s : Px4PositionCommand),
      IsRun p t₀ h s t → ValidPositionsFinite h → OnTicks (fun _ k _ => PublishesUsable k) h := by
  intro hall
  obtain ⟨s, t, hr⟩ :=
    Machine.run_trace (construct {} 0) 0 nanHeadingEvents nanHeadingEvents_timed
  have hnew := (hall {} 0 t _ s hr nanHeadingEvents_valid).newest rfl
  obtain ⟨t', hr', -⟩ := Machine.Run.newest hr
  have hvalid := nanHeadingEvents_valid.of_append (a := [_])
  refine (IsRun.handoff_usable_iff hr' hvalid (by decide +kernel) ?_).mp hnew ?_
  · exact (onTick_branch _ _).setpoint_iff.mpr
      ⟨by decide +kernel, by decide +kernel, Or.inr (by decide +kernel)⟩
  · refine .here ⟨⟨by decide +kernel, by decide +kernel⟩, clockAt 600000000, rfl, 0, _, rfl, ?_⟩
    exact ⟨⟨rfl, rfl, by decide +kernel⟩, rfl⟩

end Px4PositionCommand

end Hummingbird
