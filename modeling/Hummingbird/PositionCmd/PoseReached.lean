/-
  What `initial_pose_reached` promises when it answers `true`.

  On numbers the check compares the distance, the heading and the roll and pitch of the
  normalized attitude with the tolerances, each angle modulo a turn (`initialPoseReached_iff`).
  For a nonzero quaternion the roll and pitch are those of the rotation it stands for, and the
  answer depends on this rotation only. The zero quaternion is finite, `normalized()` leaves it
  alone, and it passes for roll and pitch 0: `reachedSoundly_iff` says that this is the only way
  for the check to accept what it should not.
-/
import Hummingbird.PositionCmd.Node
import Hummingbird.Utils.AttitudeAngles

namespace Hummingbird

open WithNaN Rotation Real AddCommGroup

/-! ## The error of an angle -/

theorem angleErrorAbs_num (a b : ℝ) :
    angleErrorAbs (num a) (num b) = angleDist (num a) (num b) := by
  obtain ⟨u, hu, hmod, hle⟩ := unwrapNear_num a b
  rw [angleErrorAbs, hu, angleDist_of_modEq hmod hle]
  rfl

theorem angleErrorAbs_num_right (a : Double) (b : ℝ) :
    angleErrorAbs a (num b) = angleDist a (num b) := by
  cases a with
  | nan => rw [angleErrorAbs, unwrapNear_nan_left]; rfl
  | num a => exact angleErrorAbs_num a b

/-- The distance depends on the angle only up to whole turns. -/
theorem angleDist_congr {a a' : ℝ} (b : ℝ) (h : (a : Real.Angle) = a') :
    angleDist (num a) (num b) = angleDist (num a') (num b) := by
  rw [angleDist_num, angleDist_num, Real.Angle.coe_sub, Real.Angle.coe_sub, h]

theorem Double.max_num_le {a b t : ℝ} : Double.max (num a) (num b) ≤ num t ↔ a ≤ t ∧ b ≤ t := by
  unfold Double.max
  split
  · rename_i h
    exact ⟨fun hb => ⟨(le_of_lt h).trans hb, hb⟩, fun hab => hab.2⟩
  · rename_i h
    exact ⟨fun ha => ⟨ha, (not_lt.mp h).trans ha⟩, fun hab => hab.1⟩

/-- Eigen's normalization on numbers; the zero quaternion stays as it is. -/
theorem Quaternion.normalized_ofReal (q : Quat) :
    (Quaternion.ofReal q).normalized = Quaternion.ofReal (‖q‖⁻¹ • q) := by
  have hsq : (Quaternion.ofReal q).squaredNorm = num (‖q‖ * ‖q‖) := by
    rw [← components_mul_self]
    rfl
  unfold normalized
  simp only [hsq, zero_eq, num_lt_num, Double.sqrt_num, Real.sqrt_mul_self (norm_nonneg q)]
  split
  · simp only [Quaternion.ofReal, num_div]
    congr 2 <;> simp [div_eq_inv_mul]
  · rename_i h
    have hq : q = 0 := by
      by_contra hne
      exact h (mul_pos (norm_pos_iff.mpr hne) (norm_pos_iff.mpr hne))
    rw [hq, smul_zero]

/-- The rotation that a nonzero quaternion stands for. -/
noncomputable def rotationOf (q : Quat) : Matrix (Fin 3) (Fin 3) ℝ :=
  Rotation.matrix (‖q‖⁻¹ • q)

theorem rotationOf_mem {q : Quat} (hq : q ≠ 0) : rotationOf q ∈ SO3 := by
  refine matrix_mem ?_
  rw [norm_smul, norm_inv, norm_norm, inv_mul_cancel₀ (norm_ne_zero_iff.mpr hq)]

/-- Without a rotation to stand for, the zero quaternion gets the matrix of the identity. -/
theorem rotationOf_zero : rotationOf 0 = 1 := by
  rw [rotationOf, smul_zero, matrix_zero]

/-- A nonzero multiple stands for the same rotation. -/
theorem rotationOf_smul {c : ℝ} (hc : c ≠ 0) (q : Quat) : rotationOf (c • q) = rotationOf q := by
  have habs : |c| ≠ 0 := abs_ne_zero.mpr hc
  have hunit : ‖c • q‖⁻¹ • c • q = (c / |c|) • ‖q‖⁻¹ • q := by
    rw [norm_smul, Real.norm_eq_abs, mul_inv, smul_smul, smul_smul]
    congr 1
    ring
  rw [rotationOf, hunit, (upToSign_pivot hc _).matrix_eq, rotationOf]

namespace Px4PositionCommand

/-! ## What reaching the initial pose means -/

section Meaning

variable (s : Px4PositionCommand) (target : TargetCMD ℝ) (later : Time)

/-- The position is valid, no older than the timeout and within `pos_tol` of the target. -/
structure AtPosition : Prop where
  received : s.hasLocalPosition = true
  xyValid : s.localPosition.xyValid = true
  zValid : s.localPosition.zValid = true
  recent : secs (later - s.lastLocalPositionTime) ≤ messageTimeoutSec
  close : Vector3.dist ⟨s.localPosition.x, s.localPosition.y, s.localPosition.z⟩
    ⟨num target.x, num target.y, num target.z⟩ ≤ num posTol

/-- The heading is within `yaw_tol` of the yaw of the target, up to whole turns. -/
def AtHeading : Prop :=
  angleDist s.localPosition.heading (num target.yaw) ≤ num yawTol

/-- An attitude has been received and is no older than the timeout. -/
structure AttitudeRecent : Prop where
  received : s.hasVehicleAttitude = true
  recent : secs (later - s.lastVehicleAttitudeTime) ≤ messageTimeoutSec

/-- A roll and a pitch are within `att_tol` of the target, up to whole turns. -/
def AtRollPitch (roll pitch : ℝ) : Prop :=
  angleDist (num roll) (num target.roll) ≤ num attTol ∧
    angleDist (num pitch) (num target.pitch) ≤ num attTol

/-- The quaternion is an attitude whose roll and pitch are within `att_tol` of the target: those
    of some yaw, pitch and roll that make up the rotation, and, where the rotation has only one
    roll and pitch, of all. -/
structure AtAttitude (q : Quat) : Prop where
  proper : q ≠ 0
  angles : ∃ roll pitch yaw, pitch ∈ Set.Icc (-(π / 2)) (π / 2) ∧
    zyx roll pitch yaw = rotationOf q ∧ AtRollPitch target roll pitch
  only : ∀ roll pitch yaw, pitch ∈ Set.Ioo (-(π / 2)) (π / 2) →
    zyx roll pitch yaw = rotationOf q → AtRollPitch target roll pitch

/-- The node with another quaternion in the attitude message it received last. -/
def withAttitude (q : Quat) : Px4PositionCommand :=
  { s with vehicleAttitude := ⟨Quaternion.ofReal q⟩ }

/-- A `true` of `initial_pose_reached` is sound, and its answer depends on the attitude only
    through the rotation. -/
structure ReachedSoundly : Prop where
  sound : s.initialPoseReached (target.map num) later = true →
    AtPosition s target later ∧ AtHeading s target ∧ AttitudeRecent s later ∧
      ∃ q, s.vehicleAttitude.q = Quaternion.ofReal q ∧ AtAttitude target q
  scaled : ∀ (q : Quat) (c : ℝ), s.vehicleAttitude.q = Quaternion.ofReal q → c ≠ 0 →
    (s.withAttitude (c • q)).initialPoseReached (target.map num) later =
      s.initialPoseReached (target.map num) later

/-- The last attitude message holds the zero quaternion, everything else is at the target, and
    the target's roll and pitch are within `att_tol` of 0. -/
structure ZeroAttitudeAtTarget : Prop where
  zero : s.vehicleAttitude.q = Quaternion.ofReal 0
  position : AtPosition s target later
  heading : AtHeading s target
  recent : AttitudeRecent s later
  level : AtRollPitch target 0 0

end Meaning

/-! ## The check on numbers -/

section Check

variable {s : Px4PositionCommand} {target : TargetCMD ℝ} {later : Time} {q : Quat}

/-- Every handoff tick calls the check with a target on numbers. -/
theorem handoffTarget_num (s : Px4PositionCommand) :
    ∃ target : TargetCMD ℝ, s.handoffTarget = target.map num := by
  obtain ⟨yaw, hyaw⟩ := isNum_iff.mp (isNum_unwrapNear_num initialPoseYawRad s.lastTarget.yaw)
  refine ⟨⟨initialPoseXM, initialPoseYM, initialPoseZM, 0, 0, initialPoseRollRad,
    initialPosePitchRad, yaw⟩, ?_⟩
  rw [TargetCMD.map, ← hyaw]
  rfl

theorem vehicleAttitudeFresh_ofReal (hq : s.vehicleAttitude.q = Quaternion.ofReal q) :
    s.vehicleAttitudeFresh later = true ↔ AttitudeRecent s later := by
  have hfinite : s.vehicleAttitude.q.w.isfinite = true ∧ s.vehicleAttitude.q.x.isfinite = true ∧
      s.vehicleAttitude.q.y.isfinite = true ∧ s.vehicleAttitude.q.z.isfinite = true := by
    rw [hq]
    exact ⟨rfl, rfl, rfl, rfl⟩
  obtain ⟨hw, hx, hy, hz⟩ := hfinite
  simp only [vehicleAttitudeFresh, hw, hx, hy, hz, Bool.and_true, Bool.and_eq_true,
    decide_eq_true_eq]
  exact ⟨fun h => ⟨h.1, h.2⟩, fun h => ⟨h.received, h.recent⟩⟩

/-- The check on a quaternion of numbers. -/
theorem initialPoseReached_iff (hq : s.vehicleAttitude.q = Quaternion.ofReal q) :
    s.initialPoseReached (target.map num) later = true ↔
      AtPosition s target later ∧ AtHeading s target ∧ AttitudeRecent s later ∧
        AtRollPitch target (rollOf (rotationOf q)) (pitchOf (rotationOf q)) := by
  have hposition : AtPosition s target later ↔ s.localPositionFresh later = true ∧
      Vector3.dist ⟨s.localPosition.x, s.localPosition.y, s.localPosition.z⟩
        ⟨num target.x, num target.y, num target.z⟩ ≤ num posTol := by
    simp only [localPositionFresh, Bool.and_eq_true, decide_eq_true_eq]
    exact ⟨fun h => ⟨⟨⟨⟨h.received, h.xyValid⟩, h.zValid⟩, h.recent⟩, h.close⟩,
      fun ⟨⟨⟨⟨h1, h2⟩, h3⟩, h4⟩, h5⟩ => ⟨h1, h2, h3, h4, h5⟩⟩
  rw [hposition, ← vehicleAttitudeFresh_ofReal hq]
  unfold initialPoseReached
  rw [hq, Quaternion.normalized_ofReal, quatToRpy_ofReal]
  dsimp only [TargetCMD.map]
  rw [angleErrorAbs_num, angleErrorAbs_num, angleErrorAbs_num_right]
  cases s.localPositionFresh later <;> cases s.vehicleAttitudeFresh later <;>
    simp [AtHeading, AtRollPitch, rotationOf, Double.max_num_le, Vector3.dist, and_assoc]

/-- The check accepts no attitude with a NaN. -/
theorem exists_ofReal_of_reached (h : s.initialPoseReached (target.map num) later = true) :
    ∃ q, s.vehicleAttitude.q = Quaternion.ofReal q := by
  have hfresh : s.vehicleAttitudeFresh later = true := by
    by_contra hn
    simp [initialPoseReached, hn] at h
  simp only [vehicleAttitudeFresh, Bool.and_eq_true, Double.isfinite_iff] at hfresh
  obtain ⟨⟨⟨⟨-, hw⟩, hx⟩, hy⟩, hz⟩ := hfresh
  obtain ⟨w, hw⟩ := isNum_iff.mp hw
  obtain ⟨x, hx⟩ := isNum_iff.mp hx
  obtain ⟨y, hy⟩ := isNum_iff.mp hy
  obtain ⟨z, hz⟩ := isNum_iff.mp hz
  refine ⟨quat w x y z, ?_⟩
  show s.vehicleAttitude.q = ⟨num w, num x, num y, num z⟩
  rw [← hw, ← hx, ← hy, ← hz]

/-! ## Soundness -/

/-- For a nonzero quaternion the roll and pitch compared are those of its rotation. -/
theorem atAttitude_of_atRollPitch (hq : q ≠ 0)
    (h : AtRollPitch target (rollOf (rotationOf q)) (pitchOf (rotationOf q))) :
    AtAttitude target q := by
  refine ⟨hq, ?_, ?_⟩
  · obtain ⟨yaw, hyaw⟩ := exists_yaw (rotationOf_mem hq)
    exact ⟨_, _, yaw, pitchOf_mem _, hyaw, h⟩
  · rintro roll pitch yaw hp hrot
    rw [← hrot, pitchOf_zyx ⟨hp.1.le, hp.2.le⟩] at h
    refine ⟨?_, h.2⟩
    rw [← angleDist_congr target.roll (rollOf_zyx_angle (cos_pos_of_mem_Ioo hp))]
    exact h.1

/-- The check sees the quaternion only through its rotation. -/
theorem initialPoseReached_smul (hq : s.vehicleAttitude.q = Quaternion.ofReal q) {c : ℝ}
    (hc : c ≠ 0) : (s.withAttitude (c • q)).initialPoseReached (target.map num) later =
      s.initialPoseReached (target.map num) later := by
  have hscaled : (s.withAttitude (c • q)).vehicleAttitude.q = Quaternion.ofReal (c • q) := rfl
  rw [Bool.eq_iff_iff, initialPoseReached_iff hscaled, initialPoseReached_iff hq,
    rotationOf_smul hc]
  constructor
  · rintro ⟨hp, hh, ha, hr⟩
    exact ⟨⟨hp.1, hp.2, hp.3, hp.4, hp.5⟩, hh, ⟨ha.1, ha.2⟩, hr⟩
  · rintro ⟨hp, hh, ha, hr⟩
    exact ⟨⟨hp.1, hp.2, hp.3, hp.4, hp.5⟩, hh, ⟨ha.1, ha.2⟩, hr⟩

theorem ofReal_injective {p q : Quat} (h : Quaternion.ofReal p = Quaternion.ofReal q) : p = q :=
  Option.some.inj (congrArg Quaternion.reals h)

theorem zeroAttitudeAtTarget_iff :
    ZeroAttitudeAtTarget s target later ↔ s.vehicleAttitude.q = Quaternion.ofReal 0 ∧
      s.initialPoseReached (target.map num) later = true := by
  have hroll : rollOf (rotationOf 0) = 0 := by
    rw [rotationOf_zero, rollOf, Matrix.one_apply_eq, Matrix.one_apply_ne (by decide)]
    exact Complex.arg_one
  have hpitch : pitchOf (rotationOf 0) = 0 := by
    rw [rotationOf_zero, pitchOf, Matrix.one_apply_ne (by decide), neg_zero, arcsin_zero]
  constructor
  · rintro ⟨hq, hp, hh, ha, hr⟩
    refine ⟨hq, (initialPoseReached_iff hq).mpr ⟨hp, hh, ha, ?_⟩⟩
    rw [hroll, hpitch]
    exact hr
  · rintro ⟨hq, hreached⟩
    obtain ⟨hp, hh, ha, hr⟩ := (initialPoseReached_iff hq).mp hreached
    rw [hroll, hpitch] at hr
    exact ⟨hq, hp, hh, ha, hr⟩

/-- The check is sound except for the zero quaternion at a level target. -/
theorem reachedSoundly_iff (s : Px4PositionCommand) (target : TargetCMD ℝ) (later : Time) :
    ReachedSoundly s target later ↔ ¬ ZeroAttitudeAtTarget s target later := by
  rw [zeroAttitudeAtTarget_iff]
  constructor
  · rintro h ⟨hzero, hreached⟩
    obtain ⟨-, -, -, q, hq, hatt⟩ := h.sound hreached
    exact hatt.proper (ofReal_injective (hq.symm.trans hzero))
  · intro h
    constructor
    · intro hreached
      obtain ⟨q, hq⟩ := exists_ofReal_of_reached hreached
      obtain ⟨hp, hh, ha, hr⟩ := (initialPoseReached_iff hq).mp hreached
      refine ⟨hp, hh, ha, q, hq, atAttitude_of_atRollPitch ?_ hr⟩
      rintro rfl
      exact h ⟨hq, hreached⟩
    · intro q c hq hc
      exact initialPoseReached_smul hq hc

/-- At the initial pose, with an attitude message that holds four zeros. -/
noncomputable def zeroAttitudeState : Px4PositionCommand :=
  { construct {} 0 with
    hasLocalPosition := true
    localPosition :=
      { xyValid := true, zValid := true, x := num initialPoseXM, y := num initialPoseYM
        z := num initialPoseZM, heading := num initialPoseYawRad }
    hasVehicleAttitude := true }

/-- The target of a handoff tick in this state. -/
noncomputable def levelTarget : TargetCMD ℝ :=
  ⟨initialPoseXM, initialPoseYM, initialPoseZM, 0, 0, initialPoseRollRad, initialPosePitchRad,
    initialPoseYawRad⟩

theorem reachedSoundly_fails :
    ¬ ∀ (s : Px4PositionCommand) (target : TargetCMD ℝ) (later : Time),
      ReachedSoundly s target later := by
  intro hall
  have hpi := pi_pos
  have hself : ∀ a t : ℝ, 0 ≤ t → angleDist (num a) (num a) ≤ num t := by
    intro a t ht
    simpa [angleDist_num] using ht
  have hyaw : 0 ≤ yawTol := by
    unfold yawTol
    positivity
  have hatt : 0 ≤ attTol := by
    unfold attTol
    positivity
  have hnew : secs (0 - 0) ≤ messageTimeoutSec := by norm_num [secs, messageTimeoutSec]
  refine (reachedSoundly_iff zeroAttitudeState levelTarget 0).mp (hall _ _ _)
    ⟨rfl, ⟨rfl, rfl, rfl, hnew, ?_⟩, hself _ _ hyaw, ⟨rfl, hnew⟩, hself _ _ hatt, hself _ _ hatt⟩
  norm_num [zeroAttitudeState, levelTarget, Vector3.dist, Vector3.norm, posTol]

end Check

end Px4PositionCommand

end Hummingbird
