/-
  `utils::rpyToQuat` and `utils::quatToRpy`.

  `rpyToQuat_num`: on numbers the quaternion has norm 1 before it is normalized, so the
  normalization changes nothing and the result is the product of the three half-angle
  rotations. `rpyToQuat_nan_yaw`: with a NaN yaw every component is NaN, and Eigen's
  `normalized()` (whose test on the squared norm is then false) keeps it so.
-/
import Hummingbird.Utils.Double

namespace Hummingbird

open WithNaN

/-- The roll, pitch and yaw vector of `utils.hpp`. -/
structure Rpy where
  roll : Double
  pitch : Double
  yaw : Double

noncomputable section

/-- The quaternion `q` of `utils::rpyToQuat` before it is normalized. -/
def halfAngleProduct (rpy : Rpy) : Quaternion :=
  let cr := ((1 / 2 : ℝ) • rpy.roll).cos
  let sr := ((1 / 2 : ℝ) • rpy.roll).sin
  let cp := ((1 / 2 : ℝ) • rpy.pitch).cos
  let sp := ((1 / 2 : ℝ) • rpy.pitch).sin
  let cy := ((1 / 2 : ℝ) • rpy.yaw).cos
  let sy := ((1 / 2 : ℝ) • rpy.yaw).sin
  { w := cr * cp * cy + sr * sp * sy
    x := sr * cp * cy - cr * sp * sy
    y := cr * sp * cy + sr * cp * sy
    z := cr * cp * sy - sr * sp * cy }

/-- `utils::rpyToQuat`. -/
def rpyToQuat (rpy : Rpy) : Quaternion :=
  (halfAngleProduct rpy).normalized

/-- `utils::quatToRpy`. -/
def quatToRpy (q : Quaternion) : Rpy :=
  let sinrCosp := (2 : ℝ) • (q.w * q.x + q.y * q.z)
  let cosrCosp := num 1 - (2 : ℝ) • (q.x * q.x + q.y * q.y)
  let sinp := (2 : ℝ) • (q.w * q.y - q.z * q.x)
  let sinyCosp := (2 : ℝ) • (q.w * q.z + q.x * q.y)
  let cosyCosp := num 1 - (2 : ℝ) • (q.y * q.y + q.z * q.z)
  { roll := Double.atan2 sinrCosp cosrCosp
    pitch := if num 1 ≤ sinp.abs then Double.copysign (num (Real.pi / 2)) sinp else sinp.asin
    yaw := Double.atan2 sinyCosp cosyCosp }

end

/-- All components are numbers and the norm is 1. -/
def Quaternion.IsUnit (q : Quaternion) : Prop :=
  q.w.IsNum ∧ q.x.IsNum ∧ q.y.IsNum ∧ q.z.IsNum ∧ q.squaredNorm = num 1

theorem Quaternion.IsUnit.normalized {q : Quaternion} (hq : q.IsUnit) : q.normalized = q :=
  normalized_of_unit hq.2.2.2.2 hq.1 hq.2.1 hq.2.2.1 hq.2.2.2.1

theorem halfAngleProduct_isUnit (roll pitch yaw : ℝ) :
    (halfAngleProduct ⟨num roll, num pitch, num yaw⟩).IsUnit := by
  refine ⟨trivial, trivial, trivial, trivial, ?_⟩
  have hr := Real.sin_sq_add_cos_sq (1 / 2 * roll)
  have hp := Real.sin_sq_add_cos_sq (1 / 2 * pitch)
  have hy := Real.sin_sq_add_cos_sq (1 / 2 * yaw)
  simp only [Quaternion.squaredNorm, halfAngleProduct, smul_num, smul_eq_mul, Double.cos_num,
    Double.sin_num, num_mul, num_add, num_sub, num_inj]
  set cr := Real.cos (1 / 2 * roll)
  set sr := Real.sin (1 / 2 * roll)
  set cp := Real.cos (1 / 2 * pitch)
  set sp := Real.sin (1 / 2 * pitch)
  set cy := Real.cos (1 / 2 * yaw)
  set sy := Real.sin (1 / 2 * yaw)
  -- the cross terms cancel and the squares factor over the three angles
  calc _ = (sr ^ 2 + cr ^ 2) * (sp ^ 2 + cp ^ 2) * (sy ^ 2 + cy ^ 2) := by ring
    _ = 1 := by rw [hr, hp, hy]; norm_num

theorem rpyToQuat_num (roll pitch yaw : ℝ) :
    rpyToQuat ⟨num roll, num pitch, num yaw⟩ = halfAngleProduct ⟨num roll, num pitch, num yaw⟩ :=
  (halfAngleProduct_isUnit roll pitch yaw).normalized

theorem rpyToQuat_isUnit (roll pitch yaw : ℝ) :
    (rpyToQuat ⟨num roll, num pitch, num yaw⟩).IsUnit := by
  rw [rpyToQuat_num]
  exact halfAngleProduct_isUnit roll pitch yaw

/-! ## The range of the angles -/

theorem abs_atan2_le {y x : Double} {m : ℝ} (h : Double.atan2 y x = num m) : |m| ≤ Real.pi := by
  unfold Double.atan2 at h
  cases y with
  | nan => simp at h
  | num y =>
    cases x with
    | nan => simp at h
    | num x =>
      obtain rfl := num.inj h
      exact Complex.abs_arg_le_pi _

/-- A roll that is a number is within half a turn of 0. -/
theorem abs_quatToRpy_roll_le {q : Quaternion} {m : ℝ} (h : (quatToRpy q).roll = num m) :
    |m| ≤ Real.pi :=
  abs_atan2_le h

/-- A pitch that is a number is within a quarter turn of 0. -/
theorem abs_quatToRpy_pitch_le {q : Quaternion} {m : ℝ} (h : (quatToRpy q).pitch = num m) :
    |m| ≤ Real.pi / 2 := by
  have hpi := Real.pi_pos
  unfold quatToRpy at h
  dsimp only at h
  revert h
  generalize (2 : ℝ) • (q.w * q.y - q.z * q.x) = sinp
  intro h
  split at h
  · unfold Double.copysign at h
    split at h
    · obtain rfl := num.inj h
      rw [abs_neg, abs_of_pos (by linarith)]
    · obtain rfl := num.inj h
      rw [abs_of_pos (by linarith)]
  · cases sinp with
    | nan => simp [Double.asin] at h
    | num v =>
      obtain rfl := num.inj h
      exact abs_le.mpr ⟨Real.neg_pi_div_two_le_arcsin v, Real.arcsin_le_pi_div_two v⟩

/-- A NaN yaw makes every component NaN. -/
theorem rpyToQuat_nan_yaw (roll pitch : Double) :
    rpyToQuat ⟨roll, pitch, nan⟩ = ⟨nan, nan, nan, nan⟩ := by
  have hq : halfAngleProduct ⟨roll, pitch, nan⟩ = ⟨nan, nan, nan, nan⟩ := by
    simp [halfAngleProduct]
  rw [rpyToQuat, hq]
  simp [Quaternion.normalized, Quaternion.squaredNorm]

end Hummingbird
