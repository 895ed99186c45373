/-
  `utils::rpyToQuat` and `utils::quatToRpy` use one convention.

  `rpyToQuat` returns the quaternion of the rotation by yaw, pitch and roll
  (`rpyToQuat_eq_eulerQuat`), and `quatToRpy` the angles of the matrix of a quaternion
  (`quatToRpy_ofReal`), so that each undoes the other (`attitude_conversions`): exactly on the
  angles, up to the sign on the quaternions.
-/
import Hummingbird.Library.Euler
import Hummingbird.Mocap.Utils
import Hummingbird.Utils.Attitude

namespace Hummingbird

open WithNaN Rotation Real

theorem rpyToQuat_eq_eulerQuat (roll pitch yaw : ℝ) :
    rpyToQuat ⟨num roll, num pitch, num yaw⟩ = Quaternion.ofReal (eulerQuat roll pitch yaw) := by
  rw [rpyToQuat_num]
  simp only [halfAngleProduct, Quaternion.ofReal, eulerQuat, smul_num, smul_eq_mul, Double.cos_num,
    Double.sin_num, num_mul, num_add, num_sub]
  congr 2 <;> simp <;> ring

/-- The clamped branch of the pitch is what the arc sine does beyond 1. -/
theorem clamped_asin (s : ℝ) :
    (if num 1 ≤ Double.abs (num s) then Double.copysign (num (π / 2)) (num s)
      else Double.asin (num s)) = num (arcsin s) := by
  simp only [Double.abs_num, num_le_num, Double.asin_num, Double.copysign, zero_eq, num_lt_num,
    neg_num]
  split
  · rename_i h
    rcases lt_or_ge s 0 with hs | hs
    · rw [abs_of_neg hs] at h
      rw [if_pos hs, arcsin_of_le_neg_one (by linarith)]
    · rw [abs_of_nonneg hs] at h
      rw [if_neg (not_lt.mpr hs), arcsin_of_one_le h]
  · rfl

theorem quatToRpy_ofReal (q : Quat) :
    quatToRpy (Quaternion.ofReal q) =
      ⟨num (rollOf (matrix q)), num (pitchOf (matrix q)), num (yawOf (matrix q))⟩ := by
  have hroll : (⟨1 - 2 * (q.imI * q.imI + q.imJ * q.imJ),
      2 * (q.re * q.imI + q.imJ * q.imK)⟩ : ℂ) = ⟨matrix q 2 2, matrix q 2 1⟩ := by
    congr 1
    simp [matrix]
    ring
  have hpitch : 2 * (q.re * q.imJ - q.imK * q.imI) = -matrix q 2 0 := by
    simp [matrix]
    ring
  have hyaw : (⟨1 - 2 * (q.imJ * q.imJ + q.imK * q.imK),
      2 * (q.re * q.imK + q.imI * q.imJ)⟩ : ℂ) = ⟨matrix q 0 0, matrix q 1 0⟩ := by
    congr 1
    simp [matrix]
    ring
  simp only [quatToRpy, Quaternion.ofReal, num_mul, num_add, num_sub, smul_num, smul_eq_mul,
    Double.atan2_num, clamped_asin, rollOf, pitchOf, yawOf, hroll, hpitch, hyaw]

/-! ## Both directions -/

theorem quatToRpy_rpyToQuat {roll pitch yaw : ℝ} (hr : roll ∈ Set.Ioc (-π) π)
    (hp : pitch ∈ Set.Ioo (-(π / 2)) (π / 2)) (hy : yaw ∈ Set.Ioc (-π) π) :
    quatToRpy (rpyToQuat ⟨num roll, num pitch, num yaw⟩) = ⟨num roll, num pitch, num yaw⟩ := by
  have hcos : 0 < cos pitch := cos_pos_of_mem_Ioo hp
  rw [rpyToQuat_eq_eulerQuat, quatToRpy_ofReal, matrix_eulerQuat, rollOf_zyx hcos hr,
    pitchOf_zyx ⟨hp.1.le, hp.2.le⟩, yawOf_zyx hcos hy]

theorem rpyToQuat_quatToRpy {q : Quat} (hq : ‖q‖ = 1)
    (hlt : |2 * (q.re * q.imJ - q.imK * q.imI)| < 1) :
    ∃ p, rpyToQuat (quatToRpy (Quaternion.ofReal q)) = Quaternion.ofReal p ∧ UpToSign p q := by
  have hentry : |matrix q 2 0| < 1 := by
    have h : 2 * (q.re * q.imJ - q.imK * q.imI) = -matrix q 2 0 := by
      simp [matrix]
      ring
    rwa [h, abs_neg] at hlt
  rw [quatToRpy_ofReal, rpyToQuat_eq_eulerQuat]
  refine ⟨_, rfl, (matrix_eq_iff (norm_eulerQuat _ _ _) hq).mp ?_⟩
  rw [matrix_eulerQuat, zyx_angles (matrix_mem hq) hentry]

/-- `-q`. -/
def Quaternion.neg (q : Quaternion) : Quaternion := ⟨-q.w, -q.x, -q.y, -q.z⟩

/-- The conversions undo each other. -/
theorem attitude_conversions :
    (∀ roll pitch yaw : ℝ, roll ∈ Set.Ioc (-π) π → pitch ∈ Set.Ioo (-(π / 2)) (π / 2) →
      yaw ∈ Set.Ioc (-π) π →
      (rpyToQuat ⟨num roll, num pitch, num yaw⟩).IsUnit ∧
        quatToRpy (rpyToQuat ⟨num roll, num pitch, num yaw⟩) =
          ⟨num roll, num pitch, num yaw⟩) ∧
    (∀ w x y z : ℝ, (⟨num w, num x, num y, num z⟩ : Quaternion).IsUnit →
      |2 * (w * y - z * x)| < 1 →
      let q : Quaternion := ⟨num w, num x, num y, num z⟩
      rpyToQuat (quatToRpy q) = q ∨ rpyToQuat (quatToRpy q) = q.neg) := by
  constructor
  · intro roll pitch yaw hr hp hy
    exact ⟨rpyToQuat_isUnit roll pitch yaw, quatToRpy_rpyToQuat hr hp hy⟩
  · rintro w x y z ⟨-, -, -, -, hnorm⟩ hlt
    have hsq : w * w + x * x + y * y + z * z = 1 := num.inj hnorm
    obtain ⟨p, hp, rfl | rfl⟩ :=
      rpyToQuat_quatToRpy (q := quat w x y z) (norm_of_normSq hsq) hlt
    · exact Or.inl hp
    · exact Or.inr hp

/-- At the attitude `(0, 0, π)` and at the unit quaternion that turns by `π` about the third
    axis. -/
theorem attitude_conversions_turn :
    quatToRpy (rpyToQuat ⟨num 0, num 0, num π⟩) = ⟨num 0, num 0, num π⟩ ∧
      (let q : Quaternion := ⟨num 0, num 0, num 0, num 1⟩
      rpyToQuat (quatToRpy q) = q ∨ rpyToQuat (quatToRpy q) = q.neg) := by
  have hpi := pi_pos
  refine ⟨(attitude_conversions.1 0 0 π ⟨by linarith, hpi.le⟩ ⟨by linarith, by linarith⟩
    ⟨by linarith, le_rfl⟩).2, attitude_conversions.2 0 0 0 1 ?_ (by norm_num)⟩
  exact ⟨trivial, trivial, trivial, trivial, by simp [Quaternion.squaredNorm]⟩

end Hummingbird
