/-
  The pose functions of `px4_multirotor_viewer.py`.

  They are applied to whatever a message or a log holds, so their arguments may be NaN. The
  norm of a quaternion with a NaN component is NaN, which `normalize_quat` answers with the
  identity: its result, and all that is computed from it, are exact reals.
-/
import Hummingbird.Mocap.Utils

namespace Hummingbird

open Matrix WithNaN Rotation

namespace Viewer

noncomputable section

/-- `normalize_quat`. -/
def normalizeQuat (qIn : Quaternion) : Quat :=
  match qIn.reals with
  | none => quat 1 0 0 0
  | some q => if ‖q‖ < 1e-9 then quat 1 0 0 0 else ‖q‖⁻¹ • q

/-- `quat_to_rot`. -/
def quatToRot (qIn : Quaternion) : Matrix (Fin 3) (Fin 3) ℝ :=
  Rotation.matrix (normalizeQuat qIn)

/-- The array `q` of `rot_to_quat` before it is normalized. -/
def rotToQuatBranch (R : Matrix (Fin 3) (Fin 3) ℝ) : Quat :=
  let tr := R.trace
  if 0 < tr then
    let s := √(tr + 1) * 2
    quat (0.25 * s) ((R 2 1 - R 1 2) / s) ((R 0 2 - R 2 0) / s) ((R 1 0 - R 0 1) / s)
  else if R 1 1 < R 0 0 ∧ R 2 2 < R 0 0 then
    let s := √(max (1 + R 0 0 - R 1 1 - R 2 2) 0) * 2
    quat ((R 2 1 - R 1 2) / s) (0.25 * s) ((R 0 1 + R 1 0) / s) ((R 0 2 + R 2 0) / s)
  else if R 2 2 < R 1 1 then
    let s := √(max (1 + R 1 1 - R 0 0 - R 2 2) 0) * 2
    quat ((R 0 2 - R 2 0) / s) ((R 0 1 + R 1 0) / s) (0.25 * s) ((R 1 2 + R 2 1) / s)
  else
    let s := √(max (1 + R 2 2 - R 0 0 - R 1 1) 0) * 2
    quat ((R 1 0 - R 0 1) / s) ((R 0 2 + R 2 0) / s) ((R 1 2 + R 2 1) / s) (0.25 * s)

/-- `rot_to_quat`. -/
def rotToQuat (R : Matrix (Fin 3) (Fin 3) ℝ) : Quat :=
  normalizeQuat (Quaternion.ofReal (rotToQuatBranch R))

/-- `R_DOWN`. -/
def rDown : Matrix (Fin 3) (Fin 3) ℝ := Matrix.diagonal ![1, -1, -1]

/-- `R_DOWN @ v`. -/
def rDownDot (v : Vector3) : Vector3 := Vector3.leftMul rDown v

/-- `R_px4` of `mocap_pose_to_px4`. -/
def px4Rotation (optiAtt : Quaternion) : Matrix (Fin 3) (Fin 3) ℝ :=
  rDown * quatToRot optiAtt * rDown

/-- `mocap_pose_to_px4`. -/
def mocapPoseToPx4 (optiPos : Vector3) (optiAtt : Quaternion) (optiOrigin : Vector3) :
    Vector3 × Quat :=
  (rDownDot ⟨optiPos.x - optiOrigin.x, optiPos.y - optiOrigin.y, optiPos.z - optiOrigin.z⟩,
    rotToQuat (px4Rotation optiAtt))

/-- `RAD2DEG`. -/
def rad2deg : ℝ := 180 / Real.pi

/-- `quat_to_rpy_deg`. -/
def quatToRpyDeg (qIn : Quaternion) : Fin 3 → ℝ :=
  let q := normalizeQuat qIn
  let sinrCosp := 2 * (q.re * q.imI + q.imJ * q.imK)
  let cosrCosp := 1 - 2 * (q.imI * q.imI + q.imJ * q.imJ)
  let roll := Complex.arg ⟨cosrCosp, sinrCosp⟩
  let sinp := 2 * (q.re * q.imJ - q.imK * q.imI)
  let pitch :=
    if 1 ≤ |sinp| then (if sinp < 0 then -(Real.pi / 2) else Real.pi / 2) else Real.arcsin sinp
  let sinyCosp := 2 * (q.re * q.imK + q.imI * q.imJ)
  let cosyCosp := 1 - 2 * (q.imJ * q.imJ + q.imK * q.imK)
  let yaw := Complex.arg ⟨cosyCosp, sinyCosp⟩
  ![roll * rad2deg, pitch * rad2deg, yaw * rad2deg]

/-- `yaw_to_quat`. -/
def yawToQuat (yaw : ℝ) : Quat := quat (Real.cos (1 / 2 * yaw)) 0 0 (Real.sin (1 / 2 * yaw))

end

/-! ## On numbers -/

theorem normalizeQuat_of_le {q : Quat} (hq : 1e-9 ≤ ‖q‖) :
    normalizeQuat (Quaternion.ofReal q) = ‖q‖⁻¹ • q :=
  if_neg (not_lt.mpr hq)

theorem normalizeQuat_of_unit {q : Quat} (hq : ‖q‖ = 1) :
    normalizeQuat (Quaternion.ofReal q) = q := by
  rw [normalizeQuat_of_le (by rw [hq]; norm_num), hq, inv_one, one_smul]

theorem norm_normalizeQuat (qIn : Quaternion) : ‖normalizeQuat qIn‖ = 1 := by
  have hone : ‖quat 1 0 0 0‖ = 1 := norm_one
  unfold normalizeQuat
  split
  · exact hone
  · split
    · exact hone
    · rename_i q _ hq
      have hpos : 0 < ‖q‖ := lt_of_lt_of_le (by norm_num) (not_lt.mp hq)
      rw [norm_smul, norm_inv, norm_norm, inv_mul_cancel₀ hpos.ne']

/-- A quaternion that is normalized again is the same. -/
theorem quatToRpyDeg_normalizeQuat (qIn : Quaternion) :
    quatToRpyDeg (Quaternion.ofReal (normalizeQuat qIn)) = quatToRpyDeg qIn := by
  unfold quatToRpyDeg
  rw [normalizeQuat_of_unit (norm_normalizeQuat qIn)]

theorem rDown_eq : rDown = Opti.rDown := by
  ext i j
  fin_cases i <;> fin_cases j <;> simp [rDown, Opti.rDown]

/-- Both languages compute the same rotation matrix, also for tiny quaternions. -/
theorem quatToRot_ofReal (q : Quat) : quatToRot (Quaternion.ofReal q) = Opti.quatToRot q := by
  unfold quatToRot normalizeQuat Opti.quatToRot
  simp only [Quaternion.reals_ofReal]
  split
  · ext i j
    fin_cases i <;> fin_cases j <;> simp [Rotation.matrix]
  · rfl

theorem rDownDot_ofReal (v : Position) :
    rDownDot (Vector3.ofReal v) = Vector3.ofReal (Opti.rDown *ᵥ v) := by
  rw [rDownDot, rDown_eq, Vector3.leftMul_ofReal]

/-! ## The branches of `rot_to_quat` -/

section Branches

variable {a b : ℝ}

theorem sqrt_four_mul_self (a : ℝ) : √(4 * (a * a)) * 2 = 4 * |a| := by
  have h : 4 * (a * a) = (2 * a) * (2 * a) := by ring
  rw [h, Real.sqrt_mul_self_eq_abs, abs_mul, abs_two]
  ring

/-- The pivot component of a branch. -/
theorem pivot_component (ha : a ≠ 0) : 0.25 * (4 * |a|) = a / |a| * a := by
  have habs : |a| ≠ 0 := abs_ne_zero.mpr ha
  rw [div_mul_eq_mul_div, ← abs_mul_abs_self a, mul_div_assoc, div_self habs]
  ring

/-- The other components of a branch. -/
theorem other_component (ha : a ≠ 0) (b : ℝ) : 4 * (a * b) / (4 * |a|) = a / |a| * b := by
  have habs : |a| ≠ 0 := abs_ne_zero.mpr ha
  field_simp

/-- In the branch of `4 * (a * a)` the bound by 0 does nothing. -/
theorem max_four_mul_self (a : ℝ) : max (4 * (a * a)) 0 = 4 * (a * a) :=
  max_eq_left (mul_nonneg zero_le_four (mul_self_nonneg a))

/-- Every branch gives the quaternion back, up to its sign. -/
theorem rotToQuatBranch_matrix {q : Quat} (hq : ‖q‖ = 1) :
    UpToSign (rotToQuatBranch (Rotation.matrix q)) q := by
  obtain ⟨hww, hxx, hyy, hzz, hwx, hwy, hwz, hxy, hxz, hyz⟩ := Rotation.component_products hq
  have hunit := Rotation.normSq_of_norm hq
  have htr : (Rotation.matrix q).trace + 1 = 4 * (q.re * q.re) := by
    rw [Matrix.trace_fin_three]
    linarith
  unfold rotToQuatBranch
  dsimp only
  rw [htr, ← hwx, ← hwy, ← hwz, ← hxx, ← hyy, ← hzz, ← hxy, ← hxz, ← hyz]
  simp only [max_four_mul_self, sqrt_four_mul_self]
  split
  · -- the trace is positive, so the real part is not zero
    rename_i htrace
    have hw : q.re ≠ 0 := by
      rintro h0
      rw [h0] at htr
      linarith
    refine .trans (Or.inl ?_) (upToSign_pivot hw q)
    ext <;> simp [pivot_component hw, other_component hw]
  split
  · -- the first diagonal entry is the largest
    rename_i htrace hdiag
    have hx : q.imI ≠ 0 := by
      rintro h0
      rw [h0] at hxx
      linarith [not_lt.mp htrace, hdiag.1, hdiag.2]
    refine .trans (Or.inl ?_) (upToSign_pivot hx q)
    ext <;> simp [pivot_component hx, other_component hx, mul_comm q.re q.imI]
  split
  · -- the second is larger than the third
    rename_i htrace hdiag hdiag'
    have hy : q.imJ ≠ 0 := by
      rintro h0
      rw [h0] at hyy
      linarith [mul_self_nonneg q.imK]
    refine .trans (Or.inl ?_) (upToSign_pivot hy q)
    ext <;> simp [pivot_component hy, other_component hy, mul_comm q.re q.imJ,
      mul_comm q.imI q.imJ]
  · -- the third is the largest, and not all of the last three components are zero
    rename_i htrace hdiag hdiag'
    have hz : q.imK ≠ 0 := by
      rintro h0
      rw [h0] at hzz
      have hyz : q.imJ * q.imJ ≤ 0 := by linarith [not_lt.mp hdiag']
      have hxz : q.imI * q.imI ≤ 0 := by
        rcases not_and_or.mp hdiag with hle | hle
        · linarith [not_lt.mp hle]
        · linarith [not_lt.mp hle]
      rw [h0] at hunit
      linarith [not_lt.mp htrace]
    refine .trans (Or.inl ?_) (upToSign_pivot hz q)
    ext <;> simp [pivot_component hz, other_component hz, mul_comm q.re q.imK,
      mul_comm q.imI q.imK, mul_comm q.imJ q.imK]

/-- On the matrix of a unit quaternion the last normalization changes nothing. -/
theorem rotToQuat_matrix {q : Quat} (hq : ‖q‖ = 1) :
    rotToQuat (Rotation.matrix q) = rotToQuatBranch (Rotation.matrix q) :=
  normalizeQuat_of_unit ((rotToQuatBranch_matrix hq).norm_eq.trans hq)

theorem rotToQuatBranch_returnsQuaternionOf : ReturnsQuaternionOf rotToQuatBranch := by
  intro q hq
  have h := rotToQuatBranch_matrix hq
  exact ⟨h.norm_eq.trans hq, h.matrix_eq⟩

theorem rotToQuat_returnsQuaternionOf : ReturnsQuaternionOf rotToQuat := by
  intro q hq
  rw [rotToQuat_matrix hq]
  exact rotToQuatBranch_returnsQuaternionOf q hq

end Branches

end Viewer

end Hummingbird
