/-
  The frame transform of the motion-capture poses, in both languages.

  `FrameTransform f` is what the transform is for: positions and attitudes seen from axes that
  are turned by half a turn about x, whatever quaternion of at least the accepted norm stands
  for the attitude. Both implementations compute their attitude from
  `R_down * R(q) * R_down`, each with another conversion back to a quaternion; such a function
  is a frame transform as soon as its conversion returns a quaternion of the matrix
  (`frameTransform_of_rotation`). `mocapTransform` instantiates it with both.
-/
import Hummingbird.Viewer.Pose

namespace Hummingbird

open WithNaN Matrix Rotation

/-- A function from a position, a quaternion and an origin to a pose. -/
abbrev PoseMap := Position → Quat → Position → Vector3 × Quat

/-- The unit quaternion that `q` stands for. -/
noncomputable def unitOf (q : Quat) : Quat := ‖q‖⁻¹ • q

/-- The norm that `onMocap` requires of a quaternion. -/
def Accepted (q : Quat) : Prop := 1e-6 ≤ ‖q‖

/-- `f` turns poses by half a turn about x, for every accepted quaternion. -/
structure FrameTransform (f : PoseMap) : Prop where
  position : ∀ p q o, (f p q o).1 = Vector3.ofReal (Opti.rDown *ᵥ (p - o))
  unit : ∀ p q o, Accepted q → ‖(f p q o).2‖ = 1
  attitude : ∀ p q o, Accepted q → UpToSign (f p q o).2 (turned (unitOf q))
  rotation : ∀ p q o, Accepted q →
    Rotation.matrix (f p q o).2 = Opti.rDown * Rotation.matrix (unitOf q) * Opti.rDown
  neg : ∀ p q o, f p (-q) o = f p q o
  smul : ∀ p q o (c : ℝ), 0 < c → Accepted q → Accepted (c • q) → f p (c • q) o = f p q o
  mul : ∀ p q r o, Accepted q → Accepted r → Accepted (q * r) →
    Rotation.matrix (f p (q * r) o).2 = Rotation.matrix (f p q o).2 * Rotation.matrix (f p r o).2
  dist : ∀ p p' q q' o,
    (f p q o).1.dist (f p' q' o).1 = (Vector3.ofReal p).dist (Vector3.ofReal p')
  twice : ∀ p q, Accepted q → ∃ p', (f p q 0).1 = Vector3.ofReal p' ∧
    (f p' (f p q 0).2 0).1 = Vector3.ofReal p ∧ UpToSign (f p' (f p q 0).2 0).2 (unitOf q)

/-- `utils::mocapPoseToPx4` as a function to poses. -/
noncomputable def optiPose (eigen : Matrix (Fin 3) (Fin 3) ℝ → Quat) : PoseMap := fun p q o =>
  let pose := Opti.mocapPoseToPx4 eigen p q o
  (Vector3.ofReal pose.pos, pose.att)

/-- `mocap_pose_to_px4` on numbers. -/
noncomputable def viewerPose : PoseMap := fun p q o =>
  Viewer.mocapPoseToPx4 (Vector3.ofReal p) (Quaternion.ofReal q) (Vector3.ofReal o)

/-! ## The unit quaternion -/

section UnitOf

variable {q r : Quat}

theorem Accepted.pos (hq : Accepted q) : 0 < ‖q‖ := lt_of_lt_of_le (by norm_num) hq

theorem Accepted.not_tiny (hq : Accepted q) : 1e-9 ≤ ‖q‖ := le_trans (by norm_num) hq

theorem norm_unitOf (hq : 0 < ‖q‖) : ‖unitOf q‖ = 1 := by
  unfold unitOf
  rw [norm_smul, norm_inv, norm_norm, inv_mul_cancel₀ hq.ne']

theorem unitOf_mul (q r : Quat) : unitOf (q * r) = unitOf q * unitOf r := by
  unfold unitOf
  rw [norm_mul, mul_inv, smul_mul_smul_comm]

theorem unitOf_smul {c : ℝ} (hc : 0 < c) (q : Quat) : unitOf (c • q) = unitOf q := by
  unfold unitOf
  rw [norm_smul, Real.norm_of_nonneg hc.le, smul_smul, mul_inv, mul_comm c⁻¹, mul_assoc,
    inv_mul_cancel₀ hc.ne', mul_one]

theorem unitOf_of_unit (hq : ‖q‖ = 1) : unitOf q = q := by
  unfold unitOf
  rw [hq, inv_one, one_smul]

/-- The rotation matrix of an accepted quaternion is that of its unit quaternion. -/
theorem quatToRot_of_accepted (hq : Accepted q) :
    Opti.quatToRot q = Rotation.matrix (unitOf q) :=
  Opti.quatToRot_of_le hq.not_tiny

theorem quatToRot_neg (q : Quat) : Opti.quatToRot (-q) = Opti.quatToRot q := by
  unfold Opti.quatToRot
  dsimp only
  rw [norm_neg, smul_neg, matrix_neg]

/-- `R_px4` of an accepted quaternion. -/
theorem px4Rotation_of_accepted (hq : Accepted q) :
    Opti.px4Rotation q = Rotation.matrix (turned (unitOf q)) := by
  unfold Opti.px4Rotation
  rw [quatToRot_of_accepted hq, matrix_turned (norm_unitOf hq.pos), Opti.rDown_eq]

end UnitOf

/-! ## The position -/

/-- A vector with exact entries, turned by half a turn about x. -/
theorem rDown_mulVec (v : Position) : Opti.rDown *ᵥ v = ![v 0, -v 1, -v 2] := by
  ext i
  fin_cases i <;> simp [Opti.rDown, Matrix.mulVec, dotProduct, Fin.sum_univ_three]

theorem rDown_mulVec_twice (p : Position) :
    Opti.rDown *ᵥ (Opti.rDown *ᵥ (p - 0) - 0) = p := by
  rw [sub_zero, sub_zero, Matrix.mulVec_mulVec, Opti.rDown_mul_rDown, Matrix.one_mulVec]

theorem dist_rDown (p p' o : Position) :
    (Vector3.ofReal (Opti.rDown *ᵥ (p - o))).dist (Vector3.ofReal (Opti.rDown *ᵥ (p' - o))) =
      (Vector3.ofReal p).dist (Vector3.ofReal p') := by
  rw [rDown_mulVec, rDown_mulVec]
  simp only [Vector3.dist, Vector3.norm, Vector3.ofReal, num_sub, num_mul, num_add,
    Double.sqrt_num, num_inj, Pi.sub_apply, Matrix.cons_val_zero, Matrix.cons_val_one,
    Matrix.cons_val]
  congr 1
  ring

/-! ## Both implementations -/

/-- A pose map that converts `R_down * R(q) * R_down` back to a quaternion is a frame
    transform. -/
theorem frameTransform_of_rotation {f : PoseMap} {g : Matrix (Fin 3) (Fin 3) ℝ → Quat}
    (hg : ReturnsQuaternionOf g)
    (hf : ∀ p q o, f p q o = (Vector3.ofReal (Opti.rDown *ᵥ (p - o)), g (Opti.px4Rotation q))) :
    FrameTransform f := by
  have hunit : ∀ p q o, Accepted q → ‖(f p q o).2‖ = 1 := by
    intro p q o hq
    rw [hf, px4Rotation_of_accepted hq]
    exact (hg _ ((norm_turned _).trans (norm_unitOf hq.pos))).1
  have hmatrix : ∀ p q o, Accepted q →
      Rotation.matrix (f p q o).2 = Rotation.matrix (turned (unitOf q)) := by
    intro p q o hq
    rw [hf, px4Rotation_of_accepted hq]
    exact (hg _ ((norm_turned _).trans (norm_unitOf hq.pos))).2
  have hattitude : ∀ p q o, Accepted q → UpToSign (f p q o).2 (turned (unitOf q)) := by
    intro p q o hq
    exact (matrix_eq_iff (hunit p q o hq) ((norm_turned _).trans (norm_unitOf hq.pos))).mp
      (hmatrix p q o hq)
  have hrotation : ∀ p q o, Accepted q →
      Rotation.matrix (f p q o).2 = Opti.rDown * Rotation.matrix (unitOf q) * Opti.rDown := by
    intro p q o hq
    rw [hmatrix p q o hq, matrix_turned (norm_unitOf hq.pos), Opti.rDown_eq]
  refine ⟨fun p q o => by rw [hf], hunit, hattitude, hrotation, ?_, ?_, ?_, ?_, ?_⟩
  · intro p q o
    rw [hf, hf, Opti.px4Rotation, Opti.px4Rotation, quatToRot_neg]
  · intro p q o c hc hq hcq
    rw [hf, hf, px4Rotation_of_accepted hq, px4Rotation_of_accepted hcq, unitOf_smul hc]
  · intro p q r o hq hr hqr
    rw [hrotation p _ o hqr, hrotation p q o hq, hrotation p r o hr, unitOf_mul,
      matrix_mul (norm_unitOf hq.pos) (norm_unitOf hr.pos)]
    -- the two inner factors `R_down` cancel
    calc Opti.rDown * (Rotation.matrix (unitOf q) * Rotation.matrix (unitOf r)) * Opti.rDown
        = Opti.rDown * Rotation.matrix (unitOf q) * (Opti.rDown * Opti.rDown) *
            Rotation.matrix (unitOf r) * Opti.rDown := by
          rw [Opti.rDown_mul_rDown, mul_one]
          simp only [mul_assoc]
      _ = Opti.rDown * Rotation.matrix (unitOf q) * Opti.rDown *
            (Opti.rDown * Rotation.matrix (unitOf r) * Opti.rDown) := by
          simp only [mul_assoc]
  · intro p p' q q' o
    rw [hf, hf]
    exact dist_rDown p p' o
  · intro p q hq
    have hone : Accepted (f p q 0).2 := by
      unfold Accepted
      rw [hunit p q 0 hq]
      norm_num
    refine ⟨Opti.rDown *ᵥ (p - 0), by rw [hf], by rw [hf, rDown_mulVec_twice], ?_⟩
    have hback := hattitude (Opti.rDown *ᵥ (p - 0)) _ 0 hone
    rw [unitOf_of_unit (hunit p q 0 hq)] at hback
    refine hback.trans ?_
    rcases hattitude p q 0 hq with h | h
    · rw [h, turned_turned]
      exact UpToSign.refl _
    · right
      rw [h, turned_neg, turned_turned]

theorem frameTransform_optiPose {eigen : Matrix (Fin 3) (Fin 3) ℝ → Quat}
    (he : ReturnsQuaternionOf eigen) : FrameTransform (optiPose eigen) :=
  frameTransform_of_rotation (Opti.rotToQuat_returnsQuaternionOf he) fun _ _ _ => rfl

theorem viewer_px4Rotation (q : Quat) :
    Viewer.px4Rotation (Quaternion.ofReal q) = Opti.px4Rotation q := by
  unfold Viewer.px4Rotation Opti.px4Rotation
  rw [Viewer.rDown_eq, Viewer.quatToRot_ofReal]

theorem viewerPose_eq (p : Position) (q : Quat) (o : Position) :
    viewerPose p q o =
      (Vector3.ofReal (Opti.rDown *ᵥ (p - o)), Viewer.rotToQuat (Opti.px4Rotation q)) := by
  unfold viewerPose Viewer.mocapPoseToPx4
  rw [viewer_px4Rotation, ← Viewer.rDownDot_ofReal]
  rfl

theorem frameTransform_viewerPose : FrameTransform viewerPose :=
  frameTransform_of_rotation Viewer.rotToQuat_returnsQuaternionOf viewerPose_eq

/-- None of the fallbacks to the identity is taken for the quaternion `q`: not in either
    conversion to a matrix, not in either conversion back. -/
def NoFallback (eigen : Matrix (Fin 3) (Fin 3) ℝ → Quat) (q : Quat) : Prop :=
  ¬ ‖q‖ < 1e-9 ∧ ¬ ‖eigen (Opti.px4Rotation q)‖ < 1e-9 ∧
    ¬ ‖Viewer.rotToQuatBranch (Viewer.px4Rotation (Quaternion.ofReal q))‖ < 1e-9

theorem noFallback {eigen : Matrix (Fin 3) (Fin 3) ℝ → Quat} (he : ReturnsQuaternionOf eigen)
    {q : Quat} (hq : Accepted q) : NoFallback eigen q := by
  have hone : ∀ {g : Matrix (Fin 3) (Fin 3) ℝ → Quat}, ReturnsQuaternionOf g →
      ¬ ‖g (Opti.px4Rotation q)‖ < 1e-9 := by
    intro g hg
    rw [px4Rotation_of_accepted hq, (hg _ ((norm_turned _).trans (norm_unitOf hq.pos))).1]
    norm_num
  refine ⟨not_lt.mpr hq.not_tiny, hone he, ?_⟩
  rw [viewer_px4Rotation]
  exact hone Viewer.rotToQuatBranch_returnsQuaternionOf

/-- Both implementations are the frame transform, and they agree up to the sign of the
    quaternion. -/
theorem mocapTransform {eigen : Matrix (Fin 3) (Fin 3) ℝ → Quat}
    (he : ReturnsQuaternionOf eigen) :
    FrameTransform (optiPose eigen) ∧ FrameTransform viewerPose ∧
      ∀ p q o, Accepted q → NoFallback eigen q ∧
        (optiPose eigen p q o).1 = (viewerPose p q o).1 ∧
        UpToSign (optiPose eigen p q o).2 (viewerPose p q o).2 := by
  have hopti := frameTransform_optiPose he
  have hviewer := frameTransform_viewerPose
  refine ⟨hopti, hviewer, ?_⟩
  intro p q o hq
  refine ⟨noFallback he hq, ?_, ?_⟩
  · rw [hopti.position, hviewer.position]
  · exact (hopti.attitude p q o hq).trans (hviewer.attitude p q o hq).symm

/-- The conversion of `rot_to_quat` in the place of Eigen's constructor. -/
theorem mocapTransform_rotToQuat :
    FrameTransform (optiPose Viewer.rotToQuatBranch) ∧ FrameTransform viewerPose ∧
      ∀ p q o, Accepted q → NoFallback Viewer.rotToQuatBranch q ∧
        (optiPose Viewer.rotToQuatBranch p q o).1 = (viewerPose p q o).1 ∧
        UpToSign (optiPose Viewer.rotToQuatBranch p q o).2 (viewerPose p q o).2 :=
  mocapTransform Viewer.rotToQuatBranch_returnsQuaternionOf

end Hummingbird
