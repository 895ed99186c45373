/-
  `rot_to_quat` on every rotation matrix.

  The branch is chosen so that the pivot is a component of largest square, up to the choice of
  the real part for a positive trace: the argument of the square root is at least 1 on every
  matrix (`one_le_radicand`), so `s` is at least 2. Since every rotation matrix comes from a
  unit quaternion, `rot_to_quat` returns that quaternion or its negative (`rotToQuat_exact`). The
  way from a quaternion to its matrix and back normalizes it, except below the norm `1e-9` that
  `normalize_quat` answers with the identity (`rotToQuat_inverts`).
-/
import Hummingbird.Library.SpecialOrthogonal
import Hummingbird.Viewer.Pose

namespace Hummingbird

open Matrix WithNaN Rotation

namespace Viewer

section Divisor

variable (R : Matrix (Fin 3) (Fin 3) ℝ)

/-- What the branch taken writes under its square root, without the bound by 0. -/
noncomputable def radicand : ℝ :=
  if 0 < R.trace then R.trace + 1
  else if R 1 1 < R 0 0 ∧ R 2 2 < R 0 0 then 1 + R 0 0 - R 1 1 - R 2 2
  else if R 2 2 < R 1 1 then 1 + R 1 1 - R 0 0 - R 2 2
  else 1 + R 2 2 - R 0 0 - R 1 1

/-- `s` of the branch taken. -/
noncomputable def divisor : ℝ :=
  if 0 < R.trace then √(R.trace + 1) * 2
  else if R 1 1 < R 0 0 ∧ R 2 2 < R 0 0 then √(max (1 + R 0 0 - R 1 1 - R 2 2) 0) * 2
  else if R 2 2 < R 1 1 then √(max (1 + R 1 1 - R 0 0 - R 2 2) 0) * 2
  else √(max (1 + R 2 2 - R 0 0 - R 1 1) 0) * 2

/-- The array `q` of `rot_to_quat` in terms of `s`. -/
theorem rotToQuatBranch_divisor :
    rotToQuatBranch R =
      if 0 < R.trace then
        quat (0.25 * divisor R) ((R 2 1 - R 1 2) / divisor R) ((R 0 2 - R 2 0) / divisor R)
          ((R 1 0 - R 0 1) / divisor R)
      else if R 1 1 < R 0 0 ∧ R 2 2 < R 0 0 then
        quat ((R 2 1 - R 1 2) / divisor R) (0.25 * divisor R) ((R 0 1 + R 1 0) / divisor R)
          ((R 0 2 + R 2 0) / divisor R)
      else if R 2 2 < R 1 1 then
        quat ((R 0 2 - R 2 0) / divisor R) ((R 0 1 + R 1 0) / divisor R) (0.25 * divisor R)
          ((R 1 2 + R 2 1) / divisor R)
      else
        quat ((R 1 0 - R 0 1) / divisor R) ((R 0 2 + R 2 0) / divisor R)
          ((R 1 2 + R 2 1) / divisor R) (0.25 * divisor R) := by
  unfold rotToQuatBranch divisor
  dsimp only
  split_ifs <;> rfl

/-- The branch taken has the largest of the four radicands, or the first if that exceeds 1. -/
theorem one_le_radicand : 1 ≤ radicand R := by
  have htr := R.trace_fin_three
  unfold radicand
  split
  · linarith
  rename_i h0
  rw [not_lt] at h0
  split
  · rename_i h1
    linarith [h1.1, h1.2]
  rename_i h1
  rw [not_and_or, not_lt, not_lt] at h1
  split
  · rename_i h2
    rcases h1 with h1 | h1 <;> linarith
  · rename_i h2
    rw [not_lt] at h2
    rcases h1 with h1 | h1 <;> linarith

/-- The bound by 0 never applies. -/
theorem divisor_eq : divisor R = √(radicand R) * 2 := by
  have h := one_le_radicand R
  unfold radicand at h
  unfold divisor radicand
  split_ifs at h ⊢
  · rfl
  · rw [max_eq_left (by linarith)]
  · rw [max_eq_left (by linarith)]
  · rw [max_eq_left (by linarith)]

theorem two_le_divisor : 2 ≤ divisor R := by
  have h : 1 ≤ √(radicand R) := Real.one_le_sqrt.mpr (one_le_radicand R)
  rw [divisor_eq]
  linarith

end Divisor

/-! ## There and back -/

theorem normalizeQuat_of_lt {q : Quat} (hq : ‖q‖ < 1e-9) :
    normalizeQuat (Quaternion.ofReal q) = 1 :=
  if_pos hq

/-- `rot_to_quat` on a rotation matrix: nothing is clamped, `s` is at least 2, and the result
    is a unit quaternion with this matrix, also before it is normalized. -/
structure RotToQuatExact (R : Matrix (Fin 3) (Fin 3) ℝ) : Prop where
  unclamped : 0 ≤ radicand R ∧ divisor R = √(radicand R) * 2
  divisor : 2 ≤ divisor R
  unitBranch : ‖rotToQuatBranch R‖ = 1
  unit : ‖rotToQuat R‖ = 1
  back : quatToRot (Quaternion.ofReal (rotToQuat R)) = R

theorem quatToRot_of_unit {q : Quat} (hq : ‖q‖ = 1) :
    quatToRot (Quaternion.ofReal q) = Rotation.matrix q := by
  rw [quatToRot, normalizeQuat_of_unit hq]

theorem rotToQuat_exact {R : Matrix (Fin 3) (Fin 3) ℝ} (hR : R ∈ SO3) : RotToQuatExact R := by
  obtain ⟨q, hq, rfl⟩ := exists_matrix_eq hR
  have hbranch := rotToQuatBranch_matrix hq
  have hunit : ‖rotToQuatBranch (Rotation.matrix q)‖ = 1 := hbranch.norm_eq.trans hq
  constructor
  · exact ⟨zero_le_one.trans (one_le_radicand _), divisor_eq _⟩
  · exact two_le_divisor _
  · exact hunit
  · rw [rotToQuat_matrix hq, hunit]
  · rw [rotToQuat_matrix hq, quatToRot_of_unit hunit, hbranch.matrix_eq]

/-- The viewer's two conversions are inverse to each other, on quaternions that
    `normalize_quat` does not answer with the identity. -/
theorem rotToQuat_inverts :
    (∀ R ∈ SO3, RotToQuatExact R) ∧
      ∀ q : Quat, 1e-9 ≤ ‖q‖ →
        UpToSign (rotToQuat (quatToRot (Quaternion.ofReal q))) (‖q‖⁻¹ • q) := by
  constructor
  · intro R hR
    exact rotToQuat_exact hR
  · intro q hq
    have hpos : 0 < ‖q‖ := lt_of_lt_of_le (by norm_num) hq
    have hunit : ‖‖q‖⁻¹ • q‖ = 1 := by
      rw [norm_smul, norm_inv, norm_norm, inv_mul_cancel₀ hpos.ne']
    rw [quatToRot, normalizeQuat_of_le hq, rotToQuat_matrix hunit]
    exact rotToQuatBranch_matrix hunit

theorem rotToQuat_inverts_halfTurn :
    RotToQuatExact (Rotation.matrix halfTurn) ∧
      UpToSign (rotToQuat (quatToRot (Quaternion.ofReal halfTurn))) (‖halfTurn‖⁻¹ • halfTurn) :=
  ⟨rotToQuat_inverts.1 _ (matrix_mem norm_halfTurn),
    rotToQuat_inverts.2 halfTurn (by rw [norm_halfTurn]; norm_num)⟩

/-- A half turn of norm `1e-10` comes back as the identity. -/
theorem rotToQuat_inverts_fails :
    ¬ ((∀ R ∈ SO3, RotToQuatExact R) ∧
      ∀ q : Quat, q ≠ 0 →
        UpToSign (rotToQuat (quatToRot (Quaternion.ofReal q))) (‖q‖⁻¹ • q)) := by
  rintro ⟨-, hall⟩
  have hnorm : ‖(1e-10 : ℝ) • halfTurn‖ = 1e-10 := by
    rw [norm_smul, norm_halfTurn, Real.norm_eq_abs, abs_of_pos (by norm_num), mul_one]
  have hne : (1e-10 : ℝ) • halfTurn ≠ 0 := by
    rw [← norm_ne_zero_iff, hnorm]
    norm_num
  have hsmall : normalizeQuat (Quaternion.ofReal ((1e-10 : ℝ) • halfTurn)) = 1 :=
    normalizeQuat_of_lt (by rw [hnorm]; norm_num)
  have h := hall _ hne
  rw [quatToRot, hsmall, rotToQuat_matrix norm_one, hnorm, inv_smul_smul₀ (by norm_num)] at h
  have hone : UpToSign 1 halfTurn := (rotToQuatBranch_matrix norm_one).symm.trans h
  rcases hone with hone | hone
  · exact one_ne_zero (congrArg QuaternionAlgebra.re hone)
  · exact one_ne_zero ((congrArg QuaternionAlgebra.re hone).trans neg_zero)

end Viewer

end Hummingbird
