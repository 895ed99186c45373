/-
  Unit quaternions and rotation matrices.

  `matrix q` is the matrix of the rotation that the unit quaternion `q` stands for. It is
  multiplicative (`matrix_mul`), and it determines the quaternion up to its sign
  (`matrix_eq_iff`). The products of the components of `q` are linear in the entries of
  `matrix q`, so `q` can be read back from any nonzero component (`pivot`): this is what the
  four branches of the usual matrix-to-quaternion conversion do, each with another component
  (`upToSign_pivot`).
-/
import Mathlib.Analysis.Quaternion
import Mathlib.LinearAlgebra.Matrix.Notation
import Hummingbird.Library.Numerals

namespace Rotation

open Quaternion

/-- Quaternions over ℝ. -/
abbrev Quat := ℍ[ℝ]

/-- The quaternion `w + x i + y j + z k`. -/
def quat (w x y z : ℝ) : Quat := ⟨w, x, y, z⟩

section Components

variable (w x y z : ℝ)

@[simp] theorem quat_re : (quat w x y z).re = w := rfl
@[simp] theorem quat_imI : (quat w x y z).imI = x := rfl
@[simp] theorem quat_imJ : (quat w x y z).imJ = y := rfl
@[simp] theorem quat_imK : (quat w x y z).imK = z := rfl

end Components

/-- The rotation matrix of a unit quaternion. -/
noncomputable def matrix (q : Quat) : Matrix (Fin 3) (Fin 3) ℝ :=
  let w := q.re
  let x := q.imI
  let y := q.imJ
  let z := q.imK
  !![1 - 2 * (y * y + z * z), 2 * (x * y - w * z), 2 * (x * z + w * y);
    2 * (x * y + w * z), 1 - 2 * (x * x + z * z), 2 * (y * z - w * x);
    2 * (x * z - w * y), 2 * (y * z + w * x), 1 - 2 * (x * x + y * y)]

/-- Equal or opposite: the same rotation. -/
def UpToSign (p q : Quat) : Prop := p = q ∨ p = -q

namespace UpToSign

variable {p q r : Quat}

theorem refl (q : Quat) : UpToSign q q := Or.inl rfl

theorem symm (h : UpToSign p q) : UpToSign q p := by
  rcases h with rfl | rfl
  · exact refl p
  · exact Or.inr (neg_neg q).symm

theorem trans (hpq : UpToSign p q) (hqr : UpToSign q r) : UpToSign p r := by
  rcases hpq with rfl | rfl
  · exact hqr
  · rcases hqr with rfl | rfl
    · exact Or.inr rfl
    · exact Or.inl (neg_neg r)

theorem norm_eq (h : UpToSign p q) : ‖p‖ = ‖q‖ := by
  rcases h with rfl | rfl
  · rfl
  · exact norm_neg q

end UpToSign

/-! ## The matrix of a product -/

variable {p q : Quat}

theorem components_mul_self (q : Quat) :
    q.re * q.re + q.imI * q.imI + q.imJ * q.imJ + q.imK * q.imK = ‖q‖ * ‖q‖ := by
  rw [← normSq_eq_norm_mul_self, normSq_def']
  ring

theorem normSq_of_norm (hq : ‖q‖ = 1) :
    q.re * q.re + q.imI * q.imI + q.imJ * q.imJ + q.imK * q.imK = 1 := by
  rw [components_mul_self, hq, one_mul]

theorem norm_of_normSq (h : q.re * q.re + q.imI * q.imI + q.imJ * q.imJ + q.imK * q.imK = 1) :
    ‖q‖ = 1 := by
  rw [components_mul_self] at h
  exact (mul_self_eq_one_iff.mp h).resolve_right fun hneg => by linarith [norm_nonneg q]

theorem matrix_neg (q : Quat) : matrix (-q) = matrix q := by
  unfold matrix
  simp

theorem UpToSign.matrix_eq (h : UpToSign p q) : matrix p = matrix q := by
  rcases h with rfl | rfl
  · rfl
  · exact matrix_neg q

/-- The products of the components are linear in the entries of the matrix. -/
theorem component_products (hq : ‖q‖ = 1) :
    4 * (q.re * q.re) = 1 + matrix q 0 0 + matrix q 1 1 + matrix q 2 2 ∧
    4 * (q.imI * q.imI) = 1 + matrix q 0 0 - matrix q 1 1 - matrix q 2 2 ∧
    4 * (q.imJ * q.imJ) = 1 + matrix q 1 1 - matrix q 0 0 - matrix q 2 2 ∧
    4 * (q.imK * q.imK) = 1 + matrix q 2 2 - matrix q 0 0 - matrix q 1 1 ∧
    4 * (q.re * q.imI) = matrix q 2 1 - matrix q 1 2 ∧
    4 * (q.re * q.imJ) = matrix q 0 2 - matrix q 2 0 ∧
    4 * (q.re * q.imK) = matrix q 1 0 - matrix q 0 1 ∧
    4 * (q.imI * q.imJ) = matrix q 0 1 + matrix q 1 0 ∧
    4 * (q.imI * q.imK) = matrix q 0 2 + matrix q 2 0 ∧
    4 * (q.imJ * q.imK) = matrix q 1 2 + matrix q 2 1 := by
  have h := normSq_of_norm hq
  simp only [matrix, Matrix.of_apply, Matrix.cons_val', Matrix.cons_val_zero,
    Matrix.cons_val_one, Matrix.cons_val]
  refine ⟨?_, ?_, ?_, ?_, ?_, ?_, ?_, ?_, ?_, ?_⟩ <;> linarith

/-- The same matrix with the norm multiplied in, which makes its entries homogeneous. -/
noncomputable def homogeneous (q : Quat) : Matrix (Fin 3) (Fin 3) ℝ :=
  let w := q.re
  let x := q.imI
  let y := q.imJ
  let z := q.imK
  !![w * w + x * x - y * y - z * z, 2 * (x * y - w * z), 2 * (x * z + w * y);
    2 * (x * y + w * z), w * w - x * x + y * y - z * z, 2 * (y * z - w * x);
    2 * (x * z - w * y), 2 * (y * z + w * x), w * w - x * x - y * y + z * z]

theorem matrix_eq_homogeneous (hq : ‖q‖ = 1) : matrix q = homogeneous q := by
  have h := normSq_of_norm hq
  ext i j
  fin_cases i <;> fin_cases j <;> simp [matrix, homogeneous] <;> linarith

theorem homogeneous_mul (p q : Quat) : homogeneous (p * q) = homogeneous p * homogeneous q := by
  ext i j
  fin_cases i <;> fin_cases j <;>
    simp [homogeneous, Matrix.mul_apply, Fin.sum_univ_three] <;> ring

/-- The matrix of a product is the product of the matrices. -/
theorem matrix_mul (hp : ‖p‖ = 1) (hq : ‖q‖ = 1) : matrix (p * q) = matrix p * matrix q := by
  have hpq : ‖p * q‖ = 1 := by rw [norm_mul, hp, hq, one_mul]
  rw [matrix_eq_homogeneous hp, matrix_eq_homogeneous hq, matrix_eq_homogeneous hpq,
    homogeneous_mul]

/-! ## Reading the quaternion back -/

/-- Some component of a unit quaternion is not zero. -/
theorem exists_component_ne_zero (hq : ‖q‖ = 1) :
    q.re ≠ 0 ∨ q.imI ≠ 0 ∨ q.imJ ≠ 0 ∨ q.imK ≠ 0 := by
  by_contra hall
  push Not at hall
  obtain ⟨hw, hx, hy, hz⟩ := hall
  have h := normSq_of_norm hq
  rw [hw, hx, hy, hz] at h
  norm_num at h

/-- Two quaternions that agree after multiplication with their components of one index. -/
theorem upToSign_of_pivot {a b : ℝ} (hsq : a * a = b * b) (ha : a ≠ 0) (h : a • p = b • q) :
    UpToSign p q := by
  rcases mul_self_eq_mul_self_iff.mp hsq with rfl | rfl
  · exact Or.inl (smul_right_injective _ ha h)
  · refine Or.inr (smul_right_injective _ ha ?_)
    simpa using h

/-- Quaternions of the same rotation agree after multiplication with any of their components. -/
theorem pivot (hp : ‖p‖ = 1) (hq : ‖q‖ = 1) (h : matrix p = matrix q) :
    p.re • p = q.re • q ∧ p.imI • p = q.imI • q ∧ p.imJ • p = q.imJ • q ∧
      p.imK • p = q.imK • q := by
  obtain ⟨p0, p1, p2, p3, p4, p5, p6, p7, p8, p9⟩ := component_products hp
  obtain ⟨q0, q1, q2, q3, q4, q5, q6, q7, q8, q9⟩ := component_products hq
  rw [← h] at q0 q1 q2 q3 q4 q5 q6 q7 q8 q9
  refine ⟨?_, ?_, ?_, ?_⟩ <;> ext <;> simp <;> linarith

/-- The matrix determines the quaternion up to its sign. -/
theorem matrix_eq_iff (hp : ‖p‖ = 1) (hq : ‖q‖ = 1) : matrix p = matrix q ↔ UpToSign p q := by
  constructor
  · intro h
    obtain ⟨hw, hx, hy, hz⟩ := pivot hp hq h
    rcases exists_component_ne_zero hp with h0 | h0 | h0 | h0
    · exact upToSign_of_pivot (congrArg QuaternionAlgebra.re hw) h0 hw
    · exact upToSign_of_pivot (congrArg QuaternionAlgebra.imI hx) h0 hx
    · exact upToSign_of_pivot (congrArg QuaternionAlgebra.imJ hy) h0 hy
    · exact upToSign_of_pivot (congrArg QuaternionAlgebra.imK hz) h0 hz
  · exact UpToSign.matrix_eq

/-- Dividing the products with one component `a` by `|a|` gives the quaternion up to sign. -/
theorem upToSign_pivot {a : ℝ} (ha : a ≠ 0) (q : Quat) : UpToSign ((a / |a|) • q) q := by
  rcases ha.lt_or_gt with hlt | hgt
  · right
    rw [abs_of_neg hlt, div_neg, div_self ha, neg_one_smul]
  · left
    rw [abs_of_pos hgt, div_self ha, one_smul]

/-! ## A half turn -/

/-- The half turn about the first axis. -/
def halfTurn : Quat := quat 0 1 0 0

theorem norm_halfTurn : ‖halfTurn‖ = 1 := norm_of_normSq (by simp [halfTurn])

theorem matrix_halfTurn : matrix halfTurn = !![1, 0, 0; 0, -1, 0; 0, 0, -1] := by
  ext i j
  fin_cases i <;> fin_cases j <;> simp [matrix, halfTurn] <;> norm_num

/-- The quaternion of a rotation seen from the axes that are turned by a half turn. -/
def turned (q : Quat) : Quat := quat q.re q.imI (-q.imJ) (-q.imK)

theorem halfTurn_mul_mul (q : Quat) : halfTurn * q * halfTurn = -turned q := by
  ext <;> simp [halfTurn, turned]

theorem norm_turned (q : Quat) : ‖turned q‖ = ‖q‖ := by
  have h := halfTurn_mul_mul q
  have hnorm := congrArg norm h
  rw [norm_mul, norm_mul, norm_halfTurn, one_mul, mul_one, norm_neg] at hnorm
  exact hnorm.symm

theorem turned_turned (q : Quat) : turned (turned q) = q := by
  ext <;> simp [turned]

theorem turned_neg (q : Quat) : turned (-q) = -turned q := by
  ext <;> simp [turned]

theorem matrix_turned (hq : ‖q‖ = 1) :
    matrix (turned q) = matrix halfTurn * matrix q * matrix halfTurn := by
  have hmul : ‖halfTurn * q‖ = 1 := by rw [norm_mul, norm_halfTurn, hq, one_mul]
  rw [← matrix_mul norm_halfTurn hq, ← matrix_mul hmul norm_halfTurn, halfTurn_mul_mul, matrix_neg]

end Rotation
