/-
  Rotation matrices.

  A rotation matrix is a matrix of `SO(3)`. The matrix of a unit quaternion is one
  (`matrix_mem`), and every rotation matrix is the matrix of a unit quaternion
  (`exists_matrix_eq`), so a fact about unit quaternions is one about all of `SO(3)`.

  The proof reads the quaternion off a matrix with `0 < 1 + trace`. For the others it turns the
  matrix by a half turn about one of the axes first: the traces of the four matrices add up to
  0, so one of them is not negative.
-/
import Mathlib.LinearAlgebra.Matrix.Adjugate
import Mathlib.LinearAlgebra.Matrix.Trace
import Mathlib.LinearAlgebra.UnitaryGroup
import Hummingbird.Library.Rotation

namespace Rotation

open Matrix Quaternion

/-- The rotation matrices. -/
abbrev SO3 : Submonoid (Matrix (Fin 3) (Fin 3) ℝ) := specialOrthogonalGroup (Fin 3) ℝ

theorem mem_SO3_iff {R : Matrix (Fin 3) (Fin 3) ℝ} : R ∈ SO3 ↔ R * Rᵀ = 1 ∧ R.det = 1 := by
  rw [mem_specialOrthogonalGroup_iff, mem_orthogonalGroup_iff]

section Entries

variable {R : Matrix (Fin 3) (Fin 3) ℝ}

theorem row_mul_row (hR : R ∈ SO3) (i j : Fin 3) :
    R i 0 * R j 0 + R i 1 * R j 1 + R i 2 * R j 2 = (1 : Matrix (Fin 3) (Fin 3) ℝ) i j := by
  rw [← (mem_SO3_iff.mp hR).1, Matrix.mul_apply, Fin.sum_univ_three]
  rfl

theorem column_mul_column (hR : R ∈ SO3) (i j : Fin 3) :
    R 0 i * R 0 j + R 1 i * R 1 j + R 2 i * R 2 j = (1 : Matrix (Fin 3) (Fin 3) ℝ) i j := by
  have h : Rᵀ * R = 1 := mul_eq_one_comm.mp (mem_SO3_iff.mp hR).1
  rw [← h, Matrix.mul_apply, Fin.sum_univ_three]
  rfl

/-- Every entry of a rotation matrix is its own cofactor. -/
theorem adjugate_eq_transpose (hR : R ∈ SO3) : adjugate R = Rᵀ := by
  obtain ⟨horth, hdet⟩ := mem_SO3_iff.mp hR
  have h : Rᵀ * R = 1 := mul_eq_one_comm.mp horth
  calc adjugate R = Rᵀ * R * adjugate R := by rw [h, Matrix.one_mul]
    _ = Rᵀ * (R.det • 1) := by rw [Matrix.mul_assoc, mul_adjugate]
    _ = Rᵀ := by rw [hdet, one_smul, Matrix.mul_one]

/-- The same by entries; the sign of the cofactor is in the cyclic order of the indices. -/
theorem cofactor (hR : R ∈ SO3) (i j : Fin 3) :
    R i j = R (i + 1) (j + 1) * R (i + 2) (j + 2) - R (i + 1) (j + 2) * R (i + 2) (j + 1) := by
  have h : adjugate R j i = R i j := by rw [adjugate_eq_transpose hR, transpose_apply]
  rw [← h, adjugate_fin_three]
  fin_cases i <;> fin_cases j <;> simp <;> ring

end Entries

/-! ## The matrix of a unit quaternion -/

section Quaternions

variable {q : Quat}

theorem matrix_one : matrix 1 = 1 := by
  ext i j
  fin_cases i <;> fin_cases j <;> simp [matrix]

theorem matrix_zero : matrix 0 = 1 := by
  have h : (0 : Quat) = quat 0 0 0 0 := rfl
  rw [h]
  ext i j
  fin_cases i <;> fin_cases j <;> simp [matrix]

theorem matrix_star (q : Quat) : matrix (star q) = (matrix q)ᵀ := by
  ext i j
  fin_cases i <;> fin_cases j <;> simp [matrix] <;> ring

theorem det_homogeneous (q : Quat) :
    (homogeneous q).det =
      (q.re * q.re + q.imI * q.imI + q.imJ * q.imJ + q.imK * q.imK) ^ 3 := by
  rw [det_fin_three]
  simp only [homogeneous, of_apply, cons_val', cons_val_zero, cons_val_one, cons_val]
  ring

theorem matrix_mem (hq : ‖q‖ = 1) : matrix q ∈ SO3 := by
  have hstar : ‖star q‖ = 1 := by rw [norm_star, hq]
  have hone : q * star q = 1 := by
    rw [self_mul_star, normSq_eq_norm_mul_self, hq, one_mul, coe_one]
  rw [mem_SO3_iff]
  constructor
  · rw [← matrix_star, ← matrix_mul hq hstar, hone, matrix_one]
  · rw [matrix_eq_homogeneous hq, det_homogeneous, normSq_of_norm hq, one_pow]

end Quaternions

/-! ## The quaternion of a rotation matrix -/

section Surjective

variable {R : Matrix (Fin 3) (Fin 3) ℝ}

/-- The products of two differences across the diagonal of a rotation matrix. -/
theorem offDiagonal_products (hR : R ∈ SO3) :
    (R 2 1 - R 1 2) * (R 2 1 - R 1 2) =
      (1 + R.trace) * (1 + R 0 0 - R 1 1 - R 2 2) ∧
    (R 0 2 - R 2 0) * (R 0 2 - R 2 0) =
      (1 + R.trace) * (1 + R 1 1 - R 0 0 - R 2 2) ∧
    (R 1 0 - R 0 1) * (R 1 0 - R 0 1) =
      (1 + R.trace) * (1 + R 2 2 - R 0 0 - R 1 1) ∧
    (R 2 1 - R 1 2) * (R 0 2 - R 2 0) = (1 + R.trace) * (R 0 1 + R 1 0) ∧
    (R 2 1 - R 1 2) * (R 1 0 - R 0 1) = (1 + R.trace) * (R 0 2 + R 2 0) ∧
    (R 0 2 - R 2 0) * (R 1 0 - R 0 1) = (1 + R.trace) * (R 1 2 + R 2 1) := by
  have c00 : R 0 0 = R 1 1 * R 2 2 - R 1 2 * R 2 1 := cofactor hR 0 0
  have c11 : R 1 1 = R 2 2 * R 0 0 - R 2 0 * R 0 2 := cofactor hR 1 1
  have c22 : R 2 2 = R 0 0 * R 1 1 - R 0 1 * R 1 0 := cofactor hR 2 2
  have c01 : R 0 1 = R 1 2 * R 2 0 - R 1 0 * R 2 2 := cofactor hR 0 1
  have c10 : R 1 0 = R 2 1 * R 0 2 - R 2 2 * R 0 1 := cofactor hR 1 0
  have c02 : R 0 2 = R 1 0 * R 2 1 - R 1 1 * R 2 0 := cofactor hR 0 2
  have c20 : R 2 0 = R 0 1 * R 1 2 - R 0 2 * R 1 1 := cofactor hR 2 0
  have c12 : R 1 2 = R 2 0 * R 0 1 - R 2 1 * R 0 0 := cofactor hR 1 2
  have c21 : R 2 1 = R 0 2 * R 1 0 - R 0 0 * R 1 2 := cofactor hR 2 1
  have r00 := row_mul_row hR 0 0
  have r11 := row_mul_row hR 1 1
  have r22 := row_mul_row hR 2 2
  have r01 := row_mul_row hR 0 1
  have r02 := row_mul_row hR 0 2
  have r12 := row_mul_row hR 1 2
  have k00 := column_mul_column hR 0 0
  have k11 := column_mul_column hR 1 1
  have k22 := column_mul_column hR 2 2
  have k01 := column_mul_column hR 0 1
  have k02 := column_mul_column hR 0 2
  have k12 := column_mul_column hR 1 2
  simp only [one_apply_eq, one_apply_ne (show (0 : Fin 3) ≠ 1 by decide),
    one_apply_ne (show (0 : Fin 3) ≠ 2 by decide), one_apply_ne (show (1 : Fin 3) ≠ 2 by decide)]
    at r00 r11 r22 r01 r02 r12 k00 k11 k22 k01 k02 k12
  rw [trace_fin_three]
  refine ⟨?_, ?_, ?_, ?_, ?_, ?_⟩
  · linear_combination r11 + r22 - k00 - 2 * c00
  · linear_combination r00 + r22 - k11 - 2 * c11
  · linear_combination r00 + r11 - k22 - 2 * c22
  · linear_combination -c01 - c10 - r01 - k01
  · linear_combination -c02 - c20 - r02 - k02
  · linear_combination -c12 - c21 - r12 - k12

/-- The quaternion with positive real part that has the matrix `R`, when `0 < 1 + R.trace`. -/
noncomputable def ofMatrix (R : Matrix (Fin 3) (Fin 3) ℝ) : Quat :=
  let b := 2 * √(1 + R.trace)
  quat (b / 4) ((R 2 1 - R 1 2) / b) ((R 0 2 - R 2 0) / b) ((R 1 0 - R 0 1) / b)

/-- The products of the components of `ofMatrix R` are linear in the entries of `R`. -/
theorem ofMatrix_products (hR : R ∈ SO3) (ht : 0 < 1 + R.trace) :
    let q := ofMatrix R
    4 * (q.re * q.re) = 1 + R.trace ∧
    4 * (q.imI * q.imI) = 1 + R 0 0 - R 1 1 - R 2 2 ∧
    4 * (q.imJ * q.imJ) = 1 + R 1 1 - R 0 0 - R 2 2 ∧
    4 * (q.imK * q.imK) = 1 + R 2 2 - R 0 0 - R 1 1 ∧
    4 * (q.re * q.imI) = R 2 1 - R 1 2 ∧
    4 * (q.re * q.imJ) = R 0 2 - R 2 0 ∧
    4 * (q.re * q.imK) = R 1 0 - R 0 1 ∧
    4 * (q.imI * q.imJ) = R 0 1 + R 1 0 ∧
    4 * (q.imI * q.imK) = R 0 2 + R 2 0 ∧
    4 * (q.imJ * q.imK) = R 1 2 + R 2 1 := by
  obtain ⟨h11, h22, h33, h12, h13, h23⟩ := offDiagonal_products hR
  have hb : 2 * √(1 + R.trace) ≠ 0 := (mul_pos two_pos (Real.sqrt_pos.mpr ht)).ne'
  have hsq : (2 * √(1 + R.trace)) * (2 * √(1 + R.trace)) = 4 * (1 + R.trace) := by
    rw [mul_mul_mul_comm, Real.mul_self_sqrt ht.le]
    norm_num
  -- the product of two components whose numerators multiply to `(1 + trace) * c`
  have hpair : ∀ {u v c : ℝ}, u * v = (1 + R.trace) * c →
      4 * (u / (2 * √(1 + R.trace)) * (v / (2 * √(1 + R.trace)))) = c := by
    intro u v c h
    rw [div_mul_div_comm, h, hsq, mul_comm 4]
    field_simp
  have hpivot : ∀ u : ℝ,
      4 * (2 * √(1 + R.trace) / 4 * (u / (2 * √(1 + R.trace)))) = u := by
    intro u
    field_simp
  have hre : 4 * (2 * √(1 + R.trace) / 4 * (2 * √(1 + R.trace) / 4)) = 1 + R.trace := by
    rw [div_mul_div_comm, hsq]
    ring
  exact ⟨hre, hpair h11, hpair h22, hpair h33, hpivot _, hpivot _, hpivot _, hpair h12, hpair h13,
    hpair h23⟩

theorem norm_ofMatrix (hR : R ∈ SO3) (ht : 0 < 1 + R.trace) : ‖ofMatrix R‖ = 1 := by
  obtain ⟨hw, hx, hy, hz, -⟩ := ofMatrix_products hR ht
  have htr := R.trace_fin_three
  exact norm_of_normSq (by linarith)

theorem matrix_ofMatrix (hR : R ∈ SO3) (ht : 0 < 1 + R.trace) : matrix (ofMatrix R) = R := by
  obtain ⟨hw, hx, hy, hz, hwx, hwy, hwz, hxy, hxz, hyz⟩ := ofMatrix_products hR ht
  ext i j
  fin_cases i <;> fin_cases j <;> simp [matrix] <;> linarith

/-! ## Half turns about the axes -/

/-- The half turn about the axis `i`. -/
def halfTurnAbout : Fin 3 → Quat :=
  ![quat 0 1 0 0, quat 0 0 1 0, quat 0 0 0 1]

theorem norm_halfTurnAbout (i : Fin 3) : ‖halfTurnAbout i‖ = 1 := by
  refine norm_of_normSq ?_
  fin_cases i <;> simp [halfTurnAbout]

/-- A half turn about the axis `i` turns the other two axes over. -/
theorem trace_mul_halfTurnAbout (R : Matrix (Fin 3) (Fin 3) ℝ) (i : Fin 3) :
    (R * matrix (halfTurnAbout i)).trace = 2 * R i i - R.trace := by
  fin_cases i <;>
    simp [halfTurnAbout, matrix, Matrix.mul_apply, Fin.sum_univ_three, trace_fin_three] <;> ring

/-- Undo a half turn: if the turned matrix comes from a quaternion, so does the matrix. -/
theorem exists_of_mul_halfTurnAbout {i : Fin 3} {p : Quat} (hp : ‖p‖ = 1)
    (h : matrix p = R * matrix (halfTurnAbout i)) : ∃ q, ‖q‖ = 1 ∧ matrix q = R := by
  have hi := norm_halfTurnAbout i
  have horth : matrix (halfTurnAbout i) * matrix (star (halfTurnAbout i)) = 1 := by
    rw [matrix_star, (mem_SO3_iff.mp (matrix_mem hi)).1]
  refine ⟨p * star (halfTurnAbout i), by rw [norm_mul, norm_star, hp, hi, one_mul], ?_⟩
  rw [matrix_mul hp (by rw [norm_star, hi]), h, Matrix.mul_assoc, horth, Matrix.mul_one]

/-- Every rotation matrix is the matrix of a unit quaternion. -/
theorem exists_matrix_eq (hR : R ∈ SO3) : ∃ q, ‖q‖ = 1 ∧ matrix q = R := by
  rcases lt_or_ge 0 (1 + R.trace) with ht | ht
  · exact ⟨ofMatrix R, norm_ofMatrix hR ht, matrix_ofMatrix hR ht⟩
  · -- the traces after the three half turns add up to minus the trace, so one is at least 1 / 3
    have hex : ∃ i : Fin 3, 0 < 1 + (2 * R i i - R.trace) := by
      by_contra hall
      push Not at hall
      have h0 := hall 0
      have h1 := hall 1
      have h2 := hall 2
      have htr := R.trace_fin_three
      linarith
    obtain ⟨i, hi⟩ := hex
    have hmem : R * matrix (halfTurnAbout i) ∈ SO3 :=
      SO3.mul_mem hR (matrix_mem (norm_halfTurnAbout i))
    rw [← trace_mul_halfTurnAbout] at hi
    exact exists_of_mul_halfTurnAbout (norm_ofMatrix hmem hi) (matrix_ofMatrix hmem hi)

end Surjective

end Rotation
