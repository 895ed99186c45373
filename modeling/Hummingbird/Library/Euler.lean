/-
  Roll, pitch and yaw.

  `zyx roll pitch yaw` is the rotation by `roll` about the first axis, then by `pitch` about the
  second and by `yaw` about the third. `rollOf`, `pitchOf` and `yawOf` read the three angles off
  a rotation matrix. Below a quarter turn of pitch they are the angles of the matrix
  (`zyx_angles`) and the only ones up to whole turns (`rollOf_zyx`, `pitchOf_zyx`, `yawOf_zyx`);
  at a quarter turn roll and yaw turn about the same axis and the matrix has angles with any
  roll (`exists_zyx_of_locked`). `eulerQuat` is the unit quaternion of the three angles.
-/
import Mathlib.Analysis.SpecialFunctions.Complex.Arg
import Mathlib.Analysis.SpecialFunctions.Trigonometric.Inverse
import Hummingbird.Library.SpecialOrthogonal

namespace Rotation

open Matrix Quaternion Real

noncomputable section

/-! ## The angles of a rotation -/

def aboutX (a : ℝ) : Matrix (Fin 3) (Fin 3) ℝ :=
  !![1, 0, 0; 0, cos a, -sin a; 0, sin a, cos a]

def aboutY (a : ℝ) : Matrix (Fin 3) (Fin 3) ℝ :=
  !![cos a, 0, sin a; 0, 1, 0; -sin a, 0, cos a]

def aboutZ (a : ℝ) : Matrix (Fin 3) (Fin 3) ℝ :=
  !![cos a, -sin a, 0; sin a, cos a, 0; 0, 0, 1]

/-- The rotation by `roll`, `pitch` and `yaw` about the three axes, in this order. -/
def zyx (roll pitch yaw : ℝ) : Matrix (Fin 3) (Fin 3) ℝ :=
  aboutZ yaw * aboutY pitch * aboutX roll

def rollOf (R : Matrix (Fin 3) (Fin 3) ℝ) : ℝ := Complex.arg ⟨R 2 2, R 2 1⟩

def pitchOf (R : Matrix (Fin 3) (Fin 3) ℝ) : ℝ := arcsin (-R 2 0)

def yawOf (R : Matrix (Fin 3) (Fin 3) ℝ) : ℝ := Complex.arg ⟨R 0 0, R 1 0⟩

/-- The quaternion of the rotation by the three angles. -/
def eulerQuat (roll pitch yaw : ℝ) : Quat :=
  quat (cos (1 / 2 * yaw)) 0 0 (sin (1 / 2 * yaw)) *
    quat (cos (1 / 2 * pitch)) 0 (sin (1 / 2 * pitch)) 0 *
      quat (cos (1 / 2 * roll)) (sin (1 / 2 * roll)) 0 0

end

/-! ## The quaternion of three angles -/

theorem cos_eq_half (a : ℝ) : cos a = 1 - 2 * (sin (1 / 2 * a) * sin (1 / 2 * a)) := by
  have h : a = 2 * (1 / 2 * a) := by ring
  conv_lhs => rw [h, cos_two_mul']
  linarith [sin_sq_add_cos_sq (1 / 2 * a)]

theorem sin_eq_half (a : ℝ) : sin a = 2 * (cos (1 / 2 * a) * sin (1 / 2 * a)) := by
  have h : a = 2 * (1 / 2 * a) := by ring
  conv_lhs => rw [h, sin_two_mul]
  ring

theorem norm_eulerFactors (a : ℝ) :
    ‖quat (cos (1 / 2 * a)) (sin (1 / 2 * a)) 0 0‖ = 1 ∧
    ‖quat (cos (1 / 2 * a)) 0 (sin (1 / 2 * a)) 0‖ = 1 ∧
    ‖quat (cos (1 / 2 * a)) 0 0 (sin (1 / 2 * a))‖ = 1 := by
  have h := sin_sq_add_cos_sq (1 / 2 * a)
  refine ⟨?_, ?_, ?_⟩ <;> refine norm_of_normSq ?_ <;> simp <;> linarith

theorem matrix_eulerFactors (a : ℝ) :
    matrix (quat (cos (1 / 2 * a)) (sin (1 / 2 * a)) 0 0) = aboutX a ∧
    matrix (quat (cos (1 / 2 * a)) 0 (sin (1 / 2 * a)) 0) = aboutY a ∧
    matrix (quat (cos (1 / 2 * a)) 0 0 (sin (1 / 2 * a))) = aboutZ a := by
  have hc := cos_eq_half a
  have hs := sin_eq_half a
  refine ⟨?_, ?_, ?_⟩ <;> ext i j <;> fin_cases i <;> fin_cases j <;>
    simp [matrix, aboutX, aboutY, aboutZ] <;> linarith

theorem norm_eulerQuat (roll pitch yaw : ℝ) : ‖eulerQuat roll pitch yaw‖ = 1 := by
  rw [eulerQuat, norm_mul, norm_mul, (norm_eulerFactors yaw).2.2, (norm_eulerFactors pitch).2.1,
    (norm_eulerFactors roll).1, one_mul, one_mul]

theorem matrix_eulerQuat (roll pitch yaw : ℝ) :
    matrix (eulerQuat roll pitch yaw) = zyx roll pitch yaw := by
  obtain ⟨hx, -, -⟩ := norm_eulerFactors roll
  obtain ⟨-, hy, -⟩ := norm_eulerFactors pitch
  obtain ⟨-, -, hz⟩ := norm_eulerFactors yaw
  rw [eulerQuat, matrix_mul (by rw [norm_mul, hz, hy, one_mul]) hx, matrix_mul hz hy,
    (matrix_eulerFactors roll).1, (matrix_eulerFactors pitch).2.1,
    (matrix_eulerFactors yaw).2.2, zyx]

theorem zyx_mem (roll pitch yaw : ℝ) : zyx roll pitch yaw ∈ SO3 := by
  rw [← matrix_eulerQuat]
  exact matrix_mem (norm_eulerQuat roll pitch yaw)

/-! ## The entries that the angles are read off -/

section Entries

variable (roll pitch yaw : ℝ)

@[simp] theorem zyx_00 : zyx roll pitch yaw 0 0 = cos pitch * cos yaw := by
  simp [zyx, aboutX, aboutY, aboutZ, Matrix.mul_apply, Fin.sum_univ_three, mul_comm]

@[simp] theorem zyx_10 : zyx roll pitch yaw 1 0 = cos pitch * sin yaw := by
  simp [zyx, aboutX, aboutY, aboutZ, Matrix.mul_apply, Fin.sum_univ_three, mul_comm]

@[simp] theorem zyx_20 : zyx roll pitch yaw 2 0 = -sin pitch := by
  simp [zyx, aboutX, aboutY, aboutZ, Matrix.mul_apply, Fin.sum_univ_three]

@[simp] theorem zyx_21 : zyx roll pitch yaw 2 1 = cos pitch * sin roll := by
  simp [zyx, aboutX, aboutY, aboutZ, Matrix.mul_apply, Fin.sum_univ_three]

@[simp] theorem zyx_22 : zyx roll pitch yaw 2 2 = cos pitch * cos roll := by
  simp [zyx, aboutX, aboutY, aboutZ, Matrix.mul_apply, Fin.sum_univ_three]

end Entries

/-- The other four entries of a rotation matrix follow from its first column and last row. -/
theorem entries_of_column_row {R : Matrix (Fin 3) (Fin 3) ℝ} (hR : R ∈ SO3) :
    (1 - R 2 0 * R 2 0) * R 0 1 = -(R 1 0 * R 2 2 + R 0 0 * R 2 0 * R 2 1) ∧
    (1 - R 2 0 * R 2 0) * R 1 1 = R 0 0 * R 2 2 - R 1 0 * R 2 0 * R 2 1 ∧
    (1 - R 2 0 * R 2 0) * R 0 2 = R 1 0 * R 2 1 - R 0 0 * R 2 0 * R 2 2 ∧
    (1 - R 2 0 * R 2 0) * R 1 2 = -(R 0 0 * R 2 1 + R 1 0 * R 2 0 * R 2 2) := by
  have h22 : R 2 2 = R 0 0 * R 1 1 - R 0 1 * R 1 0 := cofactor hR 2 2
  have h21 : R 2 1 = R 0 2 * R 1 0 - R 0 0 * R 1 2 := cofactor hR 2 1
  have k00 := column_mul_column hR 0 0
  have k01 := column_mul_column hR 0 1
  have k02 := column_mul_column hR 0 2
  rw [one_apply_eq] at k00
  rw [one_apply_ne (by decide)] at k01 k02
  refine ⟨?_, ?_, ?_, ?_⟩
  · linear_combination -R 0 1 * k00 + R 0 0 * k01 + R 1 0 * h22
  · linear_combination -R 1 1 * k00 + R 1 0 * k01 - R 0 0 * h22
  · linear_combination -R 0 2 * k00 + R 0 0 * k02 - R 1 0 * h21
  · linear_combination -R 1 2 * k00 + R 1 0 * k02 + R 0 0 * h21

/-- Below a quarter turn of pitch the first column and the last row are all there is. -/
theorem eq_of_column_row {R S : Matrix (Fin 3) (Fin 3) ℝ} (hR : R ∈ SO3) (hS : S ∈ SO3)
    (hlt : |R 2 0| < 1) (h00 : R 0 0 = S 0 0) (h10 : R 1 0 = S 1 0) (h20 : R 2 0 = S 2 0)
    (h21 : R 2 1 = S 2 1) (h22 : R 2 2 = S 2 2) : R = S := by
  have hpos : 1 - R 2 0 * R 2 0 ≠ 0 := by
    have hsq := mul_self_lt_mul_self (abs_nonneg _) hlt
    rw [abs_mul_abs_self] at hsq
    linarith
  obtain ⟨r01, r11, r02, r12⟩ := entries_of_column_row hR
  obtain ⟨s01, s11, s02, s12⟩ := entries_of_column_row hS
  rw [← h00, ← h10, ← h20, ← h21, ← h22] at s01 s11 s02 s12
  ext i j
  fin_cases i <;> fin_cases j
  · exact h00
  · exact mul_left_cancel₀ hpos (r01.trans s01.symm)
  · exact mul_left_cancel₀ hpos (r02.trans s02.symm)
  · exact h10
  · exact mul_left_cancel₀ hpos (r11.trans s11.symm)
  · exact mul_left_cancel₀ hpos (r12.trans s12.symm)
  · exact h20
  · exact h21
  · exact h22

/-! ## Reading the angles off -/

section Angles

variable {R : Matrix (Fin 3) (Fin 3) ℝ}

theorem pitchOf_mem (R : Matrix (Fin 3) (Fin 3) ℝ) : pitchOf R ∈ Set.Icc (-(π / 2)) (π / 2) :=
  arcsin_mem_Icc _

theorem abs_entry_le (hR : R ∈ SO3) : |R 2 0| ≤ 1 := by
  have h := row_mul_row hR 2 2
  rw [Matrix.one_apply_eq] at h
  rw [abs_le_one_iff_mul_self_le_one]
  linarith [mul_self_nonneg (R 2 1), mul_self_nonneg (R 2 2)]

theorem sin_pitchOf (hR : R ∈ SO3) : sin (pitchOf R) = -R 2 0 := by
  obtain ⟨hlo, hhi⟩ := abs_le.mp (abs_entry_le hR)
  exact sin_arcsin (by linarith) (by linarith)

theorem cos_pitchOf (R : Matrix (Fin 3) (Fin 3) ℝ) :
    cos (pitchOf R) = √(1 - R 2 0 * R 2 0) := by
  rw [pitchOf, cos_arcsin, neg_sq, sq]

/-- A pair of entries whose squares add up to those of the cosine of the pitch, in polar form. -/
theorem cos_pitchOf_mul_arg {x y : ℝ} (h : x * x + y * y = 1 - R 2 0 * R 2 0) :
    cos (pitchOf R) * cos (Complex.arg ⟨x, y⟩) = x ∧
      cos (pitchOf R) * sin (Complex.arg ⟨x, y⟩) = y := by
  have hnorm : ‖(⟨x, y⟩ : ℂ)‖ = cos (pitchOf R) := by
    rw [cos_pitchOf, ← h, Complex.norm_def, Complex.normSq_mk]
  rw [← hnorm]
  exact ⟨Complex.norm_mul_cos_arg _, Complex.norm_mul_sin_arg _⟩

/-- Below a quarter turn of pitch the angles read off a rotation matrix are its angles. -/
theorem zyx_angles (hR : R ∈ SO3) (hlt : |R 2 0| < 1) :
    zyx (rollOf R) (pitchOf R) (yawOf R) = R := by
  have hrow := row_mul_row hR 2 2
  have hcolumn := column_mul_column hR 0 0
  rw [Matrix.one_apply_eq] at hrow hcolumn
  obtain ⟨h22, h21⟩ := cos_pitchOf_mul_arg (x := R 2 2) (y := R 2 1) (by linarith)
  obtain ⟨h00, h10⟩ := cos_pitchOf_mul_arg (x := R 0 0) (y := R 1 0) (by linarith)
  have h20 : -sin (pitchOf R) = R 2 0 := by rw [sin_pitchOf hR, neg_neg]
  refine (eq_of_column_row hR (zyx_mem _ _ _) hlt ?_ ?_ ?_ ?_ ?_).symm
  · rw [zyx_00]; exact h00.symm
  · rw [zyx_10]; exact h10.symm
  · rw [zyx_20]; exact h20.symm
  · rw [zyx_21]; exact h21.symm
  · rw [zyx_22]; exact h22.symm

/-- At a quarter turn of pitch a rotation matrix has angles with roll 0. -/
theorem exists_zyx_of_locked (hR : R ∈ SO3) (hlock : |R 2 0| = 1) :
    rollOf R = 0 ∧ ∃ yaw, zyx 0 (pitchOf R) yaw = R := by
  have hsq : R 2 0 * R 2 0 = 1 := by rw [← abs_mul_abs_self, hlock, one_mul]
  have hrow := row_mul_row hR 2 2
  have hcolumn := column_mul_column hR 0 0
  have hcolumn' := column_mul_column hR 1 1
  rw [Matrix.one_apply_eq] at hrow hcolumn hcolumn'
  -- the other entries of the third row and of the first column have no room left
  obtain ⟨h21, h22⟩ : R 2 1 = 0 ∧ R 2 2 = 0 := mul_self_add_mul_self_eq_zero.mp (by linarith)
  obtain ⟨h00, h10⟩ : R 0 0 = 0 ∧ R 1 0 = 0 := mul_self_add_mul_self_eq_zero.mp (by linarith)
  have h02 : R 0 2 = R 1 0 * R 2 1 - R 1 1 * R 2 0 := cofactor hR 0 2
  have h12 : R 1 2 = R 2 0 * R 0 1 - R 2 1 * R 0 0 := cofactor hR 1 2
  have hcos : cos (pitchOf R) = 0 := by rw [cos_pitchOf, hsq, sub_self, sqrt_zero]
  have hsin := sin_pitchOf hR
  -- the yaw is the angle of the second column
  have hnorm : ‖(⟨R 1 1, -R 0 1⟩ : ℂ)‖ = 1 := by
    have hsum : R 0 1 * R 0 1 + R 1 1 * R 1 1 = 1 := by
      rw [h21, mul_zero, add_zero] at hcolumn'
      exact hcolumn'
    rw [Complex.norm_def, Complex.normSq_mk, sqrt_eq_one]
    linarith [neg_mul_neg (R 0 1) (R 0 1)]
  have hcy := Complex.norm_mul_cos_arg ⟨R 1 1, -R 0 1⟩
  have hsy := Complex.norm_mul_sin_arg ⟨R 1 1, -R 0 1⟩
  rw [hnorm, one_mul] at hcy hsy
  refine ⟨by rw [rollOf, h22, h21]; exact Complex.arg_zero, Complex.arg ⟨R 1 1, -R 0 1⟩, ?_⟩
  ext i j
  fin_cases i <;> fin_cases j <;>
    simp [zyx, aboutX, aboutY, aboutZ, Matrix.mul_apply, Fin.sum_univ_three, hcos, hsin, hcy, hsy,
      h00, h10, h21, h22, h02, h12, mul_comm]

/-- Every rotation matrix has the roll and the pitch that are read off it, with some yaw. -/
theorem exists_yaw (hR : R ∈ SO3) : ∃ yaw, zyx (rollOf R) (pitchOf R) yaw = R := by
  rcases (abs_entry_le hR).lt_or_eq with hlt | hlock
  · exact ⟨yawOf R, zyx_angles hR hlt⟩
  · obtain ⟨hroll, hex⟩ := exists_zyx_of_locked hR hlock
    rw [hroll]
    exact hex

/-! ## The angles are the only ones -/

variable {roll pitch yaw : ℝ}

theorem polar (c a : ℝ) :
    (⟨c * cos a, c * sin a⟩ : ℂ) = c * ((cos a : ℝ) + (sin a : ℝ) * Complex.I) := by
  apply Complex.ext <;> simp [-Complex.ofReal_cos, -Complex.ofReal_sin]

theorem arg_polar {c a : ℝ} (hc : 0 < c) (ha : a ∈ Set.Ioc (-π) π) :
    Complex.arg ⟨c * cos a, c * sin a⟩ = a := by
  rw [polar, Complex.ofReal_cos, Complex.ofReal_sin]
  exact Complex.arg_mul_cos_add_sin_mul_I hc ha

theorem rollOf_zyx (hp : 0 < cos pitch) (hr : roll ∈ Set.Ioc (-π) π) :
    rollOf (zyx roll pitch yaw) = roll := by
  rw [rollOf, zyx_22, zyx_21, arg_polar hp hr]

theorem yawOf_zyx (hp : 0 < cos pitch) (hy : yaw ∈ Set.Ioc (-π) π) :
    yawOf (zyx roll pitch yaw) = yaw := by
  rw [yawOf, zyx_00, zyx_10, arg_polar hp hy]

/-- Without a bound on the roll of the matrix, the roll read off is it up to whole turns. -/
theorem rollOf_zyx_angle (hp : 0 < cos pitch) :
    (rollOf (zyx roll pitch yaw) : Real.Angle) = roll := by
  rw [rollOf, zyx_22, zyx_21, polar]
  exact Complex.arg_mul_cos_add_sin_mul_I_coe_angle hp roll

theorem pitchOf_zyx (hp : pitch ∈ Set.Icc (-(π / 2)) (π / 2)) :
    pitchOf (zyx roll pitch yaw) = pitch := by
  rw [pitchOf, zyx_20, neg_neg]
  exact arcsin_sin hp.1 hp.2

end Angles

end Rotation
