/-
  `utils.hpp` of `px4_hummingbird_opti`: the motion-capture pose in the axes of PX4.

  In `Opti` vectors and matrices are exact reals; a quaternion `Eigen::Vector4d (w, x, y, z)` is a
  quaternion over ℝ. Eigen's constructor of a quaternion from a rotation matrix is the
  parameter `eigen`; `ReturnsQuaternionOf` is what its documentation promises.

  `OptiDouble` has the same functions as the node calls them, where a position or the norm of a
  quaternion may be too large for a double. On all other poses they compute the same
  (`OptiDouble.mocapPoseToPx4_of_fits`).
-/
import Mathlib.LinearAlgebra.Matrix.Trace
import Hummingbird.Library.Rotation
import Hummingbird.Utils.Double

namespace Hummingbird

open Matrix Rotation WithNaN

/-- `Eigen::Vector3d` with exact entries. -/
abbrev Position := Fin 3 → ℝ

/-- The components of a quaternion without NaN. -/
def Quaternion.reals : Quaternion → Option Quat
  | ⟨num w, num x, num y, num z⟩ => some (quat w x y z)
  | _ => none

def Quaternion.ofReal (q : Quat) : Quaternion := ⟨num q.re, num q.imI, num q.imJ, num q.imK⟩

theorem Quaternion.reals_ofReal (q : Quat) : (Quaternion.ofReal q).reals = some q := rfl

/-- The components of a vector without NaN. -/
def Vector3.reals : Vector3 → Option Position
  | ⟨num x, num y, num z⟩ => some ![x, y, z]
  | _ => none

def Vector3.ofReal (v : Position) : Vector3 := ⟨num (v 0), num (v 1), num (v 2)⟩

theorem Vector3.reals_ofReal (v : Position) : (ofReal v).reals = some v := by
  refine congrArg some ?_
  ext i
  fin_cases i <;> rfl

/-- The product of a matrix and a vector: a NaN component of the vector reaches every row. -/
def Vector3.leftMul (R : Matrix (Fin 3) (Fin 3) ℝ) (v : Vector3) : Vector3 where
  x := num (R 0 0) * v.x + num (R 0 1) * v.y + num (R 0 2) * v.z
  y := num (R 1 0) * v.x + num (R 1 1) * v.y + num (R 1 2) * v.z
  z := num (R 2 0) * v.x + num (R 2 1) * v.y + num (R 2 2) * v.z

theorem Vector3.leftMul_ofReal (R : Matrix (Fin 3) (Fin 3) ℝ) (v : Position) :
    leftMul R (ofReal v) = ofReal (R *ᵥ v) := by
  simp [leftMul, ofReal, Matrix.mulVec, dotProduct, Fin.sum_univ_three]

/-- The components, as far as they are not too large for the format. -/
noncomputable def Vector3.finiteOrNan (f : Rounding.Format) (v : Vector3) : Vector3 :=
  ⟨Double.finiteOrNan f v.x, Double.finiteOrNan f v.y, Double.finiteOrNan f v.z⟩

/-- From the matrix of a unit quaternion `g` returns a unit quaternion with that matrix. -/
def ReturnsQuaternionOf (g : Matrix (Fin 3) (Fin 3) ℝ → Quat) : Prop :=
  ∀ q, ‖q‖ = 1 → ‖g (Rotation.matrix q)‖ = 1 ∧
    Rotation.matrix (g (Rotation.matrix q)) = Rotation.matrix q

namespace Opti

noncomputable section

/-- `R_down`. -/
def rDown : Matrix (Fin 3) (Fin 3) ℝ := !![1, 0, 0; 0, -1, 0; 0, 0, -1]

/-- `utils::quatToRot`. -/
def quatToRot (qIn : Quat) : Matrix (Fin 3) (Fin 3) ℝ :=
  let n := ‖qIn‖
  if n < 1e-9 then 1 else Rotation.matrix (n⁻¹ • qIn)

/-- `utils::rotToQuat`. -/
def rotToQuat (eigen : Matrix (Fin 3) (Fin 3) ℝ → Quat) (R : Matrix (Fin 3) (Fin 3) ℝ) : Quat :=
  let q := eigen R
  if ‖q‖ < 1e-9 then quat 1 0 0 0 else ‖q‖⁻¹ • q

/-- `utils::Px4Pose`. -/
structure Px4Pose where
  pos : Position
  att : Quat

/-- `R_px4` of `utils::mocapPoseToPx4`. -/
def px4Rotation (optiAtt : Quat) : Matrix (Fin 3) (Fin 3) ℝ := rDown * quatToRot optiAtt * rDown

/-- `utils::mocapPoseToPx4`. -/
def mocapPoseToPx4 (eigen : Matrix (Fin 3) (Fin 3) ℝ → Quat) (optiPos : Position)
    (optiAtt : Quat) (optiOrigin : Position) : Px4Pose where
  pos := rDown *ᵥ (optiPos - optiOrigin)
  att := rotToQuat eigen (px4Rotation optiAtt)

end

end Opti

namespace OptiDouble

open Rounding

noncomputable section

/-- `q / q.norm()`. The norm is infinite where its square is too large, and the quotient 0. -/
def divNorm (q : Quat) : Quat := if Format.double.Overflows (‖q‖ ^ 2) then 0 else ‖q‖⁻¹ • q

/-- `utils::quatToRot`. -/
def quatToRot (qIn : Quat) : Matrix (Fin 3) (Fin 3) ℝ :=
  if ‖qIn‖ < 1e-9 then 1 else Rotation.matrix (divNorm qIn)

/-- `utils::Px4Pose`. -/
structure Px4Pose where
  pos : Vector3
  att : Quat

/-- `utils::mocapPoseToPx4`. -/
def mocapPoseToPx4 (eigen : Matrix (Fin 3) (Fin 3) ℝ → Quat) (optiPos : Position)
    (optiAtt : Quat) (optiOrigin : Position) : Px4Pose where
  pos := Vector3.leftMul Opti.rDown
    ((Vector3.ofReal (optiPos - optiOrigin)).finiteOrNan .double)
  att := Opti.rotToQuat eigen (Opti.rDown * quatToRot optiAtt * Opti.rDown)

end

end OptiDouble

namespace Opti

theorem rDown_eq : rDown = Rotation.matrix Rotation.halfTurn := Rotation.matrix_halfTurn.symm

theorem rDown_mul_rDown : rDown * rDown = 1 := by
  ext i j
  fin_cases i <;> fin_cases j <;> simp [rDown, Matrix.mul_apply, Fin.sum_univ_three]

theorem quatToRot_of_le {q : Quat} (hq : 1e-9 ≤ ‖q‖) :
    quatToRot q = Rotation.matrix (‖q‖⁻¹ • q) :=
  if_neg (not_lt.mpr hq)

/-- Normalizing what already has norm 1 changes nothing. -/
theorem rotToQuat_of_unit {eigen : Matrix (Fin 3) (Fin 3) ℝ → Quat}
    {R : Matrix (Fin 3) (Fin 3) ℝ} (hR : ‖eigen R‖ = 1) : rotToQuat eigen R = eigen R := by
  have hlt : ¬ ‖eigen R‖ < 1e-9 := by
    rw [hR]
    norm_num
  unfold rotToQuat
  dsimp only
  rw [if_neg hlt, hR, inv_one, one_smul]

theorem norm_rotToQuat (eigen : Matrix (Fin 3) (Fin 3) ℝ → Quat) (R : Matrix (Fin 3) (Fin 3) ℝ) :
    ‖rotToQuat eigen R‖ = 1 := by
  have hone : ‖quat 1 0 0 0‖ = 1 := norm_one
  unfold rotToQuat
  dsimp only
  split
  · exact hone
  · rename_i hnorm
    have hpos : 0 < ‖eigen R‖ := lt_of_lt_of_le (by norm_num) (not_lt.mp hnorm)
    rw [norm_smul, norm_inv, norm_norm, inv_mul_cancel₀ hpos.ne']

/-- `rotToQuat` keeps what Eigen's constructor promises. -/
theorem rotToQuat_returnsQuaternionOf {eigen : Matrix (Fin 3) (Fin 3) ℝ → Quat}
    (he : ReturnsQuaternionOf eigen) : ReturnsQuaternionOf (rotToQuat eigen) := by
  intro q hq
  rw [rotToQuat_of_unit (he q hq).1]
  exact he q hq

end Opti

namespace OptiDouble

open Rounding

theorem quatToRot_of_fits {q : Quat} (hq : ¬ Format.double.Overflows (‖q‖ ^ 2)) :
    quatToRot q = Opti.quatToRot q := by
  unfold quatToRot divNorm
  rw [if_neg hq]
  rfl

/-- On a pose that is not too large the functions compute as over the reals. -/
theorem mocapPoseToPx4_of_fits (eigen : Matrix (Fin 3) (Fin 3) ℝ → Quat) (optiPos : Position)
    (optiAtt : Quat) (optiOrigin : Position)
    (hpos : ∀ i, ¬ Format.double.Overflows (optiPos i - optiOrigin i))
    (hatt : ¬ Format.double.Overflows (‖optiAtt‖ ^ 2)) :
    mocapPoseToPx4 eigen optiPos optiAtt optiOrigin =
      ⟨Vector3.ofReal (Opti.mocapPoseToPx4 eigen optiPos optiAtt optiOrigin).pos,
        (Opti.mocapPoseToPx4 eigen optiPos optiAtt optiOrigin).att⟩ := by
  have hfinite : (Vector3.ofReal (optiPos - optiOrigin)).finiteOrNan .double =
      Vector3.ofReal (optiPos - optiOrigin) := by
    unfold Vector3.finiteOrNan Vector3.ofReal
    dsimp only [Pi.sub_apply]
    rw [Double.finiteOrNan_num (hpos 0), Double.finiteOrNan_num (hpos 1),
      Double.finiteOrNan_num (hpos 2)]
  unfold mocapPoseToPx4 Opti.mocapPoseToPx4 Opti.px4Rotation
  rw [hfinite, Vector3.leftMul_ofReal, quatToRot_of_fits hatt]

end OptiDouble

end Hummingbird
