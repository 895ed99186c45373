/-
  The `double` values of the command node.

  A `Double` is an exact real or NaN. `float` message fields are widened to `double` where
  they are used, and the casts back to `float` at a publisher are exact here. The functions
  of `<cmath>` and of Eigen's vectors are the ones `utils.hpp` and the node call.
-/
import Mathlib.Analysis.SpecialFunctions.Complex.Arg
import Mathlib.Analysis.SpecialFunctions.Trigonometric.Inverse
import Hummingbird.Library.Rounding
import Hummingbird.Library.WithNaN
import Hummingbird.Params

namespace Hummingbird

open WithNaN

/-- A real number or NaN. -/
abbrev Double := WithNaN ℝ

namespace Double

/-- `std::isfinite`. -/
def isfinite (x : Double) : Bool := decide x.IsNum

theorem isfinite_iff {x : Double} : x.isfinite = true ↔ x.IsNum := decide_eq_true_iff

noncomputable section

def sin (x : Double) : Double := x.map Real.sin
def cos (x : Double) : Double := x.map Real.cos
def asin (x : Double) : Double := x.map Real.arcsin
def sqrt (x : Double) : Double := x.map Real.sqrt
def abs (x : Double) : Double := x.map fun v => |v|

/-- `std::atan2`: the argument of `x + i y`, `0` at the origin. -/
def atan2 (y x : Double) : Double := map₂ (fun y x => Complex.arg ⟨x, y⟩) y x

/-- `std::max`: the first argument unless it is less than the second. -/
def max (a b : Double) : Double := if a < b then b else a

/-- A result that may be too large for the format. It is then an infinity, and NaN stands for that
    where it matters only that it is not finite, or where only NaN can be made of it. -/
def finiteOrNan (f : Rounding.Format) : Double → Double
  | nan => nan
  | num x => if f.Overflows x then nan else num x

/-- `std::copysign` for a nonnegative magnitude. -/
def copysign (magnitude sign : Double) : Double := if sign < 0 then -magnitude else magnitude

@[simp] theorem sin_num (x : ℝ) : sin (num x) = num (Real.sin x) := rfl
@[simp] theorem cos_num (x : ℝ) : cos (num x) = num (Real.cos x) := rfl
@[simp] theorem asin_num (x : ℝ) : asin (num x) = num (Real.arcsin x) := rfl
@[simp] theorem sqrt_num (x : ℝ) : sqrt (num x) = num (Real.sqrt x) := rfl
@[simp] theorem abs_num (x : ℝ) : abs (num x) = num |x| := rfl
@[simp] theorem atan2_num (y x : ℝ) :
    atan2 (num y) (num x) = num (Complex.arg ⟨x, y⟩) := rfl

@[simp] theorem sin_nan : sin nan = nan := rfl
@[simp] theorem cos_nan : cos nan = nan := rfl
@[simp] theorem sqrt_nan : sqrt nan = nan := rfl
@[simp] theorem abs_nan : abs nan = nan := rfl

end

theorem finiteOrNan_num {f : Rounding.Format} {x : ℝ} (h : ¬ f.Overflows x) :
    finiteOrNan f (num x) = num x :=
  if_neg h

theorem finiteOrNan_of_overflows {f : Rounding.Format} {x : ℝ} (h : f.Overflows x) :
    finiteOrNan f (num x) = nan :=
  if_pos h

end Double

/-- `Eigen::Vector4d` in the order `(w, x, y, z)`, and `float[4] q` of the messages. -/
structure Quaternion where
  w : Double
  x : Double
  y : Double
  z : Double

namespace Quaternion

def squaredNorm (q : Quaternion) : Double :=
  q.w * q.w + q.x * q.x + q.y * q.y + q.z * q.z

/-- Eigen's `normalized()`: the quotient by the norm when the squared norm is positive, else
    the vector itself. -/
noncomputable def normalized (q : Quaternion) : Quaternion :=
  if 0 < q.squaredNorm then
    { w := q.w / q.squaredNorm.sqrt, x := q.x / q.squaredNorm.sqrt,
      y := q.y / q.squaredNorm.sqrt, z := q.z / q.squaredNorm.sqrt }
  else q

/-- A quaternion of norm 1 is its own normalization. -/
theorem normalized_of_unit {q : Quaternion} (hq : q.squaredNorm = num 1) (hw : q.w.IsNum)
    (hx : q.x.IsNum) (hy : q.y.IsNum) (hz : q.z.IsNum) : q.normalized = q := by
  obtain ⟨w, x, y, z⟩ := q
  obtain ⟨w, rfl⟩ := isNum_iff.mp hw
  obtain ⟨x, rfl⟩ := isNum_iff.mp hx
  obtain ⟨y, rfl⟩ := isNum_iff.mp hy
  obtain ⟨z, rfl⟩ := isNum_iff.mp hz
  simp [normalized, hq, zero_eq]

end Quaternion

/-- `Eigen::Vector3d`, and the `float[3]` fields of the messages. -/
structure Vector3 where
  x : Double
  y : Double
  z : Double

/-- Eigen's `norm()`. -/
noncomputable def Vector3.norm (v : Vector3) : Double :=
  (v.x * v.x + v.y * v.y + v.z * v.z).sqrt

/-- The distance of two positions. -/
noncomputable def Vector3.dist (a b : Vector3) : Double :=
  Vector3.norm ⟨a.x - b.x, a.y - b.y, a.z - b.z⟩

end Hummingbird
