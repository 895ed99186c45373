/-
  Comparing Python floats, adding them as they are, and turning them into integers.

  A comparison with NaN is false. `min` and `max` of Python return their first argument unless the
  second one compares as smaller, or larger; `int` cuts off the fraction and raises for what is not
  finite. `roundedAdd` is the sum with its rounding, where a comparison of it decides something.
-/
import Mathlib.Algebra.Order.Floor.Ring
import Hummingbird.Library.Rounding
import Hummingbird.Viewer.Json

namespace Hummingbird

namespace Viewer

namespace PyFloat

instance : LT PyFloat where
  lt
    | num x, num y => x < y
    | num _, inf b => b = false
    | inf a, num _ => a = true
    | inf a, inf b => a = true ∧ b = false
    | _, _ => False

instance : LE PyFloat where
  le
    | num x, num y => x ≤ y
    | num _, inf b => b = false
    | inf a, num _ => a = true
    | inf a, inf b => a = true ∨ b = false
    | _, _ => False

noncomputable section

instance : DecidableLT PyFloat := fun _ _ => Classical.propDecidable _

instance : DecidableLE PyFloat := fun _ _ => Classical.propDecidable _

instance : DecidablePred IsFinite
  | num _ => isTrue trivial
  | inf _ => isFalse id
  | nan => isFalse id

/-- `min(a, b)`. -/
def pyMin (a b : PyFloat) : PyFloat := if b < a then b else a

/-- `max(a, b)`. -/
def pyMax (a b : PyFloat) : PyFloat := if a < b then b else a

/-- The float that is nearest to a real, an infinity where that is too large. -/
def ofReal (x : ℝ) : PyFloat :=
  if Rounding.Format.double.Overflows x then inf (decide (x < 0))
  else num (Rounding.Format.double.round x)

/-- `x + y`, rounded. -/
def roundedAdd : PyFloat → PyFloat → PyFloat
  | num x, num y => ofReal (x + y)
  | x, y => x + y

/-- `int(x)`; `none` when it raises. -/
def toInt : PyFloat → Option ℤ
  | num x => some (if 0 ≤ x then ⌊x⌋ else ⌈x⌉)
  | _ => none

end

@[simp] theorem num_lt_num {x y : ℝ} : num x < num y ↔ x < y := Iff.rfl
@[simp] theorem num_le_num {x y : ℝ} : num x ≤ num y ↔ x ≤ y := Iff.rfl

/-- A sum that is not too large. -/
theorem roundedAdd_num {x y : ℝ} (h : ¬ Rounding.Format.double.Overflows (x + y)) :
    (num x).roundedAdd (num y) = num (Rounding.Format.double.round (x + y)) :=
  if_neg h

theorem toInt_mono {x y : ℝ} (h : x ≤ y) {i j : ℤ} (hi : toInt (num x) = some i)
    (hj : toInt (num y) = some j) : i ≤ j := by
  obtain rfl := Option.some.inj hi
  obtain rfl := Option.some.inj hj
  split
  · rename_i h0
    rw [if_pos (h0.trans h)]
    exact Int.floor_le_floor h
  · rename_i h0
    split
    · rename_i hy
      have hx : ⌈x⌉ ≤ 0 := Int.ceil_le.mpr (by push_cast; linarith)
      exact hx.trans (Int.floor_nonneg.mpr hy)
    · exact Int.ceil_le_ceil h

/-- The smaller of two floats is no larger as an integer. -/
theorem toInt_pyMin_le {a b : PyFloat} {i j : ℤ} (hi : (pyMin a b).toInt = some i)
    (hj : (pyMax a b).toInt = some j) : i ≤ j := by
  have hle : ∀ {x y : PyFloat}, x < y → x.toInt = some i → y.toInt = some j → i ≤ j := by
    intro x y hxy hx hy
    cases x with
    | num x =>
      cases y with
      | num y => exact toInt_mono hxy.le hx hy
      | inf b => cases hy
      | nan => cases hy
    | inf a => cases hx
    | nan => cases hx
  unfold pyMin at hi
  unfold pyMax at hj
  by_cases hba : b < a
  · rw [if_pos hba] at hi
    by_cases hab : a < b
    · rw [if_pos hab] at hj
      exact (Option.some.inj (hi.symm.trans hj)).le
    · rw [if_neg hab] at hj
      exact hle hba hi hj
  · rw [if_neg hba] at hi
    by_cases hab : a < b
    · rw [if_pos hab] at hj
      exact hle hab hi hj
    · rw [if_neg hab] at hj
      exact (Option.some.inj (hi.symm.trans hj)).le

end PyFloat

end Viewer

end Hummingbird
