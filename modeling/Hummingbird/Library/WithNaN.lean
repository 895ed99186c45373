/-
  A number type with one extra value `nan`.

  `WithNaN K` is `K` with a value that absorbs every operation and answers `false` to every
  comparison. It is the arithmetic of a floating-point type with exact results and without
  infinities and signed zeros: a program over it shows where a NaN goes, and on numbers
  (`num x`) it computes what the same program computes over `K`.

  The operations are lifted with `map` and `map₂`. The simp set pushes them to `K` on
  numbers and to `nan` elsewhere; `IsNum` says that a value is a number, and the lemmas
  `isNum_add_iff`, ... say when an operation returns one.
-/
import Mathlib.Algebra.Notation.Defs
import Mathlib.Order.Notation

/-- `K` with an absorbing value that compares false with everything. -/
inductive WithNaN (K : Type*) where
  | nan
  | num (x : K)

namespace WithNaN

variable {R K L M : Type*}

instance : Coe K (WithNaN K) := ⟨num⟩

/-- Lift a function of one number. -/
def map (f : K → L) : WithNaN K → WithNaN L
  | nan => nan
  | num x => num (f x)

/-- Lift a function of two numbers. -/
def map₂ (f : K → L → M) : WithNaN K → WithNaN L → WithNaN M
  | num x, num y => num (f x y)
  | _, _ => nan

/-- The value is a number. -/
def IsNum : WithNaN K → Prop
  | nan => False
  | num _ => True

instance : DecidablePred (IsNum (K := K))
  | nan => isFalse id
  | num _ => isTrue trivial

instance [Zero K] : Zero (WithNaN K) := ⟨num 0⟩
instance [One K] : One (WithNaN K) := ⟨num 1⟩
instance [Add K] : Add (WithNaN K) := ⟨map₂ (· + ·)⟩
instance [Sub K] : Sub (WithNaN K) := ⟨map₂ (· - ·)⟩
instance [Mul K] : Mul (WithNaN K) := ⟨map₂ (· * ·)⟩
instance [Div K] : Div (WithNaN K) := ⟨map₂ (· / ·)⟩
instance [Neg K] : Neg (WithNaN K) := ⟨map (- ·)⟩
instance [SMul R K] : SMul R (WithNaN K) := ⟨fun a => map (a • ·)⟩

instance [LE K] : LE (WithNaN K) where
  le
    | num x, num y => x ≤ y
    | _, _ => False

instance [LT K] : LT (WithNaN K) where
  lt
    | num x, num y => x < y
    | _, _ => False

instance [LE K] [DecidableLE K] : DecidableLE (WithNaN K)
  | nan, _ => isFalse id
  | num _, nan => isFalse id
  | num x, num y => inferInstanceAs (Decidable (x ≤ y))

instance [LT K] [DecidableLT K] : DecidableLT (WithNaN K)
  | nan, _ => isFalse id
  | num _, nan => isFalse id
  | num x, num y => inferInstanceAs (Decidable (x < y))

/-! ## Operations on numbers and on `nan` -/

@[simp] theorem map_num (f : K → L) (x : K) : map f (num x) = num (f x) := rfl
@[simp] theorem map_nan (f : K → L) : map f (nan : WithNaN K) = nan := rfl
@[simp] theorem map₂_num (f : K → L → M) (x : K) (y : L) :
    map₂ f (num x) (num y) = num (f x y) := rfl
@[simp] theorem map₂_nan_left (f : K → L → M) (y : WithNaN L) :
    map₂ f (nan : WithNaN K) y = nan := rfl
@[simp] theorem map₂_nan_right (f : K → L → M) (x : WithNaN K) :
    map₂ f x (nan : WithNaN L) = nan := by cases x <;> rfl

theorem zero_eq [Zero K] : (0 : WithNaN K) = num 0 := rfl

@[simp] theorem num_add [Add K] (x y : K) : (num x + num y : WithNaN K) = num (x + y) := rfl
@[simp] theorem num_sub [Sub K] (x y : K) : (num x - num y : WithNaN K) = num (x - y) := rfl
@[simp] theorem num_mul [Mul K] (x y : K) : (num x * num y : WithNaN K) = num (x * y) := rfl
@[simp] theorem num_div [Div K] (x y : K) : (num x / num y : WithNaN K) = num (x / y) := rfl
@[simp] theorem neg_num [Neg K] (x : K) : (-num x : WithNaN K) = num (-x) := rfl
@[simp] theorem smul_num [SMul R K] (a : R) (x : K) :
    (a • num x : WithNaN K) = num (a • x) := rfl

@[simp] theorem nan_add [Add K] (y : WithNaN K) : nan + y = nan := rfl
@[simp] theorem add_nan [Add K] (x : WithNaN K) : x + nan = nan := map₂_nan_right _ x
@[simp] theorem nan_sub [Sub K] (y : WithNaN K) : nan - y = nan := rfl
@[simp] theorem sub_nan [Sub K] (x : WithNaN K) : x - nan = nan := map₂_nan_right _ x
@[simp] theorem nan_mul [Mul K] (y : WithNaN K) : nan * y = nan := rfl
@[simp] theorem mul_nan [Mul K] (x : WithNaN K) : x * nan = nan := map₂_nan_right _ x
@[simp] theorem nan_div [Div K] (y : WithNaN K) : nan / y = nan := rfl
@[simp] theorem smul_nan [SMul R K] (a : R) : (a • nan : WithNaN K) = nan := rfl

@[simp] theorem num_le_num [LE K] {x y : K} : (num x : WithNaN K) ≤ num y ↔ x ≤ y := Iff.rfl
@[simp] theorem num_lt_num [LT K] {x y : K} : (num x : WithNaN K) < num y ↔ x < y := Iff.rfl
@[simp] theorem not_nan_le [LE K] (y : WithNaN K) : ¬ (nan : WithNaN K) ≤ y := id
@[simp] theorem not_le_nan [LE K] (x : WithNaN K) : ¬ x ≤ (nan : WithNaN K) := by
  cases x <;> exact id
@[simp] theorem not_nan_lt [LT K] (y : WithNaN K) : ¬ (nan : WithNaN K) < y := id
@[simp] theorem not_lt_nan [LT K] (x : WithNaN K) : ¬ x < (nan : WithNaN K) := by
  cases x <;> exact id

@[simp] theorem num_inj {x y : K} : (num x : WithNaN K) = num y ↔ x = y :=
  ⟨fun h => num.inj h, fun h => congrArg num h⟩

/-! ## When a value is a number -/

@[simp] theorem isNum_num (x : K) : (num x).IsNum := trivial
@[simp] theorem not_isNum_nan : ¬ (nan : WithNaN K).IsNum := id

theorem isNum_iff {x : WithNaN K} : x.IsNum ↔ ∃ y, x = num y := by
  cases x with
  | nan => simp
  | num y => simp

theorem not_isNum_iff {x : WithNaN K} : ¬ x.IsNum ↔ x = nan := by
  cases x with
  | nan => simp
  | num y => simp

@[simp] theorem isNum_add_iff [Add K] {x y : WithNaN K} :
    (x + y).IsNum ↔ x.IsNum ∧ y.IsNum := by
  cases x <;> cases y <;> simp

@[simp] theorem isNum_smul_iff [SMul R K] {a : R} {x : WithNaN K} : (a • x).IsNum ↔ x.IsNum := by
  cases x <;> simp

end WithNaN
