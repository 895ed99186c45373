/-
  The floats and the JSON values of `px4_multirotor_viewer.py`, and how one becomes the other.

  A Python float is an exact real, an infinity or NaN. `json_float` writes a float that is not
  finite as `null`, so every number of a log is finite. There are three ways to read a list back,
  and they differ in `null`: `finite_n` makes it 0, a row that is pushed makes it NaN, and
  `json_float` makes it `None`. The lemmas say what each way makes of what `json_list` wrote:
  `vecFromLog_of_jsonList` and `cellsFromLog_of_jsonList`.
-/
import Mathlib.Data.List.OfFn
import Hummingbird.Utils.Double

namespace Hummingbird

namespace Viewer

/-- A Python float: an exact real, an infinity or NaN. -/
inductive PyFloat
  | num (x : ℝ)
  | inf (negative : Bool)
  | nan

namespace PyFloat

/-- `math.isfinite`. -/
def IsFinite : PyFloat → Prop
  | num _ => True
  | _ => False

/-- The float is an infinity. -/
def IsInf : PyFloat → Prop
  | inf _ => True
  | _ => False

/-- The value of a finite float. -/
def finite? : PyFloat → Option ℝ
  | num x => some x
  | _ => none

/-- The float with both infinities replaced by NaN, for functions that only ask whether it is
    finite. -/
def toDouble : PyFloat → Double
  | num x => WithNaN.num x
  | _ => WithNaN.nan

noncomputable section

instance : Add PyFloat where
  add
    | num x, num y => num (x + y)
    | inf a, inf b => if a = b then inf a else nan
    | inf a, num _ => inf a
    | num _, inf b => inf b
    | _, _ => nan

instance : Neg PyFloat where
  neg
    | num x => num (-x)
    | inf a => inf !a
    | nan => nan

instance : Sub PyFloat := ⟨fun x y => x + -y⟩

instance : Mul PyFloat where
  mul
    | num x, num y => num (x * y)
    | inf a, inf b => inf (a != b)
    | inf a, num y => if y = 0 then nan else inf (a != decide (y < 0))
    | num x, inf b => if x = 0 then nan else inf (decide (x < 0) != b)
    | _, _ => nan

/-- `math.sqrt`, on what is not negative. -/
def sqrt : PyFloat → PyFloat
  | num x => num √x
  | inf false => inf false
  | _ => nan

end

theorem isFinite_iff {x : PyFloat} : x.IsFinite ↔ ∃ v, x = num v := by
  cases x with
  | num v => simp [IsFinite]
  | inf a => simp [IsFinite]
  | nan => simp [IsFinite]

@[simp] theorem isFinite_num (x : ℝ) : (num x).IsFinite := trivial

@[simp] theorem num_add_num (x y : ℝ) : num x + num y = num (x + y) := rfl
@[simp] theorem num_mul_num (x y : ℝ) : num x * num y = num (x * y) := rfl
@[simp] theorem neg_num (x : ℝ) : -num x = num (-x) := rfl
theorem sub_eq (x y : PyFloat) : x - y = x + -y := rfl

theorem not_isFinite_ite {c : Prop} [Decidable c] {a : Bool} :
    ¬ (if c then inf a else nan).IsFinite := by
  split
  · exact id
  · exact id

/-- An operation has a finite result only if both operands are finite. -/
@[simp] theorem isFinite_add_iff {x y : PyFloat} :
    (x + y).IsFinite ↔ x.IsFinite ∧ y.IsFinite := by
  cases x with
  | num v =>
    cases y with
    | num w => exact ⟨fun _ => ⟨trivial, trivial⟩, fun _ => trivial⟩
    | inf b => exact ⟨False.elim, And.right⟩
    | nan => exact ⟨False.elim, And.right⟩
  | inf a =>
    cases y with
    | num w => exact ⟨False.elim, And.left⟩
    | inf b => exact ⟨fun h => absurd h not_isFinite_ite, fun h => h.1.elim⟩
    | nan => exact ⟨False.elim, And.left⟩
  | nan => exact ⟨False.elim, And.left⟩

@[simp] theorem isFinite_mul_iff {x y : PyFloat} :
    (x * y).IsFinite ↔ x.IsFinite ∧ y.IsFinite := by
  have hite : ∀ {c : Prop} [Decidable c] {a : Bool}, ¬ (if c then nan else inf a).IsFinite := by
    intro c _ a
    split
    · exact id
    · exact id
  cases x with
  | num v =>
    cases y with
    | num w => exact ⟨fun _ => ⟨trivial, trivial⟩, fun _ => trivial⟩
    | inf b => exact ⟨fun h => absurd h hite, fun h => h.2.elim⟩
    | nan => exact ⟨False.elim, And.right⟩
  | inf a =>
    cases y with
    | num w => exact ⟨fun h => absurd h hite, fun h => h.1.elim⟩
    | inf b => exact ⟨False.elim, And.left⟩
    | nan => exact ⟨False.elim, And.left⟩
  | nan => exact ⟨False.elim, And.left⟩

theorem toDouble_add (x y : PyFloat) : (x + y).toDouble = x.toDouble + y.toDouble := by
  cases x with
  | num v =>
    cases y with
    | num w => rfl
    | inf b => rfl
    | nan => rfl
  | inf a =>
    cases y with
    | num w => rfl
    | inf b =>
      show (if a = b then inf a else nan).toDouble = WithNaN.nan
      split
      · rfl
      · rfl
    | nan => rfl
  | nan => rfl

theorem toDouble_num_mul (v : ℝ) (y : PyFloat) :
    (num v * y).toDouble = (num v).toDouble * y.toDouble := by
  cases y with
  | num w => rfl
  | inf b =>
    show (if v = 0 then nan else inf (decide (v < 0) != b)).toDouble = WithNaN.nan
    split
    · rfl
    · rfl
  | nan => rfl

theorem toDouble_sub_num (x : PyFloat) (w : ℝ) :
    (x - num w).toDouble = x.toDouble - (num w).toDouble := by
  rw [sub_eq, neg_num, toDouble_add]
  cases x with
  | num v => exact congrArg WithNaN.num (sub_eq_add_neg v w).symm
  | inf a => rfl
  | nan => rfl

@[simp] theorem isFinite_neg_iff {x : PyFloat} : (-x).IsFinite ↔ x.IsFinite := by
  cases x with
  | num v => exact Iff.rfl
  | inf a => exact Iff.rfl
  | nan => exact Iff.rfl

end PyFloat

/-- A value as `json.loads` returns it. -/
inductive Json
  | null
  | bool (b : Bool)
  | int (n : ℤ)
  | float (x : ℝ)
  | str (s : String)
  | list (l : List Json)
  | obj (d : List (String × Json))

/-- The `data` of a record. -/
abbrev Dict := List (String × Json)

/-! ## Writing -/

/-- `json_float` of a float. -/
def jsonFloat : PyFloat → Json
  | .num x => .float x
  | _ => .null

/-- `json_list` without a width. -/
def jsonList (values : List PyFloat) : Json := .list (values.map jsonFloat)

/-- `json_list` with a width. -/
def jsonListN (values : List PyFloat) (width : ℕ) : Json :=
  .list ((values.take width).map jsonFloat)

/-! ## Reading -/

/-- `float(value)`; `none` when it raises. A string is never written where a number is read. -/
def Json.toFloat : Json → Option ℝ
  | .float x => some x
  | .int n => some n
  | .bool b => some (if b then 1 else 0)
  | _ => none

/-- `json_float` of the entry `key`. -/
def floatFromLog (data : Dict) (key : String) : Option ℝ := (data.lookup key).bind Json.toFloat

/-- `finite_n`: what is not a finite number, and what is missing, counts as 0. -/
def finiteN (values : List (Option ℝ)) (width : ℕ) (i : Fin width) : ℝ :=
  ((values[(i : ℕ)]?).join).getD 0

/-- `vec_from_log`; `none` when the entry is no list. -/
def vecFromLog (data : Dict) (key : String) (width : ℕ) : Option (Fin width → ℝ) :=
  match data.lookup key with
  | none => some (finiteN [] width)
  | some .null => some (finiteN [] width)
  | some (.list l) => some (finiteN (l.map Json.toFloat) width)
  | some _ => none

/-- A value that is stored in a NumPy array: `None` is stored as NaN. -/
def Json.toCell : Json → Option PyFloat
  | .null => some .nan
  | .float x => some (.num x)
  | .int n => some (.num n)
  | .bool b => some (.num (if b then 1 else 0))
  | _ => none

/-- The first three values of the entry `key`, as they are stored in a NumPy array; `none` when
    there are no three values, which is never written. -/
def cellsFromLog (data : Dict) (key : String) : Option (List PyFloat) :=
  match data.lookup key with
  | some (.list (a :: b :: c :: _)) => [a, b, c].mapM Json.toCell
  | _ => none

/-- `int(data.get(key, default))`; `none` when it raises. -/
noncomputable def intFromLog (data : Dict) (key : String) (default : ℤ) : Option ℤ :=
  match data.lookup key with
  | none => some default
  | some (.int n) => some n
  | some (.bool b) => some (if b then 1 else 0)
  | some (.float x) => some (if 0 ≤ x then ⌊x⌋ else ⌈x⌉)
  | some _ => none

/-! ## What is read back -/

/-- The float with 0 for what is not finite. -/
def PyFloat.orZero (x : PyFloat) : ℝ := x.finite?.getD 0

theorem toFloat_jsonFloat (x : PyFloat) : (jsonFloat x).toFloat = x.finite? := by
  cases x with
  | num v => rfl
  | inf a => rfl
  | nan => rfl

theorem num_orZero_eq_iff {x : PyFloat} : PyFloat.num x.orZero = x ↔ x.IsFinite := by
  cases x with
  | num v => simp [PyFloat.orZero, PyFloat.finite?]
  | inf a => simp [PyFloat.IsFinite]
  | nan => simp [PyFloat.IsFinite]

section Vectors

variable {n : ℕ} {data : Dict} {key : String}

theorem finiteN_ofFn (v : Fin n → PyFloat) (i : Fin n) :
    finiteN ((List.ofFn v).map PyFloat.finite?) n i = (v i).orZero := by
  simp [finiteN, PyFloat.orZero]

/-- What `vec_from_log` makes of a whole vector. -/
theorem vecFromLog_of_jsonList {v : Fin n → PyFloat}
    (h : data.lookup key = some (jsonList (List.ofFn v))) :
    vecFromLog data key n = some fun i => (v i).orZero := by
  unfold vecFromLog
  rw [h]
  simp only [jsonList, List.map_map]
  congr 1
  funext i
  rw [← finiteN_ofFn v i]
  congr 1
  apply List.map_congr_left
  intro x _
  exact toFloat_jsonFloat x

/-- It is the vector itself if everything in it is finite. -/
theorem ofFn_orZero_eq_iff (v : Fin n → PyFloat) :
    (List.ofFn fun i => PyFloat.num (v i).orZero) = List.ofFn v ↔ ∀ i, (v i).IsFinite := by
  rw [List.ofFn_inj, funext_iff]
  exact forall_congr' fun i => num_orZero_eq_iff

/-- The value as it is read back into a NumPy array: an infinity has become NaN. -/
def PyFloat.stored : PyFloat → PyFloat
  | num x => num x
  | _ => nan

theorem toCell_jsonFloat (x : PyFloat) : (jsonFloat x).toCell = some x.stored := by
  cases x with
  | num v => rfl
  | inf a => rfl
  | nan => rfl

theorem stored_eq_iff {x : PyFloat} : x.stored = x ↔ ¬ x.IsInf := by
  cases x with
  | num v => simp [PyFloat.stored, PyFloat.IsInf]
  | inf a => simp [PyFloat.stored, PyFloat.IsInf]
  | nan => simp [PyFloat.stored, PyFloat.IsInf]

/-- What a row makes of a whole vector. -/
theorem cellsFromLog_of_jsonList {v : Fin 3 → PyFloat}
    (h : data.lookup key = some (jsonList (List.ofFn v))) :
    cellsFromLog data key = some (List.ofFn fun i => (v i).stored) := by
  unfold cellsFromLog
  rw [h]
  simp [jsonList, toCell_jsonFloat]

/-- It is the vector itself if there is no infinity in it. -/
theorem ofFn_stored_eq_iff (v : Fin n → PyFloat) :
    (List.ofFn fun i => (v i).stored) = List.ofFn v ↔ ∀ i, ¬ (v i).IsInf := by
  rw [List.ofFn_inj, funext_iff]
  exact forall_congr' fun i => stored_eq_iff

/-- A width that is the length changes nothing. -/
theorem jsonListN_ofFn (v : Fin n → PyFloat) :
    jsonListN (List.ofFn v) n = jsonList (List.ofFn v) := by
  unfold jsonListN jsonList
  rw [List.take_of_length_le (List.length_ofFn).le]

end Vectors

end Viewer

end Hummingbird
