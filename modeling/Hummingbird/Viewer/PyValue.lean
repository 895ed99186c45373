/-
  Any value that `json.loads` returns, and what `px4_multirotor_viewer.py` does to read one.

  A log that was damaged may have any value where the logger wrote a number or a list, so here an
  operation may raise: `Except PyError`. What the standard library makes of text is a parameter
  (`TextLibrary`). A conversion to a float raises for an integer beyond the range of floats, which
  no `except` clause of the viewer catches; `Value.Fits` says that a value is none, and the lemmas
  `returns_...` say of each conversion on which values it returns.
-/
import Mathlib.Algebra.Order.Ring.Unbundled.Rat
import Hummingbird.Library.Raising
import Hummingbird.Viewer.Json

namespace Hummingbird

namespace Viewer

open Raising

/-! ## Values -/

/-- The exceptions that reading a log raises. -/
inductive PyError
  | attributeError
  | typeError
  | valueError
  | overflowError
  | keyError
  | indexError
  | jsonDecodeError
  /-- Any other one that `json.loads` raises. -/
  | other
  deriving DecidableEq

/-- A float of a log; every finite float is a rational. -/
inductive LogFloat
  | num (x : ℚ)
  | inf (negative : Bool)
  | nan
  deriving DecidableEq

namespace LogFloat

/-- The value of a finite float. -/
def finite? : LogFloat → Option ℚ
  | num x => some x
  | _ => none

noncomputable def toPyFloat : LogFloat → PyFloat
  | num x => .num (x : ℝ)
  | inf a => .inf a
  | nan => .nan

end LogFloat

/-- A value as `json.loads` returns it. The keys of a dictionary are distinct. -/
inductive Value
  | none
  | bool (b : Bool)
  | int (n : ℤ)
  | float (x : LogFloat)
  | str (s : String)
  | list (l : List Value)
  | dict (d : List (String × Value))

/-- A dictionary. -/
abbrev Fields := List (String × Value)

/-- What the standard library makes of text. -/
structure TextLibrary where
  /-- `str.strip`. -/
  strip : String → String
  /-- `json.loads`. -/
  loads : String → Except PyError Value
  /-- `float` of a string; `none` for a `ValueError`. -/
  float : String → Option LogFloat
  /-- `int` of a string; `none` for a `ValueError`. -/
  int : String → Option ℤ
  /-- `str`. -/
  str : Value → String
  str_str : ∀ s, str (.str s) = s

namespace Value

/-- The integers that `float` cannot round to a finite float. -/
def BeyondFloat (n : ℤ) : Prop := 2 ^ 1024 - 2 ^ 970 ≤ |n|

instance (n : ℤ) : Decidable (BeyondFloat n) := inferInstanceAs (Decidable (_ ≤ _))

variable (lib : TextLibrary)

/-! ## Operations -/

/-- `float(value)`. -/
def toFloat : Value → Except PyError LogFloat
  | none => .error .typeError
  | bool b => .ok (.num (if b then 1 else 0))
  | int n => if BeyondFloat n then .error .overflowError else .ok (.num n)
  | float x => .ok x
  | str s => (lib.float s).elim (.error .valueError) .ok
  | list _ => .error .typeError
  | dict _ => .error .typeError

/-- `json_float`. -/
def jsonFloat (v : Value) : Except PyError (Option ℚ) :=
  match v.toFloat lib with
  | .ok x => .ok x.finite?
  | .error .typeError => .ok Option.none
  | .error .valueError => .ok Option.none
  | .error e => .error e

/-- `int(value)`. -/
def toInt : Value → Except PyError ℤ
  | none => .error .typeError
  | bool b => .ok (if b then 1 else 0)
  | int n => .ok n
  | float (.num x) => .ok (if 0 ≤ x then ⌊x⌋ else ⌈x⌉)
  | float (.inf _) => .error .overflowError
  | float .nan => .error .valueError
  | str s => (lib.int s).elim (.error .valueError) .ok
  | list _ => .error .typeError
  | dict _ => .error .typeError

/-- `list(value)`: the characters of a string, the keys of a dictionary. -/
def toList : Value → Except PyError (List Value)
  | list l => .ok l
  | str s => .ok (s.toList.map fun ch => str (String.singleton ch))
  | dict d => .ok (d.map fun x => str x.1)
  | _ => .error .typeError

/-- `value[:3]`. -/
def firstThree : Value → Except PyError (List Value)
  | list l => .ok (l.take 3)
  | str s => .ok ((s.toList.take 3).map fun ch => str (String.singleton ch))
  | _ => .error .typeError

/-- `data.get(key)`; `none` when there is no such key. -/
def get? (data : Value) (key : String) : Except PyError (Option Value) :=
  match data with
  | dict d => .ok (d.lookup key)
  | _ => .error .attributeError

/-- `data[key]`. -/
def subscript (data : Value) (key : String) : Except PyError Value :=
  match data with
  | dict d => (d.lookup key).elim (.error .keyError) .ok
  | _ => .error .typeError

/-- `key in data`: of a list an element is meant, of a string a part. -/
def contains (data : Value) (key : String) : Except PyError Bool :=
  match data with
  | dict d => .ok (d.lookup key).isSome
  | list l => .ok (l.any fun v => match v with
    | str s => s = key
    | _ => false)
  | str s => .ok (decide (key.toList <:+: s.toList))
  | _ => .error .typeError

noncomputable section

/-- A value that is stored in a NumPy array: `None` is stored as NaN, and a list is no element. -/
def toCell : Value → Except PyError PyFloat
  | none => .ok .nan
  | list _ => .error .valueError
  | v => do
    let x ← v.toFloat lib
    pure x.toPyFloat

/-- The elements of a list for `finite_n`, with `none` for what counts as 0. -/
def finiteRow (values : List Value) (width : ℕ) : Except PyError (List (Option ℝ)) :=
  (values.take width).mapM fun v => do
    let x ← v.jsonFloat lib
    pure (x.map fun q : ℚ => (q : ℝ))

/-- `finite_n`. -/
def finiteVec (v : Value) (width : ℕ) : Except PyError (Fin width → ℝ) := do
  let vals ← match v with
    | none => .ok []
    | v => v.toList
  let row ← finiteRow lib vals width
  pure (finiteN row width)

/-- `vec_from_log`. -/
def vecFromLog (data : Value) (key : String) (width : ℕ) : Except PyError (Fin width → ℝ) := do
  let v ← data.get? key
  finiteVec lib (v.getD (list [])) width

/-- The columns after `t` of a row `[t, *values]` that is stored in a buffer with `width` of them:
    a row of `t` alone fills all columns. -/
def storeRow (t : ℚ) (values : List Value) (width : ℕ) : Except PyError (List PyFloat) := do
  let cells ← values.mapM (toCell lib)
  if cells.length = width then pure cells
  else if cells.length = 0 then pure (List.replicate width (.num (t : ℝ)))
  else .error .valueError

/-- The first three elements of `np.asarray(value, dtype=np.float64)`; an element that is a list
    raises here, or else when it is stored in a row. -/
def asarray3 (v : Value) : Except PyError (List PyFloat) :=
  match v with
  | list l => do
    let cells ← l.mapM (toCell lib)
    if 3 ≤ cells.length then pure (cells.take 3) else .error .indexError
  | v => do
    let _ ← v.toCell lib
    .error .indexError

end

/-! ## On which values they return -/

/-- No integer beyond the range of floats. -/
def Fits : Value → Prop
  | int n => ¬ BeyondFloat n
  | _ => True

/-- The finite number that `float` makes of the value, if it makes one. -/
def number? : Value → Option ℚ
  | bool b => some (if b then 1 else 0)
  | int n => if BeyondFloat n then Option.none else some n
  | float x => x.finite?
  | str s => (lib.float s).bind LogFloat.finite?
  | _ => Option.none

/-- A value that an array of floats can hold. -/
def IsCell : Value → Prop
  | int n => ¬ BeyondFloat n
  | str s => (lib.float s).isSome
  | list _ => False
  | dict _ => False
  | _ => True

/-- A value of which `vec_from_log` makes a vector. -/
def IsVector (width : ℕ) : Value → Prop
  | none => True
  | str _ => True
  | dict _ => True
  | list l => ∀ v ∈ l.take width, v.Fits
  | _ => False

/-- A value whose first three elements fill the rest of a row, or of which there are none. -/
def IsTriple (v : Value) : Prop :=
  ∃ l, v.firstThree = .ok l ∧ (l.length = 3 ∨ l.length = 0) ∧ ∀ x ∈ l, x.IsCell lib

/-- A list of at least three numbers. -/
def IsArray (v : Value) : Prop := ∃ l, v = list l ∧ 3 ≤ l.length ∧ ∀ x ∈ l, x.IsCell lib

/-- A value of which `int` makes an integer. -/
def IsInt : Value → Prop
  | bool _ => True
  | int _ => True
  | float (.num _) => True
  | str s => (lib.int s).isSome
  | _ => False

variable {lib} {v : Value}

theorem returns_elim {α : Type} {e : PyError} (x : Option α) :
    Returns (x.elim (.error e) .ok : Except PyError α) ↔ x.isSome := by
  cases x with
  | none => exact iff_of_false (not_returns_error e) Bool.false_ne_true
  | some a => exact iff_of_true (returns_ok a) rfl

theorem jsonFloat_of_fits (h : v.Fits) : v.jsonFloat lib = .ok (v.number? lib) := by
  unfold jsonFloat
  cases v with
  | int n =>
    rw [toFloat, if_neg h, number?, if_neg h]
    rfl
  | str s =>
    rw [toFloat, number?]
    cases lib.float s with
    | none => rfl
    | some x => rfl
  | none => rfl
  | bool b => rfl
  | float x => rfl
  | list l => rfl
  | dict d => rfl

theorem returns_jsonFloat : Returns (v.jsonFloat lib) ↔ v.Fits := by
  refine ⟨fun h => ?_, fun h => ⟨_, jsonFloat_of_fits h⟩⟩
  cases v with
  | int n =>
    intro hn
    unfold jsonFloat at h
    rw [toFloat, if_pos hn] at h
    exact not_returns_error _ h
  | _ => trivial

theorem returns_toFloat_of {P : Prop} (h : Returns (v.toFloat lib) ↔ P) :
    Returns (do let x ← v.toFloat lib; pure x.toPyFloat) ↔ P :=
  (returns_bind_pure LogFloat.toPyFloat).trans h

theorem returns_toCell : Returns (v.toCell lib) ↔ v.IsCell lib := by
  cases v with
  | none => exact iff_of_true (returns_ok _) trivial
  | bool b => exact returns_toFloat_of (iff_of_true (returns_ok _) trivial)
  | int n =>
    apply returns_toFloat_of
    rw [toFloat, returns_ite]
    exact ⟨fun h hn => not_returns_error _ (h.1 hn), fun h => ⟨fun hn => absurd hn h,
      fun _ => returns_ok _⟩⟩
  | float x => exact returns_toFloat_of (iff_of_true (returns_ok _) trivial)
  | str s => exact returns_toFloat_of (returns_elim _)
  | list l => exact iff_of_false (not_returns_error _) id
  | dict d => exact returns_toFloat_of (iff_of_false (not_returns_error _) id)

theorem returns_toInt : Returns (v.toInt lib) ↔ v.IsInt lib := by
  cases v with
  | none => exact iff_of_false (not_returns_error _) id
  | bool b => exact iff_of_true (returns_ok _) trivial
  | int n => exact iff_of_true (returns_ok _) trivial
  | float x =>
    cases x with
    | num x => exact iff_of_true (returns_ok _) trivial
    | inf a => exact iff_of_false (not_returns_error _) id
    | nan => exact iff_of_false (not_returns_error _) id
  | str s => exact returns_elim _
  | list l => exact iff_of_false (not_returns_error _) id
  | dict d => exact iff_of_false (not_returns_error _) id

theorem returns_finiteRow {values : List Value} {width : ℕ} :
    Returns (finiteRow lib values width) ↔ ∀ v ∈ values.take width, v.Fits := by
  unfold finiteRow
  rw [returns_mapM_iff]
  refine forall₂_congr fun v _ => ?_
  rw [returns_bind_pure, returns_jsonFloat]

theorem returns_finiteVec {width : ℕ} :
    Returns (finiteVec lib v width) ↔ v.IsVector width := by
  have hrow : ∀ values, Returns (do
      let row ← finiteRow lib values width
      pure (finiteN row width)) ↔ ∀ v ∈ values.take width, v.Fits := by
    intro values
    rw [returns_bind_pure, returns_finiteRow]
  have hstr : ∀ l : List String, ∀ v ∈ (l.map str).take width, v.Fits := by
    intro l v hv
    obtain ⟨s, -, rfl⟩ := List.mem_map.mp (List.mem_of_mem_take hv)
    trivial
  cases v with
  | none =>
    exact (hrow []).trans (iff_of_true (fun v hv => (nomatch List.mem_of_mem_take hv)) trivial)
  | bool b => exact iff_of_false (not_returns_error _) id
  | int n => exact iff_of_false (not_returns_error _) id
  | float x => exact iff_of_false (not_returns_error _) id
  | str s =>
    refine (hrow _).trans (iff_of_true ?_ trivial)
    exact hstr (s.toList.map String.singleton) |> fun h => by rwa [List.map_map] at h
  | list l => exact hrow l
  | dict d =>
    refine (hrow _).trans (iff_of_true ?_ trivial)
    exact hstr (d.map Prod.fst) |> fun h => by rwa [List.map_map] at h

theorem returns_vecFromLog {data : Value} {key : String} {width : ℕ} :
    Returns (vecFromLog lib data key width) ↔
      ∃ d, data = dict d ∧ ∀ v, d.lookup key = some v → v.IsVector width := by
  cases data with
  | dict d =>
    have hget : ∀ x : Option Value, Returns (finiteVec lib (x.getD (list [])) width) ↔
        ∀ v, x = some v → v.IsVector width := by
      intro x
      rw [returns_finiteVec]
      cases x with
      | none =>
        exact iff_of_true (fun v hv => (nomatch List.mem_of_mem_take hv)) fun v hv => nomatch hv
      | some v =>
        constructor
        · rintro h _ ⟨⟩
          exact h
        · exact fun h => h v rfl
    refine (hget _).trans ⟨fun h => ⟨d, rfl, h⟩, ?_⟩
    rintro ⟨_, ⟨⟩, h⟩
    exact h
  | _ =>
    refine iff_of_false (not_returns_error _) ?_
    rintro ⟨_, ⟨⟩, _⟩

theorem returns_storeRow {t : ℚ} {values : List Value} {width : ℕ} :
    Returns (storeRow lib t values width) ↔
      (values.length = width ∨ values.length = 0) ∧ ∀ v ∈ values, v.IsCell lib := by
  unfold storeRow
  rw [returns_bind_of_const (P := values.length = width ∨ values.length = 0), returns_mapM_iff,
    and_comm]
  · refine and_congr_right' (forall₂_congr fun v _ => returns_toCell)
  · intro cells hcells
    rw [length_of_mapM hcells, returns_ite, returns_ite]
    constructor
    · intro h
      by_contra hno
      obtain ⟨hne, hne'⟩ := not_or.mp hno
      exact not_returns_error _ ((h.2 hne).2 hne')
    · exact fun h => ⟨fun _ => returns_ok _, fun hne => ⟨fun _ => returns_ok _,
        fun hne' => absurd h (not_or.mpr ⟨hne, hne'⟩)⟩⟩

theorem returns_asarray3 : Returns (asarray3 lib v) ↔ v.IsArray lib := by
  have hscalar : ∀ x : Except PyError PyFloat,
      ¬ Returns (do let _ ← x; (.error .indexError : Except PyError (List PyFloat))) := by
    intro x h
    obtain ⟨_, -, h⟩ := returns_bind_iff.mp h
    exact not_returns_error _ h
  cases v with
  | list l =>
    show Returns (do
      let cells ← l.mapM (toCell lib)
      if 3 ≤ cells.length then pure (cells.take 3) else .error .indexError) ↔ _
    rw [returns_bind_of_const (P := 3 ≤ l.length), returns_mapM_iff]
    · constructor
      · exact fun h => ⟨l, rfl, h.2, fun x hx => returns_toCell.mp (h.1 x hx)⟩
      · rintro ⟨_, ⟨⟩, hlength, hcells⟩
        exact ⟨fun x hx => returns_toCell.mpr (hcells x hx), hlength⟩
    · intro cells hcells
      rw [length_of_mapM hcells, returns_ite]
      exact ⟨fun h => by_contra fun hno => not_returns_error _ (h.2 hno),
        fun h => ⟨fun _ => returns_ok _, fun hno => absurd h hno⟩⟩
  | _ =>
    refine iff_of_false (hscalar _) ?_
    rintro ⟨_, ⟨⟩, _⟩

end Value

end Viewer

end Hummingbird
