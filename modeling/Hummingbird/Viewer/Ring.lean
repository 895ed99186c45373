/-
  `Ring` of `px4_multirotor_viewer.py`.

  The buffer starts with rows of NaN, and `push` overwrites it in a circle. `Represents r pushed`
  ties it to the list of all rows pushed so far: read from `idx` on it holds the newest `cap` rows
  of the filler followed by `pushed`. `ring_get` is the result for every sequence of operations.
-/
import Hummingbird.Library.Circular
import Hummingbird.Viewer.Json

namespace Hummingbird

namespace Viewer

open Circular

/-- A row of a buffer with `width` columns. -/
abbrev Row (width : ℕ) := Fin width → PyFloat

/-- A buffer of `cap` rows. -/
structure Ring (cap width : ℕ) where
  buf : List (Row width)
  idx : ℕ
  n : ℕ
  length_buf : buf.length = cap
  idx_lt : idx < cap
  n_le : n ≤ cap

namespace Ring

variable {cap width : ℕ}

/-- `np.full((cap, width), np.nan)`. -/
def filler (cap width : ℕ) : List (Row width) := List.replicate cap fun _ => .nan

/-- `Ring(cap, width)`. -/
def construct (hcap : 0 < cap) : Ring cap width where
  buf := filler cap width
  idx := 0
  n := 0
  length_buf := List.length_replicate
  idx_lt := hcap
  n_le := Nat.zero_le cap

def push (r : Ring cap width) (row : Row width) : Ring cap width where
  buf := r.buf.set r.idx row
  idx := (r.idx + 1) % cap
  n := min (r.n + 1) cap
  length_buf := by rw [List.length_set, r.length_buf]
  idx_lt := Nat.mod_lt _ (Nat.zero_lt_of_lt r.idx_lt)
  n_le := Nat.min_le_right _ _

def get (r : Ring cap width) : List (Row width) :=
  if r.n = 0 then []
  else if r.n < cap then r.buf.take r.n
  else r.buf.drop r.idx ++ r.buf.take r.idx

inductive Op (width : ℕ)
  | push (row : Row width)
  | get

/-- What an operation leaves behind, and what it returns. -/
def step (r : Ring cap width) : Op width → Ring cap width × Option (List (Row width))
  | .push row => (r.push row, none)
  | .get => (r, some r.get)

/-- The buffer after a sequence of operations. -/
def after (r : Ring cap width) (ops : List (Op width)) : Ring cap width :=
  ops.foldl (fun r op => (r.step op).1) r

/-- The row that an operation pushes. -/
def Op.pushed : Op width → Option (Row width)
  | push row => some row
  | get => none

/-- The rows that a sequence of operations pushes, in order. -/
def pushes (ops : List (Op width)) : List (Row width) := ops.filterMap Op.pushed

/-! ## The rows in the buffer -/

/-- The buffer after the rows `pushed` have been pushed. -/
structure Represents (r : Ring cap width) (pushed : List (Row width)) : Prop where
  rows : r.buf.rotate r.idx = (filler cap width ++ pushed).drop pushed.length
  idx_eq : r.idx = pushed.length % cap
  n_eq : r.n = min pushed.length cap

theorem represents_construct (hcap : 0 < cap) :
    Represents (construct hcap : Ring cap width) [] where
  rows := by
    show (filler cap width).rotate 0 = _
    rw [List.rotate_zero, List.append_nil, List.length_nil, List.drop_zero]
  idx_eq := (Nat.zero_mod cap).symm
  n_eq := (Nat.zero_min cap).symm

theorem Represents.push {r : Ring cap width} {pushed : List (Row width)} (h : Represents r pushed)
    (row : Row width) : Represents (r.push row) (pushed ++ [row]) where
  rows := by
    have hlen : r.idx < r.buf.length := r.idx_lt.trans_eq r.length_buf.symm
    have hrotate := rotate_set_succ hlen row
    rw [r.length_buf] at hrotate
    have hle : pushed.length + 1 ≤ (filler cap width ++ pushed).length := by
      rw [List.length_append, filler, List.length_replicate]
      have := r.idx_lt
      omega
    show (r.buf.set r.idx row).rotate ((r.idx + 1) % cap) = _
    rw [hrotate, h.rows, List.drop_drop, List.length_append, List.length_singleton,
      ← List.append_assoc, List.drop_append_of_le_length hle]
  idx_eq := by
    show (r.idx + 1) % cap = _
    rw [h.idx_eq, List.length_append, List.length_singleton, Nat.mod_add_mod]
  n_eq := by
    show min (r.n + 1) cap = _
    rw [h.n_eq, List.length_append, List.length_singleton]
    omega

/-- What is read are the newest rows. -/
theorem Represents.get {r : Ring cap width} {pushed : List (Row width)} (h : Represents r pushed) :
    r.get = recent cap pushed := by
  have hfiller : (filler cap width).length = cap := List.length_replicate
  have hrotate := rotate_eq (r.idx_lt.le.trans_eq r.length_buf.symm)
  rw [h.rows] at hrotate
  unfold Ring.get
  split
  · rename_i hn
    have hnil : pushed = [] := by
      rw [h.n_eq] at hn
      have := r.idx_lt
      exact List.length_eq_zero_iff.mp (by omega)
    rw [hnil, recent_of_le (Nat.zero_le cap)]
  split
  · -- not yet full: the rows before the index are those pushed
    rename_i hn
    have hlt : pushed.length < cap := by
      rw [h.n_eq] at hn
      omega
    have hidx : r.idx = pushed.length := by rw [h.idx_eq, Nat.mod_eq_of_lt hlt]
    have hnum : r.n = r.idx := by rw [h.n_eq, hidx, Nat.min_eq_left hlt.le]
    rw [List.drop_append_of_le_length (by omega)] at hrotate
    have hlength : ((filler cap width).drop pushed.length).length = (r.buf.drop r.idx).length := by
      rw [List.length_drop, List.length_drop, r.length_buf, hfiller, hidx]
    obtain ⟨-, htake⟩ := List.append_inj hrotate hlength
    rw [hnum, ← htake, recent_of_le hlt.le]
  · -- full: the filler has been overwritten
    rename_i hn
    have hle : cap ≤ pushed.length := by
      rw [h.n_eq] at hn
      omega
    rw [← hrotate, List.drop_append, hfiller, List.drop_of_length_le (by omega), recent]
    rfl

theorem Represents.after {r : Ring cap width} {pushed : List (Row width)} (h : Represents r pushed)
    (ops : List (Op width)) : Represents (r.after ops) (pushed ++ pushes ops) := by
  induction ops generalizing r pushed with
  | nil =>
    rw [pushes, List.filterMap_nil, List.append_nil]
    exact h
  | cons op ops ih =>
    cases op with
    | push row =>
      have hpushes : pushed ++ pushes (.push row :: ops) = (pushed ++ [row]) ++ pushes ops := by
        rw [List.append_assoc]
        rfl
      rw [hpushes]
      exact ih (h.push row)
    | get => exact ih h

/-- After any sequence of operations, `get` returns the last rows that were pushed: as many as the
    buffer holds, or all if there are fewer. That there were other `get`s in between is nothing to
    it. -/
theorem ring_get (hcap : 0 < cap) (ops : List (Op width)) :
    ((construct hcap).after ops).get = recent cap (pushes ops) ∧
      recent cap (pushes ops) <:+ pushes ops ∧
      (recent cap (pushes ops)).length = min (pushes ops).length cap := by
  have hget := ((represents_construct hcap).after ops).get
  rw [List.nil_append] at hget
  exact ⟨hget, recent_suffix cap _, length_recent cap _⟩

/-- Three rows in a buffer of two, with a `get` in between. -/
def wrapAround : List (Op 1) :=
  [.push fun _ => .num 1, .push fun _ => .num 2, .get, .push fun _ => .num 3]

theorem ring_get_wrapAround :
    ((construct (by decide : 0 < 2)).after wrapAround).get = recent 2 (pushes wrapAround) ∧
      recent 2 (pushes wrapAround) <:+ pushes wrapAround ∧
      (recent 2 (pushes wrapAround)).length = 2 :=
  ring_get (by decide) wrapAround

end Ring

end Viewer

end Hummingbird
