/-
  `while` loops.

  `LeavesAfter guard body x n`: the loop `while (guard x) x = body x;` makes exactly `n` iterations.
  `exists_leavesAfter` says that there is such a number if a measure goes down, and
  `LeavesAfter.eq_iterate` that a function that runs the loop returns the value after these
  iterations.
-/
import Mathlib.Logic.Function.Iterate

namespace Loop

variable {α : Type*} {guard : α → Prop} {body : α → α} {x : α} {n : ℕ}

/-- The guard holds before each of `n` iterations and fails after them. -/
def LeavesAfter (guard : α → Prop) (body : α → α) (x : α) (n : ℕ) : Prop :=
  (∀ k < n, guard (body^[k] x)) ∧ ¬ guard (body^[n] x)

theorem leavesAfter_zero (h : ¬ guard x) : LeavesAfter guard body x 0 :=
  ⟨fun k hk => absurd hk (Nat.not_lt_zero k), h⟩

theorem LeavesAfter.succ (hx : guard x) (h : LeavesAfter guard body (body x) n) :
    LeavesAfter guard body x (n + 1) := by
  refine ⟨fun k hk => ?_, h.2⟩
  cases k with
  | zero => exact hx
  | succ k => exact h.1 k (Nat.lt_of_succ_lt_succ hk)

/-- A loop whose measure goes down comes to an end. -/
theorem exists_leavesAfter (measure : α → ℕ)
    (hdown : ∀ x, guard x → measure (body x) < measure x) (x : α) :
    ∃ n, LeavesAfter guard body x n := by
  by_cases hx : guard x
  · obtain ⟨n, hn⟩ := exists_leavesAfter measure hdown (body x)
    exact ⟨n + 1, hn.succ hx⟩
  · exact ⟨0, leavesAfter_zero hx⟩
termination_by measure x
decreasing_by exact hdown x hx

/-- A function that runs the loop. -/
theorem LeavesAfter.eq_iterate [DecidablePred guard] {f : α → α}
    (hf : ∀ x, f x = if guard x then f (body x) else x) (h : LeavesAfter guard body x n) :
    f x = body^[n] x := by
  induction n generalizing x with
  | zero =>
    have hx : ¬ guard x := h.2
    rw [hf, if_neg hx, Function.iterate_zero_apply]
  | succ n ih =>
    have hnext : LeavesAfter guard body (body x) n :=
      ⟨fun k hk => h.1 (k + 1) (Nat.succ_lt_succ hk), h.2⟩
    have hx : guard x := h.1 0 n.succ_pos
    rw [hf, if_pos hx, ih hnext, Function.iterate_succ_apply]

end Loop
