/-
  Circular lists.

  A list of fixed length that is read from an index on and around its end is the list rotated by
  that index. Writing at the index and moving it on drops the oldest element and appends the new
  one (`rotate_set_succ`). `recent n l` are the last `n` elements of `l`, or all if there are fewer.
-/
import Mathlib.Data.List.Rotate

namespace Circular

variable {α : Type*}

/-- The last `n` elements. -/
def recent (n : ℕ) (l : List α) : List α := l.drop (l.length - n)

theorem length_recent (n : ℕ) (l : List α) : (recent n l).length = min l.length n := by
  rw [recent, List.length_drop]
  omega

theorem recent_suffix (n : ℕ) (l : List α) : recent n l <:+ l := List.drop_suffix _ l

theorem recent_of_le {n : ℕ} {l : List α} (h : l.length ≤ n) : recent n l = l := by
  rw [recent, Nat.sub_eq_zero_of_le h, List.drop_zero]

/-- What has been dropped does not come back. -/
theorem recent_concat (n : ℕ) (l : List α) (a : α) :
    recent n (recent n l ++ [a]) = recent n (l ++ [a]) := by
  simp only [recent, List.length_append, List.length_drop, List.length_singleton]
  rcases Nat.lt_or_ge n l.length with hlt | hge
  · have hmore : l.length + 1 - n = l.length - n + 1 := by omega
    have hone : l.length - (l.length - n) + 1 - n = 1 := by omega
    rw [hone, hmore, ← List.drop_append_of_le_length (Nat.sub_le _ _), List.drop_drop]
  · have hall : l.length - n = 0 := by omega
    rw [hall, List.drop_zero, Nat.sub_zero]

theorem getLast?_recent {n : ℕ} (hn : 0 < n) (l : List α) : (recent n l).getLast? = l.getLast? := by
  rw [recent, List.getLast?_drop]
  split
  · have hnil : l = [] := List.length_eq_zero_iff.mp (by omega)
    rw [hnil, List.getLast?_nil]
  · rfl

/-- Reading from the index `i` on. -/
theorem rotate_eq {l : List α} {i : ℕ} (hi : i ≤ l.length) : l.rotate i = l.drop i ++ l.take i :=
  List.rotate_eq_drop_append_take hi

/-- The element at the index is the oldest; it makes room for the new one. -/
theorem rotate_set_succ {l : List α} {i : ℕ} (hi : i < l.length) (a : α) :
    (l.set i a).rotate ((i + 1) % l.length) = (l.rotate i).drop 1 ++ [a] := by
  have hlen : (l.set i a).length = l.length := List.length_set
  have hmod : (l.set i a).rotate ((i + 1) % l.length) = (l.set i a).rotate (i + 1) := by
    rw [← hlen, List.rotate_mod]
  have hdrop : (l.set i a).drop (i + 1) = l.drop (i + 1) := by
    rw [List.drop_set, if_pos (Nat.lt_succ_self i)]
  have htake : (l.set i a).take (i + 1) = l.take i ++ [a] := by
    rw [List.take_add_one, List.getElem?_set_self hi, List.take_set_of_le le_rfl]
    rfl
  have hold : (l.rotate i).drop 1 = l.drop (i + 1) ++ l.take i := by
    rw [rotate_eq hi.le, List.drop_append_of_le_length, List.drop_drop]
    rw [List.length_drop]
    omega
  rw [hmod, rotate_eq (hi.trans_eq hlen.symm), hdrop, htake, hold, List.append_assoc]

end Circular
