/-
  Sliding windows over lists of timed entries.

  `prune time cutoff l` drops the entries before the cutoff at the front of `l`, as a queue of
  which only the front is looked at does. Pruning early changes nothing
  (`prune_prune_append`), nor do entries in front that are too old (`prune_append_of_lt`), and of
  a list whose times do not go back it leaves exactly the entries from the cutoff on
  (`prune_eq_filter`).
-/
import Mathlib.Data.List.TakeWhile
import Mathlib.Order.Lattice

namespace Window

variable {A K : Type*} [LinearOrder K] {time : A → K} {cutoff cutoff' : K}

/-- The entries that a queue of entries keeps. -/
def prune (time : A → K) (cutoff : K) (l : List A) : List A :=
  l.dropWhile fun a => decide (time a < cutoff)

theorem prune_cons_of_lt {a : A} (h : time a < cutoff) (l : List A) :
    prune time cutoff (a :: l) = prune time cutoff l :=
  List.dropWhile_cons_of_pos (by simpa using h)

theorem prune_cons_of_le {a : A} (h : cutoff ≤ time a) (l : List A) :
    prune time cutoff (a :: l) = a :: l :=
  List.dropWhile_cons_of_neg (by simpa using h)

/-- Entries that are too old make no difference. -/
theorem prune_append_of_lt {pre : List A} (h : ∀ a ∈ pre, time a < cutoff) (l : List A) :
    prune time cutoff (pre ++ l) = prune time cutoff l :=
  List.dropWhile_append_of_pos fun a ha => decide_eq_true (h a ha)

/-- Nor does it matter whether a window was pruned before. -/
theorem prune_prune_append (h : cutoff ≤ cutoff') (l m : List A) :
    prune time cutoff' (prune time cutoff l ++ m) = prune time cutoff' (l ++ m) := by
  have hsplit : l ++ m = l.takeWhile (fun a => decide (time a < cutoff)) ++
      (prune time cutoff l ++ m) := by
    rw [← List.append_assoc, prune, List.takeWhile_append_dropWhile]
  have hold : ∀ a ∈ l.takeWhile (fun a => decide (time a < cutoff)), time a < cutoff' := by
    intro a ha
    have hlt := List.mem_takeWhile_imp ha
    exact (of_decide_eq_true hlt).trans_le h
  rw [hsplit, prune_append_of_lt hold]

theorem prune_prune (h : cutoff ≤ cutoff') (l : List A) :
    prune time cutoff' (prune time cutoff l) = prune time cutoff' l := by
  have happend : prune time cutoff' (prune time cutoff l ++ []) = prune time cutoff' (l ++ []) :=
    prune_prune_append h l []
  rwa [List.append_nil, List.append_nil] at happend

/-- What is left of a list whose times do not go back. -/
theorem prune_eq_filter {l : List A} (hl : l.Pairwise fun a b => time a ≤ time b) :
    prune time cutoff l = l.filter fun a => cutoff ≤ time a := by
  induction l with
  | nil => rfl
  | cons a l ih =>
    obtain ⟨ha, hl⟩ := List.pairwise_cons.mp hl
    rcases lt_or_ge (time a) cutoff with hlt | hge
    · rw [prune_cons_of_lt hlt, List.filter_cons_of_neg (by simpa using hlt)]
      exact ih hl
    · have hkeep : ∀ b ∈ a :: l, cutoff ≤ time b := by
        intro b hb
        rcases List.mem_cons.mp hb with rfl | hb
        · exact hge
        · exact le_trans hge (ha b hb)
      rw [prune_cons_of_le hge]
      exact (List.filter_eq_self.mpr fun b hb => decide_eq_true (hkeep b hb)).symm

/-- And of the times up to `now` those between the cutoff and `now`. -/
theorem prune_eq_filter_of_le {l : List A} {now : K} (hl : l.Pairwise fun a b => time a ≤ time b)
    (hnow : ∀ a ∈ l, time a ≤ now) :
    prune time cutoff l = l.filter fun a => cutoff ≤ time a ∧ time a ≤ now := by
  rw [prune_eq_filter hl]
  apply List.filter_congr
  intro a ha
  rw [decide_eq_decide, and_iff_left (hnow a ha)]

/-- What comes after an entry that is not too old stays, as that entry does. -/
theorem prune_append_of_mem {a : A} {l : List A} (hmem : a ∈ l) (ha : cutoff ≤ time a)
    (m : List A) : prune time cutoff (l ++ m) = prune time cutoff l ++ m := by
  induction l with
  | nil => cases hmem
  | cons b l ih =>
    rcases lt_or_ge (time b) cutoff with hlt | hge
    · have hmem : a ∈ l := by
        rcases List.mem_cons.mp hmem with rfl | hmem
        · exact absurd hlt ha.not_gt
        · exact hmem
      rw [List.cons_append, prune_cons_of_lt hlt, prune_cons_of_lt hlt, ih hmem]
    · rw [List.cons_append, prune_cons_of_le hge, prune_cons_of_le hge, List.cons_append]

theorem mem_prune {a : A} {l : List A} (hmem : a ∈ l) (ha : cutoff ≤ time a) :
    a ∈ prune time cutoff l := by
  rw [← List.takeWhile_append_dropWhile (p := fun a => decide (time a < cutoff)) (l := l),
    List.mem_append] at hmem
  refine hmem.resolve_left fun hold => ?_
  have hlt := List.mem_takeWhile_imp hold
  exact absurd (of_decide_eq_true hlt) ha.not_gt

/-- Pruning after a change of the entries that keeps which of them are too old. -/
theorem prune_map {B : Type*} {f : B → A} {time' : B → K}
    (h : ∀ b, time (f b) < cutoff' ↔ time' b < cutoff) (l : List B) :
    prune time cutoff' (l.map f) = (prune time' cutoff l).map f := by
  unfold prune
  rw [List.dropWhile_map]
  congr 2
  funext b
  exact decide_eq_decide.mpr (h b)

theorem length_prune_le (cutoff : K) (l : List A) :
    (prune time cutoff l).length ≤ l.length :=
  (List.dropWhile_suffix _).length_le

/-- An entry at the end that is not too old stays. -/
theorem prune_concat {a : A} (ha : cutoff ≤ time a) (l : List A) :
    prune time cutoff (l ++ [a]) = prune time cutoff l ++ [a] := by
  induction l with
  | nil => exact prune_cons_of_le ha []
  | cons b l ih =>
    rcases lt_or_ge (time b) cutoff with hlt | hge
    · rw [List.cons_append, prune_cons_of_lt hlt, prune_cons_of_lt hlt, ih]
    · rw [List.cons_append, prune_cons_of_le hge, prune_cons_of_le hge, List.cons_append]

end Window
