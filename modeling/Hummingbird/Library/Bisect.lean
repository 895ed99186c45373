/-
  Binary search for the point where a predicate stops to hold.

  `bisect` halves an interval of indices; on a list whose elements with the predicate come first,
  `partitionPoint` is the number of these elements (`partitionPoint_eq_countP`), so cutting there
  splits the list into the elements with the predicate and the elements without it
  (`take_countP`, `drop_countP`). `slice_eq_filter` is the part between two such points.
-/
import Mathlib.Data.List.Basic

namespace Bisect

/-! ## On indices -/

/-- The halving of `[lo, hi)`. -/
def bisect (p : ℕ → Bool) (lo hi : ℕ) : ℕ :=
  if lo < hi then
    let mid := lo + (hi - lo) / 2
    if p mid then bisect p (mid + 1) hi else bisect p lo mid
  else lo
termination_by hi - lo

/-- Where the predicate holds on a first part of the interval only, the search ends behind that
    part. -/
theorem bisect_spec (p : ℕ → Bool) (lo hi : ℕ) (hle : lo ≤ hi)
    (hp : ∀ i j, lo ≤ i → i ≤ j → j < hi → p j = true → p i = true) :
    bisect p lo hi ≤ hi ∧ (∀ i, lo ≤ i → i < bisect p lo hi → p i = true) ∧
      ∀ i, bisect p lo hi ≤ i → i < hi → p i = false := by
  fun_induction bisect p lo hi with
  | case1 lo hi hlt mid hmid ih =>
    obtain ⟨hhi, hbelow, habove⟩ := ih (by omega) fun i j hi hij hj => hp i j (by omega) hij hj
    refine ⟨hhi, ?_, habove⟩
    intro i hi hir
    by_cases him : i ≤ mid
    · exact hp i mid hi him (by omega) hmid
    · exact hbelow i (by omega) hir
  | case2 lo hi hlt mid hmid ih =>
    obtain ⟨hhi, hbelow, habove⟩ := ih (by omega) fun i j hi hij hj => hp i j hi hij (by omega)
    refine ⟨by omega, hbelow, ?_⟩
    intro i hri hi
    by_cases him : i < mid
    · exact habove i hri him
    · by_contra hpi
      exact hmid (hp mid i (by omega) (by omega) hi (by simpa using hpi))
  | case3 lo hi hlt =>
    exact ⟨hle, fun i hi hir => absurd hir (by omega), fun i hri hi => absurd hri (by omega)⟩

/-! ## On lists -/

variable {α : Type*} {q r : α → Bool} {l : List α}

/-- The elements of the list with the predicate come before those without it. -/
def Partitioned (q : α → Bool) (l : List α) : Prop := l.Pairwise fun a b => q b = true → q a = true

/-- The search on the indices of a list. -/
def partitionPoint (q : α → Bool) (l : List α) : ℕ :=
  bisect (fun i => (l[i]?).any q) 0 l.length

theorem Partitioned.of_cons {a : α} (h : Partitioned q (a :: l)) : Partitioned q l :=
  (List.pairwise_cons.mp h).2

/-- If the first element is without the predicate, so are all. -/
theorem Partitioned.filter_of_neg {a : α} (h : Partitioned q (a :: l)) (ha : ¬ q a = true) :
    (a :: l).filter q = [] := by
  apply List.filter_eq_nil_iff.mpr
  intro b hb
  rcases List.mem_cons.mp hb with rfl | hb
  · exact ha
  · intro hqb
    exact ha ((List.pairwise_cons.mp h).1 b hb hqb)

theorem take_countP (h : Partitioned q l) : l.take (l.countP q) = l.filter q := by
  induction l with
  | nil => rfl
  | cons a l ih =>
    by_cases ha : q a = true
    · rw [List.countP_cons_of_pos ha, List.take_succ_cons, ih h.of_cons,
        List.filter_cons_of_pos ha]
    · have hnil := h.filter_of_neg ha
      rw [List.countP_eq_length_filter, hnil]
      rfl

theorem drop_countP (h : Partitioned q l) : l.drop (l.countP q) = l.filter fun a => !q a := by
  induction l with
  | nil => rfl
  | cons a l ih =>
    by_cases ha : q a = true
    · rw [List.countP_cons_of_pos ha, List.drop_succ_cons, ih h.of_cons,
        List.filter_cons_of_neg (by simpa using ha)]
    · have hnil := h.filter_of_neg ha
      have hall : ∀ b ∈ a :: l, (!q b) = true := by
        intro b hb
        simpa using List.filter_eq_nil_iff.mp hnil b hb
      rw [List.countP_eq_length_filter, hnil, List.filter_eq_self.mpr hall]
      rfl

/-- An element has the predicate if its index is below their number. -/
theorem any_getElem?_iff (h : Partitioned q l) (i : ℕ) :
    (l[i]?).any q = true ↔ i < l.countP q := by
  induction l generalizing i with
  | nil => simp
  | cons a l ih =>
    by_cases ha : q a = true
    · rw [List.countP_cons_of_pos ha]
      cases i with
      | zero => simpa using ha
      | succ i =>
        rw [List.getElem?_cons_succ, ih h.of_cons]
        omega
    · rw [List.countP_eq_length_filter, h.filter_of_neg ha, List.length_nil]
      constructor
      · intro hi
        obtain ⟨b, hb, hqb⟩ := (Option.any_eq_true _ _).mp hi
        have hmem := List.mem_filter.mpr ⟨List.mem_of_getElem? hb, hqb⟩
        rw [h.filter_of_neg ha] at hmem
        cases hmem
      · intro hi
        omega

/-- The search finds the number of elements with the predicate. -/
theorem partitionPoint_eq_countP (h : Partitioned q l) : partitionPoint q l = l.countP q := by
  have hle := List.countP_le_length (p := q) (l := l)
  obtain ⟨hhi, hbelow, habove⟩ := bisect_spec (fun i => (l[i]?).any q) 0 l.length
    (Nat.zero_le _) (by
    intro i j _ hij _ hj
    rw [any_getElem?_iff h] at hj ⊢
    omega)
  have hsame : ∀ i, (l[i]?).any q = true ↔ i < l.countP q := any_getElem?_iff h
  unfold partitionPoint
  apply Nat.le_antisymm
  · by_contra hlt
    have hq := hbelow (l.countP q) (Nat.zero_le _) (by omega)
    rw [hsame] at hq
    omega
  · by_contra hlt
    have hq := (hsame (bisect (fun i => (l[i]?).any q) 0 l.length)).mpr (by omega)
    rw [habove _ (Nat.le_refl _) (by omega)] at hq
    cases hq

/-- The part of a list between two points is what has the second predicate and not the first. -/
theorem slice_eq_filter (hq : Partitioned q l) (hr : Partitioned r l)
    (hqr : ∀ a, q a = true → r a = true) :
    (l.take (l.countP r)).drop (l.countP q) = l.filter fun a => !q a && r a := by
  have hq' : Partitioned q (l.filter r) := List.Pairwise.sublist List.filter_sublist hq
  have hcount : l.countP q = (l.filter r).countP q := by
    rw [List.countP_filter]
    apply List.countP_congr
    intro a _
    constructor
    · intro ha
      rw [ha, hqr a ha]
      rfl
    · intro ha
      exact (Bool.and_eq_true_iff.mp ha).1
  rw [take_countP hr, hcount, drop_countP hq', List.filter_filter]

end Bisect
