/-
  A view that scrolls along a list of timed entries.

  The view shows the entries from a cutoff on (`trim`). If there are none, it leaves on the screen
  what it drew before (`redraw`). As long as the entries come in their order, what is left on the
  screen is then too old to be seen: within its bounds the view shows the list itself
  (`visible_redraw`). Segments are cut to the bounds of the view (`clip`), which changes nothing
  between them (`covered_clip`).
-/
import Mathlib.Data.List.Pairwise
import Mathlib.Order.Interval.Set.Defs
import Mathlib.Order.Lattice

namespace Viewport

variable {A K : Type*} [LinearOrder K] (time : A → K)

/-- The entries from the cutoff on. -/
def trim (cutoff : K) (l : List A) : List A := l.filter fun a => cutoff ≤ time a

/-- What is on the screen after the list is drawn over `shown`. -/
def redraw (cutoff : K) (l shown : List A) : List A :=
  if trim time cutoff l = [] then shown else trim time cutoff l

/-- What can be seen between two times. -/
def visible (lo hi : K) (shown : List A) : List A :=
  shown.filter fun a => lo ≤ time a ∧ time a ≤ hi

variable {time} {cutoff hi : K} {l shown pushed : List A}

theorem mem_trim {a : A} : a ∈ trim time cutoff l ↔ a ∈ l ∧ cutoff ≤ time a := by
  rw [trim, List.mem_filter, decide_eq_true_iff]

theorem trim_eq_nil : trim time cutoff l = [] ↔ ∀ a ∈ l, time a < cutoff := by
  rw [trim, List.filter_eq_nil_iff]
  simp only [decide_eq_true_iff, not_le]

theorem redraw_subset (hl : l ⊆ pushed) (hshown : shown ⊆ pushed) :
    redraw time cutoff l shown ⊆ pushed := by
  unfold redraw
  split
  · exact hshown
  · exact fun a ha => hl (mem_trim.mp ha).1

/-- All of the list that is drawn is in view. -/
theorem visible_trim (hhi : ∀ a ∈ l, time a ≤ hi) :
    visible time cutoff hi (trim time cutoff l) = trim time cutoff l := by
  rw [visible, List.filter_eq_self]
  intro a ha
  obtain ⟨hmem, hle⟩ := mem_trim.mp ha
  exact decide_eq_true ⟨hle, hhi a hmem⟩

theorem visible_eq_nil (h : ∀ a ∈ shown, time a < cutoff) : visible time cutoff hi shown = [] := by
  rw [visible, List.filter_eq_nil_iff]
  intro a ha hin
  exact (h a ha).not_ge (of_decide_eq_true hin).1

/-- The list ends like all that was pushed, in order, and some of that is on the screen. -/
theorem visible_redraw (hordered : pushed.Pairwise fun a b => time a ≤ time b)
    (hlast : l.getLast? = pushed.getLast?) (hshown : shown ⊆ pushed)
    (hhi : ∀ a ∈ l, time a ≤ hi) :
    visible time cutoff hi (redraw time cutoff l shown) = trim time cutoff l := by
  unfold redraw
  split
  · -- the newest entry is too old, so that all others are
    rename_i hnil
    rw [hnil]
    apply visible_eq_nil
    intro a ha
    have hne := List.ne_nil_of_mem (hshown ha)
    rw [List.getLast?_eq_some_getLast hne] at hlast
    have hold := trim_eq_nil.mp hnil _ (List.mem_of_getLast? hlast)
    exact (hordered.rel_getLast (hshown ha)).trans_lt hold
  · exact visible_trim hhi

/-! ## Segments -/

/-- The segments that reach into the view, cut to its bounds. -/
def clip (lo hi : K) (l : List (K × K)) : List (K × K) :=
  (l.filter fun p => lo ≤ p.2 ∧ p.1 ≤ hi).map fun p => (max p.1 lo, min p.2 hi)

variable {lo : K} {segments : List (K × K)}

theorem mem_clip {q : K × K} :
    q ∈ clip lo hi segments ↔
      ∃ p ∈ segments, (lo ≤ p.2 ∧ p.1 ≤ hi) ∧ (max p.1 lo, min p.2 hi) = q := by
  simp only [clip, List.mem_map, List.mem_filter, decide_eq_true_iff, and_assoc]

theorem clip_within (hle : lo ≤ hi) (hforward : ∀ p ∈ segments, p.1 ≤ p.2) {q : K × K}
    (hq : q ∈ clip lo hi segments) : lo ≤ q.1 ∧ q.1 ≤ q.2 ∧ q.2 ≤ hi := by
  obtain ⟨p, hp, ⟨hlo, hhi⟩, rfl⟩ := mem_clip.mp hq
  refine ⟨le_max_right _ _, ?_, min_le_right _ _⟩
  exact max_le (le_min (hforward p hp) hhi) (le_min hlo hle)

theorem clip_ordered (h : segments.Pairwise fun p q => p.2 ≤ q.1) :
    (clip lo hi segments).Pairwise fun p q => p.2 ≤ q.1 := by
  rw [clip, List.pairwise_map]
  refine (h.sublist List.filter_sublist).imp fun {p q} hpq => ?_
  exact (min_le_left _ _).trans (hpq.trans (le_max_left _ _))

/-- Inside the view the segments cover what they did. -/
theorem covered_clip {u : K} (hu : u ∈ Set.Ioo lo hi) :
    (∃ q ∈ clip lo hi segments, u ∈ Set.Ioo q.1 q.2) ↔
      ∃ p ∈ segments, u ∈ Set.Ioo p.1 p.2 := by
  constructor
  · rintro ⟨q, hq, hlt, hgt⟩
    obtain ⟨p, hp, -, rfl⟩ := mem_clip.mp hq
    exact ⟨p, hp, (le_max_left _ _).trans_lt hlt, hgt.trans_le (min_le_left _ _)⟩
  · rintro ⟨p, hp, hlt, hgt⟩
    refine ⟨_, mem_clip.mpr ⟨p, hp, ⟨(hu.1.trans hgt).le, (hlt.trans hu.2).le⟩, rfl⟩, ?_, ?_⟩
    · exact max_lt hlt hu.1
    · exact lt_min hgt hu.2

end Viewport
