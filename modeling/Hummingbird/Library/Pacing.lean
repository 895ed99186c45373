/-
  Rate limits.

  A limiter remembers when it let something through last, and lets the next one through once
  that is at least `d` ago. `Spaced d ts` says that the times `ts`, newest first, are pairwise
  at least `d` apart, `Due d last now` is the limiter's test, and `Limited d ts last` the
  invariant of a limiter that has let through `ts`: what it remembers is the newest of them,
  and they are spaced. `Limited.pass` is the one step that changes it.
-/
import Mathlib.Algebra.Order.Group.Defs
import Mathlib.Tactic.Abel

namespace Pacing

variable {α : Type*} [AddCommGroup α] [LinearOrder α] [IsOrderedAddMonoid α]

/-- The times, newest first, are pairwise at least `d` apart. -/
def Spaced (d : α) (ts : List α) : Prop := ts.Pairwise fun t₂ t₁ => d ≤ t₂ - t₁

/-- Nothing has gone through yet, or what went through last did so at least `d` ago. -/
def Due (d : α) (last : Option α) (now : α) : Prop := ∀ t ∈ last, d ≤ now - t

/-- Being `d` after the newest is being `d` after all of them. -/
theorem Spaced.cons {d now : α} {ts : List α} (hd : 0 ≤ d) (h : Spaced d ts)
    (hnow : Due d ts.head? now) : Spaced d (now :: ts) := by
  refine List.Pairwise.cons ?_ h
  intro t ht
  cases ts with
  | nil => simp at ht
  | cons u ts =>
    have hu : d ≤ now - u := hnow u rfl
    rcases List.mem_cons.mp ht with rfl | ht
    · exact hu
    · have hut : d ≤ u - t := (List.pairwise_cons.mp h).1 t ht
      calc d ≤ now - u := hu
        _ ≤ now - u + (u - t) := le_add_of_nonneg_right (hd.trans hut)
        _ = now - t := by abel

/-- A limiter that has let through the times `ts` and remembers `last`. -/
structure Limited (d : α) (ts : List α) (last : Option α) : Prop where
  remembers : last = ts.head?
  spaced : Spaced d ts

omit [IsOrderedAddMonoid α] in
theorem Limited.start (d : α) : Limited d [] none := ⟨rfl, .nil⟩

theorem Limited.pass {d now : α} {ts : List α} {last : Option α} (hd : 0 ≤ d)
    (h : Limited d ts last) (hdue : Due d last now) : Limited d (now :: ts) (some now) :=
  ⟨rfl, h.spaced.cons hd (h.remembers ▸ hdue)⟩

end Pacing
