/-
  Past-time operators on finite histories.

  A history is a list with the newest entry first, so a position of it is one of its
  nonempty suffixes and a property of a position is a predicate on lists: it sees the entry
  at that position and everything before it.

  * `Always P h`: `P` holds at every position of `h`.
  * `Newest p h`, `At P h`: the newest entry of `h` (with what came before it) satisfies `p`.
  * `Since P Q h`: `Q` held at some position of `h` and `P` has held at every later one.
  * `lastWhere p h`: the history as it stood at the newest entry that satisfies `p`.
  * `latest f h`: the newest value that `f` reads off an entry.

  `since_iff_append` and `always_iff_append` give the explicit decompositions `h = a ++ b`,
  `since_at_iff` and `since_newest_iff` those at the entry where `Q` held.
-/
import Mathlib.Data.List.Basic
import Mathlib.Data.List.Infix

namespace Past

variable {α β : Type*}

/-! ## Always -/

/-- `P` holds at every position of the history. -/
def Always (P : List α → Prop) : List α → Prop
  | [] => True
  | k :: h => P (k :: h) ∧ Always P h

@[simp] theorem always_nil (P : List α → Prop) : Always P [] := trivial

@[simp] theorem always_cons (P : List α → Prop) (k : α) (h : List α) :
    Always P (k :: h) ↔ P (k :: h) ∧ Always P h := Iff.rfl

theorem Always.of_append {P : List α → Prop} {a b : List α} (h : Always P (a ++ b)) :
    Always P b := by
  induction a with
  | nil => exact h
  | cons k a ih => exact ih h.2

theorem always_iff_append {P : List α → Prop} {h : List α} :
    Always P h ↔ ∀ a k b, h = a ++ k :: b → P (k :: b) := by
  constructor
  · rintro hp a k b rfl
    exact hp.of_append.1
  · intro hp
    induction h with
    | nil => trivial
    | cons k h ih =>
      refine ⟨hp [] k h rfl, ih fun a k' b he => hp (k :: a) k' b ?_⟩
      rw [he, List.cons_append]

/-- Two properties that agree at every position of a history hold throughout it together. -/
theorem always_congr {P Q R : List α → Prop} {h : List α} (hr : Always R h)
    (hpq : ∀ k g, R (k :: g) → (P (k :: g) ↔ Q (k :: g))) : Always P h ↔ Always Q h := by
  induction h with
  | nil => exact Iff.rfl
  | cons k h ih => exact and_congr (hpq k h hr.1) (ih hr.2)

/-! ## The newest entry -/

/-- The newest entry of the history and the history before it satisfy `P`. -/
def At (P : α → List α → Prop) : List α → Prop
  | [] => False
  | k :: h => P k h

@[simp] theorem at_cons (P : α → List α → Prop) (k : α) (h : List α) : At P (k :: h) ↔ P k h :=
  Iff.rfl

/-- Entries of which `P` holds whatever came before them. -/
theorem always_at_append {P : α → List α → Prop} {a b : List α} (ha : ∀ k ∈ a, ∀ h, P k h)
    (hb : Always (At P) b) : Always (At P) (a ++ b) := by
  induction a with
  | nil => exact hb
  | cons k a ih =>
    exact ⟨ha k List.mem_cons_self _, ih fun k' hk' => ha k' (List.mem_cons_of_mem _ hk')⟩

/-- The newest entry of the history satisfies `p`. -/
def Newest (p : α → Prop) : List α → Prop
  | [] => False
  | k :: _ => p k

@[simp] theorem newest_nil (p : α → Prop) : ¬ Newest p [] := id

@[simp] theorem newest_cons (p : α → Prop) (k : α) (h : List α) : Newest p (k :: h) ↔ p k :=
  Iff.rfl

/-! ## Since -/

/-- `Q` held at some position and `P` has held at every later position. -/
inductive Since (P Q : List α → Prop) : List α → Prop
  | here {h : List α} (hq : Q h) : Since P Q h
  | later {k : α} {h : List α} (hp : P (k :: h)) (hs : Since P Q h) : Since P Q (k :: h)

theorem since_cons {P Q : List α → Prop} {k : α} {h : List α} :
    Since P Q (k :: h) ↔ Q (k :: h) ∨ P (k :: h) ∧ Since P Q h := by
  constructor
  · intro hs
    cases hs with
    | here hq => exact Or.inl hq
    | later hp hs => exact Or.inr ⟨hp, hs⟩
  · rintro (hq | ⟨hp, hs⟩)
    · exact .here hq
    · exact .later hp hs

theorem since_iff_append {P Q : List α → Prop} {h : List α} :
    Since P Q h ↔ ∃ a b, h = a ++ b ∧ Q b ∧ ∀ a₁ k a₂, a = a₁ ++ k :: a₂ → P (k :: a₂ ++ b) := by
  constructor
  · intro hs
    induction hs with
    | @here h hq => exact ⟨[], h, rfl, hq, fun a₁ k a₂ he => by simp at he⟩
    | @later k h hp _ ih =>
      obtain ⟨a, b, rfl, hq, ha⟩ := ih
      refine ⟨k :: a, b, rfl, hq, fun a₁ k' a₂ he => ?_⟩
      cases a₁ with
      | nil =>
        obtain ⟨rfl, rfl⟩ := List.cons.inj he
        exact hp
      | cons x a₁ => exact ha a₁ k' a₂ (List.cons.inj he).2
  · rintro ⟨a, b, rfl, hq, ha⟩
    induction a with
    | nil => exact .here hq
    | cons k a ih =>
      refine .later (ha [] k a rfl) (ih fun a₁ k' a₂ he => ha (k :: a₁) k' a₂ ?_)
      rw [he, List.cons_append]

/-- The decomposition at the entry where `Q` held. -/
theorem since_at_iff {P Q : α → List α → Prop} {h : List α} :
    Since (At P) (At Q) h ↔ ∃ a k b, h = a ++ k :: b ∧ Q k b ∧
      ∀ a₁ k' a₂, a = a₁ ++ k' :: a₂ → P k' (a₂ ++ k :: b) := by
  rw [since_iff_append]
  constructor
  · rintro ⟨a, b, rfl, hq, ha⟩
    cases b with
    | nil => exact absurd hq id
    | cons k b => exact ⟨a, k, b, rfl, hq, ha⟩
  · rintro ⟨a, k, b, rfl, hq, ha⟩
    exact ⟨a, k :: b, rfl, hq, ha⟩

theorem since_newest_iff {p q : α → Prop} {h : List α} :
    Since (Newest p) (Newest q) h ↔ ∃ a k b, h = a ++ k :: b ∧ q k ∧ ∀ k' ∈ a, p k' := by
  rw [since_iff_append]
  constructor
  · rintro ⟨a, b, rfl, hq, ha⟩
    cases b with
    | nil => exact absurd hq id
    | cons k b =>
      refine ⟨a, k, b, rfl, hq, fun k' hk' => ?_⟩
      obtain ⟨a₁, a₂, rfl⟩ := List.append_of_mem hk'
      exact ha a₁ k' a₂ rfl
  · rintro ⟨a, k, b, rfl, hq, ha⟩
    refine ⟨a, k :: b, rfl, hq, fun a₁ k' a₂ he => ?_⟩
    exact ha k' (by simp [he])

/-! ## The newest entry of a kind -/

/-- The history as it stood at its newest entry that satisfies `p`; empty when none does. -/
def lastWhere (p : α → Bool) (h : List α) : List α :=
  h.dropWhile fun k => !p k

@[simp] theorem lastWhere_nil (p : α → Bool) : lastWhere p [] = [] := rfl

theorem lastWhere_cons_of_pos {p : α → Bool} {k : α} (hk : p k = true) (h : List α) :
    lastWhere p (k :: h) = k :: h := by
  simp [lastWhere, hk]

/-- The newest value that `f` reads off an entry of the history. -/
def latest (f : α → Option β) (h : List α) : Option β :=
  h.findSome? f

@[simp] theorem latest_nil (f : α → Option β) : latest f [] = none := rfl

theorem latest_cons_of_some {f : α → Option β} {k : α} {b : β} (hk : f k = some b)
    (h : List α) : latest f (k :: h) = some b := by
  simp [latest, hk]

theorem latest_cons_of_none {f : α → Option β} {k : α} (hk : f k = none) (h : List α) :
    latest f (k :: h) = latest f h := by
  simp [latest, hk]

end Past
