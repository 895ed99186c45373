/-
  A mailbox with one slot.

  A producer puts values into the slot, overwriting what is there; a consumer takes what it
  finds and leaves the slot empty. The operations are a list, newest first. What has been taken,
  and what is still in the slot, is a subsequence of what was put
  (`slot_append_taken_sublist_puts`), so nothing is taken twice or out of order; what is in the
  slot is the value put last, since the last take (`slot_eq_some`).

  What a consumer makes of the values is a list that is related to them entry by entry; the last
  section says what of the values carries over to it.
-/
import Mathlib.Data.List.Basic
import Mathlib.Data.List.Forall2

namespace Mailbox

variable {α : Type*}

inductive Op (α : Type*)
  | put (a : α)
  | take
  | idle

/-- The value put, if the operation is a put. -/
def Op.value : Op α → Option α
  | put a => some a
  | _ => none

/-- What is in the slot after the operations. -/
def slot : List (Op α) → Option α
  | [] => none
  | .put a :: _ => some a
  | .take :: _ => none
  | .idle :: ops => slot ops

/-- The values put, newest first. -/
def puts (ops : List (Op α)) : List α := ops.filterMap Op.value

/-- The values taken, newest first. -/
def taken : List (Op α) → List α
  | [] => []
  | .put _ :: ops => taken ops
  | .take :: ops => (slot ops).toList ++ taken ops
  | .idle :: ops => taken ops

@[simp] theorem puts_put (a : α) (ops : List (Op α)) : puts (.put a :: ops) = a :: puts ops := rfl
@[simp] theorem puts_take (ops : List (Op α)) : puts (.take :: ops) = puts ops := rfl
@[simp] theorem puts_idle (ops : List (Op α)) : puts (.idle :: ops) = puts ops := rfl

/-- What is in the slot and what was taken is a subsequence of what was put. -/
theorem slot_append_taken_sublist_puts (ops : List (Op α)) :
    ((slot ops).toList ++ taken ops).Sublist (puts ops) := by
  induction ops with
  | nil => exact .slnil
  | cons op ops ih =>
    cases op with
    | put a => exact ((List.sublist_append_right _ _).trans ih).cons_cons a
    | take => exact ih
    | idle => exact ih

theorem taken_sublist_puts (ops : List (Op α)) : (taken ops).Sublist (puts ops) :=
  (List.sublist_append_right _ _).trans (slot_append_taken_sublist_puts ops)

/-- What is in the slot was put last, and nothing was taken since. -/
theorem slot_eq_some {ops : List (Op α)} {a : α} (h : slot ops = some a) :
    ∃ l rest, ops = l ++ .put a :: rest ∧ ∀ op ∈ l, op = .idle := by
  induction ops with
  | nil => cases h
  | cons op ops ih =>
    cases op with
    | put b =>
      obtain rfl := Option.some.inj h
      exact ⟨[], ops, rfl, fun _ hop => absurd hop List.not_mem_nil⟩
    | take => cases h
    | idle =>
      obtain ⟨l, rest, rfl, hl⟩ := ih h
      refine ⟨.idle :: l, rest, rfl, ?_⟩
      intro op hop
      rcases List.mem_cons.mp hop with rfl | hop
      · rfl
      · exact hl op hop

/-! ## What is made of the values -/

section Made

variable {β : Type*} {R : β → α → Prop} {l : List β} {m : List α}

theorem exists_of_forall₂ (hall : List.Forall₂ R l m) {b : β} (hb : b ∈ l) : ∃ a ∈ m, R b a := by
  induction hall with
  | nil => cases hb
  | @cons b' a' l m hab _ ih =>
    rcases List.mem_cons.mp hb with rfl | hb
    · exact ⟨a', List.mem_cons_self, hab⟩
    · obtain ⟨a, ha, hR⟩ := ih hb
      exact ⟨a, List.mem_cons_of_mem _ ha, hR⟩

/-- What holds of any two values, the earlier one in the list first, holds of what is made of
    them. -/
theorem pairwise_of_forall₂ {S : α → α → Prop} {T : β → β → Prop} (hall : List.Forall₂ R l m)
    (hm : m.Pairwise S)
    (hst : ∀ b₂ a₂ b₁ a₁, R b₂ a₂ → R b₁ a₁ → a₂ ∈ m → a₁ ∈ m → S a₂ a₁ → T b₂ b₁) :
    l.Pairwise T := by
  induction hall with
  | nil => exact .nil
  | @cons b a l m hab hall ih =>
    obtain ⟨ha, hm⟩ := List.pairwise_cons.mp hm
    refine .cons ?_ (ih hm ?_)
    · intro b' hb'
      obtain ⟨a', ha', hab'⟩ := exists_of_forall₂ hall hb'
      exact hst b a b' a' hab hab' List.mem_cons_self (List.mem_cons_of_mem _ ha') (ha a' ha')
    · intro b₂ a₂ b₁ a₁ h₂ h₁ ha₂ ha₁
      exact hst b₂ a₂ b₁ a₁ h₂ h₁ (List.mem_cons_of_mem _ ha₂) (List.mem_cons_of_mem _ ha₁)

end Made

end Mailbox
