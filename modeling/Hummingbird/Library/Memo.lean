/-
  A value that is made anew only when the signature of its input changes.

  `refresh` makes the value from the input if the signature is a new one, and tends it in any case.
  After inputs `xs` the value is the one made from an input `y` of them: those after `y` have its
  signature and the one before has not (`Origin`). So whatever the signature decides is up to date
  (`refreshed`), and the rest is as old as `y`. `forall₂_of_map_eq` says what a signature decides
  that is a list.
-/
import Mathlib.Data.List.Forall2
import Mathlib.Data.List.Induction

/-- A value with the signature it was made for. -/
structure Memo (K V : Type*) where
  key : Option K
  value : V

namespace Memo

variable {X K V W : Type*} [DecidableEq K]

def refresh (sig : X → K) (make : X → V) (tend : X → V → V) (m : Memo K V) (x : X) : Memo K V :=
  ⟨some (sig x), tend x (if m.key = some (sig x) then m.value else make x)⟩

/-- Of the inputs `xs`, oldest first, `y` is the one from which the value is made. -/
def Origin (sig : X → K) (xs : List X) (y : X) : Prop :=
  ∃ a b, xs = a ++ y :: b ∧ (∀ z ∈ b, sig z = sig y) ∧ ∀ z ∈ a.getLast?, sig z ≠ sig y

omit [DecidableEq K] in
theorem Origin.mem {sig : X → K} {xs : List X} {y : X} (h : Origin sig xs y) : y ∈ xs := by
  obtain ⟨a, b, rfl, -⟩ := h
  exact List.mem_append_right a List.mem_cons_self

omit [DecidableEq K] in
/-- The newest input has the signature. -/
theorem Origin.sig_last {sig : X → K} {xs : List X} {x y : X} (h : Origin sig (xs ++ [x]) y) :
    sig x = sig y := by
  obtain ⟨a, b, heq, hb, -⟩ := h
  have hlast := congrArg List.getLast? heq
  rw [List.getLast?_concat] at hlast
  cases b using List.reverseRecOn with
  | nil =>
    rw [List.getLast?_concat] at hlast
    rw [Option.some.inj hlast]
  | append_singleton b z =>
    rw [← List.cons_append, ← List.append_assoc, List.getLast?_concat] at hlast
    rw [Option.some.inj hlast]
    exact hb z (List.mem_append_right b List.mem_cons_self)

/-- What tending the value leaves alone is as it was made. -/
theorem refreshed (sig : X → K) (make : X → V) {tend : X → V → V} {view : V → W}
    (hview : ∀ x v, view (tend x v) = view v) (v : V) (xs : List X) (x : X) :
    ∃ y, Origin sig (xs ++ [x]) y ∧
      ((xs ++ [x]).foldl (refresh sig make tend) ⟨none, v⟩).key = some (sig x) ∧
      view ((xs ++ [x]).foldl (refresh sig make tend) ⟨none, v⟩).value = view (make y) := by
  induction xs using List.reverseRecOn generalizing x with
  | nil =>
    refine ⟨x, ⟨[], [], rfl, nofun, nofun⟩, rfl, ?_⟩
    exact hview x _
  | append_singleton xs z ih =>
    obtain ⟨y, horigin, hkey, hvalue⟩ := ih z
    have hlast := horigin.sig_last
    obtain ⟨a, b, heq, hb, ha⟩ := horigin
    rw [List.foldl_append, List.foldl_cons, List.foldl_nil]
    by_cases hsig : sig z = sig x
    · refine ⟨y, ⟨a, b ++ [x], ?_, ?_, ha⟩, rfl, ?_⟩
      · rw [heq, List.append_assoc, List.cons_append]
      · intro z' hz'
        rcases List.mem_append.mp hz' with hz' | hz'
        · exact hb z' hz'
        · rw [List.mem_singleton.mp hz', ← hsig]
          exact hlast
      · refine (hview x _).trans ?_
        rw [hkey, hsig, if_pos rfl]
        exact hvalue
    · refine ⟨x, ⟨xs ++ [z], [], rfl, nofun, ?_⟩, rfl, ?_⟩
      · intro z' hz'
        rw [List.getLast?_concat] at hz'
        rw [← Option.some.inj hz']
        exact hsig
      · refine (hview x _).trans ?_
        rw [hkey, if_neg fun h => hsig (Option.some.inj h)]

/-- A signature that is read off entry by entry: lists that share it are related where entries that
    share theirs are. -/
theorem forall₂_of_map_eq {A B : Type*} {f : A → B} {R : A → A → Prop}
    (hR : ∀ a b, f a = f b → R a b) {l l' : List A} (h : l.map f = l'.map f) :
    List.Forall₂ R l l' := by
  have hsame : List.Forall₂ (fun a b => f a = f b) l l' := by
    have heq := List.forall₂_eq_eq_eq ▸ h
    rwa [List.forall₂_map_left_iff, List.forall₂_map_right_iff] at heq
  exact hsame.imp hR

end Memo
