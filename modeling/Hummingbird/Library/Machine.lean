/-
  Deterministic machines that handle events under a clock.

  A `Machine` handles one event at a time. Handling an event reads the clock one or more
  times; `enter` is the first of these readings and `leave` the last. `Run M s₀ t₀ h s t`
  says that from `s₀`, with the clock at `t₀`, the machine has handled events whose readings
  never go back and has arrived at `s` with the clock at `t`. The history `h` records every
  step, newest first, with the state before and after it and what it put out.

  `Run.invariant` is the induction rule (a property of history, state and clock that the
  start has and every step keeps), `Run.always` turns a fact about the newest step of any
  run into a fact about every step of a run, `Run.since_entered` finds the step at which a run
  entered the part of the state space it is in, and `run_trace` builds the run of a given list
  of events. `prod` runs two machines on the same events.
-/
import Mathlib.Order.Basic
import Hummingbird.Library.Past

/-- A machine with states `σ`, events `ε`, outputs `ο` and clock readings `τ`. -/
structure Machine (σ ε ο τ : Type*) where
  step : σ → ε → σ × ο
  enter : ε → τ
  leave : ε → τ

namespace Machine

variable {σ σ' ε ο ο' τ : Type*}

/-- One handled event: the state before, the event, the output and the state after. -/
structure Step (σ ε ο : Type*) where
  pre : σ
  event : ε
  out : ο
  post : σ

/-- The step the machine makes on `e` in the state `s`. -/
def record (M : Machine σ ε ο τ) (s : σ) (e : ε) : Step σ ε ο :=
  ⟨s, e, (M.step s e).2, (M.step s e).1⟩

/-- The clock of a machine whose events nothing orders: all its readings are the same. -/
instance unordered : Preorder Unit where
  le _ _ := True
  lt _ _ := False
  le_refl _ := trivial
  le_trans _ _ _ _ _ := trivial
  lt_iff_le_not_ge _ _ := ⟨False.elim, fun h => h.2 trivial⟩

variable [Preorder τ]

/-- Runs from the state `s₀` and the clock reading `t₀`, with their histories. -/
inductive Run (M : Machine σ ε ο τ) (s₀ : σ) (t₀ : τ) : List (Step σ ε ο) → σ → τ → Prop
  | start : Run M s₀ t₀ [] s₀ t₀
  | handle {h : List (Step σ ε ο)} {s : σ} {t : τ} (e : ε) (hr : Run M s₀ t₀ h s t)
      (hin : t ≤ M.enter e) (hout : M.enter e ≤ M.leave e) :
      Run M s₀ t₀ (M.record s e :: h) (M.step s e).1 (M.leave e)

variable {M : Machine σ ε ο τ} {s₀ s : σ} {t₀ t : τ} {h : List (Step σ ε ο)}

/-- The newest step of a run is a step of the machine from a state the run reached. -/
theorem Run.newest {k : Step σ ε ο} (hr : Run M s₀ t₀ (k :: h) s t) :
    ∃ t', Run M s₀ t₀ h k.pre t' ∧ t' ≤ M.enter k.event ∧ M.enter k.event ≤ M.leave k.event ∧
      k.out = (M.step k.pre k.event).2 ∧ k.post = (M.step k.pre k.event).1 ∧
      s = k.post ∧ t = M.leave k.event := by
  cases hr with
  | handle e hr hin hout => exact ⟨_, hr, hin, hout, rfl, rfl, rfl, rfl⟩

/-- The part of a history up to some earlier position is the history of a run too. -/
theorem Run.of_append {a b : List (Step σ ε ο)} (hr : Run M s₀ t₀ (a ++ b) s t) :
    ∃ s' t', Run M s₀ t₀ b s' t' ∧ t' ≤ t := by
  induction a generalizing s t with
  | nil => exact ⟨s, t, hr, le_rfl⟩
  | cons k a ih =>
    obtain ⟨t', hr', hin, hout, -, -, -, rfl⟩ := hr.newest
    obtain ⟨s'', t'', hr'', hle⟩ := ih hr'
    exact ⟨s'', t'', hr'', hle.trans (hin.trans hout)⟩

/-- Every handled event was entered no earlier than the start and left no later than now. -/
theorem Run.event_times {k : Step σ ε ο} (hr : Run M s₀ t₀ h s t) (hk : k ∈ h) :
    t₀ ≤ M.enter k.event ∧ M.enter k.event ≤ M.leave k.event ∧ M.leave k.event ≤ t := by
  have start_le : ∀ {h s t}, Run M s₀ t₀ h s t → t₀ ≤ t := by
    intro h s t hr
    induction hr with
    | start => exact le_rfl
    | handle e _ hin hout ih => exact ih.trans (hin.trans hout)
  obtain ⟨a, b, rfl⟩ := List.append_of_mem hk
  obtain ⟨s', t', hr', hle⟩ := hr.of_append
  obtain ⟨t'', hr'', hin, hout, -, -, -, rfl⟩ := hr'.newest
  exact ⟨(start_le hr'').trans hin, hout, hle⟩

/-- Of two entries, the newer one was handled after the older one. -/
theorem Run.ordered (hr : Run M s₀ t₀ h s t) :
    h.Pairwise fun k₂ k₁ => M.leave k₁.event ≤ M.enter k₂.event := by
  induction hr with
  | start => exact .nil
  | handle e hr hin _ ih => exact ih.cons fun k hk => (hr.event_times hk).2.2.trans hin

/-- Of two entries, the newer one was entered no earlier than the older one. -/
theorem Run.enter_ordered (hr : Run M s₀ t₀ h s t) :
    h.Pairwise fun k₂ k₁ => M.enter k₁.event ≤ M.enter k₂.event :=
  hr.ordered.imp_of_mem fun _ hk₁ hle => (hr.event_times hk₁).2.1.trans hle

/-- Induction over a run, for a property of its history, state and clock. -/
theorem Run.invariant {P : List (Step σ ε ο) → σ → τ → Prop} (hr : Run M s₀ t₀ h s t)
    (hstart : P [] s₀ t₀)
    (hstep : ∀ {h s t} (e : ε), Run M s₀ t₀ h s t → P h s t → t ≤ M.enter e →
      M.enter e ≤ M.leave e → P (M.record s e :: h) (M.step s e).1 (M.leave e)) : P h s t := by
  induction hr with
  | start => exact hstart
  | handle e hr hin hout ih => exact hstep e hr ih hin hout

/-- What holds of the newest step of every run holds of every step of a run. -/
theorem Run.always {P : List (Step σ ε ο) → Prop} (hr : Run M s₀ t₀ h s t)
    (hnew : ∀ {k h s t}, Run M s₀ t₀ (k :: h) s t → P (k :: h)) : Past.Always P h := by
  induction hr with
  | start => trivial
  | handle e hr hin hout ih => exact ⟨hnew (hr.handle e hin hout), ih⟩

/-- A run that has arrived in `A`, and did not start there, has entered `A` at some step and
    has not left it since. -/
theorem Run.since_entered {A : σ → Prop} (hr : Run M s₀ t₀ h s t) (h0 : ¬ A s₀) (ha : A s) :
    Past.Since (Past.Newest fun k => A k.pre ∧ A k.post)
      (Past.Newest fun k => ¬ A k.pre ∧ A k.post) h := by
  induction hr with
  | start => exact absurd ha h0
  | @handle h s t e hr _ _ ih =>
    by_cases hs : A s
    · exact .later ⟨hs, ha⟩ (ih hs)
    · exact .here ⟨hs, ha⟩

/-! ## The run of a list of events -/

/-- The events, oldest first, have readings that never go back, from `t` on. -/
def Timed (M : Machine σ ε ο τ) : τ → List ε → Prop
  | _, [] => True
  | t, e :: es => t ≤ M.enter e ∧ M.enter e ≤ M.leave e ∧ Timed M (M.leave e) es

instance decidableTimed [DecidableLE τ] (M : Machine σ ε ο τ) :
    ∀ (t : τ) (es : List ε), Decidable (M.Timed t es)
  | _, [] => instDecidableTrue
  | t, e :: es =>
    have := decidableTimed M (M.leave e) es
    inferInstanceAs (Decidable (t ≤ M.enter e ∧ M.enter e ≤ M.leave e ∧ M.Timed (M.leave e) es))

/-- The history of handling `es`, oldest first, from the state `s` on top of `h`. -/
def trace (M : Machine σ ε ο τ) : σ → List ε → List (Step σ ε ο) → List (Step σ ε ο)
  | _, [], h => h
  | s, e :: es, h => trace M (M.step s e).1 es (M.record s e :: h)

/-- The state after handling `es`, oldest first. -/
def final (M : Machine σ ε ο τ) : σ → List ε → σ
  | s, [] => s
  | s, e :: es => final M (M.step s e).1 es

omit [Preorder τ] in
/-- Every step of a trace is from a state with the invariant of the machine. -/
theorem mem_trace {I : σ → Prop} (hstep : ∀ s e, I s → I (M.step s e).1) (hs : I s)
    {es : List ε} {k : Step σ ε ο} (hk : k ∈ M.trace s es h) :
    I k.pre ∧ k.out = (M.step k.pre k.event).2 ∨ k ∈ h := by
  induction es generalizing s h with
  | nil => exact Or.inr hk
  | cons e es ih =>
    rcases ih (hstep s e hs) hk with hnew | hk
    · exact Or.inl hnew
    · rcases List.mem_cons.mp hk with rfl | hk
      · exact Or.inl ⟨hs, rfl⟩
      · exact Or.inr hk

omit [Preorder τ] in
theorem trace_append (M : Machine σ ε ο τ) (s : σ) (es : List ε) (h : List (Step σ ε ο)) :
    M.trace s es h = M.trace s es [] ++ h := by
  induction es generalizing s h with
  | nil => rfl
  | cons e es ih =>
    show M.trace _ es (M.record s e :: h) = M.trace _ es [M.record s e] ++ h
    rw [ih, ih _ [M.record s e], List.append_assoc]
    rfl

omit [Preorder τ] in
/-- What a machine puts out on events, oldest first, begins with the output on the first one. -/
theorem outputs_cons (M : Machine σ ε (Option ο) τ) (s : σ) (e : ε) (es : List ε) :
    (M.trace s (e :: es) []).reverse.filterMap Step.out =
      (M.step s e).2.toList ++ (M.trace (M.step s e).1 es []).reverse.filterMap Step.out := by
  show (M.trace _ es [M.record s e]).reverse.filterMap Step.out = _
  rw [trace_append, List.reverse_append, List.filterMap_append]
  congr 1

theorem Run.extend (es : List ε) (hr : Run M s₀ t₀ h s t) (ht : M.Timed t es) :
    ∃ t', Run M s₀ t₀ (M.trace s es h) (M.final s es) t' := by
  induction es generalizing h s t with
  | nil => exact ⟨t, hr⟩
  | cons e es ih => exact ih (hr.handle e ht.1 ht.2.1) ht.2.2

/-- Every well-timed list of events has its run. -/
theorem run_final (s₀ : σ) (t₀ : τ) (es : List ε) (ht : M.Timed t₀ es) :
    ∃ t, Run M s₀ t₀ (M.trace s₀ es []) (M.final s₀ es) t :=
  Run.start.extend es ht

theorem run_trace (s₀ : σ) (t₀ : τ) (es : List ε) (ht : M.Timed t₀ es) :
    ∃ s t, Run M s₀ t₀ (M.trace s₀ es []) s t :=
  ⟨M.final s₀ es, run_final s₀ t₀ es ht⟩

/-! ## Two machines on the same events -/

/-- The machine that hands every event to `M` and to `N`; the clock is that of `M`. -/
def prod (M : Machine σ ε ο τ) (N : Machine σ' ε ο' τ) : Machine (σ × σ') ε (ο × ο') τ where
  step s e := (((M.step s.1 e).1, (N.step s.2 e).1), ((M.step s.1 e).2, (N.step s.2 e).2))
  enter := M.enter
  leave := M.leave

end Machine
