/-
  Programs that issue commands to an environment which may answer anything.

  A `Dialogue C R α` ends with a result or issues a command `c : C` and goes on with the answer
  `r : R c`. Its history is the list of the exchanges so far, newest first. `run` is the run in an
  environment whose answers may depend on everything that was said.
  `Ensures guard post p h`: whatever the answers are, `p` issues a command only where `guard`
  allows it, and ends where `post` holds. It is a weakest precondition: `ensures_bind` composes it,
  `Ensures.conseq` carries an invariant along, `Ensures.sound` reads it off a run.
  For programs that may fail, `Ends post fail` has one postcondition for each of their ends, with
  the rules `ends_bind`, `ends_retry` and `ends_each_count`. `Attempts` asks nothing where the
  program fails; `attempts_retry`, `attempts_each_count` and `attempts_each` are its loop rules.
  `Says q` means that all commands of a program are of the kind `q`; `says_bind` composes it.
-/
import Mathlib.Data.Fin.Tuple.Basic
import Hummingbird.Library.Past

/-- A program with commands `C`, their answers `R` and a result. -/
inductive Dialogue (C : Type*) (R : C → Type*) (α : Type*)
  | done (a : α)
  | call (c : C) (next : R c → Dialogue C R α)

namespace Dialogue

open Past

universe u v w

variable {C : Type u} {R : C → Type v} {α β : Type w}

/-- A command and its answer. -/
structure Exchange (R : C → Type v) where
  command : C
  response : R command

/-- What was said, newest first. -/
abbrev History (R : C → Type v) := List (Exchange R)

/-- The first program, then the one that its result selects. -/
protected def bind : Dialogue C R α → (α → Dialogue C R β) → Dialogue C R β
  | done a, f => f a
  | call c next, f => call c fun r => (next r).bind f

instance : Monad (Dialogue C R) where
  pure := done
  bind := Dialogue.bind

/-- One command. -/
def ask (c : C) : Dialogue C R (R c) := call c done

/-- The run in an environment with these answers. -/
def run (answer : History R → ∀ c, R c) : Dialogue C R α → History R → History R × α
  | done a, h => (h, a)
  | call c next, h => run answer (next (answer h c)) (⟨c, answer h c⟩ :: h)

theorem run_bind (answer : History R → ∀ c, R c) (p : Dialogue C R α) (f : α → Dialogue C R β)
    (h : History R) :
    (p >>= f).run answer h = (f (p.run answer h).2).run answer (p.run answer h).1 := by
  induction p generalizing h with
  | done a => rfl
  | call c next ih => exact ih (answer h c) (⟨c, answer h c⟩ :: h)

/-! ## What a program ensures -/

/-- Every command is issued where `guard` allows it, and `post` holds at the end. -/
def Ensures (guard : History R → C → Prop) (post : History R → α → Prop) :
    Dialogue C R α → History R → Prop
  | done a, h => post h a
  | call c next, h => guard h c ∧ ∀ r, Ensures guard post (next r) (⟨c, r⟩ :: h)

/-- Every command of the history was issued where `guard` allows it. -/
def Issued (guard : History R → C → Prop) : History R → Prop :=
  Always (At fun e before => guard before e.command)

section Rules

variable {guard own : History R → C → Prop} {post post' : History R → α → Prop}
  {p : Dialogue C R α} {h : History R}

theorem ensures_bind {f : α → Dialogue C R β} {post : History R → β → Prop} :
    (p >>= f).Ensures guard post h ↔
      p.Ensures guard (fun h' a => (f a).Ensures guard post h') h := by
  induction p generalizing h with
  | done a => exact Iff.rfl
  | call c next ih => exact and_congr_right fun _ => forall_congr' fun r => ih r

theorem ensures_ask {c : C} {post : History R → R c → Prop} :
    (ask c).Ensures guard post h ↔ guard h c ∧ ∀ r, post (⟨c, r⟩ :: h) r := Iff.rfl

theorem ensures_ask_bind {R : C → Type w} {guard : History R → C → Prop}
    {post : History R → β → Prop} {h : History R} {c : C} {f : R c → Dialogue C R β} :
    (ask c >>= f).Ensures guard post h ↔
      guard h c ∧ ∀ r, (f r).Ensures guard post (⟨c, r⟩ :: h) := Iff.rfl

/-- An invariant `F` of the commands that are issued, which may be needed for the guard. -/
theorem Ensures.conseq {F : History R → Prop} (hp : p.Ensures own post h) (hF : F h)
    (hkeep : ∀ h c r, F h → own h c → F (⟨c, r⟩ :: h))
    (hguard : ∀ h c, F h → own h c → guard h c) (hpost : ∀ h a, F h → post h a → post' h a) :
    p.Ensures guard post' h := by
  induction p generalizing h with
  | done a => exact hpost h a hF hp
  | call c next ih =>
    refine ⟨hguard h c hF hp.1, fun r => ?_⟩
    exact ih r (hp.2 r) (hkeep h c r hF hp.1)

theorem Ensures.mono (hp : p.Ensures guard post h) (hpost : ∀ h a, post h a → post' h a) :
    p.Ensures guard post' h :=
  hp.conseq (F := fun _ => True) trivial (fun _ _ _ _ _ => trivial) (fun _ _ _ hg => hg)
    fun h a _ ha => hpost h a ha

theorem ensures_true (p : Dialogue C R α) (h : History R) :
    p.Ensures (fun _ _ => True) (fun _ _ => True) h := by
  induction p generalizing h with
  | done a => trivial
  | call c next ih => exact ⟨trivial, fun r => ih r (⟨c, r⟩ :: h)⟩

/-- What is ensured in two ways. -/
theorem Ensures.and {guard' : History R → C → Prop} (hp : p.Ensures guard post h)
    (hp' : p.Ensures guard' post' h) :
    p.Ensures (fun h c => guard h c ∧ guard' h c) (fun h a => post h a ∧ post' h a) h := by
  induction p generalizing h with
  | done a => exact ⟨hp, hp'⟩
  | call c next ih => exact ⟨⟨hp.1, hp'.1⟩, fun r => ih r (hp.2 r) (hp'.2 r)⟩

/-- What a program says is added to the history, and is of the kind `q` that it issues. -/
theorem Ensures.said {q : C → Prop} {P : History R → α → Prop}
    (hp : p.Ensures (fun _ c => q c) P h)
    (hpost : ∀ said a, (∀ e ∈ said, q e.command) → P (said ++ h) a → post (said ++ h) a) :
    p.Ensures (fun _ _ => True) post h := by
  refine hp.conseq (F := fun h' => ∃ said, h' = said ++ h ∧ ∀ e ∈ said, q e.command)
    ⟨[], rfl, by simp⟩ ?_ (fun _ _ _ _ => trivial) ?_
  · rintro h' c r ⟨said, rfl, hsaid⟩ hc
    refine ⟨⟨c, r⟩ :: said, rfl, ?_⟩
    intro e he
    rcases List.mem_cons.mp he with rfl | he
    · exact hc
    · exact hsaid e he
  · rintro h' a ⟨said, rfl, hsaid⟩ ha
    exact hpost said a hsaid ha

/-- What is ensured holds of every run. -/
theorem Ensures.sound (hp : p.Ensures guard post h) (answer : History R → ∀ c, R c)
    (hissued : Issued guard h) :
    Issued guard (p.run answer h).1 ∧ post (p.run answer h).1 (p.run answer h).2 := by
  induction p generalizing h with
  | done a => exact ⟨hissued, hp⟩
  | call c next ih => exact ih (answer h c) (hp.2 (answer h c)) ⟨hp.1, hissued⟩

end Rules

/-! ## Programs that may fail -/

/-- `post` holds of the result of a program that may fail, or `fail` holds where it has none. -/
def Ends (post : History R → α → Prop) (fail : History R → Prop) (h : History R) :
    Option α → Prop
  | some a => post h a
  | none => fail h

/-- `Ensures` for a program that may fail: `post` is only asked if it does not. -/
def Attempts (guard : History R → C → Prop) (post : History R → α → Prop)
    (p : OptionT (Dialogue C R) α) (h : History R) : Prop :=
  p.run.Ensures guard (fun h' r => ∀ a ∈ r, post h' a) h

/-- At most `n` attempts, until one of them succeeds. -/
def retry (attempt : Dialogue C R (Option α)) : ℕ → OptionT (Dialogue C R) α
  | 0 => failure
  | n + 1 => OptionT.mk (attempt >>= fun r =>
    match r with
    | some a => pure (some a)
    | none => (retry attempt n).run)

/-- All of the programs, in order, until one of them fails. -/
def each : {n : ℕ} → (Fin n → OptionT (Dialogue C R) α) → OptionT (Dialogue C R) (Fin n → α)
  | 0, _ => pure Fin.elim0
  | _ + 1, f => do
    let a ← f 0
    let v ← each fun i => f i.succ
    pure (Fin.cons a v)

section Attempts

variable {guard own : History R → C → Prop} {post post' : History R → α → Prop}
  {p : OptionT (Dialogue C R) α} {h : History R}

theorem attempts_pure {a : α} : Attempts guard post (pure a) h ↔ post h a := by
  show (∀ b ∈ some a, post h b) ↔ _
  simp

theorem attempts_failure : Attempts guard post failure h := fun _ ha => nomatch ha

theorem attempts_bind {f : α → OptionT (Dialogue C R) β} {post : History R → β → Prop}
    (hp : Attempts guard (fun h' a => Attempts guard post (f a) h') p h) :
    Attempts guard post (p >>= f) h := by
  refine ensures_bind.mpr (Ensures.mono hp ?_)
  intro h' r hr
  cases r with
  | none => exact attempts_failure
  | some a => exact hr a rfl

theorem attempts_lift {p : Dialogue C R α} :
    Attempts guard post (OptionT.lift p) h ↔ p.Ensures guard post h := by
  refine ensures_bind.trans (iff_of_eq ?_)
  congr 1
  funext h' a
  exact propext attempts_pure

theorem Attempts.conseq {F : History R → Prop} (hp : Attempts own post p h) (hF : F h)
    (hkeep : ∀ h c r, F h → own h c → F (⟨c, r⟩ :: h))
    (hguard : ∀ h c, F h → own h c → guard h c) (hpost : ∀ h a, F h → post h a → post' h a) :
    Attempts guard post' p h :=
  Ensures.conseq hp hF hkeep hguard fun h' _ hF' hr a ha => hpost h' a hF' (hr a ha)

theorem Attempts.mono (hp : Attempts guard post p h) (hpost : ∀ h a, post h a → post' h a) :
    Attempts guard post' p h :=
  Ensures.mono hp fun h' _ hr a ha => hpost h' a (hr a ha)

theorem attempts_iff_ends :
    Attempts guard post p h ↔ p.run.Ensures guard (Ends post fun _ => True) h := by
  refine iff_of_eq (congrArg (fun post => p.run.Ensures guard post h) ?_)
  funext h' r
  cases r <;> simp [Ends]

/-- An attempt is made from `start` and leaves `fail` if it fails; the next one starts there. -/
theorem ends_retry {attempt : Dialogue C R (Option α)} {start fail : History R → Prop}
    (hattempt : ∀ h, start h → attempt.Ensures guard (Ends post fail) h)
    (hagain : ∀ h, fail h → start h) (n : ℕ) (hstart : start h) :
    (retry attempt (n + 1)).run.Ensures guard (Ends post fail) h := by
  induction n generalizing h with
  | zero =>
    refine ensures_bind.mpr ((hattempt h hstart).mono ?_)
    intro h' r hr
    cases r with
    | none => exact hr
    | some a => exact hr
  | succ n ih =>
    refine ensures_bind.mpr ((hattempt h hstart).mono ?_)
    intro h' r hr
    cases r with
    | none => exact ih (hagain h' hr)
    | some a => exact hr

/-- Retrying ensures what one attempt ensures if it can be made anywhere. -/
theorem attempts_retry {attempt : Dialogue C R (Option α)}
    (hattempt : ∀ h, attempt.Ensures guard (fun h' r => ∀ a ∈ r, post h' a) h) (n : ℕ)
    (h : History R) : Attempts guard post (retry attempt n) h := by
  cases n with
  | zero => exact attempts_failure
  | succ n =>
    refine attempts_iff_ends.mpr (ends_retry (fun h _ => ?_)
      (fun _ _ => trivial) n trivial)
    exact (attempts_iff_ends (p := OptionT.mk attempt)).mp (hattempt h)

/-- What every command keeps stays. -/
theorem Attempts.keeping {F : History R → Prop} (hp : Attempts guard post p h) (hF : F h)
    (hkeep : ∀ h c r, F h → guard h c → F (⟨c, r⟩ :: h)) :
    Attempts guard (fun h' a => F h' ∧ post h' a) p h :=
  hp.conseq hF hkeep (fun _ _ _ hc => hc) fun _ _ hF ha => ⟨hF, ha⟩

/-- Two programs in turn; the commands of the second keep what the first has reached. -/
theorem attempts_seq {q : OptionT (Dialogue C R) β} {A B : History R → Prop}
    (hp : ∀ h, Attempts guard (fun h' _ => A h') p h)
    (hq : ∀ h, Attempts guard (fun h' _ => B h') q h)
    (hkeep : ∀ h c r, A h → guard h c → A (⟨c, r⟩ :: h)) (h : History R) :
    Attempts guard (fun h' _ => A h' ∧ B h') (p >>= fun _ => q) h :=
  attempts_bind ((hp h).mono fun h' _ hA => (hq h').keeping hA hkeep)

/-- One command that is repeated until its answer is good. -/
theorem attempts_retry_ask {R : C → Type w} {post : History R → α → Prop} {c : C}
    {value : R c → Option α}
    (hpost : ∀ h r a, value r = some a → post (⟨c, r⟩ :: h) a) (n : ℕ) (h : History R) :
    Attempts (fun _ c' => c' = c) post (retry (ask c >>= fun r => pure (value r)) n) h := by
  apply attempts_retry
  intro h
  exact ensures_bind.mpr (ensures_ask.mpr ⟨rfl, fun r a ha => hpost h r a ha⟩)

theorem ends_bind {f : α → OptionT (Dialogue C R) β} {post : History R → β → Prop}
    {fail : History R → Prop}
    (hp : p.run.Ensures guard
      (Ends (fun h' a => (f a).run.Ensures guard (Ends post fail) h') fail) h) :
    (p >>= f).run.Ensures guard (Ends post fail) h := by
  refine ensures_bind.mpr (Ensures.mono hp ?_)
  intro h' r hr
  cases r with
  | none => exact hr
  | some a => exact hr

theorem ends_lift {p : Dialogue C R α} {fail : History R → Prop} :
    (OptionT.lift p : OptionT (Dialogue C R) α).run.Ensures guard (Ends post fail) h ↔
      p.Ensures guard post h :=
  ensures_bind

/-- A loop with an invariant `J` that counts its steps, and `fail` where a step fails. -/
theorem ends_each_count {n : ℕ} {f : Fin n → OptionT (Dialogue C R) α}
    {J : ℕ → History R → Prop} {fail : History R → Prop}
    (hstep : ∀ (i : Fin n) h, J i h →
      (f i).run.Ensures guard (Ends (fun h' _ => J (i + 1) h') fail) h)
    (hJ : J 0 h) : (each f).run.Ensures guard (Ends (fun h' _ => J n h') fail) h := by
  induction n generalizing h J with
  | zero => exact hJ
  | succ n ih =>
    refine ends_bind ((hstep 0 h hJ).mono fun h' r hr => ?_)
    cases r with
    | none => exact hr
    | some a =>
      have hrest := ih (f := fun i => f i.succ) (J := fun k => J (k + 1))
        (fun i => hstep i.succ) hr
      refine ends_bind (hrest.mono fun h'' r hr => ?_)
      cases r with
      | none => exact hr
      | some v => exact hr

/-- A loop of exchanges that never fails. -/
theorem ensures_each_lift {n : ℕ} {f : Fin n → Dialogue C R α} {said : Fin n → α → Exchange R}
    (hf : ∀ i h, (f i).Ensures guard (fun h' a => h' = said i a :: h) h) (h : History R) :
    (each fun i => OptionT.lift (f i)).run.Ensures guard
      (fun h' r => ∃ v, r = some v ∧ h' = (List.ofFn fun i => said i (v i)).reverse ++ h) h := by
  induction n generalizing h with
  | zero => exact ⟨Fin.elim0, rfl, rfl⟩
  | succ n ih =>
    refine ensures_bind.mpr (ensures_bind.mpr ((hf 0 h).mono ?_))
    rintro h' a rfl
    refine ensures_bind.mpr ((ih (fun i => hf i.succ) _).mono ?_)
    rintro h'' r ⟨v, rfl, rfl⟩
    refine ⟨Fin.cons a v, rfl, ?_⟩
    simp [List.ofFn_succ]

theorem attempts_each_count {n : ℕ} {f : Fin n → OptionT (Dialogue C R) α}
    {J : ℕ → History R → Prop}
    (hstep : ∀ (i : Fin n) h, J i h → Attempts guard (fun h' _ => J (i + 1) h') (f i) h)
    (hJ : J 0 h) : Attempts guard (fun h' _ => J n h') (each f) h :=
  attempts_iff_ends.mpr (ends_each_count (fun i h hi => attempts_iff_ends.mp (hstep i h hi)) hJ)

/-- A loop in which each step `i` reaches `Q i` and keeps what the others have reached. -/
theorem attempts_each {n : ℕ} {f : Fin n → OptionT (Dialogue C R) α}
    {own : Fin n → History R → C → Prop} {Q : Fin n → History R → α → Prop}
    (hstep : ∀ i h, Attempts (own i) (Q i) (f i) h)
    (hkeep : ∀ i j, j ≠ i → ∀ h c r a, own i h c → Q j h a → Q j (⟨c, r⟩ :: h) a)
    (hguard : ∀ i h c, own i h c → guard h c) (h : History R) :
    Attempts guard (fun h' v => ∀ i, Q i h' (v i)) (each f) h := by
  induction n generalizing guard h with
  | zero => exact attempts_pure.mpr fun i => i.elim0
  | succ n ih =>
    have hfirst : Attempts guard (Q 0) (f 0) h :=
      (hstep 0 h).conseq (F := fun _ => True) trivial (fun _ _ _ _ _ => trivial)
        (fun h c _ hc => hguard 0 h c hc) fun _ _ _ hr => hr
    refine attempts_bind (hfirst.mono fun h' a hQ => ?_)
    have hrest : Attempts (fun h c => ∃ i : Fin n, own i.succ h c)
        (fun h'' v => ∀ i : Fin n, Q i.succ h'' (v i)) (each fun i => f i.succ) h' := by
      refine ih (fun i => hstep i.succ) ?_ (fun i _ _ hc => ⟨i, hc⟩) h'
      intro i j hij
      exact hkeep i.succ j.succ fun heq => hij (Fin.succ_inj.mp heq)
    -- what the first step has reached is kept by each of the others
    have hboth : Attempts guard (fun h'' v => Q 0 h'' a ∧ ∀ i : Fin n, Q i.succ h'' (v i))
        (each fun i => f i.succ) h' := by
      refine hrest.conseq (F := fun h => Q 0 h a) hQ ?_ ?_ fun _ _ hF ha => ⟨hF, ha⟩
      · rintro h c r hF ⟨i, hc⟩
        exact hkeep i.succ 0 (Fin.succ_ne_zero i).symm h c r a hc hF
      · rintro h c - ⟨i, hc⟩
        exact hguard i.succ h c hc
    refine attempts_bind (hboth.mono fun h'' v hQs => attempts_pure.mpr fun i => ?_)
    cases i using Fin.cases with
    | zero => exact hQs.1
    | succ i => exact hQs.2 i

end Attempts

/-! ## Programs with commands of one kind -/

/-- Every command of the program is of the kind `q`, whatever the answers are. -/
def Says (q : C → Prop) (p : Dialogue C R α) : Prop :=
  ∀ h, p.Ensures (fun _ c => q c) (fun _ _ => True) h

section Says

variable {q : C → Prop}

theorem says_pure (a : α) : Says (R := R) q (pure a) := fun _ => trivial

theorem says_ask {c : C} (hc : q c) : Says (R := R) q (ask c) := fun _ => ⟨hc, fun _ => trivial⟩

theorem says_bind {p : Dialogue C R α} {f : α → Dialogue C R β} (hp : Says q p)
    (hf : ∀ a, Says q (f a)) : Says q (p >>= f) :=
  fun h => ensures_bind.mpr ((hp h).mono fun h' a _ => hf a h')

theorem says_ask_bind {R : C → Type w} {c : C} {f : R c → Dialogue C R β} (hc : q c)
    (hf : ∀ r, Says q (f r)) : Says q (ask c >>= f) :=
  says_bind (says_ask hc) hf

end Says

end Dialogue
