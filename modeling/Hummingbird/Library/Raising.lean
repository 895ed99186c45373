/-
  Which computations raise an exception.

  `Returns x` says that `x` raises none. A composite returns when its parts do
  (`returns_bind_iff`, `returns_bind_of_const` when what follows does not depend on the value), a
  list is mapped without an exception when each element is (`returns_mapM_iff`), and a loop whose
  body raises for reasons that lie in the element alone returns when no element is a reason
  (`returns_foldlM_iff`). A loop that collects what its body puts out can be taken apart
  (`collect_append`). Two computations with different ways to fail `Agree` if they have the same
  value where neither fails.
-/
import Mathlib.Data.List.Basic

namespace Raising

variable {ε α β σ : Type}

/-- The computation raises no exception. -/
def Returns (x : Except ε α) : Prop := ∃ a, x = .ok a

@[simp] theorem returns_ok (a : α) : Returns (.ok a : Except ε α) := ⟨a, rfl⟩

@[simp] theorem returns_pure (a : α) : Returns (pure a : Except ε α) := ⟨a, rfl⟩

@[simp] theorem not_returns_error (e : ε) : ¬ Returns (.error e : Except ε α) := by
  rintro ⟨a, h⟩
  cases h

theorem bind_eq_ok {x : Except ε α} {f : α → Except ε β} {b : β} :
    x >>= f = .ok b ↔ ∃ a, x = .ok a ∧ f a = .ok b := by
  cases x with
  | error e =>
    constructor
    · intro h
      cases h
    · rintro ⟨a, ha, -⟩
      cases ha
  | ok a =>
    constructor
    · exact fun h => ⟨a, rfl, h⟩
    · rintro ⟨a', ha, h⟩
      cases ha
      exact h

theorem returns_bind_iff {x : Except ε α} {f : α → Except ε β} :
    Returns (x >>= f) ↔ ∃ a, x = .ok a ∧ Returns (f a) := by
  constructor
  · rintro ⟨b, hb⟩
    obtain ⟨a, ha, hf⟩ := bind_eq_ok.mp hb
    exact ⟨a, ha, b, hf⟩
  · rintro ⟨a, ha, b, hf⟩
    exact ⟨b, bind_eq_ok.mpr ⟨a, ha, hf⟩⟩

theorem returns_left {x : Except ε α} {f : α → Except ε β} (h : Returns (x >>= f)) : Returns x := by
  obtain ⟨a, ha, -⟩ := returns_bind_iff.mp h
  exact ⟨a, ha⟩

/-- What follows returns or not whatever the value is. -/
theorem returns_bind_of_const {x : Except ε α} {f : α → Except ε β} {P : Prop}
    (h : ∀ a, x = .ok a → (Returns (f a) ↔ P)) : Returns (x >>= f) ↔ Returns x ∧ P := by
  rw [returns_bind_iff]
  constructor
  · rintro ⟨a, ha, hf⟩
    exact ⟨⟨a, ha⟩, (h a ha).mp hf⟩
  · rintro ⟨⟨a, ha⟩, hp⟩
    exact ⟨a, ha, (h a ha).mpr hp⟩

theorem returns_bind_pure {x : Except ε α} (f : α → β) :
    Returns (x >>= fun a => pure (f a)) ↔ Returns x := by
  rw [returns_bind_of_const (P := True) fun a _ => iff_true_intro (returns_pure (f a))]
  exact and_iff_left trivial

theorem returns_ite {c : Prop} [Decidable c] {x y : Except ε α} :
    Returns (if c then x else y) ↔ (c → Returns x) ∧ (¬ c → Returns y) := by
  split
  · rename_i h
    exact ⟨fun hx => ⟨fun _ => hx, fun hn => absurd h hn⟩, fun hx => hx.1 h⟩
  · rename_i h
    exact ⟨fun hy => ⟨fun hc => absurd hc h, fun _ => hy⟩, fun hy => hy.2 h⟩

theorem returns_mapM_iff {f : α → Except ε β} {l : List α} :
    Returns (l.mapM f) ↔ ∀ a ∈ l, Returns (f a) := by
  induction l with
  | nil => exact ⟨fun _ a ha => (nomatch ha), fun _ => returns_ok []⟩
  | cons a l ih =>
    rw [List.mapM_cons, List.forall_mem_cons, ← ih,
      returns_bind_of_const (P := Returns (l.mapM f))]
    exact fun b _ => returns_bind_pure (b :: ·)

/-- One result for each element. -/
theorem length_of_mapM {f : α → Except ε β} {l : List α} {r : List β} (h : l.mapM f = .ok r) :
    r.length = l.length := by
  induction l generalizing r with
  | nil =>
    cases h
    rfl
  | cons a l ih =>
    rw [List.mapM_cons] at h
    obtain ⟨b, ha, h⟩ := bind_eq_ok.mp h
    obtain ⟨bs, hl, h⟩ := bind_eq_ok.mp h
    cases h
    rw [List.length_cons, List.length_cons, ih hl]

/-- The first results are those of the first elements. -/
theorem mapM_take {f : α → Except ε β} {l : List α} {r : List β} (h : l.mapM f = .ok r) (n : ℕ) :
    (l.take n).mapM f = .ok (r.take n) := by
  induction l generalizing r n with
  | nil =>
    rw [List.mapM_nil] at h
    obtain rfl := Except.ok.inj h
    rw [List.take_nil, List.take_nil, List.mapM_nil]
    rfl
  | cons a l ih =>
    rw [List.mapM_cons] at h
    obtain ⟨b, ha, h⟩ := bind_eq_ok.mp h
    obtain ⟨bs, hl, h⟩ := bind_eq_ok.mp h
    obtain rfl := Except.ok.inj h
    cases n with
    | zero => rfl
    | succ n =>
      rw [List.take_succ_cons, List.mapM_cons, ha, ih hl n]
      rfl

/-- Filtering the elements as their results are filtered. -/
theorem filterMap_of_mapM {f : α → Except ε β} {g : α → Option σ} {g' : β → Option σ}
    (hg : ∀ a b, f a = .ok b → g a = g' b) {l : List α} {r : List β} (h : l.mapM f = .ok r) :
    l.filterMap g = r.filterMap g' := by
  induction l generalizing r with
  | nil =>
    cases h
    rfl
  | cons a l ih =>
    rw [List.mapM_cons] at h
    obtain ⟨b, ha, h⟩ := bind_eq_ok.mp h
    obtain ⟨bs, hl, h⟩ := bind_eq_ok.mp h
    cases h
    rw [List.filterMap_cons, List.filterMap_cons, hg a b ha, ih hl]

/-- A loop whose body returns on the elements with `P`, whatever the state. -/
theorem returns_foldlM_iff {step : σ → α → Except ε σ} {P : α → Prop}
    (h : ∀ s a, Returns (step s a) ↔ P a) (s : σ) (l : List α) :
    Returns (l.foldlM step s) ↔ ∀ a ∈ l, P a := by
  induction l generalizing s with
  | nil => exact ⟨fun _ a ha => (nomatch ha), fun _ => returns_ok s⟩
  | cons a l ih =>
    rw [List.foldlM_cons, List.forall_mem_cons, ← h s a]
    exact returns_bind_of_const fun s' _ => ih s'

/-- A loop that first reads an element reads all of them. -/
theorem foldlM_eq_mapM (f : α → Except ε β) (g : σ → β → σ) (s : σ) (l : List α) :
    (l.foldlM (fun s a => do let b ← f a; pure (g s b)) s) =
      (do let bs ← l.mapM f; pure (bs.foldl g s)) := by
  induction l generalizing s with
  | nil => rfl
  | cons a l ih =>
    rw [List.foldlM_cons, List.mapM_cons]
    cases f a with
    | error e => rfl
    | ok b =>
      refine (ih (g s b)).trans ?_
      cases l.mapM f with
      | error e => rfl
      | ok bs => rfl

/-- A loop over a list whose body changes a state and puts something out. -/
def collect (step : σ → α → Except ε (σ × List β)) (s : σ) (l : List α) :
    Except ε (σ × List β) :=
  l.foldlM (fun acc a => do
    let (s', new) ← step acc.1 a
    pure (s', acc.2 ++ new)) (s, [])

theorem returns_collect_iff {step : σ → α → Except ε (σ × List β)} {P : α → Prop}
    (h : ∀ s a, Returns (step s a) ↔ P a) (s : σ) (l : List α) :
    Returns (collect step s l) ↔ ∀ a ∈ l, P a := by
  apply returns_foldlM_iff
  intro acc a
  rw [← h acc.1 a]
  exact returns_bind_pure fun r : σ × List β => (r.1, acc.2 ++ r.2)

/-- What was put out before makes no difference. -/
theorem foldlM_collect (step : σ → α → Except ε (σ × List β)) (s : σ) (out : List β) (l : List α) :
    (l.foldlM (fun acc a => do
      let (s', new) ← step acc.1 a
      pure (s', acc.2 ++ new)) (s, out)) =
      (do let r ← collect step s l; pure (r.1, out ++ r.2)) := by
  induction l generalizing s out with
  | nil => exact congrArg Except.ok (Prod.ext rfl (List.append_nil out).symm)
  | cons a l ih =>
    unfold collect
    rw [List.foldlM_cons, List.foldlM_cons]
    cases step s a with
    | error e => rfl
    | ok r =>
      refine (ih r.1 (out ++ r.2)).trans ?_
      have hrest := ih r.1 ([] ++ r.2)
      show _ = (l.foldlM _ (r.1, [] ++ r.2)) >>= _
      rw [hrest]
      cases collect step r.1 l with
      | error e => rfl
      | ok r' => exact congrArg Except.ok (Prod.ext rfl (List.append_assoc out r.2 r'.2))

theorem collect_append (step : σ → α → Except ε (σ × List β)) (s : σ) (l m : List α) :
    collect step s (l ++ m) = (do
      let r ← collect step s l
      let r' ← collect step r.1 m
      pure (r'.1, r.2 ++ r'.2)) := by
  have hfold := foldlM_collect step
  unfold collect
  rw [List.foldlM_append]
  cases l.foldlM (fun acc a => do
    let (s', new) ← step acc.1 a
    pure (s', acc.2 ++ new)) (s, []) with
  | error e => rfl
  | ok r => exact hfold r.1 r.2 m

theorem collect_singleton (step : σ → α → Except ε (σ × List β)) (s : σ) (a : α) :
    collect step s [a] = step s a := by
  unfold collect
  rw [List.foldlM_cons]
  cases step s a with
  | error e => rfl
  | ok r => rfl

theorem collect_cons (step : σ → α → Except ε (σ × List β)) (s : σ) (a : α) (l : List α) :
    collect step s (a :: l) = (do
      let r ← step s a
      let r' ← collect step r.1 l
      pure (r'.1, r.2 ++ r'.2)) := by
  rw [← collect_singleton step s a]
  exact collect_append step s [a] l

/-- A loop that returns has returned from every element. -/
theorem step_of_collect {step : σ → α → Except ε (σ × List β)} {s : σ} {l : List α}
    (h : Returns (collect step s l)) {i : ℕ} {a : α} (ha : l[i]? = some a) :
    ∃ s' out r, collect step s (l.take i) = .ok (s', out) ∧ step s' a = .ok r := by
  have hsplit : l = l.take i ++ a :: l.drop (i + 1) := by
    obtain ⟨hi, rfl⟩ := List.getElem?_eq_some_iff.mp ha
    rw [← List.drop_eq_getElem_cons hi, List.take_append_drop]
  rw [hsplit, collect_append] at h
  obtain ⟨⟨s', out⟩, hl, h⟩ := returns_bind_iff.mp h
  obtain ⟨r, hr⟩ := returns_left (collect_cons step s' a _ ▸ returns_left h)
  exact ⟨s', out, r, hl, hr⟩

/-- The computations have the same value if neither fails. -/
def Agree (x : Option α) (y : Except ε α) : Prop := ∀ a b, x = some a → y = .ok b → a = b

theorem agree_pure (a : α) : Agree (some a) (pure a : Except ε α) := by
  rintro b c ⟨⟩ ⟨⟩
  rfl

theorem agree_none (y : Except ε α) : Agree none y := by
  rintro a b ⟨⟩

theorem Agree.bind {x : Option α} {y : Except ε α} {f : α → Option β} {g : α → Except ε β}
    (h : Agree x y) (hfg : ∀ a, Agree (f a) (g a)) : Agree (x >>= f) (y >>= g) := by
  intro a b hx hy
  obtain ⟨a', hx, hf⟩ := Option.bind_eq_some_iff.mp hx
  obtain ⟨b', hy, hg⟩ := bind_eq_ok.mp hy
  obtain rfl := h a' b' hx hy
  exact hfg a' a b hf hg

/-- A part whose value the other one has already. -/
theorem Agree.known {a : α} {x : Option β} {y : Except ε α} {g : α → Except ε β}
    (h : Agree (some a) y) (hg : Agree x (g a)) : Agree x (y >>= g) := by
  intro b b' hx hy
  obtain ⟨a', hy, hb⟩ := bind_eq_ok.mp hy
  obtain rfl := h a a' rfl hy
  exact hg b b' hx hb

/-- A part that only one of them has. -/
theorem Agree.skip {x : Option β} {y : Except ε α} {g : α → Except ε β}
    (h : ∀ a, y = .ok a → Agree x (g a)) : Agree x (y >>= g) := by
  intro a b hx hy
  obtain ⟨c, hy, hg⟩ := bind_eq_ok.mp hy
  exact h c hy a b hx hg

end Raising
