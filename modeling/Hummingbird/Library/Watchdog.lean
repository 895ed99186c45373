/-
  Watchdogs.

  A watchdog is fed by signs of life and checked in between. A check that finds the last sign of
  life older than the limit reports a timeout, once; the next sign of life reports the recovery.
  `step` is this, with two flags. A `Gauge` says what age is and what the limit is, before the
  first sign of life and after it.

  What a watchdog should report can be read off the events alone, newest first: `lastFed`, `fed`
  and `Overdue` do so, and `Accounts` says which report an event calls for. `Simulates` says that a
  machine keeps a watchdog among its members: `view` are the events of the watchdog among its
  steps, and `said` is what it says in them. Then every step of every run makes the reports that
  its history calls for (`Simulates.accounts`), and timeouts and recoveries alternate
  (`Simulates.alternating`).
-/
import Mathlib.Data.List.Chain
import Mathlib.Order.Lattice
import Hummingbird.Library.Machine

/-- What a watchdog remembers. -/
structure Watchdog (τ : Type*) where
  last : τ
  received : Bool
  missing : Bool

namespace Watchdog

variable {τ κ : Type*} [LinearOrder κ]

/-- A sign of life, with the clock's readings at which its gap is measured and it is remembered, or
    a check, with those at which the age is tested and told. -/
inductive Event (τ : Type*)
  | feed (noted stored : τ)
  | check (tested told : τ)

/-- What a watchdog tells; `received` is whether there had been a sign of life before. -/
inductive Report (κ : Type*)
  | timeout (received : Bool) (age : κ)
  | recovered (received : Bool) (gap : κ)

/-- The age of the second time at the first one, and how old the last sign of life may get. -/
structure Gauge (τ κ : Type*) where
  age : τ → τ → κ
  limit : Bool → κ

def start (t₀ : τ) : Watchdog τ := ⟨t₀, false, false⟩

def step (g : Gauge τ κ) (w : Watchdog τ) : Event τ → Watchdog τ × Option (Report κ)
  | .feed noted stored =>
    (⟨stored, true, false⟩,
      if w.missing then some (.recovered w.received (g.age noted w.last)) else none)
  | .check tested told =>
    if g.limit w.received ≤ g.age tested w.last ∧ w.missing = false then
      ({ w with missing := true }, some (.timeout w.received (g.age told w.last)))
    else (w, none)

/-! ## What the events call for -/

def Event.stored : Event τ → Option τ
  | feed _ stored => some stored
  | check _ _ => none

def Event.IsCheck : Event τ → Prop
  | feed _ _ => False
  | check _ _ => True

def Report.isTimeout : Report κ → Bool
  | timeout _ _ => true
  | recovered _ _ => false

/-- The last sign of life, or the start. -/
def lastFed (t₀ : τ) (h : List (Event τ)) : τ := (Past.latest Event.stored h).getD t₀

/-- There has been a sign of life. -/
def fed (h : List (Event τ)) : Bool := (Past.latest Event.stored h).isSome

/-- A check that finds the last sign of life too old. -/
def Expired (g : Gauge τ κ) (t₀ : τ) (e : Event τ) (past : List (Event τ)) : Prop :=
  ∃ tested told, e = .check tested told ∧ g.limit (fed past) ≤ g.age tested (lastFed t₀ past)

/-- A check since the last sign of life has found it too old. -/
def Overdue (g : Gauge τ κ) (t₀ : τ) : List (Event τ) → Prop :=
  Past.Since (Past.Newest Event.IsCheck) (Past.At (Expired g t₀))

/-- The reports `said` are those that the event `e`, if there is one, calls for after `past`. -/
structure Accounts (g : Gauge τ κ) (t₀ : τ) (past : List (Event τ)) (e : Option (Event τ))
    (said : List (Report κ)) : Prop where
  timeout : ∀ received age, .timeout received age ∈ said ↔
    ∃ tested told, e = some (.check tested told) ∧ received = fed past ∧
      age = g.age told (lastFed t₀ past) ∧ g.limit received ≤ g.age tested (lastFed t₀ past) ∧
      ¬ Overdue g t₀ past
  recovered : ∀ received gap, .recovered received gap ∈ said ↔
    ∃ noted stored, e = some (.feed noted stored) ∧ received = fed past ∧
      gap = g.age noted (lastFed t₀ past) ∧ Overdue g t₀ past

/-- Timeouts and recoveries alternate, newest first, and the oldest report is a timeout; the
    newest one says whether the sign of life is missing. -/
structure Alternating (said : List (Report κ)) (missing : Bool) : Prop where
  alternate : said.IsChain fun r r' => r.isTimeout ≠ r'.isTimeout
  first : ∀ r ∈ said.getLast?, r.isTimeout = true
  newest : missing = (said.head?.map Report.isTimeout).getD false

/-- The watchdog remembers what the events say. -/
structure Watches (g : Gauge τ κ) (t₀ : τ) (h : List (Event τ)) (w : Watchdog τ) : Prop where
  last : w.last = lastFed t₀ h
  received : w.received = fed h
  missing : w.missing = true ↔ Overdue g t₀ h

section Steps

variable {g : Gauge τ κ} {t₀ : τ} {h : List (Event τ)} {w : Watchdog τ}

@[simp] theorem lastFed_feed (noted stored : τ) : lastFed t₀ (.feed noted stored :: h) = stored :=
  rfl

@[simp] theorem lastFed_check (tested told : τ) :
    lastFed t₀ (.check tested told :: h) = lastFed t₀ h := rfl

@[simp] theorem fed_feed (noted stored : τ) : fed (.feed noted stored :: h) = true := rfl

@[simp] theorem fed_check (tested told : τ) : fed (.check tested told :: h) = fed h := rfl

theorem not_overdue_nil : ¬ Overdue g t₀ [] := by
  intro hnil
  cases hnil with
  | here hq => exact hq

theorem not_overdue_feed (noted stored : τ) : ¬ Overdue g t₀ (.feed noted stored :: h) := by
  intro hfeed
  rcases Past.since_cons.mp hfeed with ⟨tested, told, he, -⟩ | ⟨hcheck, -⟩
  · exact nomatch he
  · exact hcheck

theorem overdue_check {tested told : τ} : Overdue g t₀ (.check tested told :: h) ↔
    g.limit (fed h) ≤ g.age tested (lastFed t₀ h) ∨ Overdue g t₀ h := by
  refine Past.since_cons.trans (or_congr ⟨?_, fun hle => ⟨tested, told, rfl, hle⟩⟩
    ⟨fun hs => hs.2, fun hs => ⟨trivial, hs⟩⟩)
  rintro ⟨tested', told', he, hle⟩
  obtain ⟨rfl, rfl⟩ := Event.check.inj he
  exact hle

theorem watches_start (g : Gauge τ κ) (t₀ : τ) : Watches g t₀ [] (start t₀) where
  last := rfl
  received := rfl
  missing := ⟨nofun, fun h => absurd h not_overdue_nil⟩

theorem step_check_of_expired {tested told : τ} (hle : g.limit w.received ≤ g.age tested w.last)
    (hflag : w.missing = false) :
    w.step g (.check tested told) =
      ({ w with missing := true }, some (.timeout w.received (g.age told w.last))) :=
  if_pos ⟨hle, hflag⟩

theorem step_check_of_not {tested told : τ}
    (hnot : ¬ (g.limit w.received ≤ g.age tested w.last ∧ w.missing = false)) :
    w.step g (.check tested told) = (w, none) :=
  if_neg hnot

/-- A check changes nothing but the flag. -/
theorem step_check_frame (g : Gauge τ κ) (w : Watchdog τ) (tested told : τ) :
    (w.step g (.check tested told)).1 =
      { w with missing := (w.step g (.check tested told)).1.missing } := by
  by_cases hexpired : g.limit w.received ≤ g.age tested w.last ∧ w.missing = false
  · rw [step_check_of_expired hexpired.1 hexpired.2]
  · rw [step_check_of_not hexpired]

theorem Watches.step (hw : Watches g t₀ h w) (e : Event τ) :
    Watches g t₀ (e :: h) (w.step g e).1 := by
  cases e with
  | feed noted stored =>
    exact ⟨rfl, rfl, ⟨nofun, fun h => absurd h (not_overdue_feed noted stored)⟩⟩
  | check tested told =>
    by_cases hexpired : g.limit w.received ≤ g.age tested w.last ∧ w.missing = false
    · rw [step_check_of_expired hexpired.1 hexpired.2]
      rw [hw.received, hw.last] at hexpired
      exact ⟨hw.last, hw.received, ⟨fun _ => overdue_check.mpr (.inl hexpired.1), fun _ => rfl⟩⟩
    · rw [step_check_of_not hexpired]
      refine ⟨hw.last, hw.received, hw.missing.trans ?_⟩
      rw [overdue_check]
      refine ⟨Or.inr, fun hover => hover.elim (fun hle => ?_) id⟩
      by_contra hnot
      rw [hw.received, hw.last] at hexpired
      exact hexpired ⟨hle, Bool.eq_false_iff.mpr fun hflag => hnot (hw.missing.mp hflag)⟩

/-- The reports of one step. -/
theorem Watches.accounts (hw : Watches g t₀ h w) (e : Event τ) :
    Accounts g t₀ h (some e) (w.step g e).2.toList := by
  obtain ⟨last, received, missing⟩ := w
  obtain ⟨rfl, rfl, hmissing⟩ := hw
  cases e with
  | feed noted stored =>
    cases missing with
    | false =>
      refine ⟨fun _ _ => ⟨nofun, nofun⟩, fun _ _ => ⟨nofun, ?_⟩⟩
      rintro ⟨-, -, -, -, -, hover⟩
      exact nomatch hmissing.mpr hover
    | true =>
      refine ⟨fun _ _ => ⟨nofun, nofun⟩, fun received gap => ⟨fun hsaid => ?_, ?_⟩⟩
      · obtain ⟨rfl, rfl⟩ := Report.recovered.inj (List.mem_singleton.mp hsaid)
        exact ⟨noted, stored, rfl, rfl, rfl, hmissing.mp rfl⟩
      · rintro ⟨noted', stored', he, rfl, rfl, -⟩
        obtain ⟨rfl, rfl⟩ := Event.feed.inj (Option.some.inj he)
        exact List.mem_singleton.mpr rfl
  | check tested told =>
    by_cases hexpired : g.limit (fed h) ≤ g.age tested (lastFed t₀ h) ∧ missing = false
    · obtain ⟨hle, rfl⟩ := hexpired
      rw [step_check_of_expired hle rfl]
      refine ⟨fun received age => ⟨fun hsaid => ?_, ?_⟩, fun _ _ => ⟨nofun, nofun⟩⟩
      · obtain ⟨rfl, rfl⟩ := Report.timeout.inj (List.mem_singleton.mp hsaid)
        exact ⟨tested, told, rfl, rfl, rfl, hle, fun hover => nomatch hmissing.mpr hover⟩
      · rintro ⟨tested', told', he, rfl, rfl, -, -⟩
        obtain ⟨rfl, rfl⟩ := Event.check.inj (Option.some.inj he)
        exact List.mem_singleton.mpr rfl
    · rw [step_check_of_not hexpired]
      refine ⟨fun _ _ => ⟨nofun, ?_⟩, fun _ _ => ⟨nofun, nofun⟩⟩
      rintro ⟨tested', told', he, rfl, rfl, hle, hnot⟩
      obtain ⟨rfl, rfl⟩ := Event.check.inj (Option.some.inj he)
      exact absurd ⟨hle, Bool.eq_false_iff.mpr fun hflag => hnot (hmissing.mp hflag)⟩ hexpired

theorem accounts_none : Accounts g t₀ h none [] :=
  ⟨fun _ _ => ⟨nofun, nofun⟩, fun _ _ => ⟨nofun, nofun⟩⟩

omit [LinearOrder κ] in
theorem alternating_start : Alternating ([] : List (Report κ)) false := ⟨.nil, nofun, rfl⟩

omit [LinearOrder κ] in
/-- A report of the other kind than the newest one. -/
theorem Alternating.cons {said : List (Report κ)} {missing : Bool} {r : Report κ}
    (ha : Alternating said missing) (hr : r.isTimeout = !missing) :
    Alternating (r :: said) (!missing) := by
  refine ⟨List.isChain_cons.mpr ⟨fun r' hhead => ?_, ha.alternate⟩, fun r' hlast => ?_, hr.symm⟩
  · have hnewest : missing = r'.isTimeout := by rw [ha.newest, hhead]; rfl
    rw [hr, hnewest]
    cases r'.isTimeout <;> decide
  · cases said with
    | nil =>
      have hmissing : missing = false := ha.newest
      obtain rfl : r = r' := Option.some.inj hlast
      rw [hr, hmissing]
      rfl
    | cons r'' rest =>
      rw [List.getLast?_cons_cons] at hlast
      exact ha.first r' hlast

theorem Alternating.step {said : List (Report κ)} (ha : Alternating said w.missing)
    (e : Event τ) :
    Alternating ((w.step g e).2.toList ++ said) (w.step g e).1.missing := by
  obtain ⟨last, received, missing⟩ := w
  cases e with
  | feed noted stored =>
    cases missing with
    | false => exact ha
    | true => exact ha.cons rfl
  | check tested told =>
    by_cases hexpired : g.limit received ≤ g.age tested last ∧ missing = false
    · obtain ⟨hle, rfl⟩ := hexpired
      rw [step_check_of_expired hle rfl]
      exact ha.cons rfl
    · rw [step_check_of_not hexpired]
      exact ha

/-- A time at which an overdue sign of life was found too old. -/
theorem Overdue.exists_check (ho : Overdue g t₀ h) :
    ∃ tested told, .check tested told ∈ h ∧
      g.limit (fed h) ≤ g.age tested (lastFed t₀ h) := by
  induction h with
  | nil => exact absurd ho not_overdue_nil
  | cons e h ih =>
    cases e with
    | feed noted stored => exact absurd ho (not_overdue_feed noted stored)
    | check tested told =>
      rcases overdue_check.mp ho with hle | ho
      · exact ⟨tested, told, List.mem_cons_self, hle⟩
      · obtain ⟨tested', told', hmem, hle⟩ := ih ho
        exact ⟨tested', told', List.mem_cons_of_mem _ hmem, hle⟩

end Steps

/-! ## Machines that keep a watchdog -/

section Machines

variable {σ ε ο ρ τ' : Type*} [Preorder τ'] {M : Machine σ ε ο τ'} {g : Gauge τ κ}
  {I : σ → Prop} {view : Machine.Step σ ε ο → Option (Event τ)} {tell : Report κ → List ρ}
  {said : Machine.Step σ ε ο → List ρ} {watch : σ → Watchdog τ} {s₀ s : σ} {c₀ c : τ'}
  {h : List (Machine.Step σ ε ο)} {t₀ : τ}

/-- The members `watch` of the machine are a watchdog for the events `view`, in states with the
    invariant `I`; of its reports the machine says `tell`. -/
def Simulates (M : Machine σ ε ο τ') (I : σ → Prop) (g : Gauge τ κ)
    (view : Machine.Step σ ε ο → Option (Event τ)) (tell : Report κ → List ρ)
    (said : Machine.Step σ ε ο → List ρ) (watch : σ → Watchdog τ) : Prop :=
  ∀ s e, I s →
    (view (M.record s e) = none ∧ watch (M.step s e).1 = watch s ∧ said (M.record s e) = []) ∨
      ∃ e', view (M.record s e) = some e' ∧ watch (M.step s e).1 = ((watch s).step g e').1 ∧
        said (M.record s e) = ((watch s).step g e').2.toList.flatMap tell

/-- The step `k` says what the watchdog should report after `past`. -/
def AccountsAt (g : Gauge τ κ) (t₀ : τ) (view : Machine.Step σ ε ο → Option (Event τ))
    (tell : Report κ → List ρ) (said : Machine.Step σ ε ο → List ρ) (k : Machine.Step σ ε ο)
    (past : List (Machine.Step σ ε ο)) : Prop :=
  ∃ reports, Accounts g t₀ (past.filterMap view) (view k) reports ∧ said k = reports.flatMap tell

theorem Simulates.watches (hm : Simulates M I g view tell said watch)
    (hinv : ∀ {h s c}, Machine.Run M s₀ c₀ h s c → I s) (hstart : watch s₀ = start t₀)
    (hr : Machine.Run M s₀ c₀ h s c) :
    Watches g t₀ (h.filterMap view) (watch s) := by
  refine hr.invariant (P := fun h s _ => Watches g t₀ (h.filterMap view) (watch s)) ?_ ?_
  · rw [hstart]
    exact watches_start g t₀
  · intro h s _ e hrun hw _ _
    rcases hm s e (hinv hrun) with ⟨hview, hwatch, -⟩ | ⟨e', hview, hwatch, -⟩
    · rw [List.filterMap_cons_none hview, hwatch]
      exact hw
    · rw [List.filterMap_cons_some hview, hwatch]
      exact hw.step e'

/-- Every step of a run makes the reports that its history calls for. -/
theorem Simulates.accounts (hm : Simulates M I g view tell said watch)
    (hinv : ∀ {h s c}, Machine.Run M s₀ c₀ h s c → I s) (hstart : watch s₀ = start t₀)
    (hr : Machine.Run M s₀ c₀ h s c) :
    Past.Always (Past.At (AccountsAt g t₀ view tell said)) h := by
  refine hr.always fun {k h s t} hrun => ?_
  cases hrun with
  | handle e hrun _ _ =>
    show AccountsAt g t₀ view tell said (M.record _ e) h
    rcases hm _ e (hinv hrun) with ⟨hview, -, hsaid⟩ | ⟨e', hview, -, hsaid⟩
    · exact ⟨[], hview ▸ accounts_none, hsaid⟩
    · exact ⟨_, hview ▸ (hm.watches hinv hstart hrun).accounts e', hsaid⟩

/-- The timeouts and the recoveries of a run alternate. -/
theorem Simulates.alternating (hm : Simulates M I g view tell said watch)
    (hinv : ∀ {h s c}, Machine.Run M s₀ c₀ h s c → I s) (hstart : watch s₀ = start t₀)
    (hr : Machine.Run M s₀ c₀ h s c) :
    ∃ reports, Alternating reports (watch s).missing ∧ h.flatMap said = reports.flatMap tell := by
  refine hr.invariant (P := fun h s _ => ∃ reports : List (Report κ),
    Alternating reports (watch s).missing ∧ h.flatMap said = reports.flatMap tell) ?_ ?_
  · rw [hstart]
    exact ⟨[], alternating_start, rfl⟩
  · rintro h s _ e hrun ⟨reports, ha, heq⟩ _ _
    rcases hm s e (hinv hrun) with ⟨-, hwatch, hsaid⟩ | ⟨e', -, hwatch, hsaid⟩
    · refine ⟨reports, hwatch ▸ ha, ?_⟩
      rw [List.flatMap_cons, hsaid]
      exact heq
    · refine ⟨_, hwatch ▸ ha.step e', ?_⟩
      rw [List.flatMap_cons, hsaid, heq, List.flatMap_append]

end Machines

end Watchdog
