/-
  The statistics of the mocap stream: `_record_opti_timing_unlocked`,
  `_record_opti_health_unlocked` and `_opti_health_tick`.

  The two queues are pruned at different moments, the one of the delays only when a finite delay
  arrives. `Windows` says what each of them has left of everything that has arrived;
  `recordOptiHealth_windows` and `recordOptiTiming_windows` that both calls keep it. From this
  every row is a function of what has arrived so far (`opti_health_statistics`).
-/
import Mathlib.Tactic.Linarith
import Hummingbird.Library.Machine
import Hummingbird.Library.Pacing
import Hummingbird.Library.Window
import Hummingbird.Viewer.Callbacks

namespace Hummingbird

namespace Viewer

open Window Pacing

/-! ## One call -/

/-- `OPTI_HEALTH_UPDATE_SEC * 0.8`. -/
def optiHealthSpacingSec : ℚ := optiHealthUpdateSec * (4 / 5)

noncomputable section

variable (c : Config) (t : ℚ)

/-- The rows of `count` arrivals in the window. -/
def healthRows (count : ℕ) : List Push :=
  let rateHz : ℚ := count / c.optiRateWindowSec
  [⟨.optiHz, t, [.num (rateHz : ℝ)]⟩,
    ⟨.optiLost, t, [.num (if rateHz < c.optiLostHzThreshold then 1 else 0)]⟩]

/-- The row of a delay, with the delays in the window. -/
def delayRow (raw : ℝ) (window : List (ℚ × ℝ)) : Push :=
  ⟨.optiTransportDelay, t, [.num raw, .num ((window.map Prod.snd).sum / window.length)]⟩

end

section Calls

variable {c : Config} {s : View} {t : ℚ}

theorem recordOptiHealth_of_due {force : Bool}
    (h : force = true ∨ Due optiHealthSpacingSec s.lastOptiHealthSampleT t) :
    recordOptiHealth c s t force =
      ({ s with
          optiArrivalTimes := prune id (t - c.optiRateWindowSec) s.optiArrivalTimes
          lastOptiHealthSampleT := some t },
        healthRows c t (prune id (t - c.optiRateWindowSec) s.optiArrivalTimes).length) := by
  unfold recordOptiHealth
  refine (if_neg ?_).trans rfl
  intro hlate
  obtain ⟨hforce, hlate⟩ := (Bool.and_eq_true _ _).mp hlate
  rcases h with rfl | h
  · cases hforce
  · cases hlast : s.lastOptiHealthSampleT with
    | none =>
      rw [hlast] at hlate
      cases hlate
    | some last =>
      rw [hlast] at hlate
      exact absurd (of_decide_eq_true hlate) (h last hlast).not_gt

theorem recordOptiHealth_of_not_due (h : ¬ Due optiHealthSpacingSec s.lastOptiHealthSampleT t) :
    recordOptiHealth c s t false =
      ({ s with
          optiArrivalTimes := prune id (t - c.optiRateWindowSec) s.optiArrivalTimes }, []) := by
  unfold recordOptiHealth
  refine (if_pos ?_).trans rfl
  cases hlast : s.lastOptiHealthSampleT with
  | none => exact absurd (fun u hu => nomatch hlast ▸ hu) h
  | some last =>
    apply decide_eq_true
    by_contra hge
    refine h fun u hu => ?_
    obtain rfl := Option.some.inj (hlast.symm.trans hu)
    exact not_lt.mp hge

/-- It is never time for a second sample at once. -/
theorem not_due_now : ¬ Due optiHealthSpacingSec (some t) t := by
  intro h
  have hle := h t rfl
  norm_num [optiHealthSpacingSec, optiHealthUpdateSec] at hle

theorem not_due_again :
    ¬ Due optiHealthSpacingSec (recordOptiHealth c s t false).1.lastOptiHealthSampleT t := by
  by_cases h : Due optiHealthSpacingSec s.lastOptiHealthSampleT t
  · rw [recordOptiHealth_of_due (Or.inr h)]
    exact not_due_now
  · rw [recordOptiHealth_of_not_due h]
    exact h

variable (c s t) (force : Bool)

theorem recordOptiHealth_arrivals : (recordOptiHealth c s t force).1.optiArrivalTimes =
    prune id (t - c.optiRateWindowSec) s.optiArrivalTimes := by
  by_cases h : force = true ∨ Due optiHealthSpacingSec s.lastOptiHealthSampleT t
  · rw [recordOptiHealth_of_due h]
  · obtain ⟨hforce, hdue⟩ := not_or.mp h
    rw [Bool.not_eq_true] at hforce
    rw [hforce, recordOptiHealth_of_not_due hdue]

theorem recordOptiHealth_delays :
    (recordOptiHealth c s t force).1.optiDelayWindow = s.optiDelayWindow := by
  by_cases h : force = true ∨ Due optiHealthSpacingSec s.lastOptiHealthSampleT t
  · rw [recordOptiHealth_of_due h]
  · obtain ⟨hforce, hdue⟩ := not_or.mp h
    rw [Bool.not_eq_true] at hforce
    rw [hforce, recordOptiHealth_of_not_due hdue]

/-- Whether there is a row depends on when the last one was pushed, what is in it does not. -/
theorem recordOptiHealth_rows : (recordOptiHealth c s t force).2 = [] ∨
    (recordOptiHealth c s t force).2 =
      healthRows c t (prune id (t - c.optiRateWindowSec) s.optiArrivalTimes).length := by
  by_cases h : force = true ∨ Due optiHealthSpacingSec s.lastOptiHealthSampleT t
  · rw [recordOptiHealth_of_due h]
    exact Or.inr rfl
  · obtain ⟨hforce, hdue⟩ := not_or.mp h
    rw [Bool.not_eq_true] at hforce
    rw [hforce, recordOptiHealth_of_not_due hdue]
    exact Or.inl rfl

variable (raw : Option ℝ)

theorem recordOptiDelay_arrivals :
    (recordOptiDelay c s t raw).1.optiArrivalTimes = s.optiArrivalTimes := by
  cases raw with
  | none => rfl
  | some raw => rfl

theorem recordOptiDelay_lastSample :
    (recordOptiDelay c s t raw).1.lastOptiHealthSampleT = s.lastOptiHealthSampleT := by
  cases raw with
  | none => rfl
  | some raw => rfl

/-- The view with one more arrival. -/
def View.arrive : View := { s with optiArrivalTimes := s.optiArrivalTimes ++ [t] }

theorem recordOptiTiming_eq : recordOptiTiming c s t raw =
    ((recordOptiHealth c (recordOptiDelay c (s.arrive t) t raw).1 t false).1,
      (recordOptiDelay c (s.arrive t) t raw).2 ++
        (recordOptiHealth c (recordOptiDelay c (s.arrive t) t raw).1 t false).2) := rfl

end Calls

/-! ## What has arrived -/

/-- The entry of a delay, if there is one. -/
def delayEntry (t : ℚ) (raw : Option ℝ) : List (ℚ × ℝ) := (raw.map fun raw => (t, raw)).toList

/-- The rows of a delay, if there is one, with all `delays` up to it. -/
noncomputable def delayRows (c : Config) (t : ℚ) (delays : List (ℚ × ℝ)) (raw : Option ℝ) :
    List Push :=
  (raw.map fun raw => delayRow t raw (prune Prod.fst (t - c.optiDelayAvgSec) delays)).toList

/-- The queues hold what is left of all `arrivals` and `delays` at `t`. -/
structure Windows (c : Config) (arrivals : List ℚ) (delays : List (ℚ × ℝ)) (t : ℚ) (s : View) :
    Prop where
  arrivals : ∃ cutoff ≤ t - c.optiRateWindowSec, s.optiArrivalTimes = prune id cutoff arrivals
  delays : ∃ cutoff ≤ t - c.optiDelayAvgSec, s.optiDelayWindow = prune Prod.fst cutoff delays

theorem windows_reset (c : Config) (t : ℚ) : Windows c [] [] t View.reset where
  arrivals := ⟨t - c.optiRateWindowSec, le_rfl, rfl⟩
  delays := ⟨t - c.optiDelayAvgSec, le_rfl, rfl⟩

section Windows

variable {c : Config} {s : View} {arrivals : List ℚ} {delays : List (ℚ × ℝ)} {t t' : ℚ}

theorem Windows.later (hw : Windows c arrivals delays t s) (ht : t ≤ t') :
    Windows c arrivals delays t' s := by
  obtain ⟨⟨cutoff, hle, harrivals⟩, cutoff', hle', hdelays⟩ := hw
  exact ⟨⟨cutoff, by linarith, harrivals⟩, cutoff', by linarith, hdelays⟩

/-- A call leaves exactly what is in the window, and counts it. -/
theorem Windows.recordOptiHealth (hw : Windows c arrivals delays t s) (force : Bool) :
    Windows c arrivals delays t (Viewer.recordOptiHealth c s t force).1 ∧
      prune id (t - c.optiRateWindowSec) s.optiArrivalTimes =
        prune id (t - c.optiRateWindowSec) arrivals := by
  obtain ⟨⟨cutoff, hle, harrivals⟩, hdelays⟩ := hw
  have hpruned : prune id (t - c.optiRateWindowSec) s.optiArrivalTimes =
      prune id (t - c.optiRateWindowSec) arrivals := by
    rw [harrivals, prune_prune hle]
  refine ⟨⟨⟨_, le_rfl, ?_⟩, ?_⟩, hpruned⟩
  · rw [recordOptiHealth_arrivals, hpruned]
  · rw [recordOptiHealth_delays]
    exact hdelays

/-- A new arrival is not too old. -/
theorem Windows.arrive (hw : Windows c arrivals delays t s) :
    Windows c (arrivals ++ [t]) delays t (s.arrive t) := by
  obtain ⟨⟨cutoff, hle, harrivals⟩, hdelays⟩ := hw
  have hpos : 0 < c.optiRateWindowSec := lt_max_of_lt_left (by norm_num)
  refine ⟨⟨cutoff, hle, ?_⟩, hdelays⟩
  show s.optiArrivalTimes ++ [t] = _
  rw [harrivals, prune_concat (by show cutoff ≤ t; linarith)]

/-- A delay is averaged with those before it in the window. -/
theorem Windows.recordOptiDelay (hw : Windows c arrivals delays t s) (raw : Option ℝ) :
    Windows c arrivals (delays ++ delayEntry t raw) t (Viewer.recordOptiDelay c s t raw).1 ∧
      (Viewer.recordOptiDelay c s t raw).2 = delayRows c t (delays ++ delayEntry t raw) raw := by
  obtain ⟨harrivals, cutoff, hle, hdelays⟩ := hw
  cases raw with
  | none =>
    refine ⟨⟨harrivals, cutoff, hle, ?_⟩, rfl⟩
    rw [delayEntry, Option.map_none, Option.toList_none, List.append_nil]
    exact hdelays
  | some raw =>
    have hwindow : (s.optiDelayWindow ++ [(t, raw)]).dropWhile
        (fun x => decide (x.1 < t - c.optiDelayAvgSec)) =
          prune Prod.fst (t - c.optiDelayAvgSec) (delays ++ delayEntry t (some raw)) := by
      rw [hdelays]
      exact prune_prune_append hle delays _
    refine ⟨⟨harrivals, _, le_rfl, hwindow⟩, ?_⟩
    unfold Viewer.recordOptiDelay delayRows delayRow
    dsimp only
    rw [hwindow]
    rfl

/-- A message that comes right after a sample of the timer pushes no sample of its own. -/
theorem Windows.recordOptiTiming (hw : Windows c arrivals delays t s)
    (hdue : ¬ Due optiHealthSpacingSec s.lastOptiHealthSampleT t) (raw : Option ℝ) :
    Windows c (arrivals ++ [t]) (delays ++ delayEntry t raw) t
        (Viewer.recordOptiTiming c s t raw).1 ∧
      (Viewer.recordOptiTiming c s t raw).1.optiArrivalTimes =
        prune id (t - c.optiRateWindowSec) (arrivals ++ [t]) ∧
      (Viewer.recordOptiTiming c s t raw).2 = delayRows c t (delays ++ delayEntry t raw) raw := by
  obtain ⟨hdelayed, hrows⟩ := hw.arrive.recordOptiDelay raw
  obtain ⟨hsampled, hpruned⟩ := hdelayed.recordOptiHealth false
  have hlate : ¬ Due optiHealthSpacingSec
      (Viewer.recordOptiDelay c (s.arrive t) t raw).1.lastOptiHealthSampleT t := by
    rw [recordOptiDelay_lastSample]
    exact hdue
  have hnone := congrArg Prod.snd (recordOptiHealth_of_not_due (c := c) hlate)
  rw [recordOptiTiming_eq, hnone, List.append_nil, recordOptiHealth_arrivals]
  exact ⟨hsampled, hpruned, hrows⟩

end Windows

/-! ## Runs -/

/-- What feeds the statistics: an accepted mocap message, with its delay unless that is NaN, or
    the timer. -/
inductive OptiEvent
  | timing (t : ℚ) (rawDelayMs : Option ℝ)
  | tick (t : ℚ)

namespace OptiEvent

def t : OptiEvent → ℚ
  | timing t _ => t
  | tick t => t

def rawDelayMs : OptiEvent → Option ℝ
  | timing _ rawDelayMs => rawDelayMs
  | tick _ => none

def arrivals : OptiEvent → List ℚ
  | timing t _ => [t]
  | tick _ => []

def delays (e : OptiEvent) : List (ℚ × ℝ) := delayEntry e.t e.rawDelayMs

end OptiEvent

/-- The statistics of the node. -/
noncomputable def optiMachine (c : Config) : Machine View OptiEvent (List Push) ℚ where
  step s
    | .timing t rawDelayMs => recordOptiTiming c s t rawDelayMs
    | .tick t => ((optiHealthTick c s t).view, (optiHealthTick c s t).pushed)
  enter := OptiEvent.t
  leave := OptiEvent.t

/-- What an accepted message does to the statistics. -/
theorem cbOpti_timing {c : Config} {msg : PoseStamped} (h : ¬ OtherBody c msg) (s : View) (t : ℚ) :
    ∃ pose rows, (cbOpti c s t msg).view = ((optiMachine c).step { s with lastOptiPos := pose }
        (.timing t (rawDelayMs c t msg))).1 ∧
      (cbOpti c s t msg).pushed = rows ++ ((optiMachine c).step { s with lastOptiPos := pose }
        (.timing t (rawDelayMs c t msg))).2 := by
  unfold cbOpti
  rw [if_neg h]
  exact ⟨_, _, rfl, rfl⟩

abbrev OptiHistory := List (Machine.Step View OptiEvent (List Push))

/-- All arrivals, oldest first. -/
def arrivals : OptiHistory → List ℚ
  | [] => []
  | k :: past => arrivals past ++ k.event.arrivals

/-- All finite delays with their times, oldest first. -/
def delays : OptiHistory → List (ℚ × ℝ)
  | [] => []
  | k :: past => delays past ++ k.event.delays

/-- The times of the health rows, newest first. -/
def healthTimes : OptiHistory → List ℚ
  | [] => []
  | k :: past => (k.out.filter fun p => p.buffer = .optiHz).map Push.t ++ healthTimes past

/-- The arrivals in the window that ends at `t`. -/
def arrivalsWithin (c : Config) (h : OptiHistory) (t : ℚ) : List ℚ :=
  (arrivals h).filter fun a => t - c.optiRateWindowSec ≤ a ∧ a ≤ t

/-- The finite delays in the window that ends at `t`. -/
def delaysWithin (c : Config) (h : OptiHistory) (t : ℚ) : List (ℚ × ℝ) :=
  (delays h).filter fun x => t - c.optiDelayAvgSec ≤ x.1 ∧ x.1 ≤ t

/-- The statistics of one call are those of the whole history up to it. -/
structure ExactStatistics (c : Config) (k : Machine.Step View OptiEvent (List Push))
    (past : OptiHistory) : Prop where
  arrivals : k.post.optiArrivalTimes = arrivalsWithin c (k :: past) k.event.t
  rows : ∃ health,
    k.out = (k.event.rawDelayMs.map fun raw =>
      delayRow k.event.t raw (delaysWithin c (k :: past) k.event.t)).toList ++ health ∧
    (Due optiHealthSpacingSec (healthTimes past).head? k.event.t ∧
        health = healthRows c k.event.t (arrivalsWithin c (k :: past) k.event.t).length ∨
      ¬ Due optiHealthSpacingSec (healthTimes past).head? k.event.t ∧ health = [])
  averages : k.event.rawDelayMs.isSome → delaysWithin c (k :: past) k.event.t ≠ []

/-- The invariant of the runs. -/
structure Statistics (c : Config) (h : OptiHistory) (s : View) (t : ℚ) : Prop where
  windows : Windows c (arrivals h) (delays h) t s
  limited : Limited optiHealthSpacingSec (healthTimes h) s.lastOptiHealthSampleT
  arrived : (arrivals h).Pairwise (· ≤ ·) ∧ ∀ a ∈ arrivals h, a ≤ t
  delayed : (delays h).Pairwise (fun x y => x.1 ≤ y.1) ∧ ∀ x ∈ delays h, x.1 ≤ t
  exact : Past.Always (Past.At (ExactStatistics c)) h

section Runs

variable {c : Config} {s : View} {h : OptiHistory} {t : ℚ}

/-- The part of a call before the health sample. -/
theorem optiMachine_step (e : OptiEvent) {arrivals : List ℚ} {delays : List (ℚ × ℝ)}
    (hw : Windows c arrivals delays e.t s) : ∃ s',
      ((optiMachine c).step s e).1 = (recordOptiHealth c s' e.t false).1 ∧
      ((optiMachine c).step s e).2 = delayRows c e.t (delays ++ e.delays) e.rawDelayMs ++
        (recordOptiHealth c s' e.t false).2 ∧
      Windows c (arrivals ++ e.arrivals) (delays ++ e.delays) e.t s' ∧
      s'.lastOptiHealthSampleT = s.lastOptiHealthSampleT := by
  cases e with
  | timing t raw =>
    obtain ⟨hw', hrows⟩ := hw.arrive.recordOptiDelay raw
    exact ⟨(recordOptiDelay c (s.arrive t) t raw).1, rfl, congrArg₂ (· ++ ·) hrows rfl, hw',
      recordOptiDelay_lastSample c _ t raw⟩
  | tick t =>
    refine ⟨s, rfl, rfl, ?_, rfl⟩
    rw [OptiEvent.arrivals, List.append_nil]
    show Windows c arrivals (delays ++ []) t s
    rw [List.append_nil]
    exact hw

/-- Times of now follow the times so far. -/
theorem pairwise_append_now {A : Type} (time : A → ℚ) {l new : List A} {now : ℚ} (hle : t ≤ now)
    (hl : l.Pairwise (fun a b => time a ≤ time b) ∧ ∀ a ∈ l, time a ≤ t)
    (hnew : ∀ a ∈ new, time a = now) :
    (l ++ new).Pairwise (fun a b => time a ≤ time b) ∧ ∀ a ∈ l ++ new, time a ≤ now := by
  refine ⟨List.pairwise_append.mpr ⟨hl.1, ?_, ?_⟩, ?_⟩
  · exact List.pairwise_of_forall_mem_list fun a ha b hb => ((hnew a ha).trans (hnew b hb).symm).le
  · intro a ha b hb
    rw [hnew b hb]
    exact (hl.2 a ha).trans hle
  · intro a ha
    rcases List.mem_append.mp ha with ha | ha
    · exact (hl.2 a ha).trans hle
    · exact (hnew a ha).le

theorem delays_times (e : OptiEvent) : ∀ x ∈ e.delays, x.1 = e.t := by
  intro x hx
  unfold OptiEvent.delays delayEntry at hx
  rw [Option.mem_toList] at hx
  obtain ⟨raw, -, rfl⟩ := Option.map_eq_some_iff.mp hx
  rfl

theorem delayRows_buffer (delays : List (ℚ × ℝ)) (raw : Option ℝ) :
    ∀ p ∈ delayRows c t delays raw, p.buffer = .optiTransportDelay := by
  intro p hp
  unfold delayRows at hp
  rw [Option.mem_toList] at hp
  obtain ⟨raw, -, rfl⟩ := Option.map_eq_some_iff.mp hp
  rfl

/-- The limiter of the health rows over one call. -/
theorem limited_recordOptiHealth {ts : List ℚ} {delay : List Push}
    (hs : Limited optiHealthSpacingSec ts s.lastOptiHealthSampleT)
    (hdelay : ∀ p ∈ delay, p.buffer = .optiTransportDelay) :
    Limited optiHealthSpacingSec
      (((delay ++ (recordOptiHealth c s t false).2).filter
          fun p => p.buffer = .optiHz).map Push.t ++ ts)
        (recordOptiHealth c s t false).1.lastOptiHealthSampleT := by
  have hnone : (delay.filter fun p => p.buffer = .optiHz) = [] := by
    apply List.filter_eq_nil_iff.mpr
    intro p hp
    rw [hdelay p hp]
    decide
  rw [List.filter_append, hnone, List.nil_append]
  by_cases hdue : Due optiHealthSpacingSec s.lastOptiHealthSampleT t
  · rw [recordOptiHealth_of_due (Or.inr hdue)]
    exact hs.pass (by norm_num [optiHealthSpacingSec, optiHealthUpdateSec]) hdue
  · rw [recordOptiHealth_of_not_due hdue]
    exact hs

theorem Statistics.step (hs : Statistics c h s t) (e : OptiEvent) (ht : t ≤ e.t) :
    Statistics c ((optiMachine c).record s e :: h) ((optiMachine c).step s e).1 e.t := by
  obtain ⟨s', hview, hout, hw, hlast⟩ := optiMachine_step e (hs.windows.later ht)
  have harrived : (arrivals h ++ e.arrivals).Pairwise (· ≤ ·) ∧
      ∀ a ∈ arrivals h ++ e.arrivals, a ≤ e.t := by
    refine pairwise_append_now id ht hs.arrived fun a ha => ?_
    cases e with
    | timing t raw => exact List.mem_singleton.mp ha
    | tick t => cases ha
  have hdelayed := pairwise_append_now Prod.fst ht hs.delayed (delays_times e)
  have hcount : prune id (e.t - c.optiRateWindowSec) s'.optiArrivalTimes =
      arrivalsWithin c ((optiMachine c).record s e :: h) e.t :=
    (hw.recordOptiHealth false).2.trans (prune_eq_filter_of_le harrived.1 harrived.2)
  have hdelays : prune Prod.fst (e.t - c.optiDelayAvgSec) (delays h ++ e.delays) =
      delaysWithin c ((optiMachine c).record s e :: h) e.t :=
    prune_eq_filter_of_le hdelayed.1 hdelayed.2
  refine ⟨?_, ?_, harrived, hdelayed, ⟨?_, ?_, ?_⟩, hs.exact⟩
  · rw [hview]
    exact (hw.recordOptiHealth false).1
  · rw [hview, healthTimes, Machine.record, hout]
    exact limited_recordOptiHealth (hlast ▸ hs.limited) (delayRows_buffer _ _)
  · show ((optiMachine c).step s e).1.optiArrivalTimes = _
    rw [hview, recordOptiHealth_arrivals, hcount]
    rfl
  · refine ⟨(recordOptiHealth c s' e.t false).2, ?_, ?_⟩
    · show ((optiMachine c).step s e).2 = _
      rw [hout, delayRows, hdelays]
      rfl
    · rw [← hs.limited.remembers, ← hlast]
      by_cases hdue : Due optiHealthSpacingSec s'.lastOptiHealthSampleT e.t
      · rw [recordOptiHealth_of_due (Or.inr hdue), hcount]
        exact Or.inl ⟨hdue, rfl⟩
      · rw [recordOptiHealth_of_not_due hdue]
        exact Or.inr ⟨hdue, rfl⟩
  · -- the delay itself is in the window
    intro hsome
    obtain ⟨raw, hraw⟩ := Option.isSome_iff_exists.mp hsome
    have hmem : (e.t, raw) ∈ delays h ++ e.delays := by
      apply List.mem_append_right
      unfold OptiEvent.delays delayEntry
      rw [Option.mem_toList, show e.rawDelayMs = some raw from hraw]
      rfl
    have hpos : 0 < c.optiDelayAvgSec := lt_max_of_lt_left (by norm_num)
    exact List.ne_nil_of_mem
      (List.mem_filter.mpr ⟨hmem, decide_eq_true ⟨sub_le_self e.t hpos.le, le_rfl⟩⟩)

end Runs

/-- The statistics of every run from the start are exact at every call. -/
theorem opti_health_statistics {c : Config} {t₀ t : ℚ} {h : OptiHistory} {s : View}
    (hr : (optiMachine c).Run View.reset t₀ h s t) :
    Past.Always (Past.At (ExactStatistics c)) h ∧ Spaced optiHealthSpacingSec (healthTimes h) := by
  have hinv : Statistics c h s t := by
    refine hr.invariant (P := Statistics c) ?_ ?_
    · exact ⟨windows_reset c t₀, .start _, ⟨.nil, fun a ha => nomatch ha⟩,
        ⟨.nil, fun x hx => nomatch hx⟩, trivial⟩
    · intro h s t e _ hs hle _
      exact hs.step e hle
  exact ⟨hinv.exact, hinv.limited.spaced⟩

/-- Two messages, a silence, a message without a delay and the timer. -/
def sparseEvents : List OptiEvent :=
  [.timing 0 (some 3), .timing (1 / 50) (some 5), .tick (1 / 20), .timing 3 none, .tick 3]

theorem opti_health_statistics_sparse :
    Past.Always (Past.At (ExactStatistics (Config.declared .real 0)))
        ((optiMachine (Config.declared .real 0)).trace View.reset sparseEvents []) ∧
      Spaced optiHealthSpacingSec
        (healthTimes
          ((optiMachine (Config.declared .real 0)).trace View.reset sparseEvents [])) := by
  have htimed : (optiMachine (Config.declared .real 0)).Timed 0 sparseEvents := by
    simp only [sparseEvents, Machine.Timed, optiMachine, OptiEvent.t]
    norm_num
  obtain ⟨s, t, hr⟩ := Machine.run_trace View.reset 0 sparseEvents htimed
  exact opti_health_statistics hr

end Viewer

end Hummingbird
