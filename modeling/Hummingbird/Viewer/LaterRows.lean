/-
  What the rows after a record depend on.

  Of a record that has been ingested a later one sees the arrivals and delays of the mocap
  statistics, the time of the last health sample and the last mocap position. `NoLaterEffect` says
  that it makes no difference whether a record was ingested; `noLaterEffect_iff` says when that is
  so: a mocap record is an arrival, and in real mode the health sample that comes with every record
  moves the next one and drops old arrivals.
-/
import Hummingbird.Viewer.DamagedLog
import Hummingbird.Viewer.OptiHealth

namespace Hummingbird

namespace Viewer

namespace Raw

open Raising Window

/-! ## What comes after a record -/

/-- What the rows of later records depend on: all but the time of the odometry, which only the live
    callbacks read. -/
def forgetRx (s : View) : View := { s with lastFmuOdomRx := none }

section Later

variable {lib : TextLibrary} {c : Config}

/-- The result with what later rows depend on. -/
def forgetResult (x : Except PyError (View × List Push)) : Except PyError (View × List Push) :=
  x.map (Prod.map forgetRx id)

theorem recordOptiHealth_forgetRx (s : View) (t : ℚ) (force : Bool) :
    recordOptiHealth c (forgetRx s) t force =
      Prod.map forgetRx id (recordOptiHealth c s t force) := by
  by_cases h : force = true ∨ Pacing.Due optiHealthSpacingSec s.lastOptiHealthSampleT t
  · rw [recordOptiHealth_of_due h, recordOptiHealth_of_due (s := forgetRx s) h]
    rfl
  · obtain ⟨hforce, hdue⟩ := not_or.mp h
    rw [Bool.not_eq_true] at hforce
    rw [hforce, recordOptiHealth_of_not_due hdue,
      recordOptiHealth_of_not_due (s := forgetRx s) hdue]
    rfl

theorem recordOptiTiming_forgetRx (s : View) (t : ℚ) (raw : Option ℝ) :
    recordOptiTiming c (forgetRx s) t raw =
      Prod.map forgetRx id (recordOptiTiming c s t raw) := by
  have hdelay : recordOptiDelay c ((forgetRx s).arrive t) t raw =
      Prod.map forgetRx id (recordOptiDelay c (s.arrive t) t raw) := by
    cases raw with
    | none => rfl
    | some raw => rfl
  rw [recordOptiTiming_eq, recordOptiTiming_eq, hdelay]
  have hhealth :=
    recordOptiHealth_forgetRx (c := c) (recordOptiDelay c (s.arrive t) t raw).1 t false
  rw [Prod.map_fst, hhealth]
  rfl

theorem tick_forgetRx (s : View) (t : ℚ) :
    tick c (forgetRx s) t = Prod.map forgetRx id (tick c s t) := by
  unfold tick
  split
  · exact recordOptiHealth_forgetRx s t false
  · rfl

theorem forgetResult_bind {α : Type} (x : Except PyError α)
    {f g : α → Except PyError (View × List Push)}
    (h : ∀ a, forgetResult (f a) = forgetResult (g a)) :
    forgetResult (x >>= f) = forgetResult (x >>= g) := by
  cases x with
  | error e => rfl
  | ok a => exact h a

theorem ingestOpti_forgetRx (s : View) (t : ℚ) (data : Value) (fields : Fields) :
    forgetResult (ingestOpti lib c (forgetRx s) t data fields) =
      forgetResult (ingestOpti lib c s t data fields) := by
  refine forgetResult_bind _ fun pos => forgetResult_bind _ fun q => forgetResult_bind _ fun rpy =>
    forgetResult_bind _ fun raw => ?_
  have htiming : recordOptiTiming c { forgetRx s with lastOptiPos := some (floats pos) } t raw =
      Prod.map forgetRx id (recordOptiTiming c { s with lastOptiPos := some (floats pos) } t raw) :=
    recordOptiTiming_forgetRx { s with lastOptiPos := some (floats pos) } t raw
  dsimp only
  rw [htiming]
  rfl

theorem ingestTopic_forgetRx (s : View) (t : ℚ) (data : Value) (topic : String) (fields : Fields) :
    forgetResult (ingestTopic lib c (forgetRx s) t data topic fields) =
      forgetResult (ingestTopic lib c s t data topic fields) := by
  have hfixed : ingestFixed lib c (forgetRx s) t data topic =
      ingestFixed lib c s t data topic := rfl
  unfold ingestTopic
  rw [hfixed]
  cases ingestFixed lib c s t data topic with
  | some rows => exact forgetResult_bind rows fun pushed => rfl
  | none =>
    refine forgetResult_bind _ fun mocap => ?_
    cases mocap with
    | true => exact ingestOpti_forgetRx s t data fields
    | false =>
      rw [if_neg Bool.false_ne_true, if_neg Bool.false_ne_true]
      split
      · rfl
      · rfl

theorem forgetResult_congr {x y : Except PyError (View × List Push)}
    {f g : View × List Push → Except PyError (View × List Push)}
    (h : forgetResult x = forgetResult y)
    (hfg : ∀ s₁ s₂ pushed, forgetRx s₁ = forgetRx s₂ →
      forgetResult (f (s₁, pushed)) = forgetResult (g (s₂, pushed))) :
    forgetResult (x >>= f) = forgetResult (y >>= g) := by
  cases x with
  | error e =>
    cases y with
    | error e' => exact h
    | ok b => cases h
  | ok a =>
    cases y with
    | error e => cases h
    | ok b =>
      obtain ⟨hview, hpushed⟩ := Prod.mk.inj (Except.ok.inj h)
      obtain ⟨s₁, pushed₁⟩ := a
      obtain ⟨s₂, pushed₂⟩ := b
      obtain rfl : pushed₁ = pushed₂ := hpushed
      exact hfg s₁ s₂ pushed₁ hview

/-- Records are read alike from views that differ in nothing else. -/
theorem ingestReplayRecord_congr {s₁ s₂ : View} (h : forgetRx s₁ = forgetRx s₂)
    (record : ReplayRecord Fields) : forgetResult (ingestReplayRecord lib c s₁ record) =
      forgetResult (ingestReplayRecord lib c s₂ record) := by
  have hforget : ∀ s, forgetResult (ingestReplayRecord lib c s record) =
      forgetResult (ingestReplayRecord lib c (forgetRx s) record) := by
    intro s
    unfold ingestReplayRecord
    rw [tick_forgetRx]
    refine forgetResult_congr (ingestTopic_forgetRx _ _ _ _ _).symm fun s₁ s₂ pushed hs => ?_
    exact congrArg Except.ok (Prod.ext hs rfl)
  rw [hforget s₁, h, ← hforget s₂]

theorem ingestAll_congr {s₁ s₂ : View} (h : forgetRx s₁ = forgetRx s₂)
    (records : List (ReplayRecord Fields)) :
    forgetResult (ingestAll lib c s₁ records) = forgetResult (ingestAll lib c s₂ records) := by
  unfold ingestAll
  induction records generalizing s₁ s₂ with
  | nil => exact congrArg Except.ok (Prod.ext h rfl)
  | cons record records ih =>
    rw [collect_cons, collect_cons]
    refine forgetResult_congr (ingestReplayRecord_congr h record) fun s₁ s₂ pushed hs => ?_
    refine forgetResult_congr (ih hs) fun s₁ s₂ more hs => ?_
    exact congrArg Except.ok (Prod.ext hs rfl)

theorem replayFrom_congr {s₁ s₂ : View} (h : forgetRx s₁ = forgetRx s₂)
    (records : List (ReplayRecord Fields)) (endTime : ℚ) :
    forgetResult (replayFrom lib c s₁ records endTime) =
      forgetResult (replayFrom lib c s₂ records endTime) := by
  refine forgetResult_congr (ingestAll_congr h records) fun s₁ s₂ pushed hs => ?_
  have hhealth : Prod.map forgetRx id (recordOptiHealth c s₁ endTime true) =
      Prod.map forgetRx id (recordOptiHealth c s₂ endTime true) := by
    rw [← recordOptiHealth_forgetRx, hs, recordOptiHealth_forgetRx]
  obtain ⟨hview, hrows⟩ := Prod.ext_iff.mp hhealth
  dsimp only [Prod.map_fst, Prod.map_snd, id] at hview hrows
  dsimp only
  split
  · rw [hrows]
    exact congrArg Except.ok (Prod.ext hview rfl)
  · exact congrArg Except.ok (Prod.ext hs rfl)

/-- The rows alone. -/
theorem rows_congr {s₁ s₂ : View} (h : forgetRx s₁ = forgetRx s₂)
    (records : List (ReplayRecord Fields)) (endTime : ℚ) :
    (replayFrom lib c s₁ records endTime).map Prod.snd =
      (replayFrom lib c s₂ records endTime).map Prod.snd := by
  have hrows : ∀ x : Except PyError (View × List Push),
      x.map Prod.snd = (forgetResult x).map Prod.snd := by
    intro x
    cases x with
    | error e => rfl
    | ok a => rfl
  rw [hrows, replayFrom_congr h, ← hrows]

end Later

/-! ## What a record leaves behind -/

open Classical in
/-- When the last sample was, after a record with the time `t`. -/
noncomputable def sampled (last : Option ℚ) (t : ℚ) : Option ℚ :=
  if Pacing.Due optiHealthSpacingSec last t then some t else last

section Record

variable {lib : TextLibrary} {c : Config} {s s' : View} {record : ReplayRecord Fields}
  {pushed : List Push}

theorem healthRowsIn_recordOptiDelay (s : View) (t : ℚ) (raw : Option ℝ) :
    healthRowsIn (recordOptiDelay c s t raw).2 = [] := by
  cases raw with
  | none => rfl
  | some raw => rfl

theorem optiRateWindowSec_ge (c : Config) : (1 / 10 : ℚ) ≤ c.optiRateWindowSec := le_max_left _ _

theorem healthRows_injective (t : ℚ) : Function.Injective (healthRows c t) := by
  intro a b h
  have hw : c.optiRateWindowSec ≠ 0 := by linarith [optiRateWindowSec_ge c]
  have hrate : (a : ℚ) / c.optiRateWindowSec = b / c.optiRateWindowSec := by
    have hrow := (Push.mk.inj (List.cons.inj h).1).2.2
    injection hrow with hcell _
    injection hcell with hreal
    exact_mod_cast hreal
  have hcount : (a : ℚ) = b := (div_left_inj' hw).mp hrate
  exact_mod_cast hcount

theorem healthRowsIn_healthRows (t : ℚ) (count : ℕ) :
    healthRowsIn (healthRows c t count) = healthRows c t count := rfl

theorem tick_of_sim (h : c.realMode = false) (t : ℚ) : tick c s t = (s, []) := by
  unfold tick
  rw [h]
  rfl

theorem tick_of_real (h : c.realMode = true) (t : ℚ) :
    tick c s t = recordOptiHealth c s t false :=
  if_pos h

/-- A record that is no mocap record leaves nothing behind but what the sample before it does. -/
theorem ingest_of_not_mocap (hm : ¬ IsMocap lib record.record.data)
    (h : ingestReplayRecord lib c s record = .ok (s', pushed)) :
    forgetRx s' = forgetRx (tick c s record.replayT).1 ∧
      healthRowsIn pushed = healthRowsIn (tick c s record.replayT).2 := by
  obtain ⟨⟨view, more⟩, htopic, hpure⟩ := bind_eq_ok.mp h
  obtain ⟨rfl, rfl⟩ := Prod.mk.inj (Except.ok.inj hpure)
  rcases ingestTopic_cases htopic with ⟨-, hview, hown⟩ | ⟨hmocap, -⟩
  · refine ⟨?_, by rw [healthRowsIn_append, (rowsIn_of_noStatistic hown).2, List.append_nil]⟩
    rcases hview with rfl | rfl
    · rfl
    · rfl
  · exact absurd hmocap hm

/-- A mocap record is noted after that sample. -/
theorem ingest_of_mocap (hm : IsMocap lib record.record.data)
    (h : ingestReplayRecord lib c s record = .ok (s', pushed)) :
    ∃ pos, s' = (recordOptiTiming c { (tick c s record.replayT).1 with lastOptiPos := some pos }
        record.replayT (delayOf lib record.record.data)).1 ∧
      healthRowsIn pushed = healthRowsIn (tick c s record.replayT).2 ++
        healthRowsIn (recordOptiTiming c
          { (tick c s record.replayT).1 with lastOptiPos := some pos } record.replayT
            (delayOf lib record.record.data)).2 := by
  obtain ⟨⟨view, more⟩, htopic, hpure⟩ := bind_eq_ok.mp h
  obtain ⟨rfl, rfl⟩ := Prod.mk.inj (Except.ok.inj hpure)
  rcases ingestTopic_cases htopic with ⟨hnot, -⟩ | ⟨-, pos, row, row', hview, hpushed⟩
  · exact absurd hm hnot
  · refine ⟨pos, hview, ?_⟩
    rw [hpushed, healthRowsIn_append, healthRowsIn_append]
    rfl

theorem recordOptiHealth_lastSample (s : View) (t : ℚ) :
    (recordOptiHealth c s t false).1.lastOptiHealthSampleT = sampled s.lastOptiHealthSampleT t := by
  by_cases hdue : Pacing.Due optiHealthSpacingSec s.lastOptiHealthSampleT t
  · rw [recordOptiHealth_of_due (Or.inr hdue), sampled, if_pos hdue]
  · rw [recordOptiHealth_of_not_due hdue, sampled, if_neg hdue]

theorem recordOptiTiming_lastSample (s : View) (t : ℚ) (raw : Option ℝ) :
    (recordOptiTiming c s t raw).1.lastOptiHealthSampleT = sampled s.lastOptiHealthSampleT t := by
  rw [recordOptiTiming_eq, recordOptiHealth_lastSample, recordOptiDelay_lastSample]
  rfl

theorem recordOptiTiming_arrivals (s : View) (t : ℚ) (raw : Option ℝ) :
    (recordOptiTiming c s t raw).1.optiArrivalTimes =
      prune id (t - c.optiRateWindowSec) (s.optiArrivalTimes ++ [t]) := by
  rw [recordOptiTiming_eq, recordOptiHealth_arrivals, recordOptiDelay_arrivals]
  rfl

/-- It is not time for a second sample. -/
theorem sampled_sampled (last : Option ℚ) (t : ℚ) :
    sampled (sampled last t) t = sampled last t := by
  by_cases hdue : Pacing.Due optiHealthSpacingSec last t
  · have hlast : sampled last t = some t := if_pos hdue
    rw [hlast]
    exact if_neg not_due_now
  · have hlast : sampled last t = last := if_neg hdue
    rw [hlast, hlast]

/-- What a record with a sample leaves of the queue of arrivals, and when the last sample was. -/
theorem ingest_sampled (hs : c.realMode = true ∨ IsMocap lib record.record.data)
    (h : ingestReplayRecord lib c s record = .ok (s', pushed)) :
    s'.lastOptiHealthSampleT = sampled s.lastOptiHealthSampleT record.replayT ∧
      s'.optiArrivalTimes = prune id (record.replayT - c.optiRateWindowSec)
        (s.optiArrivalTimes ++ arrivalOf lib record) := by
  by_cases hm : IsMocap lib record.record.data
  · obtain ⟨pos, rfl, -⟩ := ingest_of_mocap hm h
    rw [recordOptiTiming_lastSample, recordOptiTiming_arrivals, arrivalOf, if_pos hm]
    cases hreal : c.realMode with
    | true =>
      rw [tick_of_real hreal]
      dsimp only
      rw [recordOptiHealth_lastSample, recordOptiHealth_arrivals, sampled_sampled,
        prune_prune_append le_rfl]
      exact ⟨rfl, rfl⟩
    | false =>
      rw [tick_of_sim hreal]
      exact ⟨rfl, rfl⟩
  · have hreal := hs.resolve_right hm
    obtain ⟨hview, -⟩ := ingest_of_not_mocap hm h
    rw [tick_of_real hreal] at hview
    have hlast : (forgetRx s').lastOptiHealthSampleT = s'.lastOptiHealthSampleT := rfl
    have harrivals : (forgetRx s').optiArrivalTimes = s'.optiArrivalTimes := rfl
    rw [← hlast, ← harrivals, hview, arrivalOf, if_neg hm, List.append_nil]
    exact ⟨recordOptiHealth_lastSample s record.replayT,
      recordOptiHealth_arrivals c s record.replayT false⟩

end Record

/-! ## Which records have no later effect -/

/-- From both views the same rows are pushed, whatever is handed over from there on. -/
def SameRows (lib : TextLibrary) (c : Config) (s s' : View) : Prop :=
  ∀ later endTime, (replayFrom lib c s later endTime).map Prod.snd =
    (replayFrom lib c s' later endTime).map Prod.snd

/-- In every view that the replay of `earlier` reaches, the record makes no difference to the rows
    that are pushed after it. -/
def NoLaterEffect (lib : TextLibrary) (c : Config) (earlier : List (ReplayRecord Fields))
    (record : ReplayRecord Fields) : Prop :=
  ∀ s pushed s' own, ingestAll lib c View.reset earlier = .ok (s, pushed) →
    ingestReplayRecord lib c s record = .ok (s', own) → SameRows lib c s' s

/-- It is not time for a health sample, and all the arrivals in the queue are in the window. -/
structure Quiet (c : Config) (s : View) (t : ℚ) : Prop where
  notDue : ¬ Pacing.Due optiHealthSpacingSec s.lastOptiHealthSampleT t
  arrivals : prune id (t - c.optiRateWindowSec) s.optiArrivalTimes = s.optiArrivalTimes

section NoLaterEffect

variable {lib : TextLibrary} {c : Config} {s s' : View} {record : ReplayRecord Fields}
  {own : List Push}

theorem tick_of_quiet {t : ℚ} (h : c.realMode = true → Quiet c s t) : tick c s t = (s, []) := by
  cases hreal : c.realMode with
  | false => exact tick_of_sim hreal t
  | true =>
    rw [tick_of_real hreal, recordOptiHealth_of_not_due (h hreal).notDue, (h hreal).arrivals]

theorem noLaterEffect_of_quiet {earlier : List (ReplayRecord Fields)}
    (hm : ¬ IsMocap lib record.record.data)
    (hquiet : ∀ s pushed, ingestAll lib c View.reset earlier = .ok (s, pushed) →
      c.realMode = true → Quiet c s record.replayT) : NoLaterEffect lib c earlier record := by
  intro s pushed s' own hs hok later endTime
  obtain ⟨hview, -⟩ := ingest_of_not_mocap hm hok
  rw [tick_of_quiet (hquiet s pushed hs)] at hview
  exact rows_congr hview later endTime

/-- The closing sample of a replay that hands over nothing more. -/
theorem replayFrom_nil (hreal : c.realMode = true) (s : View) (endTime : ℚ) :
    (replayFrom lib c s [] endTime).map Prod.snd =
      .ok (healthRows c endTime
        (prune id (endTime - c.optiRateWindowSec) s.optiArrivalTimes).length) := by
  have hclosing := recordOptiHealth_of_due (c := c) (s := s) (t := endTime) (Or.inl rfl)
  unfold replayFrom
  show Except.map _ (if c.realMode = true then _ else _) = _
  rw [if_pos hreal, hclosing]
  rfl

/-- In real mode a record has no effect on the rows after it only if as many arrivals are left
    with it as without it, whenever the replay ends. -/
theorem arrivals_of_rows (hreal : c.realMode = true)
    (h : SameRows lib c s' s) (t : ℚ) :
    (prune id (t - c.optiRateWindowSec) s'.optiArrivalTimes).length =
      (prune id (t - c.optiRateWindowSec) s.optiArrivalTimes).length := by
  have hrows := h [] t
  rw [replayFrom_nil hreal, replayFrom_nil hreal] at hrows
  have hhz := congrArg healthRowsIn (Except.ok.inj hrows)
  rw [healthRowsIn_healthRows, healthRowsIn_healthRows] at hhz
  exact healthRows_injective t hhz

/-- A record that only brings the sample of the timer. -/
def manualRecord (t : ℚ) : ReplayRecord Fields :=
  ⟨⟨none, none, none, [("topic", .str "/fmu/out/manual_control_setpoint")]⟩, t⟩

theorem topicOf_manualRecord (t : ℚ) :
    topicOf lib (manualRecord t).record.data = "/fmu/out/manual_control_setpoint" :=
  lib.str_str _

theorem readable_manualRecord (t : ℚ) : Readable lib c (manualRecord t).record.data := by
  unfold Readable
  rw [topicOf_manualRecord]
  exact ⟨[], rfl, fun v hv => (nomatch hv), fun v hv => (nomatch hv)⟩

theorem not_isMocap_manualRecord (t : ℚ) : ¬ IsMocap lib (manualRecord t).record.data := by
  rintro ⟨hfixed, -⟩
  rw [topicOf_manualRecord] at hfixed
  exact hfixed (by decide)

/-- The rates of a replay of that record. -/
theorem healthRowsIn_manualRecord (lib : TextLibrary) (hreal : c.realMode = true) (s : View)
    (t : ℚ) :
    ∃ rows count, (replayFrom lib c s [manualRecord t] t).map Prod.snd = .ok rows ∧
      healthRowsIn rows =
        healthRowsIn (recordOptiHealth c s t false).2 ++ healthRows c t count := by
  obtain ⟨⟨s', own⟩, hok⟩ : Returns (ingestReplayRecord lib c s (manualRecord t)) :=
    returns_ingestReplayRecord.mpr (readable_manualRecord t)
  obtain ⟨-, hown⟩ := ingest_of_not_mocap (not_isMocap_manualRecord t) hok
  rw [tick_of_real hreal] at hown
  have hclosing := recordOptiHealth_of_due (c := c) (s := s') (t := t) (Or.inl rfl)
  refine ⟨own ++ (recordOptiHealth c s' t true).2,
    (prune id (t - c.optiRateWindowSec) s'.optiArrivalTimes).length, ?_, ?_⟩
  · unfold replayFrom ingestAll
    rw [collect_singleton, hok]
    show Except.map _ (if c.realMode = true then _ else _) = _
    rw [if_pos hreal]
    rfl
  · rw [healthRowsIn_append, hown, hclosing, healthRowsIn_healthRows]
    rfl

/-- A sample that comes with the record keeps the next one from coming. -/
theorem not_due_of_rows (hreal : c.realMode = true)
    (hok : ingestReplayRecord lib c s record = .ok (s', own))
    (h : SameRows lib c s' s) :
    ¬ Pacing.Due optiHealthSpacingSec s.lastOptiHealthSampleT record.replayT := by
  intro hdue
  obtain ⟨hlast, -⟩ := ingest_sampled (Or.inl hreal) hok
  rw [sampled, if_pos hdue] at hlast
  have hnot : ¬ Pacing.Due optiHealthSpacingSec s'.lastOptiHealthSampleT record.replayT :=
    hlast ▸ not_due_now
  obtain ⟨rows, count, hrows, hhz⟩ := healthRowsIn_manualRecord lib hreal s record.replayT
  obtain ⟨rows', count', hrows', hhz'⟩ := healthRowsIn_manualRecord lib hreal s' record.replayT
  have hsame := h [manualRecord record.replayT] record.replayT
  rw [hrows, hrows'] at hsame
  have hlength := congrArg (List.length ∘ healthRowsIn) (Except.ok.inj hsame)
  rw [Function.comp_apply, Function.comp_apply, hhz, hhz', recordOptiHealth_of_due (Or.inr hdue),
    recordOptiHealth_of_not_due hnot] at hlength
  cases hlength

/-- In real mode a mocap record is counted as soon as the replay ends, whatever else it says. -/
theorem not_mocap_of_rows_real (hreal : c.realMode = true)
    (hok : ingestReplayRecord lib c s record = .ok (s', own))
    (h : SameRows lib c s' s) : ¬ IsMocap lib record.record.data := by
  intro hm
  have hw := optiRateWindowSec_ge c
  obtain ⟨-, harrivals⟩ := ingest_sampled (Or.inl hreal) hok
  have hlength := arrivals_of_rows hreal h record.replayT
  rw [harrivals, arrivalOf, if_pos hm, prune_prune le_rfl,
    prune_concat (by show _ ≤ record.replayT; linarith), List.length_append] at hlength
  exact absurd hlength (Nat.succ_ne_self _)

/-- In real mode the sample that comes with the record drops no arrivals. -/
theorem quiet_of_rows (hreal : c.realMode = true)
    (hok : ingestReplayRecord lib c s record = .ok (s', own))
    (h : SameRows lib c s' s) : Quiet c s record.replayT := by
  refine ⟨not_due_of_rows hreal hok h, ?_⟩
  have hw := optiRateWindowSec_ge c
  obtain ⟨-, harrivals⟩ := ingest_sampled (Or.inl hreal) hok
  rw [arrivalOf, if_neg (not_mocap_of_rows_real hreal hok h), List.append_nil] at harrivals
  cases hqueue : s.optiArrivalTimes with
  | nil => rfl
  | cons first rest =>
    have hlength := arrivals_of_rows hreal h first
    have hkept : prune id (first - c.optiRateWindowSec) (first :: rest) = first :: rest :=
      prune_cons_of_le (by show _ ≤ first; linarith) rest
    rw [harrivals, hqueue, hkept] at hlength
    refine (List.dropWhile_suffix _).eq_of_length_le ?_
    rw [← hlength]
    exact length_prune_le _ _

/-- A replay of one record in sim mode. -/
theorem replayFrom_sim (hreal : c.realMode = false)
    (hok : ingestReplayRecord lib c s record = .ok (s', own)) (endTime : ℚ) :
    (replayFrom lib c s [record] endTime).map Prod.snd = .ok own := by
  unfold replayFrom ingestAll
  rw [collect_singleton, hok]
  show Except.map _ (if c.realMode = true then _ else _) = _
  rw [if_neg (hreal ▸ Bool.false_ne_true)]
  rfl

/-- The rate that comes with a mocap record in sim mode, when it is time. -/
theorem healthRowsIn_mocap (hreal : c.realMode = false) (hm : IsMocap lib record.record.data)
    (hdue : Pacing.Due optiHealthSpacingSec s.lastOptiHealthSampleT record.replayT)
    (hok : ingestReplayRecord lib c s record = .ok (s', own)) :
    healthRowsIn own = healthRows c record.replayT
      (prune id (record.replayT - c.optiRateWindowSec)
        (s.optiArrivalTimes ++ [record.replayT])).length := by
  obtain ⟨pos, -, hown⟩ := ingest_of_mocap hm hok
  rw [tick_of_sim hreal] at hown
  rw [hown, recordOptiTiming_eq, healthRowsIn_append, healthRowsIn_recordOptiDelay,
    recordOptiHealth_of_due, recordOptiDelay_arrivals, healthRowsIn_healthRows]
  · rfl
  · rw [recordOptiDelay_lastSample]
    exact Or.inr hdue

/-- The next rate in sim mode counts a mocap record, if it is still in the queue. -/
theorem rows_differ_of_mocap (hreal : c.realMode = false)
    (hread : Readable lib c record.record.data) (hm : IsMocap lib record.record.data)
    (hok : ingestReplayRecord lib c s record = .ok (s', own)) {t : ℚ} (ht : record.replayT ≤ t)
    (hdue : Pacing.Due optiHealthSpacingSec s.lastOptiHealthSampleT t)
    (hdue' : Pacing.Due optiHealthSpacingSec s'.lastOptiHealthSampleT t)
    (hkept : prune id (t - c.optiRateWindowSec) (s.optiArrivalTimes ++ [record.replayT]) =
      prune id (t - c.optiRateWindowSec) s.optiArrivalTimes ++ [record.replayT]) :
    ¬ SameRows lib c s' s := by
  intro h
  have hw := optiRateWindowSec_ge c
  have hlast : t - c.optiRateWindowSec ≤ id t := by
    show _ ≤ t
    linarith
  -- the same record once more
  obtain ⟨again, hdata, htime⟩ : ∃ again : ReplayRecord Fields,
      again.record = record.record ∧ again.replayT = t := ⟨⟨record.record, t⟩, rfl, rfl⟩
  rw [← hdata] at hread hm
  obtain ⟨⟨s₁, own₁⟩, hok₁⟩ : Returns (ingestReplayRecord lib c s again) :=
    returns_ingestReplayRecord.mpr hread
  obtain ⟨⟨s₂, own₂⟩, hok₂⟩ : Returns (ingestReplayRecord lib c s' again) :=
    returns_ingestReplayRecord.mpr hread
  obtain ⟨-, harrivals⟩ := ingest_sampled (Or.inr (hdata ▸ hm)) hok
  have hsame := h [again] t
  rw [replayFrom_sim hreal hok₁, replayFrom_sim hreal hok₂] at hsame
  have hhz := congrArg healthRowsIn (Except.ok.inj hsame)
  rw [healthRowsIn_mocap hreal hm (htime ▸ hdue) hok₁,
    healthRowsIn_mocap hreal hm (htime ▸ hdue') hok₂, htime] at hhz
  have hlength := healthRows_injective t hhz
  rw [harrivals, arrivalOf, if_pos (hdata ▸ hm), prune_prune_append (by linarith),
    prune_concat hlast, prune_concat hlast, hkept, List.length_append, List.length_append,
    List.length_append] at hlength
  exact absurd hlength (Nat.succ_ne_self _)

/-- In sim mode the last sample was taken at a mocap record that is still in the queue. -/
theorem lastSample_mem (hreal : c.realMode = false) {records : List (ReplayRecord Fields)}
    {pushed : List Push} (hs : ∀ last ∈ s.lastOptiHealthSampleT, last ∈ s.optiArrivalTimes)
    (h : ingestAll lib c s records = .ok (s', pushed)) :
    ∀ last ∈ s'.lastOptiHealthSampleT, last ∈ s'.optiArrivalTimes := by
  unfold ingestAll at h
  induction records generalizing s pushed with
  | nil =>
    obtain ⟨rfl, -⟩ := Prod.mk.inj (Except.ok.inj h)
    exact hs
  | cons record records ih =>
    rw [collect_cons] at h
    obtain ⟨⟨s₁, own⟩, hok, h⟩ := bind_eq_ok.mp h
    obtain ⟨⟨s₂, more⟩, hrest, h⟩ := bind_eq_ok.mp h
    obtain ⟨rfl, -⟩ := Prod.mk.inj (Except.ok.inj h)
    refine ih ?_ hrest
    by_cases hm : IsMocap lib record.record.data
    · have hw := optiRateWindowSec_ge c
      obtain ⟨hlast, harrivals⟩ := ingest_sampled (Or.inr hm) hok
      rw [hlast, harrivals, arrivalOf, if_pos hm, sampled]
      split
      · rintro last ⟨⟩
        exact mem_prune (List.mem_append_right _ List.mem_cons_self)
          (by show _ ≤ record.replayT; linarith)
      · rename_i hnot
        intro last hlast
        refine mem_prune (List.mem_append_left _ (hs last hlast)) ?_
        -- not due means that it was a short while ago
        have hshort : record.replayT - last < optiHealthSpacingSec := by
          refine not_le.mp fun hle => hnot fun u hu => ?_
          obtain rfl : last = u := Option.some.inj (hlast.symm.trans hu)
          exact hle
        have hspacing : optiHealthSpacingSec = 1 / 25 := by
          norm_num [optiHealthSpacingSec, optiHealthUpdateSec]
        show _ ≤ last
        linarith
    · obtain ⟨hview, -⟩ := ingest_of_not_mocap hm hok
      rw [tick_of_sim hreal] at hview
      have hlast : (forgetRx s₁).lastOptiHealthSampleT = s₁.lastOptiHealthSampleT := rfl
      have harrivals : (forgetRx s₁).optiArrivalTimes = s₁.optiArrivalTimes := rfl
      rw [← hlast, ← harrivals, hview]
      exact hs

/-- In sim mode a mocap record is an arrival, whatever else it says. -/
theorem not_mocap_of_rows_sim (hreal : c.realMode = false)
    (hs : ∀ last ∈ s.lastOptiHealthSampleT, last ∈ s.optiArrivalTimes)
    (hread : Readable lib c record.record.data)
    (hok : ingestReplayRecord lib c s record = .ok (s', own))
    (h : SameRows lib c s' s) : ¬ IsMocap lib record.record.data := by
  intro hm
  have hw := optiRateWindowSec_ge c
  have hspacing : optiHealthSpacingSec = 1 / 25 := by
    norm_num [optiHealthSpacingSec, optiHealthUpdateSec]
  obtain ⟨hlast, -⟩ := ingest_sampled (Or.inr hm) hok
  by_cases hdue : Pacing.Due optiHealthSpacingSec s.lastOptiHealthSampleT record.replayT
  · rw [sampled, if_pos hdue] at hlast
    refine rows_differ_of_mocap hreal hread hm hok (t := record.replayT + 1 / 20) (by linarith)
      ?_ ?_ (prune_concat ?_ _) h
    · intro u hu
      linarith [hdue u hu]
    · rw [hlast]
      rintro u ⟨⟩
      linarith
    · show _ ≤ record.replayT
      linarith
  · rw [sampled, if_neg hdue] at hlast
    obtain ⟨last, hsome, hshort⟩ : ∃ last ∈ s.lastOptiHealthSampleT,
        ¬ optiHealthSpacingSec ≤ record.replayT - last := by
      simpa [Pacing.Due] using hdue
    have hagain : Pacing.Due optiHealthSpacingSec s.lastOptiHealthSampleT (last + 1 / 20) := by
      intro u hu
      obtain rfl : last = u := Option.some.inj (hsome.symm.trans hu)
      linarith
    refine rows_differ_of_mocap hreal hread hm hok (t := last + 1 / 20) (by linarith) hagain
      (hlast ▸ hagain) (prune_append_of_mem (hs last hsome) ?_ _) h
    show _ ≤ last
    linarith

end NoLaterEffect

/-- A record that raises no exception has no effect on later rows if and only if it is no mocap
    record, and in real mode the sample that comes with it changes nothing. -/
theorem noLaterEffect_iff {lib : TextLibrary} {c : Config} {earlier : List (ReplayRecord Fields)}
    {record : ReplayRecord Fields}
    (hearlier : ∀ k ∈ earlier, Readable lib c k.record.data)
    (hread : Readable lib c record.record.data) :
    NoLaterEffect lib c earlier record ↔ ¬ IsMocap lib record.record.data ∧
      ∀ s pushed, ingestAll lib c View.reset earlier = .ok (s, pushed) →
        c.realMode = true → Quiet c s record.replayT := by
  constructor
  · intro h
    have hrows : ∀ s pushed, ingestAll lib c View.reset earlier = .ok (s, pushed) →
        ∃ s' own, ingestReplayRecord lib c s record = .ok (s', own) ∧ SameRows lib c s' s := by
      intro s pushed hs
      obtain ⟨⟨s', own⟩, hok⟩ : Returns (ingestReplayRecord lib c s record) :=
        returns_ingestReplayRecord.mpr hread
      exact ⟨s', own, hok, h s pushed s' own hs hok⟩
    refine ⟨?_, fun s pushed hs hreal => ?_⟩
    · obtain ⟨⟨s, pushed⟩, hs⟩ : Returns (ingestAll lib c View.reset earlier) :=
        returns_ingestAll.mpr hearlier
      obtain ⟨s', own, hok, hrows⟩ := hrows s pushed hs
      cases hreal : c.realMode with
      | true => exact not_mocap_of_rows_real hreal hok hrows
      | false =>
        refine not_mocap_of_rows_sim hreal (lastSample_mem hreal ?_ hs) hread hok hrows
        rintro last ⟨⟩
    · obtain ⟨s', own, hok, hrows⟩ := hrows s pushed hs
      exact quiet_of_rows hreal hok hrows
  · exact fun h => noLaterEffect_of_quiet h.1 h.2

end Raw

end Viewer

end Hummingbird
