/-
  The warm-up of a replay: `apply_replay_range` of `px4_multirotor_viewer.py` begins early enough
  for the statistics of the mocap stream to have full windows at the start of the range.

  `ingested` says what one record does to the two queues, in terms of all that has arrived, and
  `ingested_all` what the loop does. A replay of everything up to the same end has only
  more that has arrived before the warm-up, which is too old for both windows.
-/
import Hummingbird.Viewer.DamagedLog
import Hummingbird.Viewer.OptiHealth

namespace Hummingbird

namespace Viewer

namespace Raw

open Raising Window

/-! ## What arrives with a record -/

section Arrivals

variable (lib : TextLibrary) (record : ReplayRecord Fields)

/-- The delay of a mocap record. -/
noncomputable def rawDelayOf : Option ℝ :=
  if IsMocap lib record.record.data then delayOf lib record.record.data else none

/-- The arrivals of a list of records. -/
def arrivalsOf (records : List (ReplayRecord Fields)) : List ℚ := records.flatMap (arrivalOf lib)

/-- The delays of a list of records, with their times. -/
noncomputable def delaysOf (records : List (ReplayRecord Fields)) : List (ℚ × ℝ) :=
  records.flatMap fun record => delayEntry record.replayT (rawDelayOf lib record)

end Arrivals

/-- The delay rows of a list of records, from the `delays` before it. -/
noncomputable def delayRowsOf (lib : TextLibrary) (c : Config) :
    List (ℚ × ℝ) → List (ReplayRecord Fields) → List Push
  | _, [] => []
  | delays, record :: records =>
    let now := delays ++ delayEntry record.replayT (rawDelayOf lib record)
    delayRows c record.replayT now (rawDelayOf lib record) ++ delayRowsOf lib c now records

/-! ## One record -/

section Rows

variable {c : Config} {t : ℚ}

theorem rowsIn_delayRows (delays : List (ℚ × ℝ)) (raw : Option ℝ) :
    delayRowsIn (delayRows c t delays raw) = delayRows c t delays raw ∧
      healthRowsIn (delayRows c t delays raw) = [] := by
  have hbuffer := delayRows_buffer (c := c) (t := t) delays raw
  constructor
  · apply List.filter_eq_self.mpr
    exact fun p hp => decide_eq_true (hbuffer p hp)
  · apply List.filter_eq_nil_iff.mpr
    intro p hp
    rw [hbuffer p hp]
    decide

end Rows

section Record

variable {lib : TextLibrary} {c : Config} {s s' : View} {record : ReplayRecord Fields}
  {pushed : List Push} {arrivals : List ℚ} {delays : List (ℚ × ℝ)} {t : ℚ}

/-- What a record leaves of all that has arrived, and what it pushes, in terms of that. -/
structure Ingested (lib : TextLibrary) (c : Config) (arrivals : List ℚ) (delays : List (ℚ × ℝ))
    (record : ReplayRecord Fields) (s' : View) (pushed : List Push) : Prop where
  windows : Windows c (arrivals ++ arrivalOf lib record)
    (delays ++ delayEntry record.replayT (rawDelayOf lib record)) record.replayT s'
  arrivalTimes : s'.optiArrivalTimes =
    prune id (record.replayT - c.optiRateWindowSec) (arrivals ++ arrivalOf lib record)
  delay : delayRowsIn pushed = delayRows c record.replayT
    (delays ++ delayEntry record.replayT (rawDelayOf lib record)) (rawDelayOf lib record)
  health : healthRowsIn pushed = [] ∨ healthRowsIn pushed = healthRows c record.replayT
    (prune id (record.replayT - c.optiRateWindowSec) arrivals).length

/-- The rows of the timer's sample. -/
theorem rowsIn_recordOptiHealth (hw : Windows c arrivals delays t s) :
    delayRowsIn (recordOptiHealth c s t false).2 = [] ∧
      (healthRowsIn (recordOptiHealth c s t false).2 = [] ∨
        healthRowsIn (recordOptiHealth c s t false).2 =
          healthRows c t (prune id (t - c.optiRateWindowSec) arrivals).length) := by
  obtain ⟨-, hpruned⟩ := hw.recordOptiHealth false
  rcases recordOptiHealth_rows c s t false with hnone | hrows
  · rw [hnone]
    exact ⟨rfl, Or.inl rfl⟩
  · rw [hrows, hpruned]
    exact ⟨rfl, Or.inr rfl⟩

/-- In real mode every record brings the windows up to date. -/
theorem ingested (hreal : c.realMode = true) (hw : Windows c arrivals delays t s)
    (ht : t ≤ record.replayT) (h : ingestReplayRecord lib c s record = .ok (s', pushed)) :
    Ingested lib c arrivals delays record s' pushed := by
  obtain ⟨⟨view, more⟩, htopic, hpure⟩ := bind_eq_ok.mp h
  obtain ⟨rfl, rfl⟩ := Prod.mk.inj (Except.ok.inj hpure)
  have htick : tick c s record.replayT = recordOptiHealth c s record.replayT false := if_pos hreal
  have hnow := hw.later ht
  obtain ⟨hdelayTick, hhealthTick⟩ := rowsIn_recordOptiHealth hnow
  obtain ⟨hticked, hpruned⟩ := hnow.recordOptiHealth false
  have harrivals := recordOptiHealth_arrivals c s record.replayT false
  have hagain := not_due_again (c := c) (s := s) (t := record.replayT)
  rw [hpruned] at harrivals
  rw [htick] at htopic ⊢
  generalize recordOptiHealth c s record.replayT false = ticked at *
  rcases ingestTopic_cases htopic with ⟨hnot, hview, hno⟩ | ⟨hm, pos, row, row', hview, hpushed⟩
  · have hnone : arrivalOf lib record = [] ∧ rawDelayOf lib record = none :=
      ⟨if_neg hnot, if_neg hnot⟩
    obtain ⟨hdelay, hhealth⟩ := rowsIn_of_noStatistic hno
    have hsame : view.optiArrivalTimes = ticked.1.optiArrivalTimes ∧
        view.optiDelayWindow = ticked.1.optiDelayWindow := by
      rcases hview with rfl | rfl
      · exact ⟨rfl, rfl⟩
      · exact ⟨rfl, rfl⟩
    constructor
    · rw [hnone.1, hnone.2, delayEntry, Option.map_none, Option.toList_none, List.append_nil,
        List.append_nil]
      exact ⟨hsame.1 ▸ hticked.arrivals, hsame.2 ▸ hticked.delays⟩
    · rw [hnone.1, List.append_nil, hsame.1, harrivals]
    · rw [delayRowsIn_append, hdelayTick, hdelay, hnone.2]
      rfl
    · rw [healthRowsIn_append, hhealth, List.append_nil]
      exact hhealthTick
  · have hsome : arrivalOf lib record = [record.replayT] ∧
        rawDelayOf lib record = delayOf lib record.record.data := ⟨if_pos hm, if_pos hm⟩
    have hposed : Windows c arrivals delays record.replayT
        { ticked.1 with lastOptiPos := some pos } := ⟨hticked.arrivals, hticked.delays⟩
    obtain ⟨hwindows, harrived, hrows⟩ :=
      hposed.recordOptiTiming hagain (delayOf lib record.record.data)
    obtain ⟨hdelay, hhealth⟩ := rowsIn_delayRows (c := c) (t := record.replayT)
      (delays ++ delayEntry record.replayT (delayOf lib record.record.data))
      (delayOf lib record.record.data)
    have hposes : delayRowsIn [⟨.optiPos, record.replayT, row⟩, ⟨.optiRpy, record.replayT, row'⟩] =
        [] ∧ healthRowsIn [⟨.optiPos, record.replayT, row⟩, ⟨.optiRpy, record.replayT, row'⟩] =
        [] := ⟨rfl, rfl⟩
    rw [hview, hpushed, hrows]
    constructor
    · rw [hsome.1, hsome.2]
      exact hwindows
    · rw [hsome.1]
      exact harrived
    · rw [delayRowsIn_append, delayRowsIn_append, hdelayTick, hposes.1, hdelay, hsome.2]
      rfl
    · rw [healthRowsIn_append, healthRowsIn_append, hposes.2, hhealth, List.append_nil,
        List.append_nil]
      exact hhealthTick

end Record

/-! ## The loop -/

section Loop

variable {lib : TextLibrary} {c : Config} {records old : List (ReplayRecord Fields)}

theorem arrivalsOf_append (a b : List (ReplayRecord Fields)) :
    arrivalsOf lib (a ++ b) = arrivalsOf lib a ++ arrivalsOf lib b := List.flatMap_append

theorem delaysOf_append (a b : List (ReplayRecord Fields)) :
    delaysOf lib (a ++ b) = delaysOf lib a ++ delaysOf lib b := List.flatMap_append

theorem delayRowsOf_append (delays : List (ℚ × ℝ)) (a b : List (ReplayRecord Fields)) :
    delayRowsOf lib c delays (a ++ b) =
      delayRowsOf lib c delays a ++ delayRowsOf lib c (delays ++ delaysOf lib a) b := by
  induction a generalizing delays with
  | nil =>
    show delayRowsOf lib c delays b = delayRowsOf lib c (delays ++ []) b
    rw [List.append_nil]
  | cons record a ih =>
    have hdelays : delaysOf lib (record :: a) =
        delayEntry record.replayT (rawDelayOf lib record) ++ delaysOf lib a := List.flatMap_cons
    rw [List.cons_append, delayRowsOf, delayRowsOf, ih, hdelays, List.append_assoc,
      List.append_assoc]

/-- The loop over records whose times do not go back. -/
theorem ingested_all (hreal : c.realMode = true) {s s' : View} {pushed : List Push}
    {arrivals : List ℚ} {delays : List (ℚ × ℝ)} {t t' : ℚ} (hw : Windows c arrivals delays t s)
    (ht : t ≤ t') (hsorted : records.Pairwise fun a b => a.replayT ≤ b.replayT)
    (hrange : ∀ record ∈ records, t ≤ record.replayT ∧ record.replayT ≤ t')
    (h : ingestAll lib c s records = .ok (s', pushed)) :
    Windows c (arrivals ++ arrivalsOf lib records) (delays ++ delaysOf lib records) t' s' ∧
      delayRowsIn pushed = delayRowsOf lib c delays records := by
  induction records generalizing s pushed arrivals delays t with
  | nil =>
    cases h
    rw [arrivalsOf, delaysOf, List.flatMap_nil, List.flatMap_nil, List.append_nil, List.append_nil]
    exact ⟨hw.later ht, rfl⟩
  | cons record records ih =>
    obtain ⟨hnext, hsorted⟩ := List.pairwise_cons.mp hsorted
    obtain ⟨hrecord, hrange⟩ := List.forall_mem_cons.mp hrange
    unfold ingestAll at h
    rw [collect_cons] at h
    obtain ⟨⟨s₁, first⟩, hfirst, h⟩ := bind_eq_ok.mp h
    obtain ⟨⟨s₂, rest⟩, hrest, h⟩ := bind_eq_ok.mp h
    obtain ⟨rfl, rfl⟩ := Prod.mk.inj (Except.ok.inj h)
    have hone := ingested hreal hw hrecord.1 hfirst
    obtain ⟨hwindows, hdelay⟩ := ih hone.windows hrecord.2 hsorted
      (fun r hr => ⟨hnext r hr, (hrange r hr).2⟩) hrest
    constructor
    · rw [List.append_assoc, List.append_assoc] at hwindows
      exact hwindows
    · rw [delayRowsIn_append, hone.delay, hdelay]
      rfl

/-- A replay of such records, from the reset view. -/
theorem ingested_reset (hreal : c.realMode = true) {s' : View} {pushed : List Push} {t : ℚ}
    (hsorted : records.Pairwise fun a b => a.replayT ≤ b.replayT)
    (hrange : ∀ record ∈ records, record.replayT ≤ t)
    (h : ingestAll lib c View.reset records = .ok (s', pushed)) :
    Windows c (arrivalsOf lib records) (delaysOf lib records) t s' ∧
      delayRowsIn pushed = delayRowsOf lib c [] records := by
  cases records with
  | nil =>
    cases h
    exact ⟨windows_reset c t, rfl⟩
  | cons record records =>
    have hfirst := (List.pairwise_cons.mp hsorted).1
    have hle : ∀ r ∈ record :: records, record.replayT ≤ r.replayT :=
      List.forall_mem_cons.mpr ⟨le_rfl, hfirst⟩
    exact ingested_all hreal (windows_reset c record.replayT) (hrange record List.mem_cons_self)
      hsorted (fun r hr => ⟨hle r hr, hrange r hr⟩) h

/-! ## Records that are too old -/

/-- The records are too old for the windows that end at `t`. -/
def TooOld (c : Config) (old : List (ReplayRecord Fields)) (t : ℚ) : Prop :=
  ∀ record ∈ old, record.replayT < t - c.optiRateWindowSec ∧ record.replayT < t - c.optiDelayAvgSec

theorem TooOld.later {t t' : ℚ} (h : TooOld c old t) (ht : t ≤ t') : TooOld c old t' := by
  intro record hrecord
  obtain ⟨hrate, hdelay⟩ := h record hrecord
  constructor
  · linarith
  · linarith

theorem arrivalsOf_tooOld {t : ℚ} (h : TooOld c old t) (arrivals : List ℚ) :
    prune id (t - c.optiRateWindowSec) (arrivalsOf lib old ++ arrivals) =
      prune id (t - c.optiRateWindowSec) arrivals := by
  apply prune_append_of_lt
  intro a ha
  obtain ⟨record, hrecord, ha⟩ := List.mem_flatMap.mp ha
  unfold arrivalOf at ha
  split at ha
  · rw [List.mem_singleton.mp ha]
    exact (h record hrecord).1
  · cases ha

theorem delaysOf_tooOld {t : ℚ} (h : TooOld c old t) (delays : List (ℚ × ℝ)) :
    prune Prod.fst (t - c.optiDelayAvgSec) (delaysOf lib old ++ delays) =
      prune Prod.fst (t - c.optiDelayAvgSec) delays := by
  apply prune_append_of_lt
  intro x hx
  obtain ⟨record, hrecord, hx⟩ := List.mem_flatMap.mp hx
  unfold delayEntry at hx
  obtain ⟨raw, -, rfl⟩ := Option.map_eq_some_iff.mp (Option.mem_toList.mp hx)
  exact (h record hrecord).2

theorem delayRows_tooOld {t : ℚ} (h : TooOld c old t) (delays : List (ℚ × ℝ)) (raw : Option ℝ) :
    delayRows c t (delaysOf lib old ++ delays) raw = delayRows c t delays raw := by
  unfold delayRows
  rw [delaysOf_tooOld h]

/-- The rows from `start` on do not depend on records that are too old then. -/
theorem delayRowsOf_tooOld {start : ℚ} (h : TooOld c old start) (delays : List (ℚ × ℝ)) :
    ((delayRowsOf lib c (delaysOf lib old ++ delays) records).filter fun p => start ≤ p.t) =
      (delayRowsOf lib c delays records).filter fun p => start ≤ p.t := by
  induction records generalizing delays with
  | nil => rfl
  | cons record records ih =>
    rw [delayRowsOf, delayRowsOf, List.append_assoc, List.filter_append, List.filter_append, ih]
    by_cases ht : start ≤ record.replayT
    · rw [delayRows_tooOld (h.later ht)]
    · have hnone : ∀ delays, ((delayRows c record.replayT delays (rawDelayOf lib record)).filter
          fun p => start ≤ p.t) = [] := by
        intro delays
        apply List.filter_eq_nil_iff.mpr
        intro p hp
        obtain ⟨raw, -, rfl⟩ := Option.map_eq_some_iff.mp (Option.mem_toList.mp hp)
        exact fun hstart => ht (of_decide_eq_true hstart)
      rw [hnone, hnone]

theorem delayRowsOf_times {delays : List (ℚ × ℝ)} {p : Push}
    (hp : p ∈ delayRowsOf lib c delays records) : ∃ record ∈ records, p.t = record.replayT := by
  induction records generalizing delays with
  | nil => cases hp
  | cons record records ih =>
    rcases List.mem_append.mp hp with hp | hp
    · obtain ⟨raw, -, rfl⟩ := Option.map_eq_some_iff.mp (Option.mem_toList.mp hp)
      exact ⟨record, List.mem_cons_self, rfl⟩
    · obtain ⟨r, hr, ht⟩ := ih hp
      exact ⟨r, List.mem_cons_of_mem record hr, ht⟩

/-- Records that are too old at `start` push no row from then on. -/
theorem delayRowsOf_old {start : ℚ} (h : TooOld c old start) (delays : List (ℚ × ℝ)) :
    ((delayRowsOf lib c delays old).filter fun p => start ≤ p.t) = [] := by
  apply List.filter_eq_nil_iff.mpr
  intro p hp hstart
  obtain ⟨record, hrecord, ht⟩ := delayRowsOf_times hp
  have hpos : 0 < c.optiRateWindowSec := lt_max_of_lt_left (by norm_num)
  have hlate := of_decide_eq_true hstart
  have hold := (h record hrecord).1
  linarith

end Loop

/-! ## Two replays -/

/-- The replay of a range ingests the record at the position `i` of the log, which leaves the view
    `s'` and pushes `pushed`. -/
def Ingests (lib : TextLibrary) (c : Config) (r : Replay Fields) (startTime endTime : ℚ) (i : ℕ)
    (s' : View) (pushed : List Push) : Prop :=
  let warmupLo := Replay.searchsortedLeft r.replayTimes (r.warmupStart startTime endTime)
  let hi := Replay.searchsortedRight r.replayTimes (r.clampedEnd startTime endTime)
  warmupLo ≤ i ∧ i < hi ∧ ∃ s before record, r.replayRecords[i]? = some record ∧
    ingestAll lib c View.reset ((r.replayRecords.take i).drop warmupLo) = .ok (s, before) ∧
    ingestReplayRecord lib c s record = .ok (s', pushed)

/-- What two replays have in common after a record that both ingest. -/
structure SameStatistics (s₁ : View) (pushed₁ : List Push) (s₂ : View) (pushed₂ : List Push) :
    Prop where
  arrivalTimes : s₁.optiArrivalTimes = s₂.optiArrivalTimes
  delay : delayRowsIn pushed₁ = delayRowsIn pushed₂
  health : healthRowsIn pushed₁ ≠ [] → healthRowsIn pushed₂ ≠ [] →
    healthRowsIn pushed₁ = healthRowsIn pushed₂

/-- The delay rows with a time from `startTime` to `endTime`. -/
def delayRowsWithin (startTime endTime : ℚ) (pushed : List Push) : List Push :=
  (delayRowsIn pushed).filter fun p => startTime ≤ p.t ∧ p.t ≤ endTime

section Replays

variable {lib : TextLibrary} {c : Config} {records old : List (ReplayRecord Fields)}

/-- Whether records that are too old were ingested before makes no difference. -/
theorem sameStatistics_of_tooOld {record : ReplayRecord Fields} {s₁ s₂ : View}
    {pushed₁ pushed₂ : List Push} (hold : TooOld c old record.replayT)
    (h₁ : Ingested lib c (arrivalsOf lib records) (delaysOf lib records) record s₁ pushed₁)
    (h₂ : Ingested lib c (arrivalsOf lib (old ++ records)) (delaysOf lib (old ++ records)) record
      s₂ pushed₂) : SameStatistics s₁ pushed₁ s₂ pushed₂ := by
  constructor
  · rw [h₁.arrivalTimes, h₂.arrivalTimes, arrivalsOf_append, List.append_assoc,
      arrivalsOf_tooOld hold]
  · rw [h₁.delay, h₂.delay, delaysOf_append, List.append_assoc, delayRows_tooOld hold]
  · intro hne₁ hne₂
    rw [h₁.health.resolve_left hne₁, h₂.health.resolve_left hne₂, arrivalsOf_append,
      arrivalsOf_tooOld hold]

/-- What a replay leaves and pushes, in terms of its records. -/
theorem replayed (hreal : c.realMode = true) {s' : View} {pushed : List Push} {endTime : ℚ}
    (hsorted : records.Pairwise fun a b => a.replayT ≤ b.replayT)
    (hrange : ∀ record ∈ records, record.replayT ≤ endTime)
    (h : replayFrom lib c View.reset records endTime = .ok (s', pushed)) :
    s'.optiArrivalTimes = prune id (endTime - c.optiRateWindowSec) (arrivalsOf lib records) ∧
      delayRowsIn pushed = delayRowsOf lib c [] records := by
  obtain ⟨⟨s, before⟩, hloop, h⟩ := bind_eq_ok.mp h
  dsimp only at h
  rw [if_pos hreal] at h
  obtain ⟨rfl, rfl⟩ := Prod.mk.inj (Except.ok.inj h)
  obtain ⟨hwindows, hdelay⟩ := ingested_reset hreal hsorted hrange hloop
  obtain ⟨-, hpruned⟩ := hwindows.recordOptiHealth true
  constructor
  · rw [recordOptiHealth_arrivals, hpruned]
  · rw [delayRowsIn_append, hdelay, recordOptiHealth_of_due (Or.inl rfl)]
    exact List.append_nil _

/-- The records before the warm-up are too old at the start of the range. -/
theorem tooOld_take {lines : List String} {r : Replay Fields}
    (hload : loadReplayRecords lib (startReplay c) lines = .ok r)
    (hsorted : r.replayTimes.Pairwise (· ≤ ·)) {startTime endTime : ℚ} (hstart : 0 ≤ startTime)
    (hle : startTime ≤ endTime) (hend : endTime ≤ r.replayDuration) :
    TooOld c (r.replayRecords.take
      (Replay.searchsortedLeft r.replayTimes (r.warmupStart startTime endTime))) startTime := by
  obtain ⟨ls, -, hr⟩ := loadReplayRecords_eq_ok hload
  have hrecords : r.replayTimes = r.replayRecords.map ReplayRecord.replayT := by
    rw [hr]
    exact Replay.load_records _ ls
  have hwarmup : r.warmupStart startTime endTime =
      max 0 (startTime - max c.optiDelayAvgSec c.optiRateWindowSec) := by
    unfold Replay.warmupStart
    rw [(Replay.clamped_of_bounds hstart hle hend).1, hr]
    rfl
  intro record hrecord
  have hmem : record.replayT ∈ r.replayTimes.take
      (Replay.searchsortedLeft r.replayTimes (r.warmupStart startTime endTime)) := by
    rw [hrecords, ← List.map_take]
    exact List.mem_map_of_mem (hrecords ▸ hrecord)
  have hpos := loaded_times_nonneg hload _ (List.mem_of_mem_take hmem)
  have hpart := Replay.partitioned_lt hsorted (r.warmupStart startTime endTime)
  rw [Replay.searchsortedLeft, Bisect.partitionPoint_eq_countP hpart,
    Bisect.take_countP hpart] at hmem
  have hearly := of_decide_eq_true (List.mem_filter.mp hmem).2
  rw [hwarmup] at hearly
  have hearly' := (lt_max_iff.mp hearly).resolve_left hpos.not_gt
  have hdelay := le_max_left c.optiDelayAvgSec c.optiRateWindowSec
  have hrate := le_max_right c.optiDelayAvgSec c.optiRateWindowSec
  constructor
  · linarith
  · linarith

/-- The records before a position of the log are not later. -/
theorem le_of_mem_take {r : Replay Fields}
    (hsorted : r.replayRecords.Pairwise fun a b => a.replayT ≤ b.replayT) {i : ℕ}
    {record : ReplayRecord Fields} (hi : r.replayRecords[i]? = some record) :
    ∀ a ∈ r.replayRecords.take i, a.replayT ≤ record.replayT := by
  obtain ⟨hlt, rfl⟩ := List.getElem?_eq_some_iff.mp hi
  have hsplit := (List.take_append_drop i r.replayRecords).symm
  rw [List.drop_eq_getElem_cons hlt] at hsplit
  have happend := List.pairwise_append.mp (hsplit ▸ hsorted)
  exact fun a ha => happend.2.2 a ha _ List.mem_cons_self

/-- What is ingested before a record, in a replay from the start and in one of a range. -/
theorem ingested_of_ingests (hreal : c.realMode = true) {r : Replay Fields}
    (hsorted : r.replayRecords.Pairwise fun a b => a.replayT ≤ b.replayT)
    {startTime endTime : ℚ} {i : ℕ} {record : ReplayRecord Fields} {s' : View}
    {pushed : List Push} (hi : r.replayRecords[i]? = some record)
    (h : Ingests lib c r startTime endTime i s' pushed) :
    let before := (r.replayRecords.take i).drop
      (Replay.searchsortedLeft r.replayTimes (r.warmupStart startTime endTime))
    Ingested lib c (arrivalsOf lib before) (delaysOf lib before) record s' pushed := by
  obtain ⟨-, -, s, before, record', hi', hbefore, hstep⟩ := h
  obtain rfl := Option.some.inj (hi.symm.trans hi')
  have hsub := List.drop_sublist
    (Replay.searchsortedLeft r.replayTimes (r.warmupStart startTime endTime))
    (r.replayRecords.take i)
  have hearlier := le_of_mem_take hsorted hi
  obtain ⟨hwindows, -⟩ := ingested_reset hreal
    (hsorted.sublist (hsub.trans (List.take_sublist i _)))
    (fun a ha => hearlier a (hsub.subset ha)) hbefore
  exact ingested hreal hwindows le_rfl hstep

theorem TooOld.subset {t : ℚ} {a b : List (ReplayRecord Fields)} (h : TooOld c b t) (hab : a ⊆ b) :
    TooOld c a t := fun record hrecord => h record (hab hrecord)

/-- A replay from the start ingests records that are too old, and then those of the range. -/
theorem range_split {lines : List String} {r : Replay Fields}
    (hload : loadReplayRecords lib (startReplay c) lines = .ok r)
    (hsorted : r.replayTimes.Pairwise (· ≤ ·)) {startTime endTime : ℚ} (hstart : 0 ≤ startTime)
    (hle : startTime ≤ endTime) (hend : endTime ≤ r.replayDuration) :
    ∃ old, r.applyReplayRange 0 endTime = old ++ r.applyReplayRange startTime endTime ∧
      TooOld c old startTime := by
  have hold := tooOld_take hload hsorted hstart hle hend
  unfold Replay.applyReplayRange
  by_cases hno : r.replayEnabled = false ∨ r.replayTimes = []
  · rw [if_pos hno, if_pos hno]
    exact ⟨[], rfl, fun record hrecord => nomatch hrecord⟩
  · rw [if_neg hno, if_neg hno]
    dsimp only
    rw [Replay.warmupStart_zero (hstart.trans hle) hend,
      searchsortedLeft_zero (loaded_times_nonneg hload), List.drop_zero,
      (Replay.clamped_of_bounds le_rfl (hstart.trans hle) hend).2,
      (Replay.clamped_of_bounds hstart hle hend).2]
    refine ⟨_, (List.take_append_drop _ _).symm, hold.subset ?_⟩
    rw [List.take_take]
    exact List.take_subset_take_left _ (min_le_left _ _)

/-- The delay rows of a range do not depend on records that are too old at its start. -/
theorem delayRowsWithin_tooOld {startTime endTime : ℚ} (hold : TooOld c old startTime)
    {pushed₁ pushed₂ : List Push} (h₁ : delayRowsIn pushed₁ = delayRowsOf lib c [] records)
    (h₂ : delayRowsIn pushed₂ = delayRowsOf lib c [] (old ++ records)) :
    delayRowsWithin startTime endTime pushed₁ = delayRowsWithin startTime endTime pushed₂ := by
  have hwithin : ∀ l : List Push, (l.filter fun p => startTime ≤ p.t ∧ p.t ≤ endTime) =
      (l.filter fun p => startTime ≤ p.t).filter fun p => p.t ≤ endTime := by
    intro l
    rw [List.filter_filter]
    apply List.filter_congr
    intro p _
    rw [Bool.decide_and, Bool.and_comm]
  have hrows : ((delayRowsOf lib c (delaysOf lib old ++ []) records).filter
      fun p => startTime ≤ p.t) = _ := delayRowsOf_tooOld hold []
  unfold delayRowsWithin
  rw [hwithin, hwithin, h₁, h₂, delayRowsOf_append, List.filter_append, delayRowsOf_old hold,
    List.nil_append, List.nil_append, ← hrows, List.append_nil]

/-- Replays that end at the same time agree if one of them only ingests more records that are too
    old. -/
theorem replays_agree (hreal : c.realMode = true) {startTime endTime : ℚ}
    (hle : startTime ≤ endTime) (hold : TooOld c old startTime)
    (hsorted : (old ++ records).Pairwise fun a b => a.replayT ≤ b.replayT)
    (hrange : ∀ record ∈ old ++ records, record.replayT ≤ endTime) {s₂ : View} {pushed₂ : List Push}
    (h₂ : replayFrom lib c View.reset (old ++ records) endTime = .ok (s₂, pushed₂)) :
    ∃ s₁ pushed₁, replayFrom lib c View.reset records endTime = .ok (s₁, pushed₁) ∧
      s₁.optiArrivalTimes = s₂.optiArrivalTimes ∧
      delayRowsWithin startTime endTime pushed₁ = delayRowsWithin startTime endTime pushed₂ := by
  have hread := returns_replayFrom.mp ⟨_, h₂⟩
  obtain ⟨⟨s₁, pushed₁⟩, h₁⟩ : Returns (replayFrom lib c View.reset records endTime) :=
    returns_replayFrom.mpr fun record hrecord => hread record (List.mem_append_right old hrecord)
  obtain ⟨harrivals₁, hdelay₁⟩ := replayed hreal (List.pairwise_append.mp hsorted).2.1
    (fun record hrecord => hrange record (List.mem_append_right old hrecord)) h₁
  obtain ⟨harrivals₂, hdelay₂⟩ := replayed hreal hsorted hrange h₂
  refine ⟨s₁, pushed₁, h₁, ?_, delayRowsWithin_tooOld hold hdelay₁ hdelay₂⟩
  rw [harrivals₁, harrivals₂, arrivalsOf_append, arrivalsOf_tooOld (hold.later hle)]

/-- A replay that returns has ingested every record from the warm-up to the end of its range. -/
theorem ingests_of_returns {r : Replay Fields} {s : View} {startTime endTime : ℚ}
    (hloaded : r.replayEnabled = true ∧ r.replayTimes ≠ [])
    (h : Returns (applyReplayRange lib c s r startTime endTime)) {i : ℕ}
    {record : ReplayRecord Fields} (hrecord : r.replayRecords[i]? = some record)
    (hlo : Replay.searchsortedLeft r.replayTimes (r.warmupStart startTime endTime) ≤ i)
    (hhi : i < Replay.searchsortedRight r.replayTimes (r.clampedEnd startTime endTime)) :
    ∃ s' pushed, Ingests lib c r startTime endTime i s' pushed := by
  have hno : ¬ (r.replayEnabled = false ∨ r.replayTimes = []) := by
    rw [hloaded.1]
    exact not_or.mpr ⟨Bool.noConfusion, hloaded.2⟩
  unfold applyReplayRange Replay.applyReplayRange at h
  rw [if_neg hno, if_neg hno] at h
  unfold Ingests
  dsimp only at h ⊢
  generalize Replay.searchsortedLeft r.replayTimes (r.warmupStart startTime endTime) = lo at *
  generalize Replay.searchsortedRight r.replayTimes (r.clampedEnd startTime endTime) = hi at *
  obtain ⟨j, rfl⟩ := Nat.exists_eq_add_of_le hlo
  have hat : ((r.replayRecords.take hi).drop lo)[j]? = some record := by
    rw [List.getElem?_drop, List.getElem?_take_of_lt hhi, hrecord]
  obtain ⟨v, before, ⟨s', pushed⟩, hbefore, hstep⟩ := step_of_collect (returns_left h) hat
  have htake : ((r.replayRecords.take hi).drop lo).take j =
      (r.replayRecords.take (lo + j)).drop lo := by
    rw [List.take_drop, List.take_take, min_eq_left hhi.le]
  rw [htake] at hbefore
  exact ⟨s', pushed, hlo, hhi, v, before, record, hrecord, hbefore, hstep⟩

end Replays

/-- The warm-up is long enough: at every record from `startTime` on, a replay of the range agrees
    with one from the start of the log, and so do the delay rows and the statistics at the end. -/
theorem warmUp_suffices {lib : TextLibrary} {c : Config} {lines : List String} {r : Replay Fields}
    (hload : loadReplayRecords lib (startReplay c) lines = .ok r) (hreal : c.realMode = true)
    (hsorted : r.replayTimes.Pairwise (· ≤ ·)) {startTime endTime : ℚ} (hstart : 0 ≤ startTime)
    (hle : startTime ≤ endTime) (hend : endTime ≤ r.replayDuration) :
    (∀ i record s₁ pushed₁ s₂ pushed₂, r.replayRecords[i]? = some record →
      startTime ≤ record.replayT → Ingests lib c r startTime endTime i s₁ pushed₁ →
      Ingests lib c r 0 endTime i s₂ pushed₂ → SameStatistics s₁ pushed₁ s₂ pushed₂) ∧
    ∀ s s₂ pushed₂, applyReplayRange lib c s r 0 endTime = .ok (s₂, pushed₂) →
      ∃ s₁ pushed₁, applyReplayRange lib c s r startTime endTime = .ok (s₁, pushed₁) ∧
        s₁.optiArrivalTimes = s₂.optiArrivalTimes ∧
        delayRowsWithin startTime endTime pushed₁ = delayRowsWithin startTime endTime pushed₂ := by
  obtain ⟨ls, -, hr⟩ := loadReplayRecords_eq_ok hload
  have hrecords : r.replayTimes = r.replayRecords.map ReplayRecord.replayT := by
    rw [hr]
    exact Replay.load_records _ ls
  have hordered : r.replayRecords.Pairwise fun a b => a.replayT ≤ b.replayT :=
    List.pairwise_map.mp (hrecords ▸ hsorted)
  have hold := tooOld_take hload hsorted hstart hle hend
  have hzero : Replay.searchsortedLeft r.replayTimes (r.warmupStart 0 endTime) = 0 := by
    rw [Replay.warmupStart_zero (hstart.trans hle) hend]
    exact searchsortedLeft_zero (loaded_times_nonneg hload)
  constructor
  · intro i record s₁ pushed₁ s₂ pushed₂ hi ht h₁ h₂
    have hlo := h₁.1
    have hone₁ := ingested_of_ingests hreal hordered hi h₁
    have hone₂ := ingested_of_ingests hreal hordered hi h₂
    dsimp only at hone₁ hone₂
    generalize Replay.searchsortedLeft r.replayTimes (r.warmupStart startTime endTime) = lo at *
    have hsplit : r.replayRecords.take i =
        r.replayRecords.take lo ++ (r.replayRecords.take i).drop lo := by
      conv_lhs => rw [← List.take_append_drop lo (r.replayRecords.take i), List.take_take,
        min_eq_left hlo]
    rw [hzero, List.drop_zero, hsplit] at hone₂
    exact sameStatistics_of_tooOld (hold.later ht) hone₁ hone₂
  · intro s s₂ pushed₂ h₂
    obtain ⟨old, hsplit, hold⟩ := range_split hload hsorted hstart hle hend
    unfold applyReplayRange at h₂ ⊢
    by_cases hno : r.replayEnabled = false ∨ r.replayTimes = []
    · rw [if_pos hno] at h₂ ⊢
      cases h₂
      exact ⟨s, [], rfl, rfl, rfl⟩
    · rw [if_neg hno, (Replay.clamped_of_bounds le_rfl (hstart.trans hle) hend).2] at h₂
      rw [if_neg hno, (Replay.clamped_of_bounds hstart hle hend).2]
      have hselects := Replay.selectsRange_of_nondecreasing (hr ▸ rfl) hrecords (hr ▸ rfl) hsorted
      rw [hsplit] at h₂
      refine replays_agree hreal hle hold ?_ ?_ h₂
      · rw [← hsplit]
        exact hselects.ordered 0 endTime
      · rw [← hsplit, hselects.range, (Replay.clamped_of_bounds le_rfl (hstart.trans hle) hend).2]
        exact fun record hrecord => (of_decide_eq_true (List.mem_filter.mp hrecord).2).2

/-- A record of a mocap message. -/
def messageRecord (elapsedTime transportDelayMs : ℚ) : Fields :=
  [("topic", .str "/opti_raw"), ("elapsed_time", .float (.num elapsedTime)),
    ("data", .dict [("transport_delay_ms", .float (.num transportDelayMs)),
      ("px4_position_ned", .list [.float (.num 0), .float (.num 0), .float (.num 0)])])]

def firstLine : String :=
  "\x7b\"topic\": \"/opti_raw\", \"elapsed_time\": 0.0, \"data\": \x7b" ++
    "\"transport_delay_ms\": 5.0, \"px4_position_ned\": [0.0, 0.0, 0.0]\x7d\x7d"

def secondLine : String :=
  "\x7b\"topic\": \"/opti_raw\", \"elapsed_time\": 4.0, \"data\": \x7b" ++
    "\"transport_delay_ms\": 7.0, \"px4_position_ned\": [0.0, 0.0, 0.0]\x7d\x7d"

/-- The standard library on these lines; no other line is decoded. -/
def messageLibrary : TextLibrary :=
  plainText fun line =>
    if line = firstLine then .ok (.dict (messageRecord 0 5))
    else if line = secondLine then .ok (.dict (messageRecord 4 7))
    else .error .jsonDecodeError

/-- The log of these lines. -/
def messageReplay : Replay Fields where
  replayEnabled := true
  optiDelayAvg := 1
  optiRateWindow := 1
  replayRecords := [⟨⟨some "/opti_raw", some 0, none, messageRecord 0 5⟩, 0⟩,
    ⟨⟨some "/opti_raw", some 4, none, messageRecord 4 7⟩, 4⟩]
  replayTimes := [0, 4]
  replayDuration := 4

theorem messageReplay_loaded :
    loadReplayRecords messageLibrary (startReplay (Config.declared .real 0))
      [firstLine, secondLine] = .ok messageReplay := by
  have hloads₁ : messageLibrary.loads firstLine = .ok (.dict (messageRecord 0 5)) := by
    dsimp only [messageLibrary, plainText]
    rw [if_pos rfl]
  have hloads₂ : messageLibrary.loads secondLine = .ok (.dict (messageRecord 4 7)) := by
    have hne : secondLine ≠ firstLine := by decide
    dsimp only [messageLibrary, plainText]
    rw [if_neg hne, if_pos rfl]
  have hfirst : readLine messageLibrary firstLine =
      .ok (some ⟨some "/opti_raw", some 0, none, messageRecord 0 5⟩) := by
    have hne : messageLibrary.strip firstLine ≠ "" := by decide
    exact (readLine_of_loads hne hloads₁).trans rfl
  have hsecond : readLine messageLibrary secondLine =
      .ok (some ⟨some "/opti_raw", some 4, none, messageRecord 4 7⟩) := by
    have hne : messageLibrary.strip secondLine ≠ "" := by decide
    exact (readLine_of_loads hne hloads₂).trans rfl
  have hlines : [firstLine, secondLine].mapM (readLine messageLibrary) =
      .ok [some ⟨some "/opti_raw", some 0, none, messageRecord 0 5⟩,
        some ⟨some "/opti_raw", some 4, none, messageRecord 4 7⟩] := by
    rw [List.mapM_cons, List.mapM_cons, hfirst, hsecond]
    rfl
  rw [loadReplayRecords_eq, hlines]
  apply congrArg Except.ok
  simp [Replay.loadReplayRecords, Replay.loadLine, Replay.sourceTime, messageReplay, startReplay,
    Replay.construct, Config.declared]

theorem messageRecord_readable (c : Config) (elapsedTime transportDelayMs : ℚ) :
    Readable messageLibrary c (messageRecord elapsedTime transportDelayMs) := by
  refine ⟨true, rfl, fun _ => ⟨_, rfl, ?_⟩, nofun⟩
  refine ⟨?_, nofun, nofun, ?_, nofun⟩
  · rintro _ ⟨⟩ v hv
    simp only [List.take_succ_cons, List.take_zero, List.mem_cons, List.not_mem_nil, or_false,
      or_self] at hv
    rw [hv]
    trivial
  · rintro _ ⟨⟩
    trivial

/-- Every replay up to the second message ingests it. -/
theorem ingests_secondMessage {startTime : ℚ} (hstart : 0 ≤ startTime) (hle : startTime ≤ 4) :
    ∃ s' pushed,
      Ingests messageLibrary (Config.declared .real 0) messageReplay startTime 4 1 s' pushed := by
  have hsorted : [(0 : ℚ), 4].Pairwise (· ≤ ·) := by simp
  have hend : messageReplay.clampedEnd startTime 4 = 4 :=
    (Replay.clamped_of_bounds hstart hle le_rfl).2
  have hwarmup : messageReplay.warmupStart startTime 4 ≤ 4 :=
    (messageReplay.warmupStart_le_clampedEnd startTime 4).trans_eq hend
  have hreturns : Returns (applyReplayRange messageLibrary (Config.declared .real 0) View.reset
      messageReplay startTime 4) := by
    refine returns_applyReplayRange.mpr fun record hrecord => ?_
    have hmem : record ∈ messageReplay.replayRecords := by
      unfold Replay.applyReplayRange at hrecord
      split at hrecord
      · cases hrecord
      · exact List.mem_of_mem_take (List.mem_of_mem_drop hrecord)
    rcases List.mem_cons.mp hmem with rfl | hmem
    · exact messageRecord_readable _ 0 5
    · rw [List.mem_singleton.mp hmem]
      exact messageRecord_readable _ 4 7
  refine ingests_of_returns ⟨rfl, List.cons_ne_nil 0 [4]⟩ hreturns rfl ?_ ?_
  · show Bisect.partitionPoint _ [0, 4] ≤ 1
    have hsecond : decide ((4 : ℚ) < messageReplay.warmupStart startTime 4) = false :=
      decide_eq_false hwarmup.not_gt
    rw [Bisect.partitionPoint_eq_countP (Replay.partitioned_lt hsorted _), List.countP_cons,
      List.countP_cons, List.countP_nil, hsecond, if_neg Bool.false_ne_true]
    split
    · decide
    · decide
  · show 1 < Bisect.partitionPoint _ [0, 4]
    rw [hend, Bisect.partitionPoint_eq_countP (Replay.partitioned_le hsorted _)]
    decide

theorem warmUp_suffices_secondMessage : ∃ s₁ pushed₁ s₂ pushed₂,
    Ingests messageLibrary (Config.declared .real 0) messageReplay 3 4 1 s₁ pushed₁ ∧
    Ingests messageLibrary (Config.declared .real 0) messageReplay 0 4 1 s₂ pushed₂ ∧
    SameStatistics s₁ pushed₁ s₂ pushed₂ := by
  have hsorted : messageReplay.replayTimes.Pairwise (· ≤ ·) := by
    simp [messageReplay]
  have hle : (3 : ℚ) ≤ 4 := by norm_num
  obtain ⟨s₁, pushed₁, h₁⟩ := ingests_secondMessage (by norm_num) hle
  obtain ⟨s₂, pushed₂, h₂⟩ := ingests_secondMessage le_rfl (by norm_num)
  exact ⟨s₁, pushed₁, s₂, pushed₂, h₁, h₂, (warmUp_suffices messageReplay_loaded rfl hsorted
    (by norm_num) hle le_rfl).1 1 _ s₁ pushed₁ s₂ pushed₂ rfl hle h₁ h₂⟩

end Raw

end Viewer

end Hummingbird
