/-
  When `apply_replay_range` selects what it should.

  The loading turns the source times of a log into replay times (`load_times`), so these are
  nondecreasing exactly when the source times are, apart from those before the first one.
  `selectsRange_of_nondecreasing`: then the two binary searches cut out the range. A log file is
  what several sessions of the logger have appended to it; within a session the times never go
  back (`IsRun.coming_pairwise`), but they restart with every session.
  `selectsRange_iff` is the exact condition, `selectsRange_fails` a file of two sessions.
-/
import Mathlib.Tactic.Linarith
import Hummingbird.Viewer.Logger
import Hummingbird.Viewer.Replay

namespace Hummingbird

namespace Replay

open Bisect

variable {δ : Type*}

/-! ## Loading -/

/-- The source time of a record that is loaded. -/
def loadedTime (record : JsonRecord δ) : Option ℚ :=
  if record.topic = some "viewer_meta" then none else sourceTime record

/-- The source time of a line that is loaded. -/
def lineTime (l : LogLine δ) : Option ℚ := l.bind loadedTime

/-- The source times of what is loaded, in the order of the lines. -/
def sourceTimes (lines : List (LogLine δ)) : List ℚ := lines.filterMap lineTime

/-- The accumulators after lines with the source times `ts`. -/
structure Loaded (acc : Loading δ) (ts : List ℚ) : Prop where
  first : acc.firstSourceTime = ts.head?
  times : acc.replayTimes = ts.map fun t => max 0 (t - ts.headD 0)
  records : acc.records.map ReplayRecord.replayT = acc.replayTimes

theorem loadLine_of_none {l : LogLine δ} (hl : lineTime l = none) (acc : Loading δ) :
    loadLine acc l = acc := by
  cases l with
  | none => rfl
  | some record =>
    rw [lineTime, Option.bind_some, loadedTime] at hl
    unfold loadLine
    dsimp only
    split
    · rfl
    · rename_i htopic
      rw [if_neg htopic] at hl
      rw [hl]

theorem loadLine_of_some {record : JsonRecord δ} {t : ℚ} (ht : loadedTime record = some t)
    (acc : Loading δ) : loadLine acc (some record) =
      ⟨some (acc.firstSourceTime.getD t),
        acc.records ++ [⟨record, max 0 (t - acc.firstSourceTime.getD t)⟩],
        acc.replayTimes ++ [max 0 (t - acc.firstSourceTime.getD t)]⟩ := by
  unfold loadedTime at ht
  unfold loadLine
  dsimp only
  split
  · rename_i htopic
    rw [if_pos htopic] at ht
    cases ht
  · rename_i htopic
    rw [if_neg htopic] at ht
    rw [ht]

theorem Loaded.loadLine {acc : Loading δ} {ts : List ℚ} (h : Loaded acc ts) (l : LogLine δ) :
    Loaded (Replay.loadLine acc l) (ts ++ (lineTime l).toList) := by
  obtain ⟨hfirst, htimes, hrecords⟩ := h
  cases hl : lineTime l with
  | none =>
    rw [loadLine_of_none hl, Option.toList_none, List.append_nil]
    exact ⟨hfirst, htimes, hrecords⟩
  | some t =>
    obtain ⟨record, rfl, ht⟩ := Option.bind_eq_some_iff.mp hl
    -- the first source time is the head of `ts`, or `t` if nothing was loaded so far
    have hhead : acc.firstSourceTime.getD t = (ts ++ [t]).headD 0 := by
      rw [hfirst]
      cases ts <;> rfl
    rw [loadLine_of_some ht, Option.toList_some]
    refine ⟨?_, ?_, ?_⟩
    · rw [hfirst]
      cases ts <;> rfl
    · rw [hhead, htimes, List.map_append]
      cases ts <;> rfl
    · rw [List.map_append, hrecords]
      rfl

theorem loaded (lines : List (LogLine δ)) :
    Loaded (lines.foldl Replay.loadLine ⟨none, [], []⟩) (sourceTimes lines) := by
  induction lines using List.reverseRecOn with
  | nil => exact ⟨rfl, rfl, rfl⟩
  | append_singleton lines l ih =>
    have hsource : sourceTimes (lines ++ [l]) = sourceTimes lines ++ (lineTime l).toList := by
      unfold sourceTimes
      rw [List.filterMap_append, List.filterMap_cons, List.filterMap_nil]
      cases lineTime l <;> rfl
    rw [List.foldl_append, hsource]
    exact ih.loadLine l

/-- The times that are searched are those of the records. -/
theorem load_records (s : Replay δ) (lines : List (LogLine δ)) :
    (s.loadReplayRecords lines).replayTimes =
      (s.loadReplayRecords lines).replayRecords.map ReplayRecord.replayT :=
  (loaded lines).records.symm

theorem load_times (s : Replay δ) (lines : List (LogLine δ)) :
    (s.loadReplayRecords lines).replayTimes =
      (sourceTimes lines).map fun t => max 0 (t - (sourceTimes lines).headD 0) :=
  (loaded lines).times

/-- What is loaded: the records with their source times. -/
def loadedRecords (lines : List (LogLine δ)) : List (JsonRecord δ × ℚ) :=
  lines.filterMap fun l => l.bind fun record => (loadedTime record).map fun t => (record, t)

theorem loadedRecords_append (a b : List (LogLine δ)) :
    loadedRecords (a ++ b) = loadedRecords a ++ loadedRecords b := List.filterMap_append

theorem loadedRecords_times (lines : List (LogLine δ)) :
    (loadedRecords lines).map Prod.snd = sourceTimes lines := by
  unfold loadedRecords sourceTimes
  rw [List.map_filterMap]
  apply List.filterMap_congr
  intro l _
  cases l with
  | none => rfl
  | some record =>
    show Option.map Prod.snd ((loadedTime record).map fun t => (record, t)) = loadedTime record
    rw [Option.map_map]
    exact Option.map_id'

theorem load_replayRecords (s : Replay δ) (lines : List (LogLine δ)) :
    (s.loadReplayRecords lines).replayRecords = (loadedRecords lines).map fun x =>
      ⟨x.1, max 0 (x.2 - (sourceTimes lines).headD 0)⟩ := by
  show (lines.foldl loadLine ⟨none, [], []⟩).records = _
  induction lines using List.reverseRecOn with
  | nil => rfl
  | append_singleton lines l ih =>
    rw [List.foldl_append, loadedRecords_append, ← loadedRecords_times, loadedRecords_append]
    have hfirst : (lines.foldl loadLine ⟨none, [], []⟩).firstSourceTime =
        ((loadedRecords lines).map Prod.snd).head? := by
      rw [loadedRecords_times]
      exact (loaded lines).first
    rw [← loadedRecords_times] at ih
    generalize lines.foldl loadLine ⟨none, [], []⟩ = acc at ih hfirst ⊢
    generalize loadedRecords lines = ts at ih hfirst ⊢
    cases hl : lineTime l with
    | none =>
      have hnone : loadedRecords [l] = [] := by
        apply List.map_eq_nil_iff.mp
        rw [loadedRecords_times, sourceTimes, List.filterMap_cons, hl]
        rfl
      rw [hnone, List.append_nil]
      exact (congrArg Loading.records (loadLine_of_none hl acc)).trans ih
    | some t =>
      obtain ⟨record, rfl, ht⟩ := Option.bind_eq_some_iff.mp hl
      have hone : loadedRecords [some record] = [(record, t)] := by
        unfold loadedRecords
        rw [List.filterMap_cons, Option.bind_some, ht]
        rfl
      show (loadLine acc (some record)).records = _
      rw [hone, loadLine_of_some ht, hfirst, ih]
      cases ts with
      | nil => rfl
      | cons x ts =>
        rw [List.map_append]
        rfl

/-! ## Selecting -/

/-- The range is selected as it should be: the replay times never go back, the duration is the
    greatest of them, and every range hands over exactly the records in it, each once and in the
    order of time. -/
structure SelectsRange (s : Replay δ) : Prop where
  nondecreasing : s.replayTimes.Pairwise (· ≤ ·)
  duration : (∀ t ∈ s.replayTimes, t ≤ s.replayDuration) ∧
    (s.replayTimes ≠ [] → s.replayDuration ∈ s.replayTimes)
  range : ∀ startTime endTime, s.applyReplayRange startTime endTime =
    s.replayRecords.filter fun r =>
      s.warmupStart startTime endTime ≤ r.replayT ∧ r.replayT ≤ s.clampedEnd startTime endTime
  ordered : ∀ startTime endTime,
    (s.applyReplayRange startTime endTime).Pairwise fun a b => a.replayT ≤ b.replayT

theorem warmupStart_le_clampedEnd (s : Replay δ) (startTime endTime : ℚ) :
    s.warmupStart startTime endTime ≤ s.clampedEnd startTime endTime := by
  have hstart : 0 ≤ s.clampedStart startTime endTime := le_max_left _ _
  have hend : s.clampedStart startTime endTime ≤ s.clampedEnd startTime endTime := le_max_left _ _
  have hdelay : (1 / 20 : ℚ) ≤ s.optiDelayAvgSec := le_max_left _ _
  have hwarmup : s.optiDelayAvgSec ≤ max s.optiDelayAvgSec s.optiRateWindowSec := le_max_left _ _
  unfold warmupStart
  apply max_le
  · linarith
  · linarith

/-- A range within the log is not clamped. -/
theorem clamped_of_bounds {s : Replay δ} {startTime endTime : ℚ} (hstart : 0 ≤ startTime)
    (hle : startTime ≤ endTime) (hend : endTime ≤ s.replayDuration) :
    s.clampedStart startTime endTime = startTime ∧ s.clampedEnd startTime endTime = endTime := by
  have hclamped : s.clampedStart startTime endTime = startTime := by
    unfold clampedStart
    rw [min_eq_left hle, min_eq_left (hle.trans hend), max_eq_right hstart]
  refine ⟨hclamped, ?_⟩
  unfold clampedEnd
  rw [hclamped, max_eq_right hle, min_eq_left hend, max_eq_right hle]

/-- Nothing comes before the start of the log. -/
theorem warmupStart_zero {s : Replay δ} {endTime : ℚ} (h : 0 ≤ endTime)
    (hend : endTime ≤ s.replayDuration) : s.warmupStart 0 endTime = 0 := by
  have hdelay : (1 / 20 : ℚ) ≤ s.optiDelayAvgSec := le_max_left _ _
  have hle : s.optiDelayAvgSec ≤ max s.optiDelayAvgSec s.optiRateWindowSec := le_max_left _ _
  unfold warmupStart
  rw [(clamped_of_bounds le_rfl h hend).1]
  apply max_eq_left
  linarith

theorem partitioned_lt {ts : List ℚ} (h : ts.Pairwise (· ≤ ·)) (t : ℚ) :
    Partitioned (fun a => decide (a < t)) ts := by
  apply h.imp
  intro a b hab hb
  exact decide_eq_true (hab.trans_lt (of_decide_eq_true hb))

theorem partitioned_le {ts : List ℚ} (h : ts.Pairwise (· ≤ ·)) (t : ℚ) :
    Partitioned (fun a => decide (a ≤ t)) ts := by
  apply h.imp
  intro a b hab hb
  exact decide_eq_true (hab.trans (of_decide_eq_true hb))

/-- A range of a log without a time that goes back. -/
theorem applyReplayRange_eq_filter {s : Replay δ} (henabled : s.replayEnabled = true)
    (hrecords : s.replayTimes = s.replayRecords.map ReplayRecord.replayT)
    (hsorted : s.replayTimes.Pairwise (· ≤ ·)) (startTime endTime : ℚ) :
    s.applyReplayRange startTime endTime =
      s.replayRecords.filter fun r =>
        s.warmupStart startTime endTime ≤ r.replayT ∧
          r.replayT ≤ s.clampedEnd startTime endTime := by
  have hle := s.warmupStart_le_clampedEnd startTime endTime
  unfold applyReplayRange
  split
  · rename_i h
    rcases h with h | h
    · rw [henabled] at h
      cases h
    · rw [hrecords, List.map_eq_nil_iff] at h
      rw [h]
      rfl
  · generalize s.warmupStart startTime endTime = lo at hle ⊢
    generalize s.clampedEnd startTime endTime = hi at hle ⊢
    have hlt := partitioned_lt hsorted lo
    have hge := partitioned_le hsorted hi
    rw [hrecords] at hlt hge
    have hq := List.pairwise_map.mp hlt
    have hr := List.pairwise_map.mp hge
    have hqr : ∀ r : ReplayRecord δ, decide (r.replayT < lo) = true →
        decide (r.replayT ≤ hi) = true := by
      intro r hrlo
      exact decide_eq_true ((of_decide_eq_true hrlo).le.trans hle)
    dsimp only
    unfold searchsortedLeft searchsortedRight
    rw [hrecords, partitionPoint_eq_countP hlt, partitionPoint_eq_countP hge, List.countP_map,
      List.countP_map]
    refine (slice_eq_filter hq hr hqr).trans (List.filter_congr fun r _ => ?_)
    simp only [← decide_not, not_lt, Bool.decide_and]

theorem le_getLastD_of_pairwise {ts : List ℚ} (h : ts.Pairwise (· ≤ ·)) {t : ℚ} (ht : t ∈ ts) :
    t ≤ ts.getLastD 0 := by
  cases ts using List.reverseRecOn with
  | nil => cases ht
  | append_singleton ts last =>
    rw [List.getLastD_concat]
    rcases List.mem_append.mp ht with ht | ht
    · exact (List.pairwise_append.mp h).2.2 t ht last (List.mem_singleton_self last)
    · exact (List.mem_singleton.mp ht).le

/-- Without a time that goes back every range is selected as it should be. -/
theorem selectsRange_of_nondecreasing {s : Replay δ} (henabled : s.replayEnabled = true)
    (hrecords : s.replayTimes = s.replayRecords.map ReplayRecord.replayT)
    (hduration : s.replayDuration = s.replayTimes.getLastD 0)
    (hsorted : s.replayTimes.Pairwise (· ≤ ·)) : SelectsRange s where
  nondecreasing := hsorted
  duration := by
    rw [hduration]
    refine ⟨fun t ht => le_getLastD_of_pairwise hsorted ht, ?_⟩
    intro hne
    rw [List.getLastD_eq_getLast?, List.getLast?_eq_some_getLast hne]
    exact List.getLast_mem hne
  range := applyReplayRange_eq_filter henabled hrecords hsorted
  ordered startTime endTime := by
    rw [applyReplayRange_eq_filter henabled hrecords hsorted]
    rw [hrecords] at hsorted
    exact (List.pairwise_map.mp hsorted).sublist List.filter_sublist

/-- The whole range selects everything. -/
theorem SelectsRange.whole {s : Replay δ} (h : SelectsRange s)
    (hrecords : s.replayTimes = s.replayRecords.map ReplayRecord.replayT)
    (hpos : ∀ t ∈ s.replayTimes, 0 ≤ t) :
    s.applyReplayRange 0 s.replayDuration = s.replayRecords := by
  rw [h.range, List.filter_eq_self]
  intro r hr
  have hmem : r.replayT ∈ s.replayTimes := by
    rw [hrecords]
    exact List.mem_map_of_mem hr
  have hle := h.duration.1 _ hmem
  have hduration : 0 ≤ s.replayDuration := (hpos _ hmem).trans hle
  rw [warmupStart_zero hduration le_rfl, (clamped_of_bounds le_rfl hduration le_rfl).2]
  exact decide_eq_true ⟨hpos _ hmem, hle⟩

end Replay

/-! ## The lines of one session -/

namespace Line

variable {δ : Type*}

/-- The time of a line since its session started. -/
def elapsed : Line δ → ℚ
  | record r => r.elapsedTime
  | stats _ elapsedTime _ _ => elapsedTime

/-- A line as `json.loads` returns it. -/
def toJson : Line δ → JsonRecord (δ ⊕ ℕ × ℕ)
  | record r => ⟨some r.topic, some r.elapsedTime, some r.wallTime, .inl r.data⟩
  | stats wallTime elapsedTime written dropped =>
    ⟨some "viewer_logger_stats", some elapsedTime, some wallTime, .inr (written, dropped)⟩

end Line

namespace JsonlLogger

variable {δ : Type*} {encodable : LogRecord δ → Bool} {s : JsonlLogger δ}

/-- The lines on the way to the file, in the order in which they get there. -/
def onTheWay (queue : List (LogRecord δ)) : Writer δ → List (Line δ)
  | .absent => []
  | .testStop => queue.map Line.record
  | .testEmpty => queue.map Line.record
  | .get => queue.map Line.record
  | .fill batch => (batch ++ queue).map Line.record
  | .encode rest lines => (lines ++ (rest ++ queue)).map Line.record
  | .writeLines lines => (lines ++ queue).map Line.record
  | .countLines _ => queue.map Line.record
  | .report => []
  | .writeStats line => [line]
  | .countStats => []
  | .finished => []

/-- The lines that are in the file or on the way to it. -/
def coming (s : JsonlLogger δ) : List (Line δ) := s.file ++ onTheWay s.queue s.writer

theorem onTheWay_concat (queue : List (LogRecord δ)) (r : LogRecord δ) (w : Writer δ) :
    (onTheWay (queue ++ [r]) w).Sublist (onTheWay queue w ++ [.record r]) := by
  cases w with
  | testStop => simp [onTheWay]
  | testEmpty => simp [onTheWay]
  | get => simp [onTheWay]
  | fill batch => simp [onTheWay]
  | encode rest lines => simp [onTheWay]
  | writeLines lines => simp [onTheWay]
  | countLines lines => simp [onTheWay]
  | _ => exact List.sublist_append_left _ _

/-- A step puts at most one line behind those that are coming, with the time of the step. -/
def Extends (now : ℚ) (s s' : JsonlLogger δ) : Prop :=
  s'.startMonotonic = s.startMonotonic ∧ ∃ line : Line δ,
    line.elapsed = now - s.startMonotonic ∧ s'.coming.Sublist (s.coming ++ [line])

/-- A step that adds no line. -/
theorem extends_of_sublist {s' : JsonlLogger δ} (now : ℚ)
    (hstart : s'.startMonotonic = s.startMonotonic) (hsub : s'.coming.Sublist s.coming) :
    Extends now s s' :=
  ⟨hstart, .stats 0 (now - s.startMonotonic) 0 0, rfl,
    hsub.trans (List.sublist_append_left _ _)⟩

theorem write_extends (s : JsonlLogger δ) (now wall : ℚ) (topic : String) (data : δ) :
    Extends now s (s.write now wall topic data).1 := by
  unfold JsonlLogger.write
  split
  · exact extends_of_sublist now rfl (.refl _)
  · dsimp only
    split
    · refine ⟨rfl, .record ⟨wall, now - s.startMonotonic, topic, data⟩, rfl, ?_⟩
      unfold coming
      rw [List.append_assoc]
      exact (onTheWay_concat _ _ _).append_left s.file
    · exact extends_of_sublist now rfl (.refl _)

theorem close_extends (s : JsonlLogger δ) (now : ℚ) : Extends now s s.close := by
  unfold JsonlLogger.close
  split
  · exact extends_of_sublist now rfl (.refl _)
  · split
    · exact extends_of_sublist now rfl (.refl _)
    · split
      · rename_i hw
        refine extends_of_sublist now rfl ?_
        simp [coming]
      · exact extends_of_sublist now rfl (.refl _)

/-- In the loop the encoded records come first, then the others of the batch and the queue. -/
theorem onTheWay_of_inLoop {w : Writer δ} (hw : w.InLoop) (queue : List (LogRecord δ)) :
    onTheWay queue w = (w.encoded ++ (w.unencoded ++ queue)).map Line.record := by
  cases w with
  | absent => exact absurd rfl hw.1
  | report => exact absurd trivial hw.2
  | writeStats line => exact absurd trivial hw.2
  | countStats => exact absurd trivial hw.2
  | finished => exact absurd trivial hw.2
  | _ => rfl

theorem WriterBranch.extends {s' : JsonlLogger δ} {now wall : ℚ}
    (hbr : WriterBranch encodable now wall s s') : Extends now s s' := by
  cases hbr with
  | idle => exact extends_of_sublist now rfl (.refl _)
  | turn w hfrom hto _ _ hunencoded hencoded =>
    refine extends_of_sublist now rfl ?_
    simp only [coming, onTheWay_of_inLoop hfrom, onTheWay_of_inLoop hto, hunencoded, hencoded,
      List.Sublist.refl]
  | take r queue w hqueue hfrom hto _ _ hunencoded hencoded =>
    refine extends_of_sublist now rfl ?_
    simp only [coming, onTheWay_of_inLoop hfrom, onTheWay_of_inLoop hto, hqueue, hunencoded,
      hencoded, List.append_assoc, List.singleton_append, List.Sublist.refl]
  | encoded r rest lines hw =>
    refine extends_of_sublist now rfl ?_
    simp [coming, hw, onTheWay]
  | dropped r rest lines hw =>
    refine extends_of_sublist now rfl ?_
    simp only [coming, hw]
    -- the record that cannot be encoded is not coming any more
    apply List.Sublist.append_left
    apply List.Sublist.map
    apply List.Sublist.append_left
    exact List.sublist_cons_self _ _
  | wroteLines lines hw =>
    refine extends_of_sublist now rfl ?_
    simp [coming, hw, onTheWay]
  | countedLines lines hw =>
    refine extends_of_sublist now rfl ?_
    simp [coming, hw, onTheWay]
  | drained hw hqueue =>
    refine extends_of_sublist now rfl ?_
    simp [coming, hw, hqueue, onTheWay]
  | reported hw =>
    refine ⟨rfl, .stats wall (now - s.startMonotonic) s.count s.dropped, rfl, ?_⟩
    simp [coming, hw, onTheWay]
  | wroteStats line hw =>
    refine extends_of_sublist now rfl ?_
    simp [coming, hw, onTheWay]
  | countedStats hw =>
    refine extends_of_sublist now rfl ?_
    simp [coming, hw, onTheWay]

/-- The times of the lines that are coming never go back, and none is ahead of the clock. -/
structure Coming (s : JsonlLogger δ) (t : ℚ) : Prop where
  ordered : s.coming.Pairwise fun a b => a.elapsed ≤ b.elapsed
  bounded : ∀ line ∈ s.coming, line.elapsed ≤ t - s.startMonotonic

theorem Coming.extend {s' : JsonlLogger δ} {t now : ℚ} (hc : Coming s t) (ht : t ≤ now)
    (he : Extends now s s') : Coming s' now := by
  obtain ⟨hstart, line, hline, hsub⟩ := he
  have hbounded : ∀ a ∈ s.coming ++ [line], a.elapsed ≤ now - s.startMonotonic := by
    intro a ha
    rcases List.mem_append.mp ha with ha | ha
    · have hle := hc.bounded a ha
      linarith
    · rw [List.mem_singleton.mp ha, hline]
  refine ⟨List.Pairwise.sublist hsub ?_, ?_⟩
  · refine List.pairwise_append.mpr ⟨hc.ordered, List.pairwise_singleton _ _, ?_⟩
    intro a ha b hb
    rw [List.mem_singleton.mp hb, hline]
    exact hbounded a (List.mem_append_left _ ha)
  · intro a ha
    rw [hstart]
    exact hbounded a (hsub.subset ha)

theorem IsRun.coming {enabled : Bool} {start t : ℚ} {h : History δ}
    (hr : IsRun encodable enabled start h s t) : Coming s t := by
  refine Machine.Run.invariant (P := fun _ s t => Coming s t) hr ?_ ?_
  · cases enabled with
    | false => exact ⟨List.Pairwise.nil, nofun⟩
    | true => exact ⟨List.Pairwise.nil, nofun⟩
  · intro h s t e _ hc hin _
    cases e with
    | write now wall topic data => exact hc.extend hin (write_extends s now wall topic data)
    | writer now wall => exact hc.extend hin (writerStep_branch encodable s now wall).extends
    | close now => exact hc.extend hin (close_extends s now)

/-- The times in the file of a session never go back. -/
theorem IsRun.file_pairwise {enabled : Bool} {start t : ℚ} {h : History δ}
    (hr : IsRun encodable enabled start h s t) :
    s.file.Pairwise fun a b => a.elapsed ≤ b.elapsed :=
  (IsRun.coming hr).ordered.sublist (List.sublist_append_left _ _)

end JsonlLogger

/-! ## Log files -/

namespace Replay

variable {δ : Type*}

/-- The lines are what one session of the logger has left in a file. A line that was cut short
    does not decode, and what was not flushed is missing. -/
def IsSession (lines : List (LogLine (δ ⊕ ℕ × ℕ))) : Prop :=
  ∃ (encodable : LogRecord δ → Bool) (start : ℚ) (h : JsonlLogger.History δ)
    (s : JsonlLogger δ) (t : ℚ), JsonlLogger.IsRun encodable true start h s t ∧
      (lines.filterMap id).Sublist (s.file.map Line.toJson)

/-- A log file: its lines, each with the number of the session that wrote it. -/
abbrev LogFile (δ : Type*) := List (ℕ × LogLine δ)

/-- The lines of the session `i`. -/
def LogFile.session (file : LogFile δ) (i : ℕ) : List (LogLine δ) :=
  (file.filter fun x => x.1 = i).map Prod.snd

/-- Several sessions, one after the other or at the same time, have appended to the file. -/
def LogFile.Written (file : LogFile (δ ⊕ ℕ × ℕ)) : Prop := ∀ i, IsSession (file.session i)

/-- From one session to another the source times do not go back, as far as they are greater than
    the first. -/
def LogFile.Continues (file : LogFile δ) : Prop :=
  file.Pairwise fun x y => x.1 ≠ y.1 → ∀ a, lineTime x.2 = some a → ∀ b, lineTime y.2 = some b →
    a ≤ b ∨ a ≤ (sourceTimes (file.map Prod.snd)).headD 0

/-- Every line of the logger has its `elapsed_time`. -/
theorem loadedTime_toJson {line : Line δ} {t : ℚ} (h : loadedTime line.toJson = some t) :
    t = line.elapsed := by
  unfold loadedTime at h
  split at h
  · cases h
  · cases line with
    | record r => exact (Option.some.inj h).symm
    | stats wallTime elapsedTime written dropped => exact (Option.some.inj h).symm

/-- Within a session the source times never go back. -/
theorem IsSession.pairwise {lines : List (LogLine (δ ⊕ ℕ × ℕ))} (hs : IsSession lines) :
    (sourceTimes lines).Pairwise (· ≤ ·) := by
  obtain ⟨encodable, start, h, s, t, hr, hsub⟩ := hs
  have hfile : ((s.file.map Line.toJson).filterMap loadedTime).Pairwise (· ≤ ·) := by
    rw [List.filterMap_map, List.pairwise_filterMap]
    refine (JsonlLogger.IsRun.file_pairwise hr).imp ?_
    intro x y hxy a ha b hb
    rw [loadedTime_toJson ha, loadedTime_toJson hb]
    exact hxy
  have hsource : sourceTimes lines = (lines.filterMap id).filterMap loadedTime := by
    rw [List.filterMap_filterMap]
    rfl
  rw [hsource]
  exact hfile.sublist (hsub.filterMap loadedTime)

/-- Two lines of the same session, wherever they are in the file. -/
theorem same_session_pairwise {file : LogFile (δ ⊕ ℕ × ℕ)} (hw : file.Written) :
    file.Pairwise fun x y => x.1 = y.1 → ∀ a, lineTime x.2 = some a → ∀ b, lineTime y.2 = some b →
      a ≤ b := by
  rw [List.pairwise_iff_forall_sublist]
  intro x y hsub hxy a ha b hb
  have hsession : [x.2, y.2].Sublist (file.session x.1) := by
    have hfilter := hsub.filter fun z => decide (z.1 = x.1)
    rw [List.filter_cons_of_pos (by simp), List.filter_cons_of_pos (by simp [hxy]),
      List.filter_nil] at hfilter
    exact hfilter.map Prod.snd
  have htimes := (hw x.1).pairwise.sublist (hsession.filterMap lineTime)
  rw [List.filterMap_cons_some ha, List.filterMap_cons_some hb] at htimes
  exact (List.pairwise_cons.mp htimes).1 b List.mem_cons_self

theorem max_sub_le_iff (a b f : ℚ) : max 0 (a - f) ≤ max 0 (b - f) ↔ a ≤ b ∨ a ≤ f := by
  constructor
  · intro h
    by_contra hn
    rw [not_or, not_le, not_le] at hn
    have ha : a - f ≤ max 0 (b - f) := (le_max_right _ _).trans h
    rcases le_max_iff.mp ha with ha | ha
    · linarith
    · linarith
  · rintro (h | h)
    · exact max_le_max le_rfl (by linarith)
    · rw [max_eq_left (by linarith)]
      exact le_max_left _ _

/-- The replay times never go back exactly if the sessions continue each other. -/
theorem replayTimes_pairwise_iff {file : LogFile (δ ⊕ ℕ × ℕ)} (hw : file.Written)
    (s : Replay (δ ⊕ ℕ × ℕ)) :
    (s.loadReplayRecords (file.map Prod.snd)).replayTimes.Pairwise (· ≤ ·) ↔ file.Continues := by
  rw [load_times, List.pairwise_map]
  simp only [max_sub_le_iff]
  unfold LogFile.Continues
  generalize hf : (sourceTimes (file.map Prod.snd)).headD 0 = f
  unfold sourceTimes
  rw [List.pairwise_filterMap, List.pairwise_map]
  constructor
  · intro h
    apply h.imp
    intro x y hxy _
    exact hxy
  · intro h
    refine (h.and (same_session_pairwise hw)).imp ?_
    rintro x y ⟨hother, hsame⟩ a ha b hb
    by_cases hxy : x.1 = y.1
    · exact Or.inl (hsame hxy a ha b hb)
    · exact hother hxy a ha b hb

theorem selectsRange_iff (optiDelayAvg optiRateWindow : ℚ) {file : LogFile (δ ⊕ ℕ × ℕ)}
    (hw : file.Written) :
    SelectsRange ((construct optiDelayAvg optiRateWindow).loadReplayRecords
      (file.map Prod.snd)) ↔ file.Continues := by
  rw [← replayTimes_pairwise_iff hw]
  constructor
  · intro h
    exact h.nondecreasing
  · intro h
    exact selectsRange_of_nondecreasing rfl (load_records _ _) rfl h

/-- A session that starts at the time `t`: one message after 5 s, closed after 6 s. -/
def sessionEvents (t : ℚ) : List (JsonlLogger.Event Unit) :=
  .write t 0 "viewer_meta" () :: .write (t + 5) 0 "/fmu/out/vehicle_attitude" () ::
    List.replicate 9 (.writer (t + 5) 0) ++ .close (t + 6) ::
    List.replicate 5 (.writer (t + 6) 0) ++ [.close (t + 6)]

/-- What that session leaves in its file. -/
def sessionLines (t : ℚ) : List (LogLine (Unit ⊕ ℕ × ℕ)) :=
  ((JsonlLogger.logger fun _ => true).final (JsonlLogger.construct true t)
    (sessionEvents t)).file.map fun line => some line.toJson

theorem filterMap_toJson (file : List (Line δ)) :
    (file.map fun line => some line.toJson).filterMap id = file.map Line.toJson := by
  rw [List.filterMap_map]
  exact congrFun List.filterMap_eq_map file

theorem isSession_of_timed {t : ℚ}
    (ht : (JsonlLogger.logger fun _ => true).Timed t (sessionEvents t)) :
    IsSession (sessionLines t) := by
  obtain ⟨t', hr⟩ := Machine.run_final (JsonlLogger.construct true t) t (sessionEvents t) ht
  refine ⟨fun _ => true, t, _, _, t', hr, ?_⟩
  unfold sessionLines
  rw [filterMap_toJson]

theorem isSession_nil : IsSession ([] : List (LogLine (Unit ⊕ ℕ × ℕ))) :=
  ⟨fun _ => true, 0, [], _, 0, .start, List.nil_sublist _⟩

theorem session_map (lines : List (LogLine δ)) (i j : ℕ) :
    LogFile.session (lines.map fun l => (j, l)) i = if j = i then lines else [] := by
  unfold LogFile.session
  split
  · rename_i h
    rw [List.filter_eq_self.mpr (by simp [h]), List.map_map]
    exact List.map_id lines
  · rename_i h
    rw [List.filter_eq_nil_iff.mpr (by simp [h])]
    rfl

theorem session_append (a b : LogFile δ) (i : ℕ) :
    LogFile.session (a ++ b) i = LogFile.session a i ++ LogFile.session b i := by
  unfold LogFile.session
  rw [List.filter_append, List.map_append]

/-- The log of one session. -/
def oneSession : LogFile (Unit ⊕ ℕ × ℕ) := (sessionLines 0).map fun l => (0, l)

/-- The log of two sessions, the second 10 s after the first. -/
def twoSessions : LogFile (Unit ⊕ ℕ × ℕ) :=
  oneSession ++ (sessionLines 10).map fun l => (1, l)

theorem oneSession_written : oneSession.Written := by
  intro i
  unfold oneSession
  rw [session_map]
  split
  · apply isSession_of_timed
    decide +kernel
  · exact isSession_nil

theorem twoSessions_written : twoSessions.Written := by
  intro i
  unfold twoSessions
  rw [session_append, session_map]
  split
  · rename_i h
    subst h
    rw [oneSession, session_map, if_neg (by omega), List.nil_append]
    apply isSession_of_timed
    decide +kernel
  · rw [List.append_nil]
    exact oneSession_written i

theorem selectsRange_iff_oneSession :
    SelectsRange ((construct 1 1).loadReplayRecords (oneSession.map Prod.snd)) := by
  apply (selectsRange_iff 1 1 oneSession_written).mpr
  unfold LogFile.Continues oneSession
  rw [List.pairwise_map]
  apply List.pairwise_of_forall
  intro x y hne
  exact absurd rfl hne

/-- After the second session has started the replay times go back. -/
theorem selectsRange_fails : twoSessions.Written ∧
    ¬ SelectsRange ((construct 1 1).loadReplayRecords (twoSessions.map Prod.snd)) := by
  refine ⟨twoSessions_written, ?_⟩
  intro h
  have hsorted := h.nondecreasing
  revert hsorted
  decide +kernel

end Replay

end Hummingbird
