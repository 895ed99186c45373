/-
  Loading a log and selecting a range of it: `_load_replay_records` and `apply_replay_range` of
  `px4_multirotor_viewer.py`.

  A log file is a list of lines, each as `json.loads` returns it. The fields of a record that the
  loading reads are its topic and its two times, which `json_float` makes finite numbers or
  nothing of. Of the view that `apply_replay_range` resets only what the selection decides is
  here: the records handed to `_ingest_replay_record`.
-/
import Mathlib.Algebra.Order.Ring.Unbundled.Rat
import Hummingbird.Library.Bisect

namespace Hummingbird

/-- A record as `json.loads` returns it: `elapsedTime` and `wallTime` are what `json_float` makes
    of these fields. -/
structure JsonRecord (δ : Type*) where
  topic : Option String
  elapsedTime : Option ℚ
  wallTime : Option ℚ
  data : δ
  deriving DecidableEq

/-- `none` for a blank line and for a line that does not decode. -/
abbrev LogLine (δ : Type*) := Option (JsonRecord δ)

/-- A record with its `_replay_t`. -/
structure ReplayRecord (δ : Type*) where
  record : JsonRecord δ
  replayT : ℚ
  deriving DecidableEq

/-- The windows of the mocap statistics, as the parameters are before they are bounded. -/
structure OptiWindows where
  optiDelayAvg : ℚ
  optiRateWindow : ℚ

namespace OptiWindows

/-- `opti_delay_avg_sec`. -/
def optiDelayAvgSec (w : OptiWindows) : ℚ := max (1 / 20) w.optiDelayAvg

/-- `opti_rate_window_sec`. -/
def optiRateWindowSec (w : OptiWindows) : ℚ := max (1 / 10) w.optiRateWindow

end OptiWindows

/-- The members of `Px4ViewerNode` that select what is replayed. -/
structure Replay (δ : Type*) extends OptiWindows where
  replayEnabled : Bool
  replayRecords : List (ReplayRecord δ)
  replayTimes : List ℚ
  replayDuration : ℚ

namespace Replay

variable {δ : Type*}

/-- The accumulators of the loop over the lines. -/
structure Loading (δ : Type*) where
  firstSourceTime : Option ℚ
  records : List (ReplayRecord δ)
  replayTimes : List ℚ

/-- `source_time`. -/
def sourceTime (record : JsonRecord δ) : Option ℚ :=
  match record.elapsedTime with
  | some t => some t
  | none => record.wallTime

/-- The body of the loop over the lines. -/
def loadLine (acc : Loading δ) : LogLine δ → Loading δ
  | none => acc
  | some record =>
    if record.topic = some "viewer_meta" then acc
    else
      match sourceTime record with
      | none => acc
      | some sourceTime =>
        let firstSourceTime := acc.firstSourceTime.getD sourceTime
        let replayTime := max 0 (sourceTime - firstSourceTime)
        { firstSourceTime := some firstSourceTime
          records := acc.records ++ [⟨record, replayTime⟩]
          replayTimes := acc.replayTimes ++ [replayTime] }

/-- `_load_replay_records`. -/
def loadReplayRecords (s : Replay δ) (lines : List (LogLine δ)) : Replay δ :=
  let loaded := lines.foldl loadLine ⟨none, [], []⟩
  { s with
    replayRecords := loaded.records
    replayTimes := loaded.replayTimes
    replayDuration := loaded.replayTimes.getLastD 0 }

/-- `numpy.searchsorted` with `side="left"`. -/
def searchsortedLeft (times : List ℚ) (t : ℚ) : ℕ := Bisect.partitionPoint (· < t) times

/-- `numpy.searchsorted` with `side="right"`. -/
def searchsortedRight (times : List ℚ) (t : ℚ) : ℕ := Bisect.partitionPoint (· ≤ t) times

/-- `start_time` after clamping. -/
def clampedStart (s : Replay δ) (startTime endTime : ℚ) : ℚ :=
  max 0 (min (min startTime endTime) s.replayDuration)

/-- `end_time` after clamping. -/
def clampedEnd (s : Replay δ) (startTime endTime : ℚ) : ℚ :=
  max (s.clampedStart startTime endTime) (min (max startTime endTime) s.replayDuration)

/-- `warmup_start`. -/
def warmupStart (s : Replay δ) (startTime endTime : ℚ) : ℚ :=
  let warmupSec := max s.optiDelayAvgSec s.optiRateWindowSec
  max 0 (s.clampedStart startTime endTime - warmupSec)

/-- The records that `apply_replay_range` hands to `_ingest_replay_record`, in order. -/
def applyReplayRange (s : Replay δ) (startTime endTime : ℚ) : List (ReplayRecord δ) :=
  if s.replayEnabled = false ∨ s.replayTimes = [] then []
  else
    let warmupLo := searchsortedLeft s.replayTimes (s.warmupStart startTime endTime)
    let hi := searchsortedRight s.replayTimes (s.clampedEnd startTime endTime)
    (s.replayRecords.take hi).drop warmupLo

/-- The viewer with a replay path, before it has read the log. -/
def construct (optiDelayAvg optiRateWindow : ℚ) : Replay δ where
  replayEnabled := true
  optiDelayAvg := optiDelayAvg
  optiRateWindow := optiRateWindow
  replayRecords := []
  replayTimes := []
  replayDuration := 0

end Replay

end Hummingbird
