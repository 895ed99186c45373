/-
  The FMU pose curve of real mode, live and in a replay.

  The FMU pose is drawn from the odometry, and from the local position only as a fallback. Live,
  `_cb_pos` decides by `last_fmu_odom_rx` whether it is one. A `Session` is a run of the live
  viewer that receives messages of these two topics; between them its health timer ticks and it
  writes records of its own. The log is loaded and replayed as a whole (`replayWhole`).
  `replaysFmuPose_iff`: the curve is the same, apart from the offset of the replay clock, exactly if
  every local position was a fallback, since a replay always draws it.
-/
import Mathlib.Tactic.Linarith
import Hummingbird.Viewer.ReplayRows
import Hummingbird.Viewer.ReplayRange

namespace Hummingbird

namespace Viewer

open Rotation

/-! ## Sessions -/

/-- The records that the viewer writes on its own account. -/
inductive OwnRecord
  | viewerMeta (metadata : Dict)
  | viewerSubscription (topic type : String)
  | viewerSubscriptionError (topic error : String)
  | viewerWarning (message : String)
  | viewerLoggerStats (written dropped : ℕ)

def OwnRecord.logged : OwnRecord → Logged
  | viewerMeta metadata => ⟨"viewer_meta", metadata⟩
  | viewerSubscription topic type =>
    ⟨"viewer_subscription", [("topic", .str topic), ("type", .str type)]⟩
  | viewerSubscriptionError topic error =>
    ⟨"viewer_subscription_error", [("topic", .str topic), ("error", .str error)]⟩
  | viewerWarning message => ⟨"viewer_warning", [("message", .str message)]⟩
  | viewerLoggerStats written dropped =>
    ⟨"viewer_logger_stats", [("written", jsonNat written), ("dropped", jsonNat dropped)]⟩

/-- Their topics. -/
def ownTopics : List String :=
  ["viewer_meta", "viewer_subscription", "viewer_subscription_error", "viewer_warning",
    "viewer_logger_stats"]

theorem OwnRecord.topic_mem (r : OwnRecord) : r.logged.topic ∈ ownTopics := by
  cases r <;> simp [OwnRecord.logged, ownTopics]

inductive Event
  | localPosition (msg : VehicleLocalPosition)
  | odometry (msg : VehicleOdometry)
  | healthTick
  | own (r : OwnRecord)

namespace Event

def IsLocalPosition : Event → Prop
  | localPosition _ => True
  | _ => False

def IsOdometry : Event → Prop
  | odometry _ => True
  | _ => False

theorem IsOdometry.not_isLocalPosition {e : Event} (h : e.IsOdometry) : ¬ e.IsLocalPosition := by
  cases e with
  | odometry msg => exact id
  | localPosition msg => exact h.elim
  | healthTick => exact h.elim
  | own r => exact h.elim

/-- What the pose is made of is finite; a heading may be missing. -/
def IsFinite : Event → Prop
  | localPosition msg => ∀ i, (msg.position i).IsFinite
  | odometry msg => (∀ i, (msg.position i).IsFinite) ∧ ∀ i, (msg.q i).IsFinite
  | _ => True

end Event

/-- An event with the node's time and the wall clock's. -/
structure Received where
  t : ℚ
  wall : ℚ
  event : Event

noncomputable section

/-- What the live viewer does. -/
def handle (c : Config) (s : View) (e : Received) : Handled :=
  match e.event with
  | .localPosition msg => cbPos c s e.t msg
  | .odometry msg => cbFmuOdom c s e.t msg
  | .healthTick => optiHealthTick c s e.t
  | .own r => ⟨s, [r.logged], []⟩

/-- The line that `JsonlLogger.write` makes of a record. -/
def Logged.line (l : Logged) (elapsedTime wallTime : ℚ) : LogLine Dict :=
  some ⟨some l.topic, some elapsedTime, some wallTime, l.data⟩

/-- The log and the rows of a run. The `elapsed_time` is `elapsed0` ahead of the node's time. -/
def live (c : Config) (elapsed0 : ℚ) : View → List Received → List (LogLine Dict) × List Push
  | _, [] => ([], [])
  | s, e :: rest =>
    let h := handle c s e
    let later := live c elapsed0 h.view rest
    (h.logged.map (fun l => l.line (e.t + elapsed0) e.wall) ++ later.1, h.pushed ++ later.2)

/-- The loop of `apply_replay_range` over the records; `none` when it raises. -/
def ingestAll (c : Config) : View → List (ReplayRecord Dict) → Option (View × List Push)
  | s, [] => some (s, [])
  | s, record :: rest => do
    let (s', pushed) ← ingestReplayRecord c s record
    let (s'', later) ← ingestAll c s' rest
    some (s'', pushed ++ later)

/-- `apply_replay_range`. -/
def applyReplayRange (c : Config) (r : Replay Dict) (startTime endTime : ℚ) :
    Option (List Push) :=
  if r.replayEnabled = false ∨ r.replayTimes = [] then some []
  else do
    let (s, pushed) ← ingestAll c View.reset (r.applyReplayRange startTime endTime)
    let health :=
      if c.realMode then (recordOptiHealth c s (r.clampedEnd startTime endTime) true).2 else []
    some (pushed ++ health)

/-- A log is loaded and its whole range applied. -/
def replayWhole (c : Config) (lines : List (LogLine Dict)) : Option (List Push) :=
  let r := (Replay.construct c.optiDelayAvg c.optiRateWindow).loadReplayRecords lines
  applyReplayRange c r 0 r.replayDuration

end

/-- The rows of the FMU pose curve. -/
def fmuPose (pushed : List Push) : List Push :=
  pushed.filter fun p => p.buffer = .fmuPosePos || p.buffer = .fmuPoseRpy

/-- The same row on a clock that is ahead by `d`. -/
def Push.ahead (d : ℚ) (p : Push) : Push := { p with t := p.t + d }

/-- A run of the live viewer in real mode, whose log is replayed by a viewer in `replayMode`. -/
structure Session where
  config : Config
  replayMode : ViewerMode
  elapsed0 : ℚ
  events : List Received
  real : config.viewerMode = .real
  replaysReal : replayMode ≠ .sim
  /-- The odometry does not come on the topic of another message, and not under the name of one of
      the viewer's own records. -/
  odomTopic : config.fmuOdomTopic ∉ ownTopics ++ fixedTopics
  finite : ∀ e ∈ events, e.event.IsFinite
  ordered : events.Pairwise fun a b => a.t ≤ b.t

/-- A local position `b` that comes when there has been no odometry `a` within the last second. -/
def Apart (a b : Received) : Prop :=
  a.event.IsOdometry → b.event.IsLocalPosition → 1 < b.t - a.t

namespace Session

/-- The log that is written. -/
noncomputable def lines (l : Session) : List (LogLine Dict) :=
  (live l.config l.elapsed0 View.reset l.events).1

/-- The rows that are pushed live. -/
noncomputable def pushed (l : Session) : List Push :=
  (live l.config l.elapsed0 View.reset l.events).2

/-- How far the replay clock is ahead of the node's: it is 0 at the first record. -/
noncomputable def offset (l : Session) : ℚ :=
  l.elapsed0 - (Replay.sourceTimes l.lines).headD 0

/-- The replay shows the FMU pose curve that was shown live. -/
def ReplaysFmuPose (l : Session) : Prop := ∃ pushed,
  replayWhole (l.config.inMode l.replayMode) l.lines = some pushed ∧
    fmuPose pushed = (fmuPose l.pushed).map (Push.ahead l.offset)

/-- Every local position comes when there has been no odometry within the last second. -/
def OnlyFallback (l : Session) : Prop := l.events.Pairwise Apart

end Session

/-! ## The rows of one event -/

theorem fmuPose_append (a b : List Push) : fmuPose (a ++ b) = fmuPose a ++ fmuPose b := by
  unfold fmuPose
  rw [List.filter_append]

/-- The pose that an event stands for. -/
noncomputable def Event.pose : Event → Option ((Fin 3 → PyFloat) × Quaternion)
  | .localPosition msg => some (msg.position, headingQuat msg.heading.finite?)
  | .odometry msg => some (msg.position, quaternionOf msg.q)
  | _ => none

/-- The rows of a pose. -/
noncomputable def poseRows (t : ℚ) (pose : (Fin 3 → PyFloat) × Quaternion) : List Push :=
  [⟨.fmuPosePos, t, List.ofFn pose.1⟩, ⟨.fmuPoseRpy, t, numRow (quatToRpyDeg pose.2)⟩]

/-- The rows of an event that is drawn. -/
noncomputable def Received.rows (e : Received) : List Push :=
  match e.event.pose with
  | some pose => poseRows e.t pose
  | none => []

theorem fmuPose_recordFmuPose (s : View) (t : ℚ) {pos : Fin 3 → PyFloat}
    (hpos : ∀ i, (pos i).IsFinite) (quat : Quaternion) :
    fmuPose (recordFmuPose s t pos quat) = poseRows t (pos, quat) := by
  obtain ⟨x, hx⟩ := PyFloat.isFinite_iff.mp (hpos 0)
  obtain ⟨y, hy⟩ := PyFloat.isFinite_iff.mp (hpos 1)
  obtain ⟨z, hz⟩ := PyFloat.isFinite_iff.mp (hpos 2)
  unfold recordFmuPose
  rw [hx, hy, hz]
  dsimp only [PyFloat.finite?]
  rw [fmuPose_append]
  cases s.lastOptiPos with
  | none => rfl
  | some optiPos => rfl

/-- A health sample has nothing to do with the FMU pose. -/
theorem recordOptiHealth_frame (c : Config) (s : View) (t : ℚ) (force : Bool) :
    fmuPose (recordOptiHealth c s t force).2 = [] ∧
      (recordOptiHealth c s t force).1.lastFmuOdomRx = s.lastFmuOdomRx := by
  unfold recordOptiHealth
  dsimp only
  split
  · split
    · exact ⟨rfl, rfl⟩
    · exact ⟨rfl, rfl⟩
  · split
    · exact ⟨rfl, rfl⟩
    · exact ⟨rfl, rfl⟩

/-- A local position is drawn live if it is a fallback; everything else always is. -/
def Drawn (c : Config) (s : View) (e : Received) : Prop :=
  e.event.IsLocalPosition → useFallback c s e.t = true

theorem fmuPose_handle_of_drawn {c : Config} {s : View} {e : Received} (hf : e.event.IsFinite)
    (h : Drawn c s e) : fmuPose (handle c s e).pushed = e.rows := by
  obtain ⟨t, wall, event⟩ := e
  cases event with
  | localPosition msg =>
    have hfallback : useFallback c s t = true := h trivial
    show fmuPose (_ ++ if useFallback c s t then _ else _) = _
    rw [if_pos hfallback, fmuPose_append, fmuPose_recordFmuPose s t hf]
    rfl
  | odometry msg =>
    refine (fmuPose_recordFmuPose _ t hf.1 _).trans ?_
    show poseRows t (msg.position, _) = poseRows t (msg.position, _)
    unfold poseRows
    rw [quatToRpyDeg_normalizeQuat]
  | healthTick => exact (recordOptiHealth_frame c s t false).1
  | own r => rfl

theorem fmuPose_handle_of_not_drawn {c : Config} {s : View} {e : Received}
    (h : ¬ Drawn c s e) : fmuPose (handle c s e).pushed = [] := by
  obtain ⟨hlocal, hfallback⟩ := Classical.not_imp.mp h
  obtain ⟨t, wall, event⟩ := e
  cases event with
  | localPosition msg =>
    show fmuPose (_ ++ if useFallback c s t then _ else _) = _
    rw [if_neg hfallback]
    rfl
  | odometry msg => exact hlocal.elim
  | healthTick => exact hlocal.elim
  | own r => exact hlocal.elim

theorem rows_ne_nil {e : Received} (h : e.event.IsLocalPosition) : e.rows ≠ [] := by
  obtain ⟨t, wall, event⟩ := e
  cases event with
  | localPosition msg => exact List.cons_ne_nil _ _
  | odometry msg => exact h.elim
  | healthTick => exact h.elim
  | own r => exact h.elim

/-! ## The live run -/

/-- Every event of a run is drawn. -/
def AllDrawn (c : Config) : View → List Received → Prop
  | _, [] => True
  | s, e :: rest => Drawn c s e ∧ AllDrawn c (handle c s e).view rest

/-- The curve of a run cannot be longer than the rows of its events. -/
theorem length_live_le (c : Config) (elapsed0 : ℚ) (s : View) {events : List Received}
    (hf : ∀ e ∈ events, e.event.IsFinite) :
    (fmuPose (live c elapsed0 s events).2).length ≤ (events.flatMap Received.rows).length := by
  induction events generalizing s with
  | nil => exact le_rfl
  | cons e rest ih =>
    have hrest := ih (handle c s e).view fun e' he' => hf e' (List.mem_cons_of_mem e he')
    show (fmuPose ((handle c s e).pushed ++ _)).length ≤ (e.rows ++ _).length
    rw [fmuPose_append, List.length_append, List.length_append]
    by_cases hd : Drawn c s e
    · rw [fmuPose_handle_of_drawn (hf e List.mem_cons_self) hd]
      exact Nat.add_le_add_left hrest _
    · rw [fmuPose_handle_of_not_drawn hd]
      exact Nat.add_le_add (Nat.zero_le _) hrest

/-- It is all of them exactly if every event is drawn. -/
theorem fmuPose_live_iff (c : Config) (elapsed0 : ℚ) (s : View) {events : List Received}
    (hf : ∀ e ∈ events, e.event.IsFinite) :
    events.flatMap Received.rows = fmuPose (live c elapsed0 s events).2 ↔ AllDrawn c s events := by
  induction events generalizing s with
  | nil => exact iff_of_true rfl trivial
  | cons e rest ih =>
    have hfrest : ∀ e' ∈ rest, e'.event.IsFinite :=
      fun e' he' => hf e' (List.mem_cons_of_mem e he')
    show e.rows ++ rest.flatMap Received.rows = fmuPose ((handle c s e).pushed ++ _) ↔ _
    rw [fmuPose_append]
    by_cases hd : Drawn c s e
    · rw [fmuPose_handle_of_drawn (hf e List.mem_cons_self) hd, List.append_right_inj,
        ih (handle c s e).view hfrest]
      exact (and_iff_right hd).symm
    · rw [fmuPose_handle_of_not_drawn hd]
      refine iff_of_false ?_ fun h => hd h.1
      intro heq
      have hlen := congrArg List.length heq
      have hle := length_live_le c elapsed0 (handle c s e).view hfrest
      have hpos := List.length_pos_iff.mpr (rows_ne_nil (Classical.not_imp.mp hd).1)
      rw [List.length_append] at hlen
      change _ + _ = (fmuPose (live c elapsed0 (handle c s e).view rest).2).length at hlen
      omega

/-- The odometry that a view has seen last is not ahead of the clock. -/
theorem handle_lastFmuOdomRx (c : Config) (s : View) (e : Received) :
    (handle c s e).view.lastFmuOdomRx = s.lastFmuOdomRx ∧ ¬ e.event.IsOdometry ∨
      (handle c s e).view.lastFmuOdomRx = some e.t ∧ e.event.IsOdometry := by
  obtain ⟨t, wall, event⟩ := e
  cases event with
  | localPosition msg => exact Or.inl ⟨rfl, id⟩
  | odometry msg => exact Or.inr ⟨rfl, trivial⟩
  | healthTick => exact Or.inl ⟨(recordOptiHealth_frame c s t false).2, id⟩
  | own r => exact Or.inl ⟨rfl, id⟩

theorem drawn_iff {c : Config} (hreal : c.realMode = true) (s : View) (e : Received) :
    Drawn c s e ↔ ∀ rx, s.lastFmuOdomRx = some rx → e.event.IsLocalPosition → 1 < e.t - rx := by
  unfold Drawn useFallback
  rw [hreal, Bool.true_and]
  cases s.lastFmuOdomRx with
  | none => simp
  | some rx => simp

/-- What is drawn depends on the odometry alone. -/
theorem allDrawn_iff {c : Config} (hreal : c.realMode = true) {s : View} {events : List Received}
    (hordered : events.Pairwise fun a b => a.t ≤ b.t)
    (hpast : ∀ rx, s.lastFmuOdomRx = some rx → ∀ e ∈ events, rx ≤ e.t) :
    AllDrawn c s events ↔ (∀ rx, s.lastFmuOdomRx = some rx → ∀ e ∈ events,
      e.event.IsLocalPosition → 1 < e.t - rx) ∧ events.Pairwise Apart := by
  induction events generalizing s with
  | nil => exact iff_of_true trivial ⟨fun _ _ _ h => absurd h List.not_mem_nil, List.Pairwise.nil⟩
  | cons e rest ih =>
    obtain ⟨hfirst, hrest⟩ := List.pairwise_cons.mp hordered
    rw [List.pairwise_cons]
    show Drawn c s e ∧ AllDrawn c (handle c s e).view rest ↔ _
    rw [drawn_iff hreal]
    rcases handle_lastFmuOdomRx c s e with ⟨hrx, hodom⟩ | ⟨hrx, hodom⟩
    · -- the last odometry is the one before
      have hpast' : ∀ rx, (handle c s e).view.lastFmuOdomRx = some rx → ∀ e' ∈ rest, rx ≤ e'.t := by
        rw [hrx]
        intro rx h e' he'
        exact hpast rx h e' (List.mem_cons_of_mem e he')
      rw [ih hrest hpast', hrx]
      constructor
      · rintro ⟨hdrawn, hlater, hapart⟩
        refine ⟨?_, fun e' _ h => absurd h hodom, hapart⟩
        intro rx h e' he'
        rcases List.mem_cons.mp he' with rfl | he'
        · exact hdrawn rx h
        · exact hlater rx h e' he'
      · rintro ⟨hall, -, hapart⟩
        refine ⟨fun rx h => hall rx h e List.mem_cons_self, ?_, hapart⟩
        intro rx h e' he'
        exact hall rx h e' (List.mem_cons_of_mem e he')
    · -- it is this event, so what is far enough from it is far enough from an earlier one
      have hpast' : ∀ rx, (handle c s e).view.lastFmuOdomRx = some rx → ∀ e' ∈ rest, rx ≤ e'.t := by
        rw [hrx]
        rintro rx ⟨⟩ e' he'
        exact hfirst e' he'
      have hlocal := hodom.not_isLocalPosition
      rw [ih hrest hpast', hrx]
      constructor
      · rintro ⟨-, hlater, hapart⟩
        refine ⟨?_, fun e' he' _ => hlater e.t rfl e' he', hapart⟩
        intro rx h e' he' hl
        rcases List.mem_cons.mp he' with rfl | he'
        · exact absurd hl hlocal
        · have hle := hpast rx h e List.mem_cons_self
          have hlt := hlater e.t rfl e' he' hl
          linarith
      · rintro ⟨-, hafter, hapart⟩
        refine ⟨fun _ _ h => absurd h hlocal, ?_, hapart⟩
        rintro rx ⟨⟩ e' he'
        exact hafter e' he' hodom

/-! ## What is loaded -/

/-- The records of an event that are loaded. -/
noncomputable def loaded (c : Config) (e : Received) : List Logged :=
  (handle c View.reset e).logged.filter fun l => l.topic ≠ "viewer_meta"

/-- What is written does not depend on what was received before. -/
theorem handle_logged (c : Config) (s : View) (e : Received) :
    (handle c s e).logged = (handle c View.reset e).logged := by
  obtain ⟨t, wall, event⟩ := e
  cases event with
  | localPosition msg => rfl
  | odometry msg => rfl
  | healthTick => rfl
  | own r => rfl

/-- Neither does it depend on the mode. -/
theorem loaded_inMode (c : Config) (m : ViewerMode) (e : Received) :
    loaded (c.inMode m) e = loaded c e := by
  obtain ⟨t, wall, event⟩ := e
  cases event with
  | localPosition msg => rfl
  | odometry msg => rfl
  | healthTick => rfl
  | own r => rfl

theorem loadedRecords_line (logged : List Logged) (elapsedTime wallTime : ℚ) :
    Replay.loadedRecords (logged.map fun l => l.line elapsedTime wallTime) =
      (logged.filter fun l => l.topic ≠ "viewer_meta").map fun l =>
        (⟨some l.topic, some elapsedTime, some wallTime, l.data⟩, elapsedTime) := by
  induction logged with
  | nil => rfl
  | cons l logged ih =>
    rw [List.map_cons, ← List.singleton_append, Replay.loadedRecords_append, ih, List.filter_cons]
    by_cases hmeta : l.topic = "viewer_meta"
    · have hnone : Replay.loadedRecords [l.line elapsedTime wallTime] = [] := by
        simp [Replay.loadedRecords, Logged.line, Replay.loadedTime, hmeta]
      rw [hnone, if_neg (by simpa using hmeta)]
      rfl
    · have hone : Replay.loadedRecords [l.line elapsedTime wallTime] =
          [(⟨some l.topic, some elapsedTime, some wallTime, l.data⟩, elapsedTime)] := by
        simp [Replay.loadedRecords, Logged.line, Replay.loadedTime, hmeta, Replay.sourceTime]
      rw [hone, if_pos (by simpa using hmeta)]
      rfl

theorem loadedRecords_live (c : Config) (elapsed0 : ℚ) (s : View) (events : List Received) :
    Replay.loadedRecords (live c elapsed0 s events).1 = events.flatMap fun e =>
      (loaded c e).map fun l =>
        (⟨some l.topic, some (e.t + elapsed0), some e.wall, l.data⟩, e.t + elapsed0) := by
  induction events generalizing s with
  | nil => rfl
  | cons e rest ih =>
    show Replay.loadedRecords ((handle c s e).logged.map _ ++ _) = _
    rw [Replay.loadedRecords_append, loadedRecords_line, handle_logged, List.flatMap_cons]
    exact congrArg _ (ih _)

theorem sourceTimes_live (c : Config) (elapsed0 : ℚ) (s : View) (events : List Received) :
    Replay.sourceTimes (live c elapsed0 s events).1 =
      events.flatMap fun e => (loaded c e).map fun _ => e.t + elapsed0 := by
  rw [← Replay.loadedRecords_times, loadedRecords_live, List.map_flatMap]
  congr 1
  funext e
  rw [List.map_map]
  rfl

theorem headD_le_of_pairwise {ts : List ℚ} (h : ts.Pairwise (· ≤ ·)) {t : ℚ} (ht : t ∈ ts) :
    ts.headD 0 ≤ t := by
  cases ts with
  | nil => cases ht
  | cons first ts =>
    rcases List.mem_cons.mp ht with rfl | ht
    · exact le_rfl
    · exact (List.pairwise_cons.mp h).1 t ht

namespace Session

variable (l : Session)

theorem sourceTimes_pairwise : (Replay.sourceTimes l.lines).Pairwise (· ≤ ·) := by
  unfold lines
  rw [sourceTimes_live, List.pairwise_flatMap]
  constructor
  · intro e _
    rw [List.pairwise_map]
    exact List.pairwise_of_forall fun _ _ => le_rfl
  · apply l.ordered.imp
    intro a b hab x hx y hy
    obtain ⟨_, -, rfl⟩ := List.mem_map.mp hx
    obtain ⟨_, -, rfl⟩ := List.mem_map.mp hy
    exact add_le_add_left hab l.elapsed0

/-- The records are replayed with the node's times, apart from the offset. -/
theorem replayRecords (r : Replay Dict) :
    (r.loadReplayRecords l.lines).replayRecords = l.events.flatMap fun e =>
      (loaded l.config e).map fun x => x.loaded (e.t + l.elapsed0) e.wall (e.t + l.offset) := by
  rw [Replay.load_replayRecords]
  unfold lines
  rw [loadedRecords_live, List.map_flatMap]
  apply List.flatMap_congr
  intro e he
  rw [List.map_map]
  apply List.map_congr_left
  intro x hx
  have hmem : e.t + l.elapsed0 ∈ Replay.sourceTimes l.lines := by
    unfold lines
    rw [sourceTimes_live, List.mem_flatMap]
    exact ⟨e, he, List.mem_map.mpr ⟨x, hx, rfl⟩⟩
  have hle := headD_le_of_pairwise l.sourceTimes_pairwise hmem
  have htime : max 0 (e.t + l.elapsed0 - (Replay.sourceTimes l.lines).headD 0) =
      e.t + l.offset := by
    unfold offset
    rw [max_eq_right (sub_nonneg.mpr hle)]
    ring
  show (⟨⟨some x.topic, some (e.t + l.elapsed0), some e.wall, x.data⟩,
    max 0 (e.t + l.elapsed0 - (Replay.sourceTimes l.lines).headD 0)⟩ : ReplayRecord Dict) = _
  rw [htime]
  rfl

/-- All of them are in the whole range. -/
theorem selectsRange (optiDelayAvg optiRateWindow : ℚ) : Replay.SelectsRange
    ((Replay.construct optiDelayAvg optiRateWindow).loadReplayRecords l.lines) := by
  apply Replay.selectsRange_of_nondecreasing rfl (Replay.load_records _ _) rfl
  rw [Replay.load_times, List.pairwise_map]
  apply l.sourceTimes_pairwise.imp
  intro a b hab
  exact max_le_max le_rfl (sub_le_sub_right hab _)

end Session

/-! ## The replay -/

theorem ingestAll_append (c : Config) (s : View) (a b : List (ReplayRecord Dict)) :
    ingestAll c s (a ++ b) = (ingestAll c s a).bind fun x =>
      (ingestAll c x.1 b).map fun y => (y.1, x.2 ++ y.2) := by
  induction a generalizing s with
  | nil =>
    show ingestAll c s b = (ingestAll c s b).map fun y => (y.1, [] ++ y.2)
    cases ingestAll c s b <;> rfl
  | cons record rest ih =>
    show ((ingestReplayRecord c s record).bind fun x => (ingestAll c x.1 (rest ++ b)).bind _) =
      ((ingestReplayRecord c s record).bind fun x => (ingestAll c x.1 rest).bind _).bind _
    cases ingestReplayRecord c s record with
    | none => rfl
    | some x =>
      simp only [Option.bind_some, ih]
      cases ingestAll c x.1 rest with
      | none => rfl
      | some y =>
        simp only [Option.bind_some]
        cases ingestAll c y.1 b with
        | none => rfl
        | some z => simp

/-- From every view the records are ingested, with these rows of the FMU pose. -/
def Shows (c : Config) (records : List (ReplayRecord Dict)) (curve : List Push) : Prop :=
  ∀ s, ∃ s' pushed, ingestAll c s records = some (s', pushed) ∧ fmuPose pushed = curve

section Shows

variable {c : Config}

theorem shows_nil : Shows c [] [] := fun s => ⟨s, [], rfl, rfl⟩

theorem Shows.append {a b : List (ReplayRecord Dict)} {curve curve' : List Push}
    (ha : Shows c a curve) (hb : Shows c b curve') : Shows c (a ++ b) (curve ++ curve') := by
  intro s
  obtain ⟨s', pushed, heq, hcurve⟩ := ha s
  obtain ⟨s'', pushed', heq', hcurve'⟩ := hb s'
  refine ⟨s'', pushed ++ pushed', ?_, ?_⟩
  · rw [ingestAll_append, heq, Option.bind_some, heq']
    rfl
  · rw [fmuPose_append, hcurve, hcurve']

/-- The health sample before a record does not show. -/
theorem shows_singleton {l : Logged} {elapsed wall t : ℚ} {curve : List Push}
    (h : ∀ s, ∃ s' pushed, ingestTopic c s t l.data l.topic (some wall) = some (s', pushed) ∧
      fmuPose pushed = curve) : Shows c [l.loaded elapsed wall t] curve := by
  intro s
  let tick := if c.realMode then recordOptiHealth c s t false else (s, [])
  have htick : fmuPose tick.2 = [] := by
    show fmuPose (if c.realMode then recordOptiHealth c s t false else (s, [])).2 = []
    split
    · exact (recordOptiHealth_frame c s t false).1
    · rfl
  obtain ⟨s', pushed, heq, hcurve⟩ := h tick.1
  have hrecord : ingestReplayRecord c s (l.loaded elapsed wall t) =
      some (s', tick.2 ++ pushed) := by
    show ((ingestTopic c tick.1 t l.data l.topic (some wall)).bind _) = _
    rw [heq]
    rfl
  refine ⟨s', tick.2 ++ pushed ++ [], ?_, ?_⟩
  · show ((ingestReplayRecord c s (l.loaded elapsed wall t)).bind _) = _
    rw [hrecord]
    rfl
  · rw [List.append_nil, fmuPose_append, htick, hcurve]
    rfl

theorem floats_orZero {n : ℕ} {v : Fin n → PyFloat} (h : ∀ i, (v i).IsFinite) :
    (floats fun i => (v i).orZero) = v :=
  funext fun i => num_orZero_eq_iff.mpr (h i)

/-- A replayed local position is always drawn. -/
theorem ingest_localPosition (hreal : c.realMode = true) {msg : VehicleLocalPosition}
    (hf : ∀ i, (msg.position i).IsFinite) {data : Dict}
    (hpos : data.lookup "position" = some (jsonArray msg.position))
    (hvel : data.lookup "velocity" = some (jsonArray msg.velocity))
    (hheading : data.lookup "heading" = some (jsonFloat msg.heading)) (s : View) (t wall : ℚ) :
    ∃ s' pushed, ingestTopic c s t data "/fmu/out/vehicle_local_position" (some wall) =
        some (s', pushed) ∧
      fmuPose pushed = poseRows t (msg.position, headingQuat msg.heading.finite?) := by
  refine ⟨s, [⟨.pos, t, numRow fun i => (msg.position i).orZero⟩,
    ⟨.vel, t, List.ofFn fun i => (msg.velocity i).stored⟩] ++
      recordFmuPose s t msg.position (headingQuat msg.heading.finite?), ?_, ?_⟩
  · show (ingestPos c s t data).map (fun pushed => (s, pushed)) = _
    rw [ingestPos_of hpos hvel hheading, if_pos hreal, floats_orZero hf]
    rfl
  · rw [fmuPose_append, fmuPose_recordFmuPose s t hf]
    rfl

/-- A record without a branch of its own and without a mocap position. -/
theorem ingestTopic_of_other {topic : String} (hfixed : topic ∉ fixedTopics) {data : Dict}
    (hopti : data.lookup "px4_position_ned" = none) (s : View) (t wall : ℚ) :
    ingestTopic c s t data topic (some wall) =
      if topic = c.fmuOdomTopic ∨ topic = "/fmu/out/vehicle_odometry" then ingestFmuOdom s t data
      else some (s, []) := by
  unfold ingestTopic
  rw [ingestFixed_eq_none hfixed, hopti]
  rfl

theorem ingest_odometry (hodom : c.fmuOdomTopic ∉ fixedTopics) {msg : VehicleOdometry}
    (hf : ∀ i, (msg.position i).IsFinite) (hq : ∀ i, (msg.q i).IsFinite) {data : Dict}
    (hopti : data.lookup "px4_position_ned" = none)
    (hdpos : data.lookup "position" = some (jsonArray msg.position))
    (hdq : data.lookup "q_wxyz" = some (jsonArray msg.q)) (s : View) (t wall : ℚ) :
    ∃ s' pushed, ingestTopic c s t data c.fmuOdomTopic (some wall) = some (s', pushed) ∧
      fmuPose pushed = poseRows t (msg.position, quaternionOf msg.q) := by
  have hquat : (⟨.num (msg.q 0).orZero, .num (msg.q 1).orZero, .num (msg.q 2).orZero,
      .num (msg.q 3).orZero⟩ : Quaternion) = quaternionOf msg.q := by
    have hnum : ∀ i, WithNaN.num (msg.q i).orZero = (msg.q i).toDouble := by
      intro i
      obtain ⟨x, hx⟩ := PyFloat.isFinite_iff.mp (hq i)
      rw [hx]
      rfl
    unfold quaternionOf
    rw [← hnum, ← hnum, ← hnum, ← hnum]
  refine ⟨{ s with lastFmuOdomRx := some t }, recordFmuPose { s with lastFmuOdomRx := some t } t
    msg.position (quaternionOf msg.q), ?_, fmuPose_recordFmuPose _ t hf _⟩
  rw [ingestTopic_of_other hodom hopti, if_pos (Or.inl rfl), ingestFmuOdom_of hdpos hdq,
    floats_orZero hf, hquat]

theorem ownTopics_other :
    ∀ topic ∈ ownTopics, topic ∉ fixedTopics ∧ topic ≠ "/fmu/out/vehicle_odometry" := by
  decide

theorem shows_own (hodom : c.fmuOdomTopic ∉ ownTopics) (r : OwnRecord)
    (hopti : r.logged.data.lookup "px4_position_ned" = none) (elapsed wall t : ℚ) :
    Shows c [r.logged.loaded elapsed wall t] [] := by
  obtain ⟨hfixed, hdefault⟩ := ownTopics_other r.logged.topic r.topic_mem
  apply shows_singleton
  intro s
  refine ⟨s, [], ?_, rfl⟩
  rw [ingestTopic_of_other hfixed hopti, if_neg]
  rintro (h | h)
  · apply hodom
    rw [← h]
    exact r.topic_mem
  · exact hdefault h

/-- A replayed event shows the rows it has when it is drawn. -/
theorem shows_event (hreal : c.realMode = true) (hodom : c.fmuOdomTopic ∉ ownTopics ++ fixedTopics)
    {e : Received} (hf : e.event.IsFinite) (elapsed t : ℚ) :
    Shows c ((loaded c e).map fun x => x.loaded elapsed e.wall t)
      (Received.rows { e with t := t }) := by
  rw [List.mem_append, not_or] at hodom
  obtain ⟨t₀, wall, event⟩ := e
  cases event with
  | localPosition msg =>
    apply shows_singleton
    intro s
    exact ingest_localPosition hreal hf rfl rfl rfl s t wall
  | odometry msg =>
    have hloaded : loaded c ⟨t₀, wall, .odometry msg⟩ = (cbFmuOdom c View.reset t₀ msg).logged := by
      apply List.filter_eq_self.mpr
      intro l hl
      rw [List.mem_singleton.mp hl]
      apply decide_eq_true
      intro hmeta
      apply hodom.1
      rw [show c.fmuOdomTopic = "viewer_meta" from hmeta]
      exact List.mem_cons_self
    rw [hloaded]
    apply shows_singleton
    intro s
    refine ingest_odometry hodom.2 hf.1 hf.2 rfl ?_ ?_ s t wall
    · exact congrArg some (jsonArrayN_self msg.position)
    · exact congrArg some (jsonArrayN_self msg.q)
  | healthTick => exact shows_nil
  | own r =>
    cases r with
    | viewerMeta metadata => exact shows_nil
    | viewerSubscription topic type =>
      exact shows_own hodom.1 (.viewerSubscription topic type) rfl elapsed wall t
    | viewerSubscriptionError topic error =>
      exact shows_own hodom.1 (.viewerSubscriptionError topic error) rfl elapsed wall t
    | viewerWarning message => exact shows_own hodom.1 (.viewerWarning message) rfl elapsed wall t
    | viewerLoggerStats written dropped =>
      exact shows_own hodom.1 (.viewerLoggerStats written dropped) rfl elapsed wall t

theorem rows_ahead (e : Received) (d : ℚ) :
    Received.rows { e with t := e.t + d } = e.rows.map (Push.ahead d) := by
  obtain ⟨t, wall, event⟩ := e
  cases event with
  | localPosition msg => rfl
  | odometry msg => rfl
  | healthTick => rfl
  | own r => rfl

/-- A replay shows the rows of all events. -/
theorem shows_events (hreal : c.realMode = true)
    (hodom : c.fmuOdomTopic ∉ ownTopics ++ fixedTopics) {events : List Received}
    (hf : ∀ e ∈ events, e.event.IsFinite) (elapsed0 d : ℚ) :
    Shows c
      (events.flatMap fun e =>
        (loaded c e).map fun x => x.loaded (e.t + elapsed0) e.wall (e.t + d))
      ((events.flatMap Received.rows).map (Push.ahead d)) := by
  induction events with
  | nil => exact shows_nil
  | cons e rest ih =>
    rw [List.flatMap_cons, List.flatMap_cons, List.map_append, ← rows_ahead]
    apply Shows.append
    · exact shows_event hreal hodom (hf e List.mem_cons_self) (e.t + elapsed0) (e.t + d)
    · exact ih fun e' he' => hf e' (List.mem_cons_of_mem e he')

end Shows

namespace Session

variable (l : Session)

/-- The whole replay shows the rows of all events. -/
theorem replayWhole_shows : ∃ pushed,
    replayWhole (l.config.inMode l.replayMode) l.lines = some pushed ∧
      fmuPose pushed = (l.events.flatMap Received.rows).map (Push.ahead l.offset) := by
  have hreal : (l.config.inMode l.replayMode).realMode = true := decide_eq_true l.replaysReal
  let r := (Replay.construct l.config.optiDelayAvg l.config.optiRateWindow).loadReplayRecords
    l.lines
  have hsel : Replay.SelectsRange r := l.selectsRange _ _
  have htimes : r.replayTimes = r.replayRecords.map ReplayRecord.replayT := Replay.load_records _ _
  have hwhole : r.applyReplayRange 0 r.replayDuration = r.replayRecords := by
    apply hsel.whole htimes
    show ∀ t ∈ (Replay.loadReplayRecords _ l.lines).replayTimes, 0 ≤ t
    rw [Replay.load_times]
    intro t ht
    obtain ⟨_, -, rfl⟩ := List.mem_map.mp ht
    exact le_max_left _ _
  have hshows : Shows (l.config.inMode l.replayMode) r.replayRecords
      ((l.events.flatMap Received.rows).map (Push.ahead l.offset)) := by
    rw [l.replayRecords]
    simp only [← loaded_inMode l.config l.replayMode]
    exact shows_events hreal l.odomTopic l.finite l.elapsed0 l.offset
  obtain ⟨s, pushed, heq, hcurve⟩ := hshows View.reset
  show ∃ pushed, applyReplayRange (l.config.inMode l.replayMode) r 0 r.replayDuration =
    some pushed ∧ _
  unfold applyReplayRange
  split
  · rename_i hempty
    have hnil : r.replayRecords = [] := by
      rcases hempty with h | h
      · cases h
      · rw [htimes] at h
        exact List.map_eq_nil_iff.mp h
    rw [hnil] at heq
    obtain ⟨-, rfl⟩ := Prod.mk.inj (Option.some.inj heq)
    exact ⟨[], rfl, hcurve⟩
  · rw [hwhole, heq]
    refine ⟨_, rfl, ?_⟩
    rw [fmuPose_append, hcurve, (recordOptiHealth_frame _ _ _ true).1, List.append_nil]

end Session

/-- The live curve is that of the replay exactly if everything was drawn live. -/
theorem Session.replaysFmuPose_iff_allDrawn (l : Session) :
    l.ReplaysFmuPose ↔ AllDrawn l.config View.reset l.events := by
  have hinj : Function.Injective (List.map (Push.ahead l.offset)) := by
    apply List.map_injective_iff.mpr
    rintro ⟨b, t, row⟩ ⟨b', t', row'⟩ h
    simp only [Push.ahead, Push.mk.injEq] at h
    obtain ⟨rfl, ht, rfl⟩ := h
    rw [add_right_cancel ht]
  obtain ⟨pushed, hreplay, hcurve⟩ := l.replayWhole_shows
  rw [← fmuPose_live_iff l.config l.elapsed0 View.reset l.finite]
  constructor
  · rintro ⟨pushed', hreplay', hcurve'⟩
    rw [hreplay] at hreplay'
    obtain rfl := Option.some.inj hreplay'
    rw [hcurve] at hcurve'
    exact hinj hcurve'
  · intro h
    refine ⟨pushed, hreplay, ?_⟩
    rw [hcurve, h]
    rfl

/-- A replay shows the FMU pose curve as it was shown live exactly if every local position was a
    fallback. -/
theorem replaysFmuPose_iff (l : Session) : l.ReplaysFmuPose ↔ l.OnlyFallback := by
  have hreal : l.config.realMode = true := by
    unfold Config.realMode
    rw [l.real]
    rfl
  have hnone : ∀ rx, View.reset.lastFmuOdomRx ≠ some rx := fun _ => (Option.some_ne_none _).symm
  rw [l.replaysFmuPose_iff_allDrawn, allDrawn_iff hreal l.ordered fun rx h => absurd h (hnone rx)]
  exact and_iff_right fun rx h => absurd h (hnone rx)

/-- A vehicle that stands still, as the odometry has it. -/
def restOdometry : VehicleOdometry where
  timestamp := 0
  timestampSample := 0
  poseFrame := 1
  position := fun _ => .num 0
  q := ![.num 1, .num 0, .num 0, .num 0]
  velocityFrame := 1
  velocity := fun _ => .num 0
  angularVelocity := fun _ => .num 0
  positionVariance := fun _ => .num 0
  orientationVariance := fun _ => .num 0
  quality := 0

/-- As the local position has it. -/
def restPosition : VehicleLocalPosition where
  timestamp := 0
  timestampSample := 0
  xyValid := true
  zValid := true
  vXyValid := true
  vZValid := true
  x := .num 0
  y := .num 0
  z := .num 0
  vx := .num 0
  vy := .num 0
  vz := .num 0
  heading := .num 0

/-- Odometry, and half a second later a local position. -/
noncomputable def restSession : Session where
  config := Config.declared .real 0
  replayMode := .real
  elapsed0 := 0
  events := [⟨0, 0, .odometry restOdometry⟩, ⟨1 / 2, 1 / 2, .localPosition restPosition⟩]
  real := rfl
  replaysReal := nofun
  odomTopic := by
    show "/fmu/out/vehicle_odometry" ∉ ownTopics ++ fixedTopics
    decide
  finite := by
    simp only [List.mem_cons, List.not_mem_nil, or_false, forall_eq_or_imp, forall_eq]
    refine ⟨⟨fun _ => trivial, ?_⟩, ?_⟩
    · intro i
      fin_cases i <;> trivial
    · intro i
      fin_cases i <;> trivial
  ordered := by
    simp

/-- The replay draws the local position too. -/
theorem replaysFmuPose_restSession : ¬ restSession.ReplaysFmuPose := by
  rw [Session.replaysFmuPose_iff_allDrawn]
  rintro ⟨-, hdrawn, -⟩
  have hfallback := of_decide_eq_true (hdrawn trivial)
  norm_num at hfallback

end Viewer

end Hummingbird
