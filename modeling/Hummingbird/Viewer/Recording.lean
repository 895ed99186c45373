/-
  A session of the viewer, its log file, and a replay of that file.

  The node handles its inputs one after the other and writes records about them; the writer thread
  and `close` take their steps whenever they like. At some moment of such a run, maybe after a
  crash, the file is read and replayed, by a node whose parameters may be others.
  `replays_recording` says what the replay shows of the curves that single messages are drawn into:
  what was shown live, as far as it got into the file, apart from the times, exactly if every
  message of the file is faithful.
-/
import Hummingbird.Viewer.LogWrites
import Hummingbird.Viewer.Rendering

namespace Hummingbird

namespace Viewer

/-! ## Sessions -/

noncomputable section

/-- A record that is written when the node, in the state `view`, hears something. -/
structure Note (c : Config) where
  view : View
  heard : Heard
  logged : Logged
  written : logged ∈ (hear c view heard).logged

namespace Note

variable {c : Config} (n : Note c)

/-- The rows that are pushed then. -/
def pushed : List Push := (hear c n.view n.heard).pushed

/-- The record in the queue. -/
def record : LogRecord Dict := ⟨n.heard.wall, n.heard.elapsed, n.logged.topic, n.logged.data⟩

end Note

/-- The records of a session. -/
def notes (c : Config) : View → List Heard → List (Note c)
  | _, [] => []
  | s, e :: rest =>
    (hear c s e).logged.attach.map (fun l => ⟨s, e, l.1, l.2⟩) ++ notes c (hear c s e).view rest

/-- Its rows. -/
def rowsOf (c : Config) : View → List Heard → List Push
  | _, [] => []
  | s, e :: rest => (hear c s e).pushed ++ rowsOf c (hear c s e).view rest

end

/-- A line as `json.loads` returns it. -/
def toJson : Line Dict → JsonRecord Dict
  | .record r => ⟨some r.topic, some r.elapsedTime, some r.wallTime, r.data⟩
  | .stats wallTime elapsedTime written dropped =>
    let l := (OwnRecord.viewerLoggerStats written dropped).logged
    ⟨some l.topic, some elapsedTime, some wallTime, l.data⟩

/-! ## The replay of a list of records -/

section Notes

variable {c : Config}

/-- The record as it is read back. -/
def Note.json (n : Note c) : JsonRecord Dict := toJson (.record n.record)

/-- Its rows, on the curves that single messages are drawn into, at other times. -/
noncomputable def rowsAt (time : Note c → ℚ) (ns : List (Note c)) : List Push :=
  ns.flatMap fun n => (direct n.pushed).map (Push.atTime (time n))

/-- Every record is drawn as it was live. -/
def AllFaithful (ns : List (Note c)) : Prop := ∀ n ∈ ns, n.heard.input.IsFaithful c

/-- Two lists of rows agree if their beginnings do and their ends do. -/
theorem append_eq_iff {α : Type} {a a' b b' : List α} (h : a.length = a'.length) :
    a ++ b = a' ++ b' ↔ a = a' ∧ b = b' :=
  ⟨fun heq => List.append_inj heq h, fun ⟨ha, hb⟩ => by rw [ha, hb]⟩

/-- A record is ingested, after the health sample of real mode, which is drawn elsewhere. -/
theorem ingest_note (hopti : c.optiTopic ∉ fixedTopics) (hodom : c.fmuOdomTopic ∉ fixedTopics)
    (c' : Config) {n : Note c} (hmeta : n.logged.topic ≠ "viewer_meta") (s : View) (t : ℚ) :
    ∃ s' pushed, ingestReplayRecord c' s ⟨n.json, t⟩ = some (s', pushed) ∧
      (direct pushed).length = (direct n.pushed).length ∧
        (direct pushed = (direct n.pushed).map (Push.atTime t) ↔ n.heard.input.IsFaithful c) := by
  let tick := if c'.realMode then recordOptiHealth c' s t false else (s, [])
  have htick : direct tick.2 = [] := by
    show direct (if c'.realMode then recordOptiHealth c' s t false else (s, [])).2 = []
    split
    · exact direct_recordOptiHealth c' s t false
    · rfl
  obtain ⟨s', pushed, heq, hrows⟩ :=
    renders_hear (c := c') (t := t) c n.view hopti hodom n.heard n.logged n.written hmeta tick.1
      n.heard.wall
  refine ⟨s', tick.2 ++ pushed, ?_, ?_⟩
  · show ((ingestTopic c' tick.1 t n.logged.data n.logged.topic (some n.heard.wall)).bind _) = _
    rw [heq]
    rfl
  · rw [direct_append, htick]
    exact hrows

theorem ingest_notes (hopti : c.optiTopic ∉ fixedTopics) (hodom : c.fmuOdomTopic ∉ fixedTopics)
    (c' : Config) {ns : List (Note c)} (hmeta : ∀ n ∈ ns, n.logged.topic ≠ "viewer_meta")
    (time : Note c → ℚ) (s : View) :
    ∃ s' pushed, ingestAll c' s (ns.map fun n => ⟨n.json, time n⟩) = some (s', pushed) ∧
      (direct pushed = rowsAt time ns ↔ AllFaithful ns) := by
  induction ns generalizing s with
  | nil => exact ⟨s, [], rfl, iff_of_true rfl fun n hn => absurd hn List.not_mem_nil⟩
  | cons n ns ih =>
    obtain ⟨s', pushed, heq, hlength, hrows⟩ :=
      ingest_note hopti hodom c' (hmeta n List.mem_cons_self) s (time n)
    obtain ⟨s'', later, heq', hrows'⟩ := ih (fun n hn => hmeta n (List.mem_cons_of_mem _ hn)) s'
    refine ⟨s'', pushed ++ later, ?_, ?_⟩
    · show ((ingestReplayRecord c' s _).bind fun x => (ingestAll c' x.1 _).bind _) = _
      rw [heq, Option.bind_some, heq']
      rfl
    · rw [direct_append, rowsAt, List.flatMap_cons,
        append_eq_iff (by rw [hlength, List.length_map]), hrows]
      unfold AllFaithful
      rw [List.forall_mem_cons]
      exact and_congr_right fun _ => hrows'

/-! ## Loading a list of records -/

/-- The records that are loaded. -/
def loadedNotes (ns : List (Note c)) : List (Note c) :=
  ns.filter fun n => n.logged.topic ≠ "viewer_meta"

variable {lines : List (LogLine Dict)} {ns : List (Note c)}

theorem loadedRecords_notes (hread : lines.filterMap id = ns.map Note.json) :
    Replay.loadedRecords lines = (loadedNotes ns).map fun n => (n.json, n.heard.elapsed) := by
  have hlines : Replay.loadedRecords lines = (lines.filterMap id).filterMap fun record =>
      (Replay.loadedTime record).map fun t => (record, t) := by
    rw [List.filterMap_filterMap]
    rfl
  rw [hlines, hread, List.filterMap_map]
  clear hread hlines
  induction ns with
  | nil => rfl
  | cons n ns ih =>
    unfold loadedNotes at ih ⊢
    rw [List.filterMap_cons, List.filter_cons, ih]
    by_cases hmeta : n.logged.topic = "viewer_meta"
    · have hskipped : Replay.loadedTime n.json = none := if_pos (congrArg some hmeta)
      simp [hskipped, hmeta]
    · have hloaded : Replay.loadedTime n.json = some n.heard.elapsed :=
        if_neg fun h => hmeta (Option.some.inj h)
      simp [hloaded, hmeta]

/-- The time of a record on the replay clock. -/
def replayTime (lines : List (LogLine Dict)) (n : Note c) : ℚ :=
  n.heard.elapsed - (Replay.sourceTimes lines).headD 0

theorem replayRecords_notes (hread : lines.filterMap id = ns.map Note.json)
    (hordered : ns.Pairwise fun a b => a.heard.elapsed ≤ b.heard.elapsed) (r : Replay Dict) :
    (r.loadReplayRecords lines).replayRecords =
      (loadedNotes ns).map fun n => ⟨n.json, replayTime lines n⟩ := by
  have htimes : Replay.sourceTimes lines = (loadedNotes ns).map fun n => n.heard.elapsed := by
    rw [← Replay.loadedRecords_times, loadedRecords_notes hread, List.map_map]
    rfl
  have hsorted : (Replay.sourceTimes lines).Pairwise (· ≤ ·) := by
    rw [htimes, List.pairwise_map]
    exact hordered.sublist List.filter_sublist
  rw [Replay.load_replayRecords, loadedRecords_notes hread, List.map_map]
  apply List.map_congr_left
  intro n hn
  have hmem : n.heard.elapsed ∈ Replay.sourceTimes lines := by
    rw [htimes]
    exact List.mem_map_of_mem hn
  show (⟨n.json, max 0 (n.heard.elapsed - (Replay.sourceTimes lines).headD 0)⟩ :
    ReplayRecord Dict) = _
  rw [max_eq_right (sub_nonneg.mpr (headD_le_of_pairwise hsorted hmem))]
  rfl

/-- A record that `apply_replay_range` ingests for this range. -/
def InRange (r : Replay Dict) (lines : List (LogLine Dict)) (startTime endTime : ℚ)
    (n : Note c) : Prop :=
  r.warmupStart startTime endTime ≤ replayTime lines n ∧
    replayTime lines n ≤ r.clampedEnd startTime endTime

instance (r : Replay Dict) (startTime endTime : ℚ) (n : Note c) :
    Decidable (InRange r lines startTime endTime n) := inferInstanceAs (Decidable (_ ∧ _))

/-- Every range of the log is selected as it should be. -/
theorem selectsRange_notes (hread : lines.filterMap id = ns.map Note.json)
    (hordered : ns.Pairwise fun a b => a.heard.elapsed ≤ b.heard.elapsed)
    (optiDelayAvg optiRateWindow : ℚ) : Replay.SelectsRange
      ((Replay.construct optiDelayAvg optiRateWindow).loadReplayRecords lines) := by
  apply Replay.selectsRange_of_nondecreasing rfl (Replay.load_records _ _) rfl
  rw [Replay.load_records, replayRecords_notes hread hordered, List.map_map, List.pairwise_map]
  refine (hordered.sublist List.filter_sublist).imp ?_
  intro a b hab
  exact sub_le_sub_right hab _

/-- The topics of the records about messages. -/
theorem callback_topic {s : View} {t : ℚ} {msg : Message} {l : Logged}
    (hl : l ∈ (callback c s t msg).logged) : l.topic ∈ c.optiTopic :: fixedTopics := by
  cases msg with
  | opti msg =>
    change l ∈ (cbOpti c s t msg).logged at hl
    by_cases hbody : OtherBody c msg
    · rw [cbOpti_other hbody] at hl
      cases hl
    · obtain ⟨data, hlogged, -⟩ := cbOpti_of hbody s t
      rw [hlogged] at hl
      rw [List.mem_singleton.mp hl]
      exact List.mem_cons_self
  | _ =>
    obtain rfl := List.mem_singleton.mp hl
    apply List.mem_cons_of_mem
    dsimp only
    decide

/-- Of what is not loaded, nothing is missed. -/
theorem nothing_of_skipped (hopti : c.optiTopic ≠ "viewer_meta") {n : Note c}
    (hmeta : n.logged.topic = "viewer_meta") :
    direct n.pushed = [] ∧ n.heard.input.IsFaithful c := by
  obtain ⟨s, ⟨t, elapsed, wall, input⟩, l, hl⟩ := n
  cases input with
  | message msg =>
    rcases List.mem_cons.mp (callback_topic hl) with h | h
    · exact absurd (h.symm.trans hmeta) hopti
    · rw [show l.topic = "viewer_meta" from hmeta] at h
      exact absurd h (by decide)
  | odometry msg => exact ⟨direct_recordFmuPose _ _ _ _, trivial⟩
  | healthTick => exact absurd hl List.not_mem_nil
  | own r => exact ⟨rfl, trivial⟩

theorem rowsAt_loaded (ns : List (Note c)) (hopti : c.optiTopic ≠ "viewer_meta")
    (time : Note c → ℚ) :
    rowsAt time (loadedNotes ns) = rowsAt time ns ∧
      (AllFaithful (loadedNotes ns) ↔ AllFaithful ns) := by
  unfold rowsAt AllFaithful loadedNotes
  induction ns with
  | nil => exact ⟨rfl, Iff.rfl⟩
  | cons n ns ih =>
    rw [List.filter_cons, List.flatMap_cons, List.forall_mem_cons]
    by_cases hmeta : n.logged.topic = "viewer_meta"
    · obtain ⟨hrows, hfaithful⟩ := nothing_of_skipped hopti hmeta
      rw [if_neg (by simp [hmeta]), hrows, ih.1]
      exact ⟨rfl, ih.2.trans (and_iff_right hfaithful).symm⟩
    · rw [if_pos (by simp [hmeta]), List.flatMap_cons, List.forall_mem_cons, ih.1]
      exact ⟨rfl, and_congr_right fun _ => ih.2⟩

/-- Records that are not drawn add nothing. -/
theorem rowsAt_append_nothing (ns : List (Note c)) {ms : List (Note c)} (time : Note c → ℚ)
    (h : ∀ n ∈ ms, direct n.pushed = [] ∧ n.heard.input.IsFaithful c) :
    rowsAt time (ns ++ ms) = rowsAt time ns ∧ (AllFaithful (ns ++ ms) ↔ AllFaithful ns) := by
  constructor
  · have hnil : rowsAt time ms = [] := by
      unfold rowsAt
      rw [List.flatMap_eq_nil_iff]
      intro n hn
      rw [(h n hn).1]
      rfl
    unfold rowsAt at hnil ⊢
    rw [List.flatMap_append, hnil, List.append_nil]
  · unfold AllFaithful
    rw [List.forall_mem_append]
    exact and_iff_left fun n hn => (h n hn).2

/-- What is selected of the log is replayed to its rows. -/
theorem replay_rows (hopti : c.optiTopic ∉ "viewer_meta" :: fixedTopics)
    (hodom : c.fmuOdomTopic ∉ fixedTopics) (c' : Config) {r : Replay Dict}
    {startTime endTime : ℚ} {shown : List (Note c)}
    (hrange : r.applyReplayRange startTime endTime = (loadedNotes shown).map fun n =>
      ⟨n.json, replayTime lines n⟩) :
    ∃ pushed, applyReplayRange c' r startTime endTime = some pushed ∧
      (direct pushed = rowsAt (replayTime lines) shown ↔ AllFaithful shown) := by
  have hmeta := List.ne_of_not_mem_cons hopti
  have hfixed := List.not_mem_of_not_mem_cons hopti
  obtain ⟨hrows, hfaithful⟩ := rowsAt_loaded shown hmeta (replayTime lines)
  have hloaded : ∀ n ∈ loadedNotes shown, n.logged.topic ≠ "viewer_meta" :=
    fun n hn => of_decide_eq_true (List.mem_filter.mp hn).2
  obtain ⟨s, pushed, heq, hiff⟩ :=
    ingest_notes hfixed hodom c' hloaded (replayTime lines) View.reset
  rw [hrows, hfaithful] at hiff
  unfold applyReplayRange
  split
  · rename_i hempty
    have hnil : r.applyReplayRange startTime endTime = [] := if_pos hempty
    rw [← hrange, hnil] at heq
    obtain ⟨-, rfl⟩ := Prod.mk.inj (Option.some.inj heq)
    exact ⟨[], rfl, hiff⟩
  · rw [hrange, heq]
    refine ⟨_, rfl, ?_⟩
    have hhealth : direct (if c'.realMode then
        (recordOptiHealth c' s (r.clampedEnd startTime endTime) true).2 else []) = [] := by
      split
      · exact direct_recordOptiHealth _ _ _ _
      · rfl
    rw [direct_append, hhealth, List.append_nil]
    exact hiff

/-! ## What is shown live -/

theorem hear_logged (c : Config) (s : View) (e : Heard) :
    (∃ l, (hear c s e).logged = [l]) ∨
      (hear c s e).logged = [] ∧ direct (hear c s e).pushed = [] := by
  obtain ⟨t, elapsed, wall, input⟩ := e
  cases input with
  | message msg =>
    cases msg with
    | opti msg =>
      by_cases hbody : OtherBody c msg
      · right
        show (cbOpti c s t msg).logged = [] ∧ direct (cbOpti c s t msg).pushed = []
        rw [cbOpti_other hbody]
        exact ⟨rfl, rfl⟩
      · obtain ⟨data, hlogged, -⟩ := cbOpti_of hbody s t
        exact Or.inl ⟨_, hlogged⟩
    | _ => exact Or.inl ⟨_, rfl⟩
  | odometry msg => exact Or.inl ⟨_, rfl⟩
  | healthTick => exact Or.inr ⟨rfl, direct_recordOptiHealth c s t false⟩
  | own r => exact Or.inl ⟨_, rfl⟩

/-- What is drawn directly has a record. -/
theorem direct_rowsOf (s : View) (inputs : List Heard) :
    direct (rowsOf c s inputs) = (notes c s inputs).flatMap fun n => direct n.pushed := by
  induction inputs generalizing s with
  | nil => rfl
  | cons e rest ih =>
    have hrows : ((hear c s e).logged.attach.map fun l => (⟨s, e, l.1, l.2⟩ : Note c)).flatMap
        (fun n => direct n.pushed) = direct (hear c s e).pushed := by
      rw [List.flatMap_map]
      show (hear c s e).logged.attach.flatMap (fun _ => direct (hear c s e).pushed) = _
      rw [← List.flatMap_map (g := fun _ => direct (hear c s e).pushed) (f := Subtype.val),
        List.attach_map_subtype_val]
      rcases hear_logged c s e with ⟨l, hlogged⟩ | ⟨hlogged, hdirect⟩
      · rw [hlogged]
        exact List.append_nil _
      · rw [hlogged, hdirect]
        rfl
    show direct ((hear c s e).pushed ++ _) = (_ ++ notes c (hear c s e).view rest).flatMap _
    rw [direct_append, List.flatMap_append, hrows, ih]

end Notes

/-! ## Recordings -/

/-- A session, read back at some moment of it. -/
structure Recording where
  config : Config
  inputs : List Heard
  /-- What has happened to the logger: it was called for each record of the node. -/
  encodable : LogRecord Dict → Bool
  start : ℚ
  history : JsonlLogger.History Dict
  logger : JsonlLogger Dict
  now : ℚ
  run : JsonlLogger.IsRun encodable true start history logger now
  calls : JsonlLogger.offered start history = (notes config View.reset inputs).map Note.record
  /-- The lines that are read. What was not flushed is missing, and a line that was cut short does
      not decode. -/
  lines : List (LogLine Dict)
  read : lines.filterMap id <+: logger.file.map toJson
  /-- The mocap poses and the odometry do not come on the topics of other messages, and the poses
      not under the name of the metadata. -/
  optiTopic : config.optiTopic ∉ "viewer_meta" :: fixedTopics
  odomTopic : config.fmuOdomTopic ∉ fixedTopics

namespace Recording

variable (r : Recording)

/-- The records of the session. -/
noncomputable def notes : List (Note r.config) := Viewer.notes r.config View.reset r.inputs

/-- The rows that were shown live, on the curves that single messages are drawn into. -/
noncomputable def shownLive : List Push := direct (rowsOf r.config View.reset r.inputs)

/-- Nothing was dropped, no call came too late, the writer has finished, and the whole file is
    read. -/
structure IsWhole : Prop where
  dropped : r.logger.dropped = 0
  late : JsonlLogger.callsAfterStop r.history = 0
  finished : r.logger.writer = .finished
  read : r.lines.filterMap id = r.logger.file.map toJson

/-- The records that can be replayed: those that are read, apart from the statistics. -/
structure Survive (kept : List (Note r.config)) : Prop where
  read : ∃ stats : List (JsonRecord Dict), r.lines.filterMap id = kept.map Note.json ++ stats ∧
    ∀ record ∈ stats, record.topic = some "viewer_logger_stats"
  sublist : kept.Sublist r.notes
  first : r.logger.dropped = 0 → kept <+: r.notes
  all : r.IsWhole → kept = r.notes

/-- What a node with the parameters of `c` has loaded. -/
def replay (c : Config) : Replay Dict :=
  (Replay.construct c.optiDelayAvg c.optiRateWindow).loadReplayRecords r.lines

/-- The records of `kept` in a range. -/
noncomputable def inRange (c : Config) (kept : List (Note r.config)) (startTime endTime : ℚ) :
    List (Note r.config) :=
  kept.filter fun n => InRange (r.replay c) r.lines startTime endTime n

/-- The record of the closing statistics. -/
def statsNote (c : Config) (wallTime elapsedTime : ℚ) (written dropped : ℕ) : Note c where
  view := View.reset
  heard := ⟨0, elapsedTime, wallTime, .own (.viewerLoggerStats written dropped)⟩
  logged := (OwnRecord.viewerLoggerStats written dropped).logged
  written := List.mem_cons_self

/-- The records in the file: some of the session, then the first ones, then all. -/
theorem fileRecords_notes : ∃ inFile : List (Note r.config),
    r.logger.fileRecords = inFile.map Note.record ∧ inFile.Sublist r.notes ∧
      (r.logger.dropped = 0 → inFile <+: r.notes) ∧ (r.IsWhole → inFile = r.notes) := by
  have hcalls : JsonlLogger.offered r.start r.history = r.notes.map Note.record := r.calls
  by_cases hd : r.logger.dropped = 0
  · have hprefix := JsonlLogger.IsRun.fileRecords_prefix r.run hd
    rw [hcalls, List.prefix_iff_eq_take, ← List.map_take] at hprefix
    refine ⟨_, hprefix, List.take_sublist _ _, fun _ => List.take_prefix _ _, fun hw => ?_⟩
    have hall := JsonlLogger.IsRun.fileRecords_eq r.run hd hw.late hw.finished
    rw [hall, hcalls, List.length_map, List.take_length]
  · have hsub := JsonlLogger.IsRun.fileRecords_sublist r.run
    rw [hcalls, List.sublist_map_iff] at hsub
    obtain ⟨inFile, hinFile, hrecords⟩ := hsub
    exact ⟨inFile, hrecords, hinFile, fun h => absurd h hd, fun hw => absurd hw.dropped hd⟩

/-- The lines that are not records are the statistics. -/
theorem closing_notes (c : Config) {closing : List (Line Dict)}
    (hclosing : ∀ line ∈ closing, line.toRecord = none) : ∃ stats : List (Note c),
      closing.map toJson = stats.map Note.json ∧ ∀ n ∈ stats,
        n.json.topic = some "viewer_logger_stats" ∧
          direct n.pushed = [] ∧ n.heard.input.IsFaithful c := by
  induction closing with
  | nil => exact ⟨[], rfl, fun n hn => absurd hn List.not_mem_nil⟩
  | cons line closing ih =>
    obtain ⟨stats, hstats, hnothing⟩ := ih fun l hl => hclosing l (List.mem_cons_of_mem _ hl)
    cases line with
    | record r => cases hclosing _ List.mem_cons_self
    | stats wallTime elapsedTime written dropped =>
      refine ⟨statsNote c wallTime elapsedTime written dropped :: stats, ?_, ?_⟩
      · rw [List.map_cons, List.map_cons, hstats]
        rfl
      · rw [List.forall_mem_cons]
        exact ⟨⟨rfl, rfl, trivial⟩, hnothing⟩

/-- What is read are some of the records, and maybe the statistics. -/
theorem lines_notes : ∃ kept stats : List (Note r.config), r.Survive kept ∧
    r.lines.filterMap id = (kept ++ stats).map Note.json ∧
      (kept ++ stats).Pairwise (fun a b => a.heard.elapsed ≤ b.heard.elapsed) ∧
        ∀ n ∈ stats, direct n.pushed = [] ∧ n.heard.input.IsFaithful r.config := by
  obtain ⟨inFile, hrecords, hsub, hfirst, hall⟩ := r.fileRecords_notes
  obtain ⟨closing, hfile, hlength, hclosing⟩ := (JsonlLogger.IsRun.kept r.run).phased.file
  obtain ⟨stats, hstats, hnothing⟩ := closing_notes r.config hclosing
  have hjson : r.logger.file.map toJson = (inFile ++ stats).map Note.json := by
    rw [hfile, List.map_append, List.map_append, hstats, hrecords, List.map_map, List.map_map]
    rfl
  have hordered : (inFile ++ stats).Pairwise fun a b => a.heard.elapsed ≤ b.heard.elapsed := by
    have htimes : r.logger.file.map Line.elapsed =
        (inFile ++ stats).map fun n => n.heard.elapsed := by
      apply List.map_injective_iff.mpr (Option.some_injective ℚ)
      have h := congrArg (List.map JsonRecord.elapsedTime) hjson
      rw [List.map_map, List.map_map] at h
      rw [List.map_map, List.map_map]
      refine Eq.trans (List.map_congr_left fun line _ => ?_) h
      cases line <;> rfl
    rw [← List.pairwise_map (R := (· ≤ ·)), ← htimes, List.pairwise_map]
    exact JsonlLogger.IsRun.file_pairwise r.run
  have hread := r.read
  rw [hjson, List.prefix_iff_eq_take, ← List.map_take, List.take_append] at hread
  refine ⟨_, _, ⟨⟨_, hread.trans List.map_append, ?_⟩, ?_, ?_, ?_⟩, hread, ?_, ?_⟩
  · intro record hrecord
    obtain ⟨n, hn, rfl⟩ := List.mem_map.mp hrecord
    exact (hnothing n (List.mem_of_mem_take hn)).1
  · exact (List.take_sublist _ _).trans hsub
  · exact fun hd => (List.take_prefix _ _).trans (hfirst hd)
  · intro hw
    rw [hw.read, hjson, List.length_map, List.length_append]
    rw [List.take_of_length_le (Nat.le_add_right _ _)]
    exact hall hw
  · rw [← List.take_append]
    exact hordered.sublist (List.take_sublist _ _)
  · exact fun n hn => (hnothing n (List.mem_of_mem_take hn)).2

end Recording

section Replays

open Recording

variable (r : Recording) (c : Config) {kept stats : List (Note r.config)}

/-- A range of the file. -/
theorem replays_range (hread : r.lines.filterMap id = (kept ++ stats).map Note.json)
    (hordered : (kept ++ stats).Pairwise fun a b => a.heard.elapsed ≤ b.heard.elapsed)
    (hstats : ∀ n ∈ stats, direct n.pushed = [] ∧ n.heard.input.IsFaithful r.config)
    (startTime endTime : ℚ) : ∃ pushed,
      applyReplayRange c (r.replay c) startTime endTime = some pushed ∧
        (direct pushed = rowsAt (replayTime r.lines) (r.inRange c kept startTime endTime) ↔
          AllFaithful (r.inRange c kept startTime endTime)) := by
  have hrange := (selectsRange_notes hread hordered c.optiDelayAvg c.optiRateWindow).range
    startTime endTime
  rw [replayRecords_notes hread hordered, List.filter_map, loadedNotes, List.filter_comm] at hrange
  obtain ⟨pushed, heq, hiff⟩ := replay_rows r.optiTopic r.odomTopic c hrange
  rw [List.filter_append] at hiff
  obtain ⟨hrows, hfaithful⟩ := rowsAt_append_nothing (r.inRange c kept startTime endTime)
    (replayTime r.lines) fun n hn => hstats n (List.mem_filter.mp hn).1
  exact ⟨pushed, heq, (hrows ▸ hiff).trans hfaithful⟩

/-- The whole file. -/
theorem replays_whole (hread : r.lines.filterMap id = (kept ++ stats).map Note.json)
    (hordered : (kept ++ stats).Pairwise fun a b => a.heard.elapsed ≤ b.heard.elapsed)
    (hstats : ∀ n ∈ stats, direct n.pushed = [] ∧ n.heard.input.IsFaithful r.config) :
    ∃ pushed, replayWhole c r.lines = some pushed ∧
      (direct pushed = rowsAt (replayTime r.lines) kept ↔ AllFaithful kept) := by
  have htimes : (r.replay c).replayTimes =
      (r.replay c).replayRecords.map ReplayRecord.replayT := Replay.load_records _ _
  have hpos : ∀ t ∈ (r.replay c).replayTimes, 0 ≤ t := by
    unfold replay
    rw [Replay.load_times]
    intro t ht
    obtain ⟨_, -, rfl⟩ := List.mem_map.mp ht
    exact le_max_left _ _
  have hwhole := (selectsRange_notes hread hordered c.optiDelayAvg c.optiRateWindow).whole
    htimes hpos
  rw [replayRecords_notes hread hordered] at hwhole
  obtain ⟨hrows, hfaithful⟩ := rowsAt_append_nothing kept (replayTime r.lines) hstats
  rw [← hrows, ← hfaithful]
  exact replay_rows r.optiTopic r.odomTopic c hwhole

end Replays

/-- At every moment of a session: whatever range of the log file is replayed, by a node with
    whatever parameters, it shows the rows of those records that are in the file and in the range
    or its warm-up, at the times of the log, exactly if every message among them is faithful; and
    these rows are what was shown live, all of it in the end. -/
theorem replays_recording (r : Recording) :
    r.shownLive = r.notes.flatMap (fun n => direct n.pushed) ∧
      ∃ kept, r.Survive kept ∧ ∀ c : Config,
        (∃ pushed, replayWhole c r.lines = some pushed ∧
          (direct pushed = rowsAt (replayTime r.lines) kept ↔ AllFaithful kept)) ∧
        ∀ startTime endTime, ∃ pushed,
          applyReplayRange c (r.replay c) startTime endTime = some pushed ∧
            (direct pushed = rowsAt (replayTime r.lines) (r.inRange c kept startTime endTime) ↔
              AllFaithful (r.inRange c kept startTime endTime)) := by
  refine ⟨direct_rowsOf View.reset r.inputs, ?_⟩
  obtain ⟨kept, stats, hkept, hread, hordered, hstats⟩ := r.lines_notes
  exact ⟨kept, hkept, fun c => ⟨replays_whole r c hread hordered hstats,
    replays_range r c hread hordered hstats⟩⟩

/-- A session in which a velocity is commanded, and then the log is closed. -/
noncomputable def shortEvents : List (JsonlLogger.Event Dict) :=
  (cbPosSp View.reset 1 velocitySetpoint).logged.map (fun l => .write 1 1 l.topic l.data) ++
    List.replicate 7 (.writer 1 1) ++ .close 2 :: List.replicate 5 (.writer 2 2) ++ [.close 2]

noncomputable abbrev shortLogger : JsonlLogger Dict :=
  (JsonlLogger.logger fun _ => true).final (JsonlLogger.construct true 0) shortEvents

theorem shortLogger_run : ∃ t, JsonlLogger.IsRun (fun _ => true) true 0
    ((JsonlLogger.logger fun _ => true).trace (JsonlLogger.construct true 0) shortEvents [])
    shortLogger t :=
  Machine.run_final _ _ _ (by simp [shortEvents, cbPosSp, Machine.Timed, JsonlLogger.logger,
    JsonlLogger.Event.now, List.replicate])

theorem shortLogger_finished : shortLogger.writer = .finished := by
  simp [shortLogger, shortEvents, cbPosSp, Machine.final, JsonlLogger.logger, JsonlLogger.handle,
    JsonlLogger.construct, JsonlLogger.write, JsonlLogger.writerStep, JsonlLogger.close,
    JsonlLogger.loggerQueueRecords, JsonlLogger.loggerBatchRecords, List.replicate]

noncomputable def shortRecording : Recording where
  config := Config.declared .sim 0
  inputs := [⟨1, 1, 1, .message (.posSp velocitySetpoint)⟩]
  encodable := fun _ => true
  start := 0
  history := _
  logger := shortLogger
  now := _
  run := shortLogger_run.choose_spec
  calls := by
    simp [JsonlLogger.offered, shortEvents, cbPosSp, Machine.trace, Machine.record,
      JsonlLogger.logger, JsonlLogger.Event.offers, notes, hear, callback, Note.record]
  lines := shortLogger.file.map fun line => some (toJson line)
  read := by
    rw [List.filterMap_map]
    exact List.prefix_rfl
  optiTopic := by
    show "/opti_raw" ∉ "viewer_meta" :: fixedTopics
    decide
  odomTopic := by
    show "/fmu/out/vehicle_odometry" ∉ fixedTopics
    decide

/-- Its log is read as a whole, and the replay shows something else. -/
theorem replays_recording_short : ∃ pushed,
    replayWhole shortRecording.config shortRecording.lines = some pushed ∧
      direct pushed ≠ rowsAt (replayTime shortRecording.lines) shortRecording.notes := by
  have hwhole : shortRecording.IsWhole := ⟨rfl, rfl, shortLogger_finished, List.filterMap_map⟩
  obtain ⟨-, kept, hkept, hreplay⟩ := replays_recording shortRecording
  obtain ⟨⟨pushed, heq, hiff⟩, -⟩ := hreplay shortRecording.config
  obtain rfl := hkept.all hwhole
  refine ⟨pushed, heq, fun h => ?_⟩
  have hfaithful : Faithful shortRecording.config (.posSp velocitySetpoint) :=
    hiff.mp h _ List.mem_cons_self
  exact hfaithful.1 0

end Viewer

end Hummingbird
