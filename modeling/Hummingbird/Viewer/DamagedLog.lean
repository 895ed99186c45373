/-
  A log of any lines: `_load_replay_records` and `apply_replay_range` of
  `px4_multirotor_viewer.py`.

  The loading raises an exception for a line that decodes to something else than an object, and for
  a time that no float can hold (`returns_loadReplayRecords`); a replay raises one for a record with
  a field that its branch cannot convert (`returns_applyReplayRange`).
-/
import Hummingbird.Viewer.DamagedIngest
import Hummingbird.Viewer.ReplayRange

namespace Hummingbird

namespace Viewer

namespace Raw

open Raising

/-! ## Loading -/

/-- The standard library with a given `json.loads`, on text that is not padded and has no numbers
    in strings. -/
def plainText (loads : String → Except PyError Value) : TextLibrary where
  strip := id
  loads := loads
  float _ := none
  int _ := none
  str v := match v with
    | .str s => s
    | _ => ""
  str_str _ := rfl

/-- The topic of a record, if that is a string. -/
def topicText (fields : Fields) : Option String :=
  match fields.lookup "topic" with
  | some (.str s) => some s
  | _ => none

/-- `record.get(key)`. -/
def field (fields : Fields) (key : String) : Value := (fields.lookup key).getD .none

section Loading

variable (lib : TextLibrary)

/-- What the loading reads of a value that was decoded; the wall time only without the other. -/
def readRecord (record : Value) : Except PyError (JsonRecord Fields) :=
  match record with
  | .dict fields =>
    if topicText fields = some "viewer_meta" then pure ⟨topicText fields, none, none, fields⟩
    else do
      let elapsedTime ← (field fields "elapsed_time").jsonFloat lib
      match elapsedTime with
      | some t => pure ⟨topicText fields, some t, none, fields⟩
      | none => do
        let wallTime ← (field fields "wall_time").jsonFloat lib
        pure ⟨topicText fields, none, wallTime, fields⟩
  | _ => .error .attributeError

/-- What the loading reads of a line. -/
def readLine (line : String) : Except PyError (LogLine Fields) :=
  if lib.strip line = "" then pure none
  else
    match lib.loads (lib.strip line) with
    | .error .jsonDecodeError => pure none
    | .error e => .error e
    | .ok record => do
      let r ← readRecord lib record
      pure (some r)

/-- `_load_replay_records`. -/
def loadReplayRecords (s : Replay Fields) (lines : List String) :
    Except PyError (Replay Fields) := do
  let loaded ← lines.foldlM (fun acc line => do
    let l ← readLine lib line
    pure (Replay.loadLine acc l)) ⟨none, [], []⟩
  pure { s with
    replayRecords := loaded.records
    replayTimes := loaded.replayTimes
    replayDuration := loaded.replayTimes.getLastD 0 }

/-- The lines that the loading reads without an exception. -/
def LineReadable (line : String) : Prop :=
  lib.strip line = "" ∨ lib.loads (lib.strip line) = .error .jsonDecodeError ∨
    ∃ fields, lib.loads (lib.strip line) = .ok (.dict fields) ∧
      (topicText fields ≠ some "viewer_meta" → (field fields "elapsed_time").Fits ∧
        ((field fields "elapsed_time").number? lib = none → (field fields "wall_time").Fits))

/-- The record of a line that is to be kept, with its source time: an object that has a finite
    `elapsed_time` or `wall_time` and is no `viewer_meta`. -/
def keptRecord (line : String) : Option (Fields × ℚ) :=
  if lib.strip line = "" then none
  else
    match lib.loads (lib.strip line) with
    | .ok (.dict fields) =>
      if topicText fields = some "viewer_meta" then none
      else
        (((field fields "elapsed_time").number? lib).or
          ((field fields "wall_time").number? lib)).map fun t => (fields, t)
    | _ => none

end Loading

section Loading

variable {lib : TextLibrary}

theorem returns_readRecord {record : Value} : Returns (readRecord lib record) ↔
    ∃ fields, record = .dict fields ∧ (topicText fields ≠ some "viewer_meta" →
      (field fields "elapsed_time").Fits ∧
        ((field fields "elapsed_time").number? lib = none → (field fields "wall_time").Fits)) := by
  cases record with
  | dict fields =>
    have hfields : Returns (readRecord lib (.dict fields)) ↔
        (topicText fields ≠ some "viewer_meta" → (field fields "elapsed_time").Fits ∧
          ((field fields "elapsed_time").number? lib = none →
            (field fields "wall_time").Fits)) := by
      unfold readRecord
      rw [returns_ite, and_iff_right fun _ => returns_pure _]
      refine imp_congr_right fun _ => ?_
      by_cases hfits : (field fields "elapsed_time").Fits
      · rw [Value.jsonFloat_of_fits hfits, and_iff_right hfits]
        cases (field fields "elapsed_time").number? lib with
        | some t => exact iff_of_true (returns_pure _) fun h => nomatch h
        | none =>
          refine ((returns_bind_pure _).trans Value.returns_jsonFloat).trans ?_
          exact ⟨fun h _ => h, fun h => h rfl⟩
      · refine iff_of_false (fun h => hfits ?_) fun h => hfits h.1
        exact Value.returns_jsonFloat.mp (returns_left h)
    rw [hfields]
    constructor
    · exact fun h => ⟨fields, rfl, h⟩
    · rintro ⟨_, ⟨⟩, h⟩
      exact h
  | _ =>
    refine iff_of_false (not_returns_error _) ?_
    rintro ⟨_, ⟨⟩, _⟩

theorem readLine_of_loads {lib : TextLibrary} {line : String} {record : Value}
    (hne : lib.strip line ≠ "") (h : lib.loads (lib.strip line) = .ok record) :
    readLine lib line = (do let r ← readRecord lib record; pure (some r)) := by
  unfold readLine
  rw [if_neg hne, h]

theorem returns_readLine {line : String} :
    Returns (readLine lib line) ↔ LineReadable lib line := by
  unfold readLine LineReadable
  rw [returns_ite]
  by_cases hblank : lib.strip line = ""
  · exact iff_of_true ⟨fun _ => returns_pure _, fun h => absurd hblank h⟩ (Or.inl hblank)
  · rw [or_iff_right hblank]
    cases lib.loads (lib.strip line) with
    | error e =>
      cases e with
      | jsonDecodeError =>
        exact iff_of_true ⟨fun h => absurd h hblank, fun _ => returns_pure _⟩ (Or.inl rfl)
      | _ =>
        refine iff_of_false (fun h => not_returns_error _ (h.2 hblank)) ?_
        rintro (h | ⟨_, h, _⟩)
        · cases h
        · cases h
    | ok record =>
      have hread : Returns (do
          let r ← readRecord lib record
          pure (some r)) ↔ Returns (readRecord lib record) := returns_bind_pure some
      constructor
      · intro h
        obtain ⟨fields, rfl, htimes⟩ := returns_readRecord.mp (hread.mp (h.2 hblank))
        exact Or.inr ⟨fields, rfl, htimes⟩
      · rintro (h | ⟨fields, h, htimes⟩)
        · cases h
        · cases h
          exact ⟨fun h => absurd h hblank,
            fun _ => hread.mpr (returns_readRecord.mpr ⟨fields, rfl, htimes⟩)⟩

/-- The times that are read are those for which a record is kept. -/
theorem loadedTime_of_readRecord {fields : Fields} {r : JsonRecord Fields}
    (h : readRecord lib (.dict fields) = .ok r) : r.data = fields ∧ Replay.loadedTime r =
      if topicText fields = some "viewer_meta" then none
      else ((field fields "elapsed_time").number? lib).or
        ((field fields "wall_time").number? lib) := by
  unfold readRecord at h
  dsimp only at h
  split at h
  · rename_i htopic
    cases h
    refine ⟨rfl, ?_⟩
    rw [if_pos htopic, Replay.loadedTime, if_pos htopic]
  · rename_i htopic
    have hloaded : ∀ elapsed wall, Replay.loadedTime ⟨topicText fields, elapsed, wall, fields⟩ =
        elapsed.or wall := by
      intro elapsed wall
      rw [Replay.loadedTime, if_neg htopic]
      cases elapsed with
      | none => rfl
      | some t => rfl
    rw [if_neg htopic]
    have hfits : (field fields "elapsed_time").Fits :=
      Value.returns_jsonFloat.mp (returns_left ⟨r, h⟩)
    rw [Value.jsonFloat_of_fits hfits] at h
    cases hn : (field fields "elapsed_time").number? lib with
    | some t =>
      rw [hn] at h
      cases h
      exact ⟨rfl, hloaded _ _⟩
    | none =>
      rw [hn] at h
      have hwall : (field fields "wall_time").Fits :=
        Value.returns_jsonFloat.mp (returns_left ⟨r, h⟩)
      replace h : (do
        let wallTime ← (field fields "wall_time").jsonFloat lib
        pure (⟨topicText fields, none, wallTime, fields⟩ : JsonRecord Fields)) = .ok r := h
      rw [Value.jsonFloat_of_fits hwall] at h
      cases h
      exact ⟨rfl, hloaded _ _⟩

theorem keptRecord_of_readLine {line : String} {l : LogLine Fields}
    (h : readLine lib line = .ok l) : keptRecord lib line =
      l.bind fun r => (Replay.loadedTime r).map fun t => (r.data, t) := by
  unfold readLine at h
  unfold keptRecord
  split at h
  · rename_i hblank
    rw [if_pos hblank]
    cases h
    rfl
  · rename_i hblank
    rw [if_neg hblank]
    cases hloads : lib.loads (lib.strip line) with
    | error e =>
      rw [hloads] at h
      cases e with
      | jsonDecodeError =>
        cases h
        rfl
      | _ => cases h
    | ok record =>
      rw [hloads] at h
      cases hr : readRecord lib record with
      | error e =>
        simp only [hr] at h
        cases h
      | ok r =>
        simp only [hr] at h
        cases h
        cases record with
        | dict fields =>
          obtain ⟨hdata, htime⟩ := loadedTime_of_readRecord hr
          rw [Option.bind_some, htime, hdata]
          dsimp only
          split
          · rfl
          · rfl
        | _ => cases hr

theorem loadReplayRecords_eq (s : Replay Fields) (lines : List String) :
    loadReplayRecords lib s lines = (do
      let ls ← lines.mapM (readLine lib)
      pure (s.loadReplayRecords ls)) := by
  unfold loadReplayRecords
  rw [foldlM_eq_mapM]
  cases lines.mapM (readLine lib) with
  | error e => rfl
  | ok ls => rfl

theorem returns_loadReplayRecords {s : Replay Fields} {lines : List String} :
    Returns (loadReplayRecords lib s lines) ↔ ∀ line ∈ lines, LineReadable lib line := by
  rw [loadReplayRecords_eq, returns_bind_pure, returns_mapM_iff]
  exact forall₂_congr fun line _ => returns_readLine

/-- What is loaded, with its source times. -/
theorem loadedRecords_of_mapM {lines : List String} {ls : List (LogLine Fields)}
    (h : lines.mapM (readLine lib) = .ok ls) :
    lines.filterMap (keptRecord lib) = (Replay.loadedRecords ls).map fun x => (x.1.data, x.2) := by
  rw [filterMap_of_mapM (fun line l => keptRecord_of_readLine) h, Replay.loadedRecords,
    List.map_filterMap]
  apply List.filterMap_congr
  intro l _
  cases l with
  | none => rfl
  | some r =>
    show (Replay.loadedTime r).map _ = ((Replay.loadedTime r).map _).map _
    rw [Option.map_map]
    rfl

/-- What is loaded, if anything is. -/
theorem loadReplayRecords_eq_ok {s r : Replay Fields} {lines : List String}
    (h : loadReplayRecords lib s lines = .ok r) :
    ∃ ls, lines.mapM (readLine lib) = .ok ls ∧ r = s.loadReplayRecords ls := by
  rw [loadReplayRecords_eq] at h
  obtain ⟨ls, hls, hr⟩ := bind_eq_ok.mp h
  exact ⟨ls, hls, (Except.ok.inj hr).symm⟩

theorem loaded_data {s r : Replay Fields} {lines : List String}
    (h : loadReplayRecords lib s lines = .ok r) :
    r.replayRecords.map (fun record => record.record.data) =
      (lines.filterMap (keptRecord lib)).map Prod.fst := by
  obtain ⟨ls, hls, rfl⟩ := loadReplayRecords_eq_ok h
  rw [loadedRecords_of_mapM hls, Replay.load_replayRecords, List.map_map, List.map_map]
  rfl

theorem loaded_times_nonneg {s r : Replay Fields} {lines : List String}
    (h : loadReplayRecords lib s lines = .ok r) : ∀ t ∈ r.replayTimes, 0 ≤ t := by
  obtain ⟨ls, -, rfl⟩ := loadReplayRecords_eq_ok h
  rw [Replay.load_times]
  intro t ht
  obtain ⟨x, -, rfl⟩ := List.mem_map.mp ht
  exact le_max_left _ _

end Loading

/-! ## Replaying -/

/-- The node's replay before it has read the log. -/
def startReplay (c : Config) : Replay Fields := Replay.construct c.optiDelayAvg c.optiRateWindow

/-- The replay times that the source times `ts` become. -/
def replayTimesOf (ts : List ℚ) : List ℚ := ts.map fun t => max 0 (t - ts.headD 0)

/-- How many records a replay of the whole log hands over: all of them, unless the times go back,
    since the end of the range is searched by bisection. -/
def handedCount (ts : List ℚ) : ℕ :=
  Replay.searchsortedRight (replayTimesOf ts) ((replayTimesOf ts).getLastD 0)

/-- Their replay times. -/
def handedTimes (ts : List ℚ) : List ℚ := (replayTimesOf ts).take (handedCount ts)

/-- What a replay of the whole log hands over of records that come with their source times: the
    first ones, with their replay times. -/
def handed {α : Type} (records : List (α × ℚ)) : List (α × ℚ) :=
  let ts := records.map Prod.snd
  (records.map fun x => (x.1, max 0 (x.2 - ts.headD 0))).take (handedCount ts)

/-- The source times of the records that are to be kept. -/
def keptTimes (lib : TextLibrary) (lines : List String) : List ℚ :=
  (lines.filterMap (keptRecord lib)).map Prod.snd

/-- The records that a replay of the whole log hands over, with their replay times. -/
def handedOver (lib : TextLibrary) (lines : List String) : List (Fields × ℚ) :=
  handed (lines.filterMap (keptRecord lib))

section Handed

variable {α β : Type}

theorem handed_times (records : List (α × ℚ)) :
    (handed records).map Prod.snd = handedTimes (records.map Prod.snd) := by
  unfold handed handedTimes replayTimesOf
  rw [List.map_take, List.map_map, List.map_map]
  rfl

theorem handed_map (f : α → β) (records : List (α × ℚ)) :
    handed (records.map fun x => (f x.1, x.2)) = (handed records).map fun x => (f x.1, x.2) := by
  have htimes : (records.map fun x => (f x.1, x.2)).map Prod.snd = records.map Prod.snd :=
    List.map_map
  unfold handed
  dsimp only
  rw [htimes, List.map_take, List.map_map, List.map_map]
  rfl

theorem handed_prefix (records : List (α × ℚ)) :
    (handed records).map Prod.fst <+: records.map Prod.fst := by
  unfold handed
  rw [List.map_take, List.map_map]
  exact List.take_prefix _ _

/-- Whether a record makes a difference to what is handed over of the others is a matter of the
    times. -/
theorem handed_eraseIdx_iff (a : List (α × ℚ)) (x : α × ℚ) (b : List (α × ℚ)) :
    (handed (a ++ x :: b)).eraseIdx a.length = handed (a ++ b) ↔
      (handedTimes ((a ++ x :: b).map Prod.snd)).eraseIdx a.length =
        handedTimes ((a ++ b).map Prod.snd) := by
  rw [← handed_times, ← handed_times, List.eraseIdx_map]
  constructor
  · exact congrArg (List.map Prod.snd)
  · intro h
    -- both begin the list of the other records, and are equally long
    have hothers : (a ++ x :: b).eraseIdx a.length = a ++ b := by
      rw [List.eraseIdx_append_of_length_le le_rfl, Nat.sub_self, List.eraseIdx_cons_zero]
    have hlength := congrArg List.length h
    rw [List.length_map, List.length_map] at hlength
    have hwith := ( handed_prefix (a ++ x :: b)).eraseIdx a.length
    rw [List.eraseIdx_map, List.eraseIdx_map, hothers] at hwith
    have hfirst := List.prefix_of_prefix_length_le hwith ( handed_prefix (a ++ b))
      (by rw [List.length_map, List.length_map, hlength])
    have hfst := hfirst.eq_of_length (by rw [List.length_map, List.length_map, hlength])
    exact (List.zip_of_prod hfst h).trans (List.zip_of_prod rfl rfl).symm

end Handed

noncomputable section

variable (lib : TextLibrary) (c : Config)

/-- The loop over the records of a range. -/
def ingestAll (s : View) (records : List (ReplayRecord Fields)) :
    Except PyError (View × List Push) :=
  collect (ingestReplayRecord lib c) s records

/-- The loop with what comes after it. -/
def replayFrom (s : View) (records : List (ReplayRecord Fields)) (endTime : ℚ) :
    Except PyError (View × List Push) := do
  let (s', pushed) ← ingestAll lib c s records
  if c.realMode then
    let health := recordOptiHealth c s' endTime true
    pure (health.1, pushed ++ health.2)
  else pure (s', pushed)

/-- `apply_replay_range`, from any view: the view and what has been pushed. -/
def applyReplayRange (s : View) (r : Replay Fields) (startTime endTime : ℚ) :
    Except PyError (View × List Push) :=
  if r.replayEnabled = false ∨ r.replayTimes = [] then pure (s, [])
  else replayFrom lib c View.reset (r.applyReplayRange startTime endTime)
    (r.clampedEnd startTime endTime)

end

section Replaying

variable {lib : TextLibrary} {c : Config}

theorem returns_ingestAll {s : View} {records : List (ReplayRecord Fields)} :
    Returns (ingestAll lib c s records) ↔
      ∀ record ∈ records, Readable lib c record.record.data := by
  apply returns_collect_iff
  intro s record
  exact returns_ingestReplayRecord

theorem returns_replayFrom {s : View} {records : List (ReplayRecord Fields)} {endTime : ℚ} :
    Returns (replayFrom lib c s records endTime) ↔
      ∀ record ∈ records, Readable lib c record.record.data := by
  rw [← returns_ingestAll]
  refine (returns_bind_of_const (P := True) fun x _ => iff_true_intro ?_).trans
    (and_iff_left trivial)
  exact returns_ite.mpr ⟨fun _ => returns_pure _, fun _ => returns_pure _⟩

/-- A replay raises an exception only for a record that it hands over. -/
theorem returns_applyReplayRange {s : View} {r : Replay Fields} {startTime endTime : ℚ} :
    Returns (applyReplayRange lib c s r startTime endTime) ↔
      ∀ record ∈ r.applyReplayRange startTime endTime, Readable lib c record.record.data := by
  unfold applyReplayRange
  by_cases hno : r.replayEnabled = false ∨ r.replayTimes = []
  · rw [if_pos hno]
    refine iff_of_true (returns_pure _) fun record hrecord => ?_
    rw [Replay.applyReplayRange, if_pos hno] at hrecord
    cases hrecord
  · rw [if_neg hno]
    exact returns_replayFrom

/-- The whole log starts at its first record. -/
theorem searchsortedLeft_zero {ts : List ℚ} (h : ∀ t ∈ ts, 0 ≤ t) :
    Replay.searchsortedLeft ts 0 = 0 := by
  have hnone : ∀ t ∈ ts, decide (t < 0) = false := fun t ht => decide_eq_false (h t ht).not_gt
  have hpart : Bisect.Partitioned (fun t => decide (t < 0)) ts := by
    refine List.pairwise_of_forall_mem_list fun a ha b hb hlt => ?_
    exact absurd ((hnone b hb).symm.trans hlt) Bool.false_ne_true
  unfold Replay.searchsortedLeft
  rw [Bisect.partitionPoint_eq_countP hpart, List.countP_eq_zero]
  intro t ht
  rw [hnone t ht]
  exact Bool.false_ne_true

/-- What is handed over of the whole log. -/
theorem applyReplayRange_whole (ls : List (LogLine Fields)) :
    ((startReplay c).loadReplayRecords ls).applyReplayRange 0
        ((startReplay c).loadReplayRecords ls).replayDuration =
      (handed (Replay.loadedRecords ls)).map fun x => ⟨x.1, x.2⟩ := by
  have htimes : ((startReplay c).loadReplayRecords ls).replayTimes =
      replayTimesOf ((Replay.loadedRecords ls).map Prod.snd) := by
    rw [Replay.loadedRecords_times]
    exact Replay.load_times _ ls
  have hrecords : ((startReplay c).loadReplayRecords ls).replayRecords =
      ((Replay.loadedRecords ls).map fun x =>
        (x.1, max 0 (x.2 - ((Replay.loadedRecords ls).map Prod.snd).headD 0))).map
          fun x => ⟨x.1, x.2⟩ := by
    rw [Replay.loadedRecords_times, List.map_map]
    exact Replay.load_replayRecords _ ls
  have hduration : ((startReplay c).loadReplayRecords ls).replayDuration =
      ((startReplay c).loadReplayRecords ls).replayTimes.getLastD 0 := rfl
  have hpos : ∀ t ∈ ((startReplay c).loadReplayRecords ls).replayTimes, 0 ≤ t := by
    rw [htimes]
    intro t ht
    obtain ⟨u, -, rfl⟩ := List.mem_map.mp ht
    exact le_max_left _ _
  have hduration_pos : 0 ≤ ((startReplay c).loadReplayRecords ls).replayDuration := by
    rw [hduration]
    rcases List.eq_nil_or_concat ((startReplay c).loadReplayRecords ls).replayTimes with
      hnil | ⟨ts, t, hts⟩
    · rw [hnil]
      rfl
    · rw [hts, List.concat_eq_append, List.getLastD_concat]
      exact hpos t (hts ▸ List.concat_eq_append ▸ List.mem_append_right ts List.mem_cons_self)
  have hlo := Replay.warmupStart_zero hduration_pos le_rfl
  have hhi := (Replay.clamped_of_bounds le_rfl hduration_pos le_rfl).2
  unfold Replay.applyReplayRange
  split
  · rename_i hno
    rcases hno with hno | hno
    · cases hno
    · rw [htimes, replayTimesOf, List.map_eq_nil_iff, List.map_eq_nil_iff] at hno
      rw [hno, handed, List.map_nil, List.map_nil, List.take_nil, List.map_nil]
  · dsimp only
    rw [hlo, hhi, searchsortedLeft_zero hpos, List.drop_zero, hrecords, hduration, htimes,
      ← List.map_take]
    rfl

theorem handedOver_eq {lines : List String} {r : Replay Fields}
    (h : loadReplayRecords lib (startReplay c) lines = .ok r) :
    (r.applyReplayRange 0 r.replayDuration).map (fun k => (k.record.data, k.replayT)) =
      handedOver lib lines := by
  obtain ⟨ls, hls, rfl⟩ := loadReplayRecords_eq_ok h
  have hkept := handed_map JsonRecord.data (Replay.loadedRecords ls)
  unfold handedOver
  rw [loadedRecords_of_mapM hls, applyReplayRange_whole, List.map_map]
  exact hkept.symm

end Replaying

end Raw

end Viewer

end Hummingbird
