/-
  What `px4_multirotor_viewer.py` makes of a damaged log.

  It is meant to pass over what is damaged, so that the other records are shown as they are without
  it. `toleratesDamage_iff` says on which logs that is so: no line or field may be of a kind that
  raises an exception; the time of a damaged record may not shift the replay times of the others or
  cut some of them off; and the record may be no mocap record, for that is an arrival all the same,
  nor in real mode come with a health sample.
-/
import Hummingbird.Viewer.LaterRows

namespace Hummingbird

namespace Viewer

namespace Raw

open Raising Window

/-! ## Damaged records -/

/-- What a field of a record holds as the logger writes it, where a number that is not finite is
    `null`. -/
inductive Kind
  | text
  | boolean
  | integer
  | number
  | vector (width : ℕ)

def IsNumber : Value → Prop
  | .none => True
  | .int _ => True
  | .float _ => True
  | _ => False

def Kind.Holds (v : Value) : Kind → Prop
  | text => ∃ s, v = .str s
  | boolean => ∃ b, v = .bool b
  | integer => ∃ n, v = .int n
  | number => IsNumber v
  | vector width => ∃ l, v = .list l ∧ width ≤ l.length ∧ ∀ x ∈ l.take width, IsNumber x

/-- A field that is read; one that is optional only if it is there. -/
structure LogField where
  key : String
  kind : Kind
  optional : Bool

/-- The field is there, and of its kind. -/
def LogField.Intact (f : LogField) (d : Fields) : Prop :=
  match d.lookup f.key with
  | some v => f.kind.Holds v
  | none => f.optional = true

/-- The fields of every record, apart from the data. -/
def recordFields : List LogField :=
  [⟨"topic", .text, false⟩, ⟨"elapsed_time", .number, true⟩, ⟨"wall_time", .number, true⟩]

/-- The fields that the branch of a topic reads. -/
def fixedFields (topic : String) : Option (List LogField) :=
  if topic = "/fmu/out/vehicle_local_position" then
    some [⟨"position", .vector 3, false⟩, ⟨"velocity", .vector 3, true⟩,
      ⟨"heading", .number, false⟩]
  else if topic = "/fmu/out/vehicle_local_position_setpoint" then
    some [⟨"position", .vector 3, false⟩, ⟨"velocity", .vector 3, true⟩]
  else if topic = "/fmu/out/vehicle_angular_velocity" then some [⟨"xyz", .vector 3, false⟩]
  else if topic = "/fmu/out/vehicle_rates_setpoint" then some [⟨"xyz", .vector 3, false⟩]
  else if topic = "/fmu/out/vehicle_attitude" then
    some [⟨"q", .vector 4, false⟩, ⟨"rpy_deg", .vector 3, true⟩]
  else if topic = "/fmu/out/vehicle_attitude_setpoint" then
    some [⟨"q_d", .vector 4, false⟩, ⟨"rpy_d_deg", .vector 3, true⟩]
  else if topic = "/fmu/out/vehicle_thrust_setpoint" then some [⟨"xyz", .vector 3, false⟩]
  else if topic = "/fmu/out/vehicle_torque_setpoint" then some [⟨"xyz", .vector 3, false⟩]
  else if topic = "/fmu/out/actuator_motors" then
    some [⟨"control", .vector 4, false⟩, ⟨"force_n_est", .vector 4, true⟩]
  else if topic = "/fmu/out/manual_control_setpoint" then
    some [⟨"roll_pitch_yaw_throttle", .vector 4, false⟩, ⟨"valid", .boolean, false⟩,
      ⟨"data_source", .integer, false⟩, ⟨"sticks_moving", .boolean, false⟩]
  else if topic = "/fmu/out/actuator_servos" then
    some [⟨"control", .vector 6, false⟩, ⟨"beta_deg", .vector 2, true⟩,
      ⟨"alpha_deg", .vector 4, true⟩]
  else if topic = "/fmu/out/hummingbird_status" then
    some [⟨"hb_cmd_source", .integer, false⟩, ⟨"hb_ctrl_mode", .integer, false⟩,
      ⟨"dds_command_enabled", .boolean, false⟩, ⟨"hummingbird_airframe", .boolean, true⟩,
      ⟨"hummingbird_control_enabled", .boolean, false⟩]
  else if topic = "/fmu/out/vehicle_status" then
    some [⟨"nav_state", .integer, false⟩, ⟨"arming_state", .integer, false⟩,
      ⟨"latest_disarming_reason", .integer, false⟩, ⟨"failsafe", .boolean, false⟩]
  else none

/-- The fields that the branch of the mocap records reads; the last two make up for a delay that
    was not logged. -/
def mocapFields : List LogField :=
  [⟨"px4_position_ned", .vector 3, false⟩, ⟨"px4_q_wxyz", .vector 4, false⟩,
    ⟨"px4_rpy_deg", .vector 3, true⟩, ⟨"transport_delay_ms", .number, true⟩,
    ⟨"header_stamp", .number, true⟩]

/-- The fields that the branch of the odometry reads. -/
def odometryFields : List LogField := [⟨"position", .vector 3, false⟩, ⟨"q_wxyz", .vector 4, false⟩]

/-- The fields of the data that are read of a record. -/
def dataFields (lib : TextLibrary) (c : Config) (fields : Fields) : List LogField :=
  match fixedFields (topicOf lib fields) with
  | some fields => fields
  | none =>
    match (dataOf fields).contains "px4_position_ned" with
    | .ok true => mocapFields
    | _ =>
      if topicOf lib fields = c.fmuOdomTopic ∨ topicOf lib fields = "/fmu/out/vehicle_odometry" then
        odometryFields
      else []

/-- A record with missing or ill-typed fields. -/
def Damaged (lib : TextLibrary) (c : Config) (fields : Fields) : Prop :=
  ¬ ((∀ f ∈ recordFields, f.Intact fields) ∧
    ∃ d, fields.lookup "data" = some (.dict d) ∧ ∀ f ∈ dataFields lib c fields, f.Intact d)

/-! ## Damaged logs -/

/-- The records that a replay of the whole log hands over. -/
def wholeLog (r : Replay Fields) : List (ReplayRecord Fields) :=
  r.applyReplayRange 0 r.replayDuration

/-- The line between `before` and `after` has no effect beyond its own rows, compared with the log
    without it. -/
structure Harmless (lib : TextLibrary) (c : Config) (before : List String) (line : String)
    (after : List String) : Prop where
  /-- The other records are handed over with the same replay times, and in real mode the closing
      sample is taken at the same time. -/
  others : ∀ r r', loadReplayRecords lib (startReplay c) (before ++ line :: after) = .ok r →
    loadReplayRecords lib (startReplay c) (before ++ after) = .ok r' →
      (wholeLog r).eraseIdx (before.filterMap (keptRecord lib)).length = wholeLog r' ∧
        (c.realMode = true → r.replayTimes.getLast? = r'.replayTimes.getLast?)
  /-- The record of the line makes no difference to the rows of those after it. -/
  rows : ∀ r, loadReplayRecords lib (startReplay c) (before ++ line :: after) = .ok r →
    ∀ record, (wholeLog r)[(before.filterMap (keptRecord lib)).length]? = some record →
      NoLaterEffect lib c ((wholeLog r).take (before.filterMap (keptRecord lib)).length) record

/-- The rows of the whole log are those of the log without the line, with those of its record in
    between, if it is handed over. -/
def AddsOwnRows (lib : TextLibrary) (c : Config) (before : List String) (line : String)
    (after : List String) : Prop :=
  ∀ r r', loadReplayRecords lib (startReplay c) (before ++ line :: after) = .ok r →
    loadReplayRecords lib (startReplay c) (before ++ after) = .ok r' → ∀ s pushed,
      (applyReplayRange lib c s r 0 r.replayDuration).map Prod.snd = .ok pushed →
        ∃ earlier own later, pushed = earlier ++ own ++ later ∧
          (applyReplayRange lib c s r' 0 r'.replayDuration).map Prod.snd = .ok (earlier ++ later) ∧
          (own = [] ∨ ∃ k ∈ (wholeLog r)[(before.filterMap (keptRecord lib)).length]?,
            ∃ s₁ s₂, ingestReplayRecord lib c s₁ k = .ok (s₂, own))

/-- What a replay of a damaged log is meant to do. -/
structure ToleratesDamage (lib : TextLibrary) (c : Config) (lines : List String) : Prop where
  /-- The log is loaded: the records that are to be kept, in the order of the file. -/
  loads : ∃ r, loadReplayRecords lib (startReplay c) lines = .ok r ∧
    r.replayRecords.map (fun record => record.record.data) =
      (lines.filterMap (keptRecord lib)).map Prod.fst
  /-- The whole log is replayed. -/
  replays : ∀ r, loadReplayRecords lib (startReplay c) lines = .ok r →
    ∀ s, Returns (applyReplayRange lib c s r 0 r.replayDuration)
  /-- A damaged record changes no rows but its own, in this log and whatever comes after it. -/
  harmless : ∀ before line after fields t, lines = before ++ line :: after →
    keptRecord lib line = some (fields, t) → Damaged lib c fields →
      AddsOwnRows lib c before line after ∧ Harmless lib c before line after

/-- Where the line between `before` and `after` has no effect beyond its own rows. -/
structure Unnoticed (lib : TextLibrary) (c : Config) (before : List String) (line : String)
    (after : List String) : Prop where
  /-- Without the source time of the line the others have the same replay times, and as many of
      them are handed over. -/
  times : (handedTimes (keptTimes lib (before ++ line :: after))).eraseIdx
      (before.filterMap (keptRecord lib)).length = handedTimes (keptTimes lib (before ++ after))
  /-- In real mode the log ends at the same time. -/
  closing : c.realMode = true →
    (replayTimesOf (keptTimes lib (before ++ line :: after))).getLast? =
      (replayTimesOf (keptTimes lib (before ++ after))).getLast?
  /-- If the record is handed over, it is no mocap record, and in real mode no sample is due and no
      arrival is too old at its time. -/
  record : ∀ r, loadReplayRecords lib (startReplay c) (before ++ line :: after) = .ok r →
    ∀ k, (wholeLog r)[(before.filterMap (keptRecord lib)).length]? = some k →
      ¬ IsMocap lib k.record.data ∧ ∀ s pushed,
        ingestAll lib c View.reset
          ((wholeLog r).take (before.filterMap (keptRecord lib)).length) = .ok (s, pushed) →
        c.realMode = true → Quiet c s k.replayT

section Tolerates

variable {lib : TextLibrary} {c : Config} {before after : List String} {line : String}

theorem load_of_mapM {lines : List String} {ls : List (LogLine Fields)}
    (h : lines.mapM (readLine lib) = .ok ls) :
    loadReplayRecords lib (startReplay c) lines = .ok ((startReplay c).loadReplayRecords ls) := by
  rw [loadReplayRecords_eq, h]
  rfl

theorem keptTimes_of_mapM {lines : List String} {ls : List (LogLine Fields)}
    (h : lines.mapM (readLine lib) = .ok ls) : keptTimes lib lines = Replay.sourceTimes ls := by
  unfold keptTimes
  rw [loadedRecords_of_mapM h, List.map_map, ← Replay.loadedRecords_times]
  rfl

theorem replayTimes_of_mapM {lines : List String} {ls : List (LogLine Fields)}
    (h : lines.mapM (readLine lib) = .ok ls) :
    ((startReplay c).loadReplayRecords ls).replayTimes = replayTimesOf (keptTimes lib lines) := by
  rw [keptTimes_of_mapM h]
  exact Replay.load_times _ ls

/-- What is read of the lines around one whose record is kept. -/
theorem exists_parts {fields : Fields} {t : ℚ}
    (hlines : ∀ l ∈ before ++ line :: after, LineReadable lib l)
    (hkept : keptRecord lib line = some (fields, t)) :
    ∃ lsBefore l lsAfter record, before.mapM (readLine lib) = .ok lsBefore ∧
      (before ++ line :: after).mapM (readLine lib) = .ok (lsBefore ++ l :: lsAfter) ∧
      (before ++ after).mapM (readLine lib) = .ok (lsBefore ++ lsAfter) ∧
      Replay.loadedRecords [l] = [(record, t)] := by
  obtain ⟨lsBefore, hbefore⟩ : Returns (before.mapM (readLine lib)) :=
    returns_mapM_iff.mpr fun l hl => returns_readLine.mpr (hlines l (List.mem_append_left _ hl))
  obtain ⟨l, hl⟩ : Returns (readLine lib line) :=
    returns_readLine.mpr (hlines line (List.mem_append_right _ List.mem_cons_self))
  obtain ⟨lsAfter, hafter⟩ : Returns (after.mapM (readLine lib)) :=
    returns_mapM_iff.mpr fun l hl =>
      returns_readLine.mpr (hlines l (List.mem_append_right _ (List.mem_cons_of_mem _ hl)))
  have hrecord := keptRecord_of_readLine hl
  rw [hkept] at hrecord
  obtain ⟨json, rfl, hjson⟩ := Option.bind_eq_some_iff.mp hrecord.symm
  obtain ⟨u, hu, htimed⟩ := Option.map_eq_some_iff.mp hjson
  obtain ⟨-, rfl⟩ := Prod.mk.inj htimed
  refine ⟨lsBefore, some json, lsAfter, json, hbefore, ?_, ?_, ?_⟩
  · rw [List.mapM_append, List.mapM_cons, hbefore, hl, hafter]
    rfl
  · rw [List.mapM_append, hbefore, hafter]
    rfl
  · unfold Replay.loadedRecords
    rw [List.filterMap_cons, Option.bind_some, hu]
    rfl

theorem loadedRecords_around {lsBefore lsAfter : List (LogLine Fields)} {l : LogLine Fields}
    {record : JsonRecord Fields} {t : ℚ} (hl : Replay.loadedRecords [l] = [(record, t)]) :
    Replay.loadedRecords (lsBefore ++ l :: lsAfter) =
      Replay.loadedRecords lsBefore ++ (record, t) :: Replay.loadedRecords lsAfter := by
  rw [← List.singleton_append, Replay.loadedRecords_append, Replay.loadedRecords_append, hl]
  rfl

/-- Whether the others are handed over alike is a matter of the source times. -/
theorem others_iff (c : Config) (lsBefore lsAfter : List (LogLine Fields)) {l : LogLine Fields}
    {record : JsonRecord Fields} {t : ℚ} (hl : Replay.loadedRecords [l] = [(record, t)]) :
    (wholeLog ((startReplay c).loadReplayRecords (lsBefore ++ l :: lsAfter))).eraseIdx
        (Replay.loadedRecords lsBefore).length =
          wholeLog ((startReplay c).loadReplayRecords (lsBefore ++ lsAfter)) ↔
      (handedTimes (Replay.sourceTimes (lsBefore ++ l :: lsAfter))).eraseIdx
        (Replay.loadedRecords lsBefore).length =
          handedTimes (Replay.sourceTimes (lsBefore ++ lsAfter)) := by
  have hinj : Function.Injective fun x : JsonRecord Fields × ℚ =>
      (⟨x.1, x.2⟩ : ReplayRecord Fields) := by
    rintro ⟨a, u⟩ ⟨b, v⟩ h
    obtain ⟨rfl, rfl⟩ := ReplayRecord.mk.inj h
    rfl
  unfold wholeLog
  rw [applyReplayRange_whole, applyReplayRange_whole, List.eraseIdx_map,
    (List.map_injective_iff.mpr hinj).eq_iff, ← Replay.loadedRecords_times,
    ← Replay.loadedRecords_times, loadedRecords_around hl, Replay.loadedRecords_append]
  exact handed_eraseIdx_iff _ (record, t) _

/-- A damaged line has no effect beyond its own rows exactly if it is passed over unnoticed. -/
theorem harmless_iff {fields : Fields} {t : ℚ}
    (hlines : ∀ l ∈ before ++ line :: after, LineReadable lib l)
    (hrecords : ∀ x ∈ handedOver lib (before ++ line :: after), Readable lib c x.1)
    (hkept : keptRecord lib line = some (fields, t)) :
    Harmless lib c before line after ↔ Unnoticed lib c before line after := by
  obtain ⟨lsBefore, l, lsAfter, record, hbefore, hwith, hwithout, hl⟩ :=
    exists_parts hlines hkept
  have hcount : (before.filterMap (keptRecord lib)).length =
      (Replay.loadedRecords lsBefore).length := by
    rw [loadedRecords_of_mapM hbefore, List.length_map]
  have hothers := others_iff c lsBefore lsAfter hl
  rw [← hcount, ← keptTimes_of_mapM hwith, ← keptTimes_of_mapM hwithout] at hothers
  have hloaded := load_of_mapM (c := c) hwith
  have hreadable : ∀ k ∈ wholeLog ((startReplay c).loadReplayRecords (lsBefore ++ l :: lsAfter)),
      Readable lib c k.record.data := by
    intro k hk
    refine hrecords (k.record.data, k.replayT) ?_
    rw [← handedOver_eq hloaded]
    exact List.mem_map_of_mem hk
  constructor
  · intro h
    obtain ⟨hsame, hclosing⟩ := h.others _ _ hloaded (load_of_mapM hwithout)
    rw [replayTimes_of_mapM hwith, replayTimes_of_mapM hwithout] at hclosing
    refine ⟨hothers.mp hsame, hclosing, fun r hr k hk => ?_⟩
    obtain rfl := Except.ok.inj (hloaded.symm.trans hr)
    exact (noLaterEffect_iff (fun k' hk' => hreadable k' (List.mem_of_mem_take hk'))
      (hreadable k (List.mem_of_getElem? hk))).mp (h.rows _ hloaded k hk)
  · intro h
    refine ⟨fun r r' hr hr' => ?_, fun r hr k hk => ?_⟩
    · obtain rfl := Except.ok.inj (hloaded.symm.trans hr)
      obtain rfl := Except.ok.inj ((load_of_mapM hwithout).symm.trans hr')
      rw [replayTimes_of_mapM hwith, replayTimes_of_mapM hwithout]
      exact ⟨hothers.mpr h.times, h.closing⟩
    · obtain rfl := Except.ok.inj (hloaded.symm.trans hr)
      exact (noLaterEffect_iff (fun k' hk' => hreadable k' (List.mem_of_mem_take hk'))
        (hreadable k (List.mem_of_getElem? hk))).mpr (h.record _ hloaded k hk)

end Tolerates

/-! ## The rows of a log with a harmless line -/

/-- When the closing sample is taken, if there is one. -/
def closingTime (c : Config) (r : Replay Fields) : Option ℚ :=
  if c.realMode then r.replayTimes.getLast? else none

/-- The rows of the closing sample. -/
noncomputable def closingRows (c : Config) (s : View) : Option ℚ → List Push
  | some t => (recordOptiHealth c s t true).2
  | none => []

/-- The rows that are pushed for these records and by the closing sample. -/
noncomputable def rowsFrom (lib : TextLibrary) (c : Config) (s : View)
    (records : List (ReplayRecord Fields)) (closing : Option ℚ) : Except PyError (List Push) := do
  let (s', pushed) ← ingestAll lib c s records
  pure (pushed ++ closingRows c s' closing)

section Rows

variable {lib : TextLibrary} {c : Config} {before after : List String} {line : String}

theorem rowsFrom_append (s : View) (l m : List (ReplayRecord Fields)) (closing : Option ℚ) :
    rowsFrom lib c s (l ++ m) closing = (do
      let x ← ingestAll lib c s l
      let rows ← rowsFrom lib c x.1 m closing
      pure (x.2 ++ rows)) := by
  unfold rowsFrom ingestAll
  rw [collect_append]
  cases collect (ingestReplayRecord lib c) s l with
  | error e => rfl
  | ok x =>
    show (collect (ingestReplayRecord lib c) x.1 m >>= _) >>= _ =
      (collect (ingestReplayRecord lib c) x.1 m >>= _) >>= _
    cases collect (ingestReplayRecord lib c) x.1 m with
    | error e => rfl
    | ok y => exact congrArg Except.ok (List.append_assoc x.2 y.2 _)

theorem replayFrom_rows (s : View) (records : List (ReplayRecord Fields)) (t : ℚ) :
    (replayFrom lib c s records t).map Prod.snd =
      rowsFrom lib c s records (if c.realMode then some t else none) := by
  unfold replayFrom rowsFrom
  cases ingestAll lib c s records with
  | error e => rfl
  | ok x =>
    show Except.map _ (if c.realMode = true then _ else _) = _
    split
    · rfl
    · exact congrArg Except.ok (List.append_nil x.2).symm

theorem SameRows.rowsFrom {s s' : View} (h : SameRows lib c s s')
    (later : List (ReplayRecord Fields)) {closing : Option ℚ}
    (hclosing : closing.isSome = c.realMode) :
    Raw.rowsFrom lib c s later closing = Raw.rowsFrom lib c s' later closing := by
  have hrows : ∀ t, (if c.realMode = true then some t else none) = closing →
      Raw.rowsFrom lib c s later closing = Raw.rowsFrom lib c s' later closing := by
    rintro t rfl
    rw [← replayFrom_rows, ← replayFrom_rows]
    exact h later t
  cases closing with
  | none => exact hrows 0 (if_neg (hclosing ▸ Bool.false_ne_true))
  | some t => exact hrows t (if_pos hclosing.symm)

/-- The rows of the whole log. -/
theorem rows_wholeLog {lines : List String} {r : Replay Fields}
    (h : loadReplayRecords lib (startReplay c) lines = .ok r) (s : View) :
    (applyReplayRange lib c s r 0 r.replayDuration).map Prod.snd =
      rowsFrom lib c View.reset (wholeLog r) (closingTime c r) := by
  obtain ⟨ls, -, rfl⟩ := loadReplayRecords_eq_ok h
  generalize hr : (startReplay c).loadReplayRecords ls = r
  have hduration : r.replayDuration = r.replayTimes.getLastD 0 := hr ▸ rfl
  have henabled : r.replayEnabled = true := hr ▸ rfl
  unfold applyReplayRange
  by_cases hnil : r.replayTimes = []
  · have hnone : wholeLog r = [] := by
      unfold wholeLog Replay.applyReplayRange
      exact if_pos (Or.inr hnil)
    have hclosing : closingTime c r = none := by
      unfold closingTime
      rw [hnil]
      exact ite_self none
    rw [if_pos (Or.inr hnil), hnone, hclosing]
    rfl
  · have hnonneg : 0 ≤ r.replayDuration := by
      rw [hduration, List.getLastD_eq_getLast?, List.getLast?_eq_some_getLast hnil]
      refine loaded_times_nonneg (hr ▸ h) _ (List.getLast_mem hnil)
    have hend := (Replay.clamped_of_bounds le_rfl hnonneg le_rfl).2
    have hclosing : closingTime c r =
        if c.realMode = true then some r.replayDuration else none := by
      unfold closingTime
      rw [hduration, List.getLastD_eq_getLast?, List.getLast?_eq_some_getLast hnil]
      rfl
    rw [if_neg (not_or.mpr ⟨by rw [henabled]; decide, hnil⟩), replayFrom_rows, hclosing, hend]
    rfl

/-- A harmless line adds the rows of its record, and no others. -/
theorem Harmless.addsOwnRows (h : Harmless lib c before line after) :
    AddsOwnRows lib c before line after := by
  intro r r' hr hr' s pushed hpushed
  obtain ⟨hsame, hclosing⟩ := h.others r r' hr hr'
  have hend : closingTime c r' = closingTime c r := by
    unfold closingTime
    split
    · rename_i hreal
      exact (hclosing hreal).symm
    · rfl
  rw [rows_wholeLog hr] at hpushed
  rw [rows_wholeLog hr', hend, ← hsame]
  have heffect := h.rows r hr
  generalize (before.filterMap (keptRecord lib)).length = n at heffect ⊢
  cases hk : (wholeLog r)[n]? with
  | none =>
    rw [List.eraseIdx_of_length_le (List.getElem?_eq_none_iff.mp hk), hpushed]
    exact ⟨pushed, [], [], by simp, by simp, Or.inl rfl⟩
  | some k =>
    obtain ⟨hlt, rfl⟩ := List.getElem?_eq_some_iff.mp hk
    have hsome : (closingTime c r).isSome = c.realMode := by
      have hne : r.replayTimes ≠ [] := by
        intro hnil
        have hnone : wholeLog r = [] := if_pos (Or.inr hnil)
        rw [hnone] at hlt
        cases hlt
      unfold closingTime
      rw [List.getLast?_eq_some_getLast hne]
      cases c.realMode <;> rfl
    have hsplit : wholeLog r =
        (wholeLog r).take n ++ ([(wholeLog r)[n]] ++ (wholeLog r).drop (n + 1)) := by
      rw [List.singleton_append, ← List.drop_eq_getElem_cons hlt, List.take_append_drop]
    rw [hsplit, rowsFrom_append] at hpushed
    obtain ⟨⟨s₁, earlier⟩, hearlier, hpushed⟩ := bind_eq_ok.mp hpushed
    obtain ⟨rows, hrows, hpure⟩ := bind_eq_ok.mp hpushed
    obtain rfl := Except.ok.inj hpure
    rw [rowsFrom_append, ingestAll, collect_singleton] at hrows
    obtain ⟨⟨s₂, own⟩, hown, hrows⟩ := bind_eq_ok.mp hrows
    obtain ⟨later, hlater, hpure⟩ := bind_eq_ok.mp hrows
    obtain rfl := Except.ok.inj hpure
    have hrest := (heffect _ hk s₁ earlier s₂ own hearlier hown).rowsFrom
      ((wholeLog r).drop (n + 1)) hsome
    refine ⟨earlier, own, later, (List.append_assoc _ _ _).symm, ?_,
      Or.inr ⟨_, rfl, s₁, s₂, hown⟩⟩
    rw [List.eraseIdx_eq_take_drop_succ, rowsFrom_append, hearlier]
    show rowsFrom lib c s₁ ((wholeLog r).drop (n + 1)) (closingTime c r) >>= _ = _
    rw [← hrest, hlater]
    rfl

end Rows

/-- A log is replayed as it is meant to be if and only if no line makes the loading raise an
    exception, no record that is handed over makes the replay raise one, and every damaged record is
    passed over unnoticed. -/
theorem toleratesDamage_iff (lib : TextLibrary) (c : Config) (lines : List String) :
    ToleratesDamage lib c lines ↔ (∀ line ∈ lines, LineReadable lib line) ∧
      (∀ x ∈ handedOver lib lines, Readable lib c x.1) ∧
      ∀ before line after fields t, lines = before ++ line :: after →
        keptRecord lib line = some (fields, t) → Damaged lib c fields →
          Unnoticed lib c before line after := by
  constructor
  · intro h
    obtain ⟨r, hr, -⟩ := h.loads
    have hlines : ∀ line ∈ lines, LineReadable lib line := returns_loadReplayRecords.mp ⟨r, hr⟩
    have hrecords : ∀ x ∈ handedOver lib lines, Readable lib c x.1 := by
      rw [← handedOver_eq hr]
      intro x hx
      obtain ⟨k, hk, rfl⟩ := List.mem_map.mp hx
      exact returns_applyReplayRange.mp (h.replays r hr View.reset) k hk
    refine ⟨hlines, hrecords, fun before line after fields t heq hkept hdamaged => ?_⟩
    refine (harmless_iff (heq ▸ hlines) (heq ▸ hrecords) hkept).mp ?_
    exact (h.harmless before line after fields t heq hkept hdamaged).2
  · rintro ⟨hlines, hrecords, hunnoticed⟩
    obtain ⟨r, hr⟩ : Returns (loadReplayRecords lib (startReplay c) lines) :=
      returns_loadReplayRecords.mpr hlines
    refine ⟨⟨r, hr, loaded_data hr⟩, fun r' hr' s => ?_, ?_⟩
    · rw [← handedOver_eq hr'] at hrecords
      exact returns_applyReplayRange.mpr fun k hk => hrecords _ (List.mem_map_of_mem hk)
    · intro before line after fields t heq hkept hdamaged
      have hharmless := (harmless_iff (heq ▸ hlines) (heq ▸ hrecords) hkept).mpr
        (hunnoticed before line after fields t heq hkept hdamaged)
      exact ⟨hharmless.addsOwnRows, hharmless⟩

/-- The standard library on a line `[]`; no other line is decoded. -/
def emptyListLibrary : TextLibrary :=
  plainText fun line => if line = "[]" then .ok (.list []) else .error .jsonDecodeError

/-- A list is JSON, but has no `get`: the loading raises an `AttributeError`. -/
theorem toleratesDamage_fails :
    ¬ ToleratesDamage emptyListLibrary (Config.declared .real 0) ["[]"] := by
  intro h
  obtain ⟨r, hr, -⟩ := h.loads
  have hloads : loadReplayRecords emptyListLibrary (startReplay (Config.declared .real 0)) ["[]"] =
      .error .attributeError := by rfl
  rw [hloads] at hr
  cases hr

end Raw

end Viewer

end Hummingbird
