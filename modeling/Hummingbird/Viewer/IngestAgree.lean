/-
  The two models of `_ingest_replay_record` agree.

  `Ingest` reads what the callbacks have written, `DamagedIngest` any JSON value. Of a record that
  `Decodes` to the same they push the same, where neither raises an exception.
-/
import Mathlib.Data.List.Forall2
import Hummingbird.Viewer.DamagedIngest

namespace Hummingbird

namespace Viewer

namespace Raw

open Raising Rotation

/-- A value of the data of a record, in the two models. No string reads as a number, and what an
    object contains is never read. -/
inductive Decodes (lib : TextLibrary) : Json → Value → Prop
  | null : Decodes lib .null .none
  | bool (b : Bool) : Decodes lib (.bool b) (.bool b)
  | int (n : ℤ) : Decodes lib (.int n) (.int n)
  | float (x : ℚ) : Decodes lib (.float (x : ℝ)) (.float (.num x))
  | str (s : String) (hfloat : lib.float s = none) (hint : lib.int s = none) :
    Decodes lib (.str s) (.str s)
  | list (l : List Json) (l' : List Value) (h : List.Forall₂ (Decodes lib) l l') :
    Decodes lib (.list l) (.list l')
  | obj (d : List (String × Json)) (d' : Fields) : Decodes lib (.obj d) (.dict d')

/-- The data of a record in the two models. -/
def DataDecodes (lib : TextLibrary) (data : Dict) (d : Fields) : Prop :=
  ∀ key, Option.Rel (Decodes lib) (data.lookup key) (d.lookup key)

/-! ## Values -/

section Values

variable {lib : TextLibrary} {j : Json} {v : Value} {l : List Json} {l' : List Value} {width : ℕ}

theorem jsonFloat_of_decodes (h : Decodes lib j v) {x : Option ℚ} (hx : v.jsonFloat lib = .ok x) :
    (x.map fun q : ℚ => (q : ℝ)) = j.toFloat := by
  have hfits : v.Fits := Value.returns_jsonFloat.mp ⟨x, hx⟩
  rw [Value.jsonFloat_of_fits hfits] at hx
  obtain rfl := Except.ok.inj hx
  cases h with
  | null => rfl
  | bool b =>
    cases b with
    | true => exact congrArg some Rat.cast_one
    | false => exact congrArg some Rat.cast_zero
  | int n =>
    rw [Value.number?, if_neg hfits]
    exact congrArg some (Rat.cast_intCast n)
  | float x => rfl
  | str s hfloat hint =>
    rw [Value.number?, hfloat]
    rfl
  | list l l' h => rfl
  | obj d d' => rfl

theorem toCell_of_decodes (h : Decodes lib j v) : Agree j.toCell (v.toCell lib) := by
  cases h with
  | null => exact agree_pure _
  | bool b =>
    rintro x y ⟨⟩ hy
    obtain rfl := Except.ok.inj hy
    cases b with
    | true => exact congrArg PyFloat.num Rat.cast_one.symm
    | false => exact congrArg PyFloat.num Rat.cast_zero.symm
  | int n =>
    rintro x y ⟨⟩ hy
    have hfits : ¬ Value.BeyondFloat n := Value.returns_toCell.mp ⟨y, hy⟩
    have hcell : (Value.int n).toCell lib = .ok (.num ((n : ℚ) : ℝ)) := by
      show (do
        let x ← (Value.int n).toFloat lib
        pure x.toPyFloat) = _
      rw [Value.toFloat, if_neg hfits]
      rfl
    obtain rfl := Except.ok.inj (hcell.symm.trans hy)
    exact congrArg PyFloat.num (Rat.cast_intCast n).symm
  | float x => exact agree_pure _
  | str s hfloat hint => exact agree_none _
  | list l l' h => exact agree_none _
  | obj d d' => exact agree_none _

theorem finiteRow_of_decodes (h : List.Forall₂ (Decodes lib) l l') {row : List (Option ℝ)}
    (hrow : Value.finiteRow lib l' width = .ok row) : row = (l.take width).map Json.toFloat := by
  induction h generalizing width row with
  | nil =>
    rw [Value.finiteRow, List.take_nil] at hrow
    cases hrow
    rw [List.take_nil]
    rfl
  | cons hab hl ih =>
    cases width with
    | zero =>
      cases hrow
      rfl
    | succ width =>
      rw [Value.finiteRow, List.take_succ_cons, List.mapM_cons] at hrow
      obtain ⟨x, hx, hrow⟩ := bind_eq_ok.mp hrow
      obtain ⟨y, hy, hx⟩ := bind_eq_ok.mp hx
      obtain ⟨rest, hrest, hrow⟩ := bind_eq_ok.mp hrow
      obtain rfl := Except.ok.inj hx
      obtain rfl := Except.ok.inj hrow
      rw [List.take_succ_cons, List.map_cons, jsonFloat_of_decodes hab hy, ih hrest]

theorem finiteN_take (values : List (Option ℝ)) (width : ℕ) :
    finiteN (values.take width) width = finiteN values width := by
  funext i
  rw [finiteN, finiteN, List.getElem?_take_of_lt i.isLt]

theorem toCells_of_decodes (h : List.Forall₂ (Decodes lib) l l') :
    Agree (l.mapM Json.toCell) (l'.mapM (Value.toCell lib)) := by
  induction h with
  | nil => exact agree_pure []
  | cons hab hl ih =>
    rw [List.mapM_cons, List.mapM_cons]
    exact (toCell_of_decodes hab).bind fun x => ih.bind fun xs => agree_pure (x :: xs)

end Values

/-! ## Fields -/

section Fields

variable {lib : TextLibrary} {data : Dict} {d : Fields} {key : String} {width : ℕ}

theorem agree_finiteRow {l : List Json} {l' : List Value} (h : List.Forall₂ (Decodes lib) l l') :
    Agree (some (finiteN (l.map Json.toFloat) width)) (do
      let row ← Value.finiteRow lib l' width
      pure (finiteN row width)) := by
  refine Agree.skip fun row hrow => ?_
  rw [finiteRow_of_decodes h hrow, List.map_take, finiteN_take]
  exact agree_pure _

theorem agree_vecFromLog (h : DataDecodes lib data d) (key : String) (width : ℕ) :
    Agree (vecFromLog data key width) ((Value.dict d).vecFromLog lib key width) := by
  have hkey := h key
  have hnil : Agree (some (finiteN [] width)) (do
      let row ← Value.finiteRow lib [] width
      pure (finiteN row width)) := agree_finiteRow (l := []) .nil
  unfold vecFromLog
  show Agree _ (Value.finiteVec lib ((d.lookup key).getD (.list [])) width)
  generalize data.lookup key = x at hkey ⊢
  generalize d.lookup key = y at hkey ⊢
  cases hkey with
  | none => exact hnil
  | some hv =>
    cases hv with
    | null => exact hnil
    | list l l' hl => exact agree_finiteRow hl
    | _ => exact agree_none _

theorem agree_quatFromLog (h : DataDecodes lib data d) (key : String) :
    Agree (Viewer.quatFromLog data key) (quatFromLog lib (.dict d) key) :=
  (agree_vecFromLog h key 4).bind fun _ => agree_pure _

/-- Whether a key is there. -/
theorem isSome_lookup (h : DataDecodes lib data d) (key : String) :
    (data.lookup key).isSome = (d.lookup key).isSome := by
  have hkey := h key
  generalize data.lookup key = x at hkey ⊢
  generalize d.lookup key = y at hkey ⊢
  cases hkey with
  | none => rfl
  | some hv => rfl

theorem agree_derivedFromLog (h : DataDecodes lib data d) (key : String)
    (derive : Fin width → ℝ) :
    Agree (Viewer.derivedFromLog data key derive) (derivedFromLog lib (.dict d) key derive) := by
  have hsome := isSome_lookup h key
  have hvec := agree_vecFromLog h key width
  unfold Viewer.derivedFromLog
  show Agree _ (if (d.lookup key).isSome = true then (Value.dict d).vecFromLog lib key width
    else pure derive)
  rw [← hsome]
  cases data.lookup key with
  | none => exact agree_pure derive
  | some v => exact hvec

theorem agree_numberFromLog (h : DataDecodes lib data d) (key : String) {x : Option ℚ}
    (hx : numberFromLog lib (.dict d) key = .ok x) :
    (x.map fun q : ℚ => (q : ℝ)) = floatFromLog data key := by
  have hkey := h key
  replace hx : ((d.lookup key).getD .none).jsonFloat lib = .ok x := hx
  unfold floatFromLog
  generalize data.lookup key = j at hkey ⊢
  generalize d.lookup key = v at hkey hx
  cases hkey with
  | none =>
    cases hx
    rfl
  | some hv => exact jsonFloat_of_decodes hv hx

theorem agree_intFromLog (h : DataDecodes lib data d) (key : String) (default : ℤ) :
    Agree (Viewer.intFromLog data key default) (intFromLog lib (.dict d) key default) := by
  have hkey := h key
  unfold Viewer.intFromLog
  show Agree _ (((d.lookup key).getD (.int default)).toInt lib)
  generalize data.lookup key = x at hkey ⊢
  generalize d.lookup key = y at hkey ⊢
  cases hkey with
  | none => exact agree_pure default
  | some hv =>
    cases hv with
    | int n => exact agree_pure n
    | bool b => exact agree_pure _
    | float x =>
      have hround : (if (0 : ℝ) ≤ (x : ℝ) then ⌊(x : ℝ)⌋ else ⌈(x : ℝ)⌉) =
          if 0 ≤ x then ⌊x⌋ else ⌈x⌉ := by
        rw [Rat.floor_cast, Rat.ceil_cast]
        exact if_congr Rat.cast_nonneg rfl rfl
      dsimp only
      rw [hround]
      exact agree_pure _
    | _ => exact agree_none _

end Fields

/-! ## Branches -/

section Branches

variable {lib : TextLibrary} {c : Config} {s : View} {t : ℚ} {data : Dict} {d : Fields}

theorem agree_ingestVector (h : DataDecodes lib data d) (buffer : Buffer) (key : String)
    (width : ℕ) : Agree (Viewer.ingestVector t data buffer key width)
      (ingestVector lib t (.dict d) buffer key width) :=
  (agree_vecFromLog h key width).bind fun _ => agree_pure _

/-- The first three values, as they are stored. -/
theorem agree_cells {a b e : Json} {l : List Json} {l' : List Value}
    (h : List.Forall₂ (Decodes lib) (a :: b :: e :: l) l') :
    Agree ([a, b, e].mapM Json.toCell) ((l'.take 3).mapM (Value.toCell lib)) :=
  toCells_of_decodes (List.forall₂_take 3 h)

theorem agree_storeRow {a b e : Json} {l : List Json} {l' : List Value}
    (h : List.Forall₂ (Decodes lib) (a :: b :: e :: l) l') :
    Agree ([a, b, e].mapM Json.toCell) (Value.storeRow lib t (l'.take 3) 3) := by
  intro x y hx hy
  obtain ⟨cells, hcells, hy⟩ := bind_eq_ok.mp hy
  have hlength : cells.length = 3 := by
    rw [length_of_mapM hcells, List.length_take, ← h.length_eq]
    exact min_eq_left (Nat.le_add_left 3 l.length)
  rw [if_pos hlength] at hy
  exact (agree_cells h x cells hx hcells).trans (Except.ok.inj hy)

theorem agree_asarray3 {a b e : Json} {l : List Json} {l' : List Value}
    (h : List.Forall₂ (Decodes lib) (a :: b :: e :: l) l') :
    Agree ([a, b, e].mapM Json.toCell) ((Value.list l').asarray3 lib) := by
  intro x y hx hy
  replace hy : (do
      let cells ← l'.mapM (Value.toCell lib)
      if 3 ≤ cells.length then pure (cells.take 3) else .error .indexError) = .ok y := hy
  obtain ⟨cells, hcells, hy⟩ := bind_eq_ok.mp hy
  split at hy
  · exact (agree_cells h x _ hx (mapM_take hcells 3)).trans (Except.ok.inj hy)
  · cases hy

theorem agree_ingestVelocity (h : DataDecodes lib data d) (buffer : Buffer) :
    Agree (Viewer.ingestVelocity t data buffer) (ingestVelocity lib t (.dict d) buffer) := by
  have hkey := h "velocity"
  unfold Viewer.ingestVelocity Viewer.ingestCells cellsFromLog
  show Agree _ (if (d.lookup "velocity").isSome = true then (do
    let v ← (d.lookup "velocity").elim (.error .keyError) .ok
    let values ← v.firstThree
    let row ← Value.storeRow lib t values 3
    pure [(⟨buffer, t, row⟩ : Push)]) else pure [])
  generalize data.lookup "velocity" = x at hkey ⊢
  generalize d.lookup "velocity" = y at hkey ⊢
  cases hkey with
  | none => exact agree_pure []
  | some hv =>
    cases hv with
    | list l l' hl =>
      rcases l with _ | ⟨a, _ | ⟨b, _ | ⟨e, l⟩⟩⟩
      · exact agree_none _
      · exact agree_none _
      · exact agree_none _
      · exact (agree_storeRow hl).bind fun _ => agree_pure _
    | _ => exact agree_none _

theorem agree_ingestRates (h : DataDecodes lib data d) (buffer : Buffer) :
    Agree (Viewer.ingestCells t data buffer "xyz") (ingestRates lib t (.dict d) buffer) := by
  have hkey := h "xyz"
  unfold Viewer.ingestCells cellsFromLog
  show Agree _ (do
    let v ← (d.lookup "xyz").elim (.error .keyError) .ok
    let row ← v.asarray3 lib
    pure [(⟨buffer, t, row⟩ : Push)])
  generalize data.lookup "xyz" = x at hkey ⊢
  generalize d.lookup "xyz" = y at hkey ⊢
  cases hkey with
  | none => exact agree_none _
  | some hv =>
    cases hv with
    | list l l' hl =>
      rcases l with _ | ⟨a, _ | ⟨b, _ | ⟨e, l⟩⟩⟩
      · exact agree_none _
      · exact agree_none _
      · exact agree_none _
      · exact (agree_asarray3 hl).bind fun _ => agree_pure _
    | _ => exact agree_none _

theorem agree_ingestFmuPose (h : DataDecodes lib data d) (pos : Fin 3 → ℝ) :
    Agree (some (if c.realMode then
      recordFmuPose s t (floats pos) (headingQuat (floatFromLog data "heading")) else []))
      (ingestFmuPose lib c s t (.dict d) pos) := by
  unfold ingestFmuPose
  split
  · refine Agree.skip fun heading hheading => ?_
    rw [agree_numberFromLog h "heading" hheading]
    exact agree_pure _
  · exact agree_pure _

theorem agree_ingestPos (h : DataDecodes lib data d) :
    Agree (Viewer.ingestPos c s t data) (ingestPos lib c s t (.dict d)) :=
  (agree_vecFromLog h "position" 3).bind fun pos => (agree_ingestVelocity h .vel).bind fun _ =>
    (agree_ingestFmuPose h pos).known (agree_pure _)

theorem agree_ingestPosSp (h : DataDecodes lib data d) :
    Agree (Viewer.ingestPosSp t data) (ingestPosSp lib t (.dict d)) :=
  (agree_ingestVector h .posSp "position" 3).bind fun _ =>
    (agree_ingestVelocity h .velSp).bind fun _ => agree_pure _

theorem agree_ingestAttitude (h : DataDecodes lib data d) (buffer : Buffer)
    (qKey rpyKey : String) : Agree (Viewer.ingestAttitude t data buffer qKey rpyKey)
      (ingestAttitude lib t (.dict d) buffer qKey rpyKey) :=
  (agree_quatFromLog h qKey).bind fun _ => (agree_derivedFromLog h rpyKey _).bind fun _ =>
    agree_pure _

theorem agree_ingestMotors (h : DataDecodes lib data d) :
    Agree (Viewer.ingestMotors c t data) (ingestMotors lib c t (.dict d)) :=
  (agree_vecFromLog h "control" 4).bind fun _ =>
    (agree_derivedFromLog h "force_n_est" _).bind fun _ => agree_pure _

theorem agree_ingestManual (h : DataDecodes lib data d) :
    Agree (Viewer.ingestManual data) (ingestManual lib (.dict d)) :=
  (agree_vecFromLog h "roll_pitch_yaw_throttle" 4).bind fun _ => Agree.skip fun _ _ => agree_pure _

theorem agree_ingestServos (h : DataDecodes lib data d) :
    Agree (Viewer.ingestServos c t data) (ingestServos lib c t (.dict d)) :=
  (agree_vecFromLog h "control" 6).bind fun _ =>
    (agree_derivedFromLog h "beta_deg" _).bind fun _ =>
      (agree_derivedFromLog h "alpha_deg" _).bind fun _ => agree_pure _

/-- An integer fills a row of one. -/
theorem agree_intRow (n : ℤ) :
    Agree (some [PyFloat.num n]) (Value.storeRow lib t [.int n] 1) := by
  intro x y hx hy
  obtain ⟨cells, hcells, hy⟩ := bind_eq_ok.mp hy
  have hlength : cells.length = 1 := length_of_mapM hcells
  rw [if_pos hlength] at hy
  obtain rfl := Except.ok.inj hy
  have hint : List.Forall₂ (Decodes lib) [.int n] [.int n] := .cons (.int n) .nil
  exact toCells_of_decodes hint x cells hx hcells

theorem agree_ingestStatus (h : DataDecodes lib data d) :
    Agree (Viewer.ingestInt t data .cmdState "hb_cmd_source") (ingestStatus lib t (.dict d)) := by
  refine (agree_intFromLog h "hb_cmd_source" (-1)).bind fun n => (agree_intRow n).known ?_
  exact Agree.skip fun _ _ => agree_pure _

theorem agree_ingestVehicleStatus (h : DataDecodes lib data d) :
    Agree (Viewer.ingestInt t data .flightState "nav_state")
      (ingestVehicleStatus lib t (.dict d)) := by
  refine (agree_intFromLog h "nav_state" (-1)).bind fun n => (agree_intRow n).known ?_
  exact Agree.skip fun _ _ => Agree.skip fun _ _ => agree_pure _

theorem agree_rawDelayFromLog (h : DataDecodes lib data d) {fields : Fields} {wallTime : Option ℚ}
    (hwall : ((fields.lookup "wall_time").getD .none).jsonFloat lib = .ok wallTime) :
    Agree (some (Viewer.rawDelayFromLog data wallTime)) (rawDelayFromLog lib (.dict d) fields) := by
  unfold rawDelayFromLog Viewer.rawDelayFromLog
  refine Agree.skip fun delay hdelay => ?_
  rw [← agree_numberFromLog h _ hdelay]
  cases delay with
  | some delay => exact agree_pure _
  | none =>
    refine Agree.skip fun wall hw => ?_
    obtain rfl := Except.ok.inj (hwall.symm.trans hw)
    refine Agree.skip fun headerStamp hstamp => ?_
    rw [← agree_numberFromLog h _ hstamp]
    cases wallTime with
    | none => exact agree_pure none
    | some wall =>
      cases headerStamp with
      | none => exact agree_pure none
      | some stamp =>
        show Agree (some (if 0 < (stamp : ℝ) then some (((wall : ℝ) - stamp) * 1000) else none))
          (pure (if 0 < stamp then some (((wall : ℝ) - stamp) * 1000) else none))
        rw [if_congr (Rat.cast_pos (K := ℝ)) rfl rfl]
        exact agree_pure _

theorem agree_ingestOpti (h : DataDecodes lib data d) {fields : Fields} {wallTime : Option ℚ}
    (hwall : ((fields.lookup "wall_time").getD .none).jsonFloat lib = .ok wallTime) :
    Agree (Viewer.ingestOpti c s t data wallTime) (ingestOpti lib c s t (.dict d) fields) :=
  (agree_vecFromLog h "px4_position_ned" 3).bind fun _ =>
    (agree_quatFromLog h "px4_q_wxyz").bind fun _ =>
      (agree_derivedFromLog h "px4_rpy_deg" _).bind fun _ =>
        (agree_rawDelayFromLog h hwall).known (agree_pure _)

theorem agree_ingestFmuOdom (h : DataDecodes lib data d) :
    Agree (Viewer.ingestFmuOdom s t data) (ingestFmuOdom lib s t (.dict d)) :=
  (agree_vecFromLog h "position" 3).bind fun _ => (agree_quatFromLog h "q_wxyz").bind fun _ =>
    agree_pure _

theorem agree_ingestFixed (h : DataDecodes lib data d) (topic : String) :
    Option.Rel Agree (Viewer.ingestFixed c s t data topic)
      (ingestFixed lib c s t (.dict d) topic) := by
  unfold Viewer.ingestFixed ingestFixed
  refine rel_ite (.some (agree_ingestPos h)) ?_
  refine rel_ite (.some (agree_ingestPosSp h)) ?_
  refine rel_ite (.some (agree_ingestRates h .rates)) ?_
  refine rel_ite (.some (agree_ingestRates h .ratesSp)) ?_
  refine rel_ite (.some (agree_ingestAttitude h .rpy "q" "rpy_deg")) ?_
  refine rel_ite (.some (agree_ingestAttitude h .attSp "q_d" "rpy_d_deg")) ?_
  refine rel_ite (.some (agree_ingestVector h .force "xyz" 3)) ?_
  refine rel_ite (.some (agree_ingestVector h .torque "xyz" 3)) ?_
  refine rel_ite (.some (agree_ingestMotors h)) ?_
  refine rel_ite (.some (agree_ingestManual h)) ?_
  refine rel_ite (.some (agree_ingestServos h)) ?_
  refine rel_ite (.some (agree_ingestStatus h)) ?_
  exact rel_ite (.some (agree_ingestVehicleStatus h)) .none

theorem agree_ingestTopic (h : DataDecodes lib data d) {fields : Fields} {wallTime : Option ℚ}
    (hwall : ((fields.lookup "wall_time").getD .none).jsonFloat lib = .ok wallTime)
    (topic : String) : Agree (Viewer.ingestTopic c s t data topic wallTime)
      (ingestTopic lib c s t (.dict d) topic fields) := by
  have hfixed : Option.Rel Agree (Viewer.ingestFixed c s t data topic)
      (ingestFixed lib c s t (.dict d) topic) := agree_ingestFixed h topic
  unfold Viewer.ingestTopic ingestTopic
  generalize Viewer.ingestFixed c s t data topic = x at hfixed ⊢
  generalize ingestFixed lib c s t (.dict d) topic = y at hfixed ⊢
  cases hfixed with
  | some hrows =>
    dsimp only
    rw [Option.map_eq_bind]
    exact hrows.bind fun _ => agree_pure _
  | none =>
    show Agree (if (data.lookup "px4_position_ned").isSome = true then _ else _)
      (if (d.lookup "px4_position_ned").isSome = true then _ else _)
    rw [isSome_lookup h]
    split
    · exact agree_ingestOpti h hwall
    · split
      · exact agree_ingestFmuOdom h
      · exact agree_pure _

end Branches

/-- A record in the two models. -/
structure RecordDecodes (lib : TextLibrary) (record : ReplayRecord Dict)
    (record' : ReplayRecord Fields) : Prop where
  replayT : record.replayT = record'.replayT
  topic : record.record.topic.getD "" = topicOf lib record'.record.data
  wallTime : ((record'.record.data.lookup "wall_time").getD .none).jsonFloat lib =
    .ok record.record.wallTime
  data : ∃ d, dataOf record'.record.data = .dict d ∧ DataDecodes lib record.record.data d

/-- The two models read a record alike. -/
theorem agree_ingestReplayRecord {lib : TextLibrary} {c : Config} {s : View}
    {record : ReplayRecord Dict} {record' : ReplayRecord Fields}
    (h : RecordDecodes lib record record') :
    Agree (Viewer.ingestReplayRecord c s record) (ingestReplayRecord lib c s record') := by
  obtain ⟨d, hd, hdata⟩ := h.data
  unfold Viewer.ingestReplayRecord ingestReplayRecord
  dsimp only
  rw [h.topic, ← h.replayT, hd]
  exact (agree_ingestTopic hdata h.wallTime _).bind fun _ => agree_pure _

end Raw

end Viewer

end Hummingbird
