/-
  The bands that `ViewerWindow` draws behind its plots: `_update_state_backgrounds` and
  `_update_actuator_timeout_backgrounds` of `px4_multirotor_viewer.py`.

  Both keep their items until a signature changes. That of the timeouts has both ends of every
  segment, so the red bands are always as computed last, to a millisecond (`timeout_bands`). That of
  the states has the starts only: `state_bands` says that while the buffers grow, the bands are as
  computed last exactly unless a state has ended since they were made.

  Colors and tool tips are left out.
-/
import Mathlib.Tactic.FieldSimp
import Mathlib.Tactic.Linarith
import Hummingbird.Library.Memo
import Hummingbird.PositionCmd.Messages
import Hummingbird.Viewer.Slider
import Hummingbird.Viewer.Timeline

namespace Hummingbird

namespace Viewer

open Timeline

/-- `round` to `n` decimals. -/
def roundTo (n : ℕ) (q : ℚ) : ℚ := pyRound (q * 10 ^ n) / 10 ^ n

/-- `TIMELINE_BAND_FRACTION`. -/
def timelineBandFraction : ℚ := 14 / 100

/-- `QRectF`. -/
structure RectF where
  x : ℚ
  y : ℚ
  width : ℚ
  height : ℚ
  deriving DecidableEq

inductive Band
  | cmd
  | flight
  deriving DecidableEq

/-- An item of `_state_background_items`; its rectangle is empty when it is made. -/
structure StateItem (ι : Type*) where
  plot : ι
  band : Band
  start : ℚ
  stop : ℚ
  state : ℤ
  rect : RectF
  deriving DecidableEq

/-- An item of `_actuator_timeout_items`. -/
structure TimeoutItem (ι : Type*) where
  plot : ι
  rect : RectF
  deriving DecidableEq

/-- The vertical ranges of the plots that are finite, as `(y_min, y_max)`. -/
abbrev ViewRange (ι : Type*) := ι → Option (ℚ × ℚ)

/-- What `_update_state_backgrounds` is called with. -/
structure StateUpdate (ι : Type*) where
  cmdSamples : List StateRow
  flightSamples : List StateRow
  viewRange : ViewRange ι

/-- What `_update_actuator_timeout_backgrounds` is called with. -/
structure TimeoutUpdate (ι : Type*) where
  segments : List (ℚ × ℚ)
  viewRange : ViewRange ι

section

variable {ι : Type*}

/-! ## States -/

/-- The segments with this state. -/
def segmentsOf (state : ℤ) (samples : List StateRow) : List (Interval ℚ ℤ) :=
  (stateSegments samples).filter fun s => s.value = state

namespace StateUpdate

def cmdSegments (u : StateUpdate ι) : List (Interval ℚ ℤ) :=
  segmentsOf hbCmdSourceDds.toNat u.cmdSamples

def flightSegments (u : StateUpdate ι) : List (Interval ℚ ℤ) :=
  segmentsOf navigationStateOffboard.toNat u.flightSamples

end StateUpdate

/-- One half of the signature. -/
def startsOf (segments : List (Interval ℚ ℤ)) : List (ℚ × ℤ) :=
  segments.map fun s => (roundTo 6 s.start, s.value)

def stateSignature (u : StateUpdate ι) : List (ℚ × ℤ) × List (ℚ × ℤ) :=
  (startsOf u.cmdSegments, startsOf u.flightSegments)

/-- `_add_state_band`. -/
def addStateBand (plot : ι) (band : Band) (s : Interval ℚ ℤ) : StateItem ι :=
  ⟨plot, band, s.start, s.stop, s.value, ⟨0, 0, 0, 0⟩⟩

/-- The bands of all plots. -/
def makeStateItems (plots : List ι) (u : StateUpdate ι) : List (StateItem ι) :=
  plots.flatMap fun plot =>
    u.cmdSegments.map (addStateBand plot .cmd) ++ u.flightSegments.map (addStateBand plot .flight)

/-- The rectangle of an item in the vertical range of its plot. -/
def placeStateItem (viewRange : ViewRange ι) (item : StateItem ι) : StateItem ι :=
  match viewRange item.plot with
  | none => item
  | some (yMin, yMax) =>
    let span := yMax - yMin
    if span ≤ 0 then item
    else
      let height := span * timelineBandFraction
      let y := if item.band = .cmd then yMax - height else yMin
      { item with rect := ⟨item.start, y, max 0 (item.stop - item.start), height⟩ }

/-- The items and their signature, which is `None` at first. -/
abbrev StateBackgrounds (ι : Type*) :=
  Memo (List (ℚ × ℤ) × List (ℚ × ℤ)) (List (StateItem ι))

/-- `_update_state_backgrounds`. -/
def updateStateBackgrounds (plots : List ι) (m : StateBackgrounds ι) (u : StateUpdate ι) :
    StateBackgrounds ι :=
  m.refresh stateSignature (makeStateItems plots) (fun u => List.map (placeStateItem u.viewRange)) u

/-! ## Timeouts -/

def timeoutSignature (u : TimeoutUpdate ι) : List (ℚ × ℚ) :=
  u.segments.map fun s => (roundTo 3 s.1, roundTo 3 s.2)

def makeTimeoutItems (plots : List ι) (u : TimeoutUpdate ι) : List (TimeoutItem ι) :=
  plots.flatMap fun plot => u.segments.map fun s => ⟨plot, ⟨s.1, 0, max 0 (s.2 - s.1), 1⟩⟩

def placeTimeoutItem (viewRange : ViewRange ι) (item : TimeoutItem ι) : TimeoutItem ι :=
  match viewRange item.plot with
  | none => item
  | some (yMin, yMax) =>
    let span := yMax - yMin
    if span ≤ 0 then item
    else { item with rect := ⟨item.rect.x, yMin, item.rect.width, span⟩ }

abbrev TimeoutBackgrounds (ι : Type*) := Memo (List (ℚ × ℚ)) (List (TimeoutItem ι))

/-- `_update_actuator_timeout_backgrounds`. -/
def updateTimeoutBackgrounds (plots : List ι) (m : TimeoutBackgrounds ι) (u : TimeoutUpdate ι) :
    TimeoutBackgrounds ι :=
  m.refresh timeoutSignature (makeTimeoutItems plots)
    (fun u => List.map (placeTimeoutItem u.viewRange)) u

end

/-! ## Segments while a buffer grows -/

/-- The rows span less than a day. -/
def Steady (samples : List StateRow) : Prop :=
  ∀ a ∈ samples, ∀ b ∈ samples, b.t - a.t < timelineOpenSegmentSec

/-- The state was that of the last row of `older`, and a row that has come since has another. -/
def Ended (state : ℤ) (older newer : List StateRow) : Prop :=
  (∃ row ∈ older.getLast?, row.sample.2 = state) ∧
    ∃ row ∈ newer.drop older.length, row.sample.2 ≠ state

/-- The segments from an entry on, of the rows after it. -/
def segmentsFrom (entry : ℚ × ℤ) (rows : List StateRow) : List (Interval ℚ ℤ) :=
  intervals timelineOpenSegmentSec ((rows.map StateRow.sample).destutter' Differ entry)

theorem segmentsOf_cons (state : ℤ) (row : StateRow) (rows : List StateRow) :
    segmentsOf state (row :: rows) =
      (segmentsFrom row.sample rows).filter fun s => s.value = state := by
  rw [segmentsOf, stateSegments_cons]
  rfl

/-- The entries that are left all have the state of the first one exactly if all entries do. -/
theorem destutter'_eq_singleton_iff (a : ℚ × ℤ) (l : List (ℚ × ℤ)) :
    l.destutter' Differ a = [a] ↔ ∀ b ∈ l, b.2 = a.2 := by
  induction l with
  | nil => exact iff_of_true rfl nofun
  | cons b l ih =>
    rw [List.forall_mem_cons]
    by_cases hne : Differ a b
    · rw [List.destutter'_cons_pos _ hne]
      refine iff_of_false (fun heq => ?_) fun hall => hne hall.1.symm
      exact List.destutter'_ne_nil l Differ (List.cons.inj heq).2
    · rw [List.destutter'_cons_neg _ hne, ih]
      exact (and_iff_right (not_not.mp hne).symm).symm

/-- The segments when more rows come: only the last one of the rows before is still open. -/
theorem exists_segmentsFrom_append (row : StateRow) (rows : List StateRow) :
    ∃ before, ∃ last ∈ (row :: rows).map StateRow.sample,
      last.2 = ((row :: rows).getLast (List.cons_ne_nil row rows)).sample.2 ∧
      ∀ more, segmentsFrom row.sample (rows ++ more) = before ++ segmentsFrom last more := by
  obtain ⟨front, last, hlast, hmore⟩ :=
    exists_destutter'_append row.sample (rows.map StateRow.sample)
  obtain ⟨before, hbefore⟩ := exists_intervals_append timelineOpenSegmentSec front last
  have hgetLast : (row.sample :: rows.map StateRow.sample).getLast (List.cons_ne_nil _ _) =
      ((row :: rows).getLast (List.cons_ne_nil row rows)).sample :=
    List.getLast_map (f := StateRow.sample) (l := row :: rows) (by simp)
  refine ⟨before, last, ?_, hlast.trans (congrArg Prod.snd hgetLast), fun more => ?_⟩
  · have hsub := (rows.map StateRow.sample).destutter'_sublist Differ row.sample
    have hnil := hmore []
    rw [List.append_nil] at hnil
    rw [hnil] at hsub
    exact hsub.subset (List.mem_append_right front List.mem_cons_self)
  · obtain ⟨extra, hextra⟩ := exists_destutter'_eq_cons last (more.map StateRow.sample)
    unfold segmentsFrom
    rw [List.map_append, hmore, hextra, hbefore extra]

theorem ended_append_iff {state : ℤ} {row : StateRow} {rows more : List StateRow} :
    Ended state (row :: rows) (row :: rows ++ more) ↔
      ((row :: rows).getLast (List.cons_ne_nil row rows)).sample.2 = state ∧
        ∃ r ∈ more, r.sample.2 ≠ state := by
  unfold Ended
  rw [List.getLast?_eq_some_getLast (List.cons_ne_nil row rows), List.drop_left]
  simp

/-- The end of an open segment is no time of a row, so that it moves when the state ends. -/
theorem filter_segmentsFrom_eq_iff {state : ℤ} {last : ℚ × ℤ} {more : List StateRow}
    (hspan : ∀ r ∈ more, r.t - last.1 < timelineOpenSegmentSec)
    (hlength : ((segmentsFrom last []).filter fun s => s.value = state).length =
      ((segmentsFrom last more).filter fun s => s.value = state).length) :
    ((segmentsFrom last []).filter fun s => s.value = state) =
        ((segmentsFrom last more).filter fun s => s.value = state) ↔
      ¬ (last.2 = state ∧ ∃ r ∈ more, r.sample.2 ≠ state) := by
  have hopen : segmentsFrom last [] = [⟨last.1, last.1 + timelineOpenSegmentSec, last.2⟩] := rfl
  rw [hopen] at hlength ⊢
  by_cases hstate : last.2 = state
  · have hsingle := destutter'_eq_singleton_iff last (more.map StateRow.sample)
    rw [List.forall_mem_map, hstate] at hsingle
    rw [and_iff_right hstate, not_exists, List.filter_cons_of_pos (by simpa using hstate),
      List.filter_nil]
    simp only [not_and, not_not]
    rw [← hsingle]
    obtain ⟨extra, hextra⟩ := exists_destutter'_eq_cons last (more.map StateRow.sample)
    unfold segmentsFrom
    rw [hextra]
    cases extra with
    | nil =>
      refine iff_of_true ?_ rfl
      simp [intervals, hstate]
    | cons e extra =>
      refine iff_of_false (fun heq => ?_) (by simp)
      have hhead : last.1 + timelineOpenSegmentSec = e.1 := by
        simp only [intervals, List.filter_cons, hstate, decide_true, if_true] at heq
        exact congrArg Interval.stop (List.cons.inj heq).1
      have hsub := (more.map StateRow.sample).destutter'_sublist Differ last
      rw [hextra] at hsub
      obtain ⟨r, hr, rfl⟩ :=
        List.mem_map.mp ((List.cons_sublist_cons.mp hsub).subset List.mem_cons_self)
      have hday := hspan r hr
      have hhead : last.1 + timelineOpenSegmentSec = r.t := hhead
      linarith
  · rw [List.filter_cons_of_neg (by simpa using hstate), List.filter_nil] at hlength ⊢
    exact iff_of_true (List.length_eq_zero_iff.mp hlength.symm).symm fun h => hstate h.1

/-- Where the signature does not change, only a state that has ended since makes a difference. -/
theorem segmentsOf_eq_iff {state : ℤ} {older newer : List StateRow} (hgrown : older <+: newer)
    (hsteady : Steady newer)
    (hlength : (segmentsOf state older).length = (segmentsOf state newer).length) :
    segmentsOf state older = segmentsOf state newer ↔ ¬ Ended state older newer := by
  obtain ⟨more, rfl⟩ := hgrown
  cases older with
  | nil =>
    refine iff_of_true ?_ fun hended => by simp [Ended] at hended
    exact (List.length_eq_zero_iff.mp hlength.symm).symm
  | cons row rows =>
    obtain ⟨before, last, hmem, hlast, hmore⟩ := exists_segmentsFrom_append row rows
    have hnil := hmore []
    rw [List.append_nil] at hnil
    rw [List.cons_append, segmentsOf_cons, segmentsOf_cons, hnil, hmore, List.filter_append,
      List.filter_append] at hlength ⊢
    rw [← List.cons_append, ended_append_iff, ← hlast, List.append_right_inj]
    rw [List.length_append, List.length_append] at hlength
    refine filter_segmentsFrom_eq_iff (fun r hr => ?_) (Nat.add_left_cancel hlength)
    obtain ⟨r', hr', rfl⟩ := List.mem_map.mp hmem
    exact hsteady r' (List.mem_append_left more hr') r (List.mem_append_right _ hr)

/-! ## Rounding -/

/-- Times that are rounded alike are close. -/
theorem abs_sub_le_of_roundTo_eq {n : ℕ} {p q : ℚ} (h : roundTo n p = roundTo n q) :
    |p - q| ≤ 1 / 10 ^ n := by
  have hpos : (0 : ℚ) < 10 ^ n := by positivity
  have hnear : ∀ x : ℚ, |x - roundTo n x| ≤ 1 / 2 / 10 ^ n := by
    intro x
    have hscale : x - roundTo n x = (x * 10 ^ n - pyRound (x * 10 ^ n)) / 10 ^ n := by
      unfold roundTo
      field_simp
    rw [hscale, abs_div, abs_of_pos hpos]
    exact div_le_div_of_nonneg_right (Rounding.abs_sub_toEven_le _) hpos.le
  calc |p - q| = |(p - roundTo n p) - (q - roundTo n q)| := by rw [h]; ring_nf
    _ ≤ |p - roundTo n p| + |q - roundTo n q| := abs_sub _ _
    _ ≤ 1 / 2 / 10 ^ n + 1 / 2 / 10 ^ n := add_le_add (hnear p) (hnear q)
    _ = 1 / 10 ^ n := by ring

/-! ## State bands -/

section States

variable {ι : Type*}

/-- An item without its rectangle. -/
def StateItem.bare (item : StateItem ι) : StateItem ι := { item with rect := ⟨0, 0, 0, 0⟩ }

/-- Segments that show the same state from the same time on, to a microsecond. -/
def SameStart (s s' : Interval ℚ ℤ) : Prop := |s.start - s'.start| ≤ 1 / 10 ^ 6 ∧ s.value = s'.value

/-- The buffers only grow from one update to the next. -/
structure Growing (updates : List (StateUpdate ι)) (newest : StateUpdate ι) : Prop where
  cmd : ∀ u ∈ updates, u.cmdSamples <+: newest.cmdSamples
  flight : ∀ u ∈ updates, u.flightSamples <+: newest.flightSamples
  cmdSteady : Steady newest.cmdSamples
  flightSteady : Steady newest.flightSamples

/-- The items after the update `newest`, which were made by the update `maker`. -/
structure DrawsStates (plots : List ι) (maker newest : StateUpdate ι)
    (items : List (StateItem ι)) : Prop where
  made : items.map StateItem.bare = makeStateItems plots maker
  cmdStarts : List.Forall₂ SameStart maker.cmdSegments newest.cmdSegments
  flightStarts : List.Forall₂ SameStart maker.flightSegments newest.flightSegments
  placed : ∀ item ∈ items, ∀ yMin yMax, newest.viewRange item.plot = some (yMin, yMax) →
    yMin < yMax → item.rect = ⟨item.start,
      if item.band = .cmd then yMax - (yMax - yMin) * timelineBandFraction else yMin,
      max 0 (item.stop - item.start), (yMax - yMin) * timelineBandFraction⟩

theorem sameStart_of_startsOf_eq {l l' : List (Interval ℚ ℤ)} (h : startsOf l = startsOf l') :
    List.Forall₂ SameStart l l' := by
  refine Memo.forall₂_of_map_eq (fun s s' heq => ?_) h
  obtain ⟨hstart, hvalue⟩ := Prod.mk.inj heq
  exact ⟨abs_sub_le_of_roundTo_eq hstart, hvalue⟩

theorem placeStateItem_data (viewRange : ViewRange ι) (item : StateItem ι) :
    (placeStateItem viewRange item).plot = item.plot ∧
      (placeStateItem viewRange item).band = item.band ∧
      (placeStateItem viewRange item).start = item.start ∧
      (placeStateItem viewRange item).stop = item.stop := by
  unfold placeStateItem
  split
  · exact ⟨rfl, rfl, rfl, rfl⟩
  · dsimp only
    split <;> exact ⟨rfl, rfl, rfl, rfl⟩

theorem bare_placeStateItem (viewRange : ViewRange ι) (item : StateItem ι) :
    (placeStateItem viewRange item).bare = item.bare := by
  unfold placeStateItem
  split
  · rfl
  · dsimp only
    split <;> rfl

theorem bare_makeStateItems (plots : List ι) (u : StateUpdate ι) :
    (makeStateItems plots u).map StateItem.bare = makeStateItems plots u := by
  unfold makeStateItems
  rw [List.map_flatMap]
  refine congrArg (fun f => plots.flatMap f) (funext fun plot => ?_)
  rw [List.map_append, List.map_map, List.map_map]
  rfl

/-- An item that is placed has the rectangle of its plot. -/
theorem rect_placeStateItem {viewRange : ViewRange ι} (item : StateItem ι) {yMin yMax : ℚ}
    (hview : viewRange item.plot = some (yMin, yMax)) (hspan : yMin < yMax) :
    (placeStateItem viewRange item).rect = ⟨item.start,
      if item.band = .cmd then yMax - (yMax - yMin) * timelineBandFraction else yMin,
      max 0 (item.stop - item.start), (yMax - yMin) * timelineBandFraction⟩ := by
  unfold placeStateItem
  rw [hview]
  dsimp only
  rw [if_neg (by linarith)]

/-- Bands are the same on a plot exactly if the segments are. -/
theorem makeStateItems_eq_iff {plots : List ι} (hplots : plots ≠ []) {u v : StateUpdate ι}
    (hcmd : u.cmdSegments.length = v.cmdSegments.length)
    (hflight : u.flightSegments.length = v.flightSegments.length) :
    makeStateItems plots u = makeStateItems plots v ↔
      u.cmdSegments = v.cmdSegments ∧ u.flightSegments = v.flightSegments := by
  constructor
  · intro h
    obtain ⟨plot, plots, rfl⟩ := List.exists_cons_of_ne_nil hplots
    have hinjective : ∀ band, Function.Injective (addStateBand plot band) := by
      rintro band ⟨start, stop, value⟩ ⟨start', stop', value'⟩ heq
      injection heq with _ _ hstart hstop hvalue
      obtain rfl : start = start' := hstart
      obtain rfl : stop = stop' := hstop
      obtain rfl : value = value' := hvalue
      rfl
    unfold makeStateItems at h
    rw [List.flatMap_cons, List.flatMap_cons] at h
    obtain ⟨hblock, -⟩ := List.append_inj h (by simp [hcmd, hflight])
    obtain ⟨hcmd, hflight⟩ := List.append_inj hblock (by simp [hcmd])
    exact ⟨(hinjective .cmd).list_map hcmd, (hinjective .flight).list_map hflight⟩
  · rintro ⟨hcmd, hflight⟩
    unfold makeStateItems
    rw [hcmd, hflight]

/-- Every update draws the bands as they were made last, with starts and states as they are now.
    While the buffers grow, the bands are as they are now exactly if no state that was shown as open
    has ended since. -/
theorem state_bands (plots : List ι) (updates : List (StateUpdate ι)) (newest : StateUpdate ι) :
    ∃ maker, Memo.Origin stateSignature (updates ++ [newest]) maker ∧
      DrawsStates plots maker newest
        ((updates ++ [newest]).foldl (updateStateBackgrounds plots) ⟨none, []⟩).value ∧
      (plots ≠ [] → Growing updates newest →
        (makeStateItems plots maker = makeStateItems plots newest ↔
          ¬ Ended hbCmdSourceDds.toNat maker.cmdSamples newest.cmdSamples ∧
            ¬ Ended navigationStateOffboard.toNat maker.flightSamples newest.flightSamples)) := by
  have hbare : ∀ (u : StateUpdate ι) (items : List (StateItem ι)),
      (items.map (placeStateItem u.viewRange)).map StateItem.bare = items.map StateItem.bare := by
    intro u items
    rw [List.map_map]
    exact List.map_congr_left fun item _ => bare_placeStateItem u.viewRange item
  obtain ⟨maker, horigin, -, hmade⟩ :=
    Memo.refreshed stateSignature (makeStateItems plots) hbare [] updates newest
  obtain ⟨hcmd, hflight⟩ := Prod.mk.inj horigin.sig_last
  refine ⟨maker, horigin, ?_, fun hplots hgrowing => ?_⟩
  · refine ⟨hmade.trans (bare_makeStateItems plots maker),
      sameStart_of_startsOf_eq hcmd.symm, sameStart_of_startsOf_eq hflight.symm, ?_⟩
    · intro item hitem yMin yMax hview hspan
      rw [List.foldl_append, List.foldl_cons, List.foldl_nil] at hitem
      obtain ⟨item', -, rfl⟩ := List.mem_map.mp hitem
      obtain ⟨hplot, hband, hstart, hstop⟩ := placeStateItem_data newest.viewRange item'
      rw [hplot] at hview
      rw [hband, hstart, hstop]
      exact rect_placeStateItem item' hview hspan
  · have hlengths : maker.cmdSegments.length = newest.cmdSegments.length ∧
        maker.flightSegments.length = newest.flightSegments.length := by
      have h₁ := congrArg List.length hcmd
      have h₂ := congrArg List.length hflight
      simp only [startsOf, List.length_map] at h₁ h₂
      exact ⟨h₁.symm, h₂.symm⟩
    have hgrown : maker.cmdSamples <+: newest.cmdSamples ∧
        maker.flightSamples <+: newest.flightSamples := by
      rcases List.mem_append.mp horigin.mem with hmem | hmem
      · exact ⟨hgrowing.cmd maker hmem, hgrowing.flight maker hmem⟩
      · rw [List.mem_singleton.mp hmem]
        exact ⟨List.prefix_rfl, List.prefix_rfl⟩
    rw [makeStateItems_eq_iff hplots hlengths.1 hlengths.2]
    exact and_congr (segmentsOf_eq_iff hgrown.1 hgrowing.cmdSteady hlengths.1)
      (segmentsOf_eq_iff hgrown.2 hgrowing.flightSteady hlengths.2)

/-- The band of a state that has begun at 0 and ended at 5 stays as it was drawn before it ended. -/
example :
    let before : StateUpdate Unit := ⟨[⟨0, 1⟩], [], fun _ => none⟩
    let after : StateUpdate Unit := ⟨[⟨0, 1⟩, ⟨5, 0⟩], [], fun _ => none⟩
    let items := ([before, after].foldl (updateStateBackgrounds [()]) ⟨none, []⟩).value
    items.map StateItem.stop = [86400] ∧ after.cmdSegments.map Interval.stop = [5] := by
  decide +kernel

end States

/-! ## Timeout bands -/

section Timeouts

variable {ι : Type*}

/-- The plot of an item, and where it begins and ends. -/
def TimeoutItem.extent (item : TimeoutItem ι) : ι × ℚ × ℚ :=
  (item.plot, item.rect.x, item.rect.x + item.rect.width)

/-- The segments of an update on all plots; one that ends before it begins is empty. -/
def TimeoutUpdate.extents (plots : List ι) (u : TimeoutUpdate ι) : List (ι × ℚ × ℚ) :=
  plots.flatMap fun plot => u.segments.map fun s => (plot, s.1, max s.1 s.2)

/-- The same plot and the same ends, to a millisecond. -/
def Near (e e' : ι × ℚ × ℚ) : Prop :=
  e.1 = e'.1 ∧ |e.2.1 - e'.2.1| ≤ 1 / 10 ^ 3 ∧ |e.2.2 - e'.2.2| ≤ 1 / 10 ^ 3

/-- The items after the update `newest`. -/
structure DrawsTimeouts (plots : List ι) (newest : TimeoutUpdate ι)
    (items : List (TimeoutItem ι)) : Prop where
  near : List.Forall₂ Near (items.map TimeoutItem.extent) (newest.extents plots)
  placed : ∀ item ∈ items, ∀ yMin yMax, newest.viewRange item.plot = some (yMin, yMax) →
    yMin < yMax → item.rect.y = yMin ∧ item.rect.height = yMax - yMin

theorem extent_placeTimeoutItem (viewRange : ViewRange ι) (item : TimeoutItem ι) :
    (placeTimeoutItem viewRange item).extent = item.extent := by
  unfold placeTimeoutItem
  split
  · rfl
  · dsimp only
    split <;> rfl

theorem extent_makeTimeoutItems (plots : List ι) (u : TimeoutUpdate ι) :
    (makeTimeoutItems plots u).map TimeoutItem.extent = u.extents plots := by
  unfold makeTimeoutItems TimeoutUpdate.extents
  rw [List.map_flatMap]
  refine congrArg (fun f => plots.flatMap f) (funext fun plot => ?_)
  rw [List.map_map]
  refine List.map_congr_left fun s _ => ?_
  show (plot, s.1, s.1 + max 0 (s.2 - s.1)) = (plot, s.1, max s.1 s.2)
  rw [← max_add_add_left, add_zero, add_sub_cancel]

/-- Updates with one signature have nearly the same segments. -/
theorem near_extents {plots : List ι} {u v : TimeoutUpdate ι}
    (h : timeoutSignature u = timeoutSignature v) :
    List.Forall₂ Near (u.extents plots) (v.extents plots) := by
  have hsegments : List.Forall₂
      (fun s s' : ℚ × ℚ => |s.1 - s'.1| ≤ 1 / 10 ^ 3 ∧ |s.2 - s'.2| ≤ 1 / 10 ^ 3)
      u.segments v.segments := by
    refine Memo.forall₂_of_map_eq (fun s s' heq => ?_) h
    obtain ⟨hstart, hstop⟩ := Prod.mk.inj heq
    exact ⟨abs_sub_le_of_roundTo_eq hstart, abs_sub_le_of_roundTo_eq hstop⟩
  have hplot : ∀ plot : ι, List.Forall₂ Near (u.segments.map fun s => (plot, s.1, max s.1 s.2))
      (v.segments.map fun s => (plot, s.1, max s.1 s.2)) := by
    intro plot
    rw [List.forall₂_map_left_iff, List.forall₂_map_right_iff]
    refine hsegments.imp ?_
    rintro s s' ⟨hstart, hstop⟩
    exact ⟨rfl, hstart, (abs_max_sub_max_le_max _ _ _ _).trans (max_le hstart hstop)⟩
  induction plots with
  | nil => exact .nil
  | cons plot plots ih => exact List.rel_append (hplot plot) ih

/-- Every update draws the timeouts as they are now, to a millisecond, over the whole height. -/
theorem timeout_bands (plots : List ι) (updates : List (TimeoutUpdate ι))
    (newest : TimeoutUpdate ι) :
    DrawsTimeouts plots newest
      ((updates ++ [newest]).foldl (updateTimeoutBackgrounds plots) ⟨none, []⟩).value := by
  have hextent : ∀ (u : TimeoutUpdate ι) (items : List (TimeoutItem ι)),
      (items.map (placeTimeoutItem u.viewRange)).map TimeoutItem.extent =
        items.map TimeoutItem.extent := by
    intro u items
    rw [List.map_map]
    exact List.map_congr_left fun item _ => extent_placeTimeoutItem u.viewRange item
  obtain ⟨maker, horigin, -, hmade⟩ :=
    Memo.refreshed timeoutSignature (makeTimeoutItems plots) hextent [] updates newest
  constructor
  · rw [extent_makeTimeoutItems] at hmade
    have hnear : List.Forall₂ Near (maker.extents plots) (newest.extents plots) :=
      near_extents horigin.sig_last.symm
    rw [← hmade] at hnear
    exact hnear
  · intro item hitem yMin yMax hview hspan
    rw [List.foldl_append, List.foldl_cons, List.foldl_nil] at hitem
    obtain ⟨item', -, rfl⟩ := List.mem_map.mp hitem
    have hplot : (placeTimeoutItem newest.viewRange item').plot = item'.plot :=
      congrArg Prod.fst (extent_placeTimeoutItem newest.viewRange item')
    rw [hplot] at hview
    unfold placeTimeoutItem
    rw [hview]
    dsimp only
    rw [if_neg (by linarith)]
    exact ⟨rfl, rfl⟩

end Timeouts

end Viewer

end Hummingbird
