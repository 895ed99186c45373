/-
  `_update` of `ViewerWindow` in `px4_multirotor_viewer.py`: what the curves show.

  An update takes from every buffer the rows that are not older than the window and hands two of
  their columns to each curve. A curve whose window is empty keeps what it was given before, except
  those of the velocity tab, which are emptied. `live_frames` says that in a live view this makes no
  difference to what is seen of the curves over time: in any interleaving of callbacks and updates,
  it is the buffer, cut to the window. Only the two paths over the ground stay in sight when their
  topics go quiet.

  A curve is kept as the rows that it was given, and a buffer as the rows that `Ring.get` returns
  (`Ring.Represents.get_push`). The bands behind the plots are in `Bands`; the status bar and the 3D
  view are left out.
-/
import Hummingbird.Library.Circular
import Hummingbird.Library.Machine
import Hummingbird.Library.Viewport
import Hummingbird.Viewer.Node
import Hummingbird.Viewer.ReplayControls
import Hummingbird.Viewer.Ring
import Hummingbird.Viewer.Timeline

namespace Hummingbird

namespace Viewer

open Circular Viewport

/-! ## The curves -/

/-- `MAX_SAMPLES`. -/
def maxSamples : ℕ := 20000

/-- A curve of `cv`: its buffer, the columns it is given, of which 0 is the time, and whether an
    update empties it when there is nothing to show. -/
structure Curve where
  buffer : Buffer
  x : ℕ
  y : ℕ
  emptied : Bool
  deriving DecidableEq

/-- The first `n` columns of a buffer over the time. -/
def overTime (emptied : Bool) (b : Buffer) (n : ℕ) : List Curve :=
  (List.range n).map fun i => ⟨b, 0, 1 + i, emptied⟩

/-- The curves, in the order of `_update` and `_update_real_tab`. -/
def curves (realMode : Bool) : List Curve :=
  [.pos, .posSp, .rpy, .attSp, .force, .torque].flatMap (overTime false · 3) ++
    [.vel, .velSp, .rates, .ratesSp].flatMap (overTime true · 3) ++
    [.motor, .alpha].flatMap (overTime false · 4) ++ overTime false .beta 2 ++
    if realMode then
      [⟨.optiPos, 1, 2, false⟩, ⟨.fmuPosePos, 1, 2, false⟩] ++
        [.optiPos, .fmuPosePos, .optiRpy, .fmuPoseRpy].flatMap (overTime false · 3) ++
        overTime false .optiTransportDelay 2 ++ overTime false .optiHz 1 ++
        overTime false .optiLost 1 ++ [⟨.posError, 0, 4, false⟩]
    else []

/-- The keys of `data`. -/
def dataBuffers (realMode : Bool) : List Buffer :=
  [.pos, .posSp, .vel, .velSp, .rates, .ratesSp, .rpy, .attSp, .force, .torque, .motor, .beta,
    .alpha, .cmdState, .flightState] ++
    if realMode then
      [.optiPos, .fmuPosePos, .optiRpy, .fmuPoseRpy, .optiTransportDelay, .optiHz, .optiLost,
        .posError]
    else []

/-- `actuator_timeout_sec`, of the parameter. -/
def actuatorTimeoutSec (timeout : ℚ) : ℚ := max (1 / 1000) timeout

/-! ## Updates -/

/-- What an update reads and writes. `currentReplayTime` is none in a live view, `given` holds the
    rows that a curve was given last. -/
structure Display where
  data : Buffer → List Push
  windowSec : ℚ
  currentReplayTime : Option ℚ
  given : Curve → List Push
  xRange : Option (ℚ × ℚ)
  timeoutSegments : List (PyFloat × PyFloat)

/-- What happens to the display: a callback or the replay pushes a row, a replay range is applied,
    which empties the buffers first, and the timer calls `_update`. -/
inductive DisplayEvent
  | push (p : Push)
  | replayRange (windowSec endTime : ℚ)
  | update (now : ℚ)

namespace Display

/-- The display before any row has come. -/
def start (currentReplayTime : Option ℚ) : Display where
  data := fun _ => []
  windowSec := defaultWindowSec
  currentReplayTime := currentReplayTime
  given := fun _ => []
  xRange := none
  timeoutSegments := []

def push (s : Display) (p : Push) : Display :=
  { s with
    data := Function.update s.data p.buffer (recent maxSamples (s.data p.buffer ++ [p])) }

/-- `_apply_pending_replay_range`, up to the records that are ingested then. -/
def replayRange (s : Display) (windowSec endTime : ℚ) : Display :=
  { s with data := fun _ => [], windowSec := windowSec, currentReplayTime := some endTime }

/-- The last time in `data`, or 0. -/
def newestTime (realMode : Bool) (s : Display) : ℚ :=
  (dataBuffers realMode).foldl
    (fun tn b =>
      match (s.data b).getLast? with
      | none => tn
      | some row => max tn row.t) 0

/-- `tl` and `tn`, unless there is nothing to draw yet. -/
def span (realMode : Bool) (s : Display) (now : ℚ) : Option (ℚ × ℚ) :=
  match s.currentReplayTime with
  | some tn => some (max 0 (tn - s.windowSec), tn)
  | none =>
    let tn := max (s.newestTime realMode) now
    if tn ≤ 0 then none else some (tn - s.windowSec, tn)

/-- `_set3`, `_set4`, `_set_col` and the velocity tab. -/
def setData (tl : ℚ) (curve : Curve) (rows given : List Push) : List Push :=
  if curve.emptied then trim Push.t tl rows else redraw Push.t tl rows given

noncomputable section

/-- The list comprehension over the segments. -/
def clipSegments (tl tn : PyFloat) (segments : List (PyFloat × PyFloat)) :
    List (PyFloat × PyFloat) :=
  (segments.filter fun s => tl ≤ s.2 ∧ s.1 ≤ tn).map fun s =>
    (PyFloat.pyMax s.1 tl, PyFloat.pyMin s.2 tn)

/-- `_update` at the time `now`. -/
def update (realMode : Bool) (timeout : ℚ) (s : Display) (now : ℚ) : Display :=
  match s.span realMode now with
  | none => s
  | some (tl, tn) =>
    { s with
      timeoutSegments := clipSegments (.num tl) (.num tn)
        (actuatorTimeoutSegments ((s.data .beta).map fun row => .num row.t) (.num tn)
          (.num (actuatorTimeoutSec timeout : ℚ)))
      given := fun curve =>
        if curve ∈ curves realMode then setData tl curve (s.data curve.buffer) (s.given curve)
        else s.given curve
      xRange := some (tl, tn) }

def handle (realMode : Bool) (timeout : ℚ) (s : Display) : DisplayEvent → Display
  | .push p => s.push p
  | .replayRange windowSec endTime => s.replayRange windowSec endTime
  | .update now => s.update realMode timeout now

/-- The callbacks and the updates run in different threads, so that nothing orders their times. -/
def display (realMode : Bool) (timeout : ℚ) : Machine Display DisplayEvent Unit Unit where
  step s e := (s.handle realMode timeout e, ())
  enter _ := ()
  leave _ := ()

end

abbrev Entry := Machine.Step Display DisplayEvent Unit

/-- The rows that have been pushed to the buffer, oldest first. -/
def pushedTo (b : Buffer) (h : List Entry) : List Push :=
  (h.filterMap fun k =>
    match k.event with
    | .push p => if p.buffer = b then some p else none
    | _ => none).reverse

/-- No replay range is applied. -/
def IsLive (h : List Entry) : Prop := ∀ k ∈ h, ∀ windowSec endTime,
  k.event ≠ .replayRange windowSec endTime

/-- The clock that the callbacks read does not go back. -/
def InOrder (h : List Entry) : Prop := ∀ b, (pushedTo b h).Pairwise fun p q => p.t ≤ q.t

/-- Inside the window the segments show the gaps between the times that the function finds. -/
structure ShowsTimeouts (timeout tl tn : ℝ) (times : List ℝ)
    (segments : List (PyFloat × PyFloat)) : Prop where
  shown : ∃ l : List (ℝ × ℝ), segments = l.map floatPair ∧ l.Pairwise (fun p q => p.2 ≤ q.1) ∧
    (∀ p ∈ l, tl ≤ p.1 ∧ p.1 ≤ p.2 ∧ p.2 ≤ tn) ∧
    ∀ u ∈ Set.Ioo tl tn, (∃ p ∈ l, u ∈ Set.Ioo p.1 p.2) ↔
      ∃ hne : times ≠ [], ∃ p ∈ foundGaps timeout tn times hne, u ∈ Set.Ioo p.1 p.2

/-- What an update of a live view at the time `now` has drawn, after the events of `past`. -/
structure DrawsLive (realMode : Bool) (timeout now : ℚ) (past : List Entry) (tl tn : ℚ)
    (s : Display) : Prop where
  xRange : s.xRange = some (tl, tn)
  width : tn - tl = defaultWindowSec
  upToDate : now ≤ tn ∧ ∀ b ∈ dataBuffers realMode, ∀ row ∈ pushedTo b past, row.t ≤ tn
  fresh : ∀ curve ∈ curves realMode,
    trim Push.t tl (recent maxSamples (pushedTo curve.buffer past)) ≠ [] →
      s.given curve = trim Push.t tl (recent maxSamples (pushedTo curve.buffer past))
  seen : ∀ curve ∈ curves realMode, curve.x = 0 → visible Push.t tl tn (s.given curve) =
    trim Push.t tl (recent maxSamples (pushedTo curve.buffer past))
  timeouts : ShowsTimeouts (actuatorTimeoutSec timeout) tl tn
    ((recent maxSamples (pushedTo .beta past)).map fun row => (row.t : ℝ)) s.timeoutSegments

/-! ## Buffers -/

/-- A ring reads like the list of rows that the display keeps in its place. -/
theorem Ring.Represents.get_push {cap width : ℕ} {r : Ring cap width} {pushed : List (Row width)}
    (h : r.Represents pushed) (row : Row width) :
    (r.push row).get = recent cap (r.get ++ [row]) := by
  rw [(h.push row).get, h.get, recent_concat]

section Runs

variable {realMode : Bool} {timeout : ℚ} {b : Buffer} {k : Entry} {h : List Entry} {s : Display}
  {t : Unit}

theorem pushedTo_push {p : Push} (hk : k.event = .push p) :
    pushedTo b (k :: h) = pushedTo b h ++ if p.buffer = b then [p] else [] := by
  unfold pushedTo
  by_cases hb : p.buffer = b <;> simp [hk, hb]

theorem pushedTo_update {now : ℚ} (hk : k.event = .update now) :
    pushedTo b (k :: h) = pushedTo b h := by
  unfold pushedTo
  simp [hk]

theorem InOrder.of_append {a : List Entry} (hordered : InOrder (a ++ h)) : InOrder h := by
  intro b
  have hall := hordered b
  unfold pushedTo at hall ⊢
  rw [List.filterMap_append, List.reverse_append] at hall
  exact hall.sublist (List.sublist_append_left _ _)

/-- A live view after the events of `h`. -/
structure Live (h : List Entry) (s : Display) : Prop where
  replay : s.currentReplayTime = none
  windowSec : s.windowSec = defaultWindowSec
  data : ∀ b, s.data b = recent maxSamples (pushedTo b h)
  given : ∀ curve, s.given curve ⊆ pushedTo curve.buffer h

theorem live_start : Live [] (start none) where
  replay := rfl
  windowSec := rfl
  data := fun _ => (recent_of_le (Nat.zero_le maxSamples)).symm
  given := fun _ => List.nil_subset _

theorem Live.push (hs : Live h s) {p : Push} (hk : k.event = .push p) :
    Live (k :: h) (s.push p) where
  replay := hs.replay
  windowSec := hs.windowSec
  data := by
    intro b
    rw [pushedTo_push hk]
    show Function.update s.data p.buffer _ b = _
    by_cases hb : p.buffer = b
    · subst hb
      rw [Function.update_self, if_pos rfl, hs.data, recent_concat]
    · rw [Function.update_of_ne (Ne.symm hb), if_neg hb, List.append_nil, hs.data]
  given := by
    intro curve row hrow
    rw [pushedTo_push hk]
    exact List.mem_append_left _ (hs.given curve hrow)

theorem setData_subset {tl : ℚ} {curve : Curve} {rows given pushed : List Push}
    (hrows : rows ⊆ pushed) (hgiven : given ⊆ pushed) :
    setData tl curve rows given ⊆ pushed := by
  unfold setData
  split
  · exact fun row hrow => hrows (mem_trim.mp hrow).1
  · exact redraw_subset hrows hgiven

theorem setData_of_ne_nil {tl : ℚ} {curve : Curve} {rows given : List Push}
    (h : trim Push.t tl rows ≠ []) : setData tl curve rows given = trim Push.t tl rows := by
  unfold setData redraw
  rw [if_neg h, ite_self]

theorem Live.update (hs : Live h s) {now : ℚ} (hk : k.event = .update now) :
    Live (k :: h) (s.update realMode timeout now) := by
  unfold Display.update
  cases s.span realMode now with
  | none => exact ⟨hs.1, hs.2, by simpa [pushedTo_update hk] using hs.3,
      by simpa [pushedTo_update hk] using hs.4⟩
  | some span =>
    refine ⟨hs.1, hs.2, by simpa [pushedTo_update hk] using hs.3, ?_⟩
    intro curve
    rw [pushedTo_update hk]
    dsimp only
    split
    · refine setData_subset ?_ (hs.given curve)
      rw [hs.data]
      exact (recent_suffix _ _).subset
    · exact hs.given curve

theorem isRun_live (hr : (display realMode timeout).Run (start none) () h s t) (hlive : IsLive h) :
    Live h s := by
  induction hr with
  | start => exact live_start
  | @handle h s t e _ _ _ ih =>
    have hs := ih fun k hk => hlive k (List.mem_cons_of_mem _ hk)
    cases e with
    | push p => exact hs.push rfl
    | replayRange windowSec endTime => exact absurd rfl (hlive _ List.mem_cons_self _ _)
    | update now => exact hs.update rfl

end Runs

/-! ## One update -/

theorem curve_buffer_mem (realMode : Bool) :
    ∀ curve ∈ curves realMode, curve.buffer ∈ dataBuffers realMode := by
  cases realMode <;> decide

section Update

variable {realMode : Bool} {timeout now tl tn : ℚ} {h : List Entry} {s : Display}

theorem le_newestTime {b : Buffer} (hb : b ∈ dataBuffers realMode) {row : Push}
    (hrow : row ∈ (s.data b).getLast?) : row.t ≤ s.newestTime realMode := by
  unfold newestTime
  generalize dataBuffers realMode = buffers at hb
  generalize (0 : ℚ) = tn
  -- the fold never goes back
  have hmono : ∀ (l : List Buffer) (tn : ℚ), tn ≤ l.foldl (fun tn b =>
      match (s.data b).getLast? with
      | none => tn
      | some row => max tn row.t) tn := by
    intro l
    induction l with
    | nil => exact fun tn => le_rfl
    | cons b l ih =>
      intro tn
      rw [List.foldl_cons]
      refine le_trans ?_ (ih _)
      split
      · exact le_rfl
      · exact le_max_left _ _
  induction buffers generalizing tn with
  | nil => cases hb
  | cons c buffers ih =>
    rw [List.foldl_cons]
    rcases List.mem_cons.mp hb with rfl | hb
    · refine le_trans ?_ (hmono buffers _)
      rw [Option.mem_def.mp hrow]
      exact le_max_right _ _
    · exact ih hb _

/-- In order, no row that has been pushed is newer than the last one in the buffer. -/
theorem Live.le_newestTime (hs : Live h s) (hordered : InOrder h) {b : Buffer}
    (hb : b ∈ dataBuffers realMode) {row : Push} (hrow : row ∈ pushedTo b h) :
    row.t ≤ s.newestTime realMode := by
  have hne := List.ne_nil_of_mem hrow
  have hlast : (s.data b).getLast? = some ((pushedTo b h).getLast hne) := by
    rw [hs.data, getLast?_recent (by decide), List.getLast?_eq_some_getLast hne]
  exact ((hordered b).rel_getLast hrow).trans (Display.le_newestTime hb hlast)

theorem clipSegments_num (tl tn : ℝ) (l : List (ℝ × ℝ)) :
    clipSegments (.num tl) (.num tn) (l.map floatPair) = (clip tl tn l).map floatPair := by
  have hmax : ∀ a b : ℝ, PyFloat.pyMax (.num a) (.num b) = .num (max a b) := by
    intro a b
    unfold PyFloat.pyMax
    split
    · rename_i hlt
      rw [max_eq_right (PyFloat.num_lt_num.mp hlt).le]
    · rename_i hge
      rw [max_eq_left (not_lt.mp fun hlt => hge (PyFloat.num_lt_num.mpr hlt))]
  have hmin : ∀ a b : ℝ, PyFloat.pyMin (.num a) (.num b) = .num (min a b) := by
    intro a b
    unfold PyFloat.pyMin
    split
    · rename_i hlt
      rw [min_eq_right (PyFloat.num_lt_num.mp hlt).le]
    · rename_i hge
      rw [min_eq_left (not_lt.mp fun hlt => hge (PyFloat.num_lt_num.mpr hlt))]
  unfold clipSegments clip
  rw [List.filter_map, List.map_map, List.map_map]
  congr 1
  funext p
  show (PyFloat.pyMax (.num p.1) (.num tl), PyFloat.pyMin (.num p.2) (.num tn)) = _
  rw [hmax, hmin]
  rfl

theorem showsTimeouts (timeout : ℝ) {tl tn : ℝ} (hle : tl ≤ tn) {times : List ℝ}
    (hordered : times.Pairwise (· ≤ ·)) (hpast : ∀ u ∈ times, u ≤ tn) :
    ShowsTimeouts timeout tl tn times (clipSegments (.num tl) (.num tn)
      (actuatorTimeoutSegments (times.map PyFloat.num) (.num tn) (.num timeout))) := by
  cases times with
  | nil =>
    refine ⟨[], rfl, .nil, by simp, fun u _ => ?_⟩
    simp
  | cons first rest =>
    have hne := List.cons_ne_nil first rest
    have hsub : (foundGaps timeout tn (first :: rest) hne).Sublist (spans tn (first :: rest) hne) :=
      List.filter_sublist
    rw [actuatorTimeoutSegments_num hordered, clipSegments_num]
    refine ⟨_, rfl, clip_ordered ((spans_ordered hne hordered).sublist hsub), ?_, fun u hu => ?_⟩
    · exact fun p hp => clip_within hle
        (fun q hq => spans_forward hne hordered hpast (hsub.subset hq)) hp
    · rw [covered_clip hu]
      exact ⟨fun hgap => ⟨_, hgap⟩, fun ⟨_, hgap⟩ => hgap⟩

theorem Live.draws (hs : Live h s) (hordered : InOrder h)
    (hspan : s.span realMode now = some (tl, tn)) :
    DrawsLive realMode timeout now h tl tn (s.update realMode timeout now) := by
  obtain ⟨hnewest, hnow, hwidth⟩ : s.newestTime realMode ≤ tn ∧ now ≤ tn ∧
      tn - tl = defaultWindowSec := by
    unfold span at hspan
    rw [hs.replay, hs.windowSec] at hspan
    dsimp only at hspan
    split at hspan
    · cases hspan
    · obtain ⟨rfl, rfl⟩ := Prod.mk.inj (Option.some.inj hspan)
      exact ⟨le_max_left _ _, le_max_right _ _, sub_sub_cancel _ _⟩
  have hle : ∀ b ∈ dataBuffers realMode, ∀ row ∈ pushedTo b h, row.t ≤ tn :=
    fun b hb row hrow => (hs.le_newestTime hordered hb hrow).trans hnewest
  unfold Display.update
  rw [hspan]
  refine ⟨rfl, hwidth, ⟨hnow, hle⟩, ?_, ?_, ?_⟩
  · intro curve hcurve hne
    dsimp only
    rw [if_pos hcurve, hs.data]
    exact setData_of_ne_nil hne
  · intro curve hcurve _
    have hall := hle _ (curve_buffer_mem realMode curve hcurve)
    have hin : ∀ row ∈ recent maxSamples (pushedTo curve.buffer h), row.t ≤ tn :=
      fun row hrow => hall row ((recent_suffix _ _).subset hrow)
    dsimp only
    rw [if_pos hcurve, setData, hs.data]
    split
    · exact visible_trim hin
    · exact visible_redraw (hordered curve.buffer) (getLast?_recent (by decide) _) (hs.given curve)
        hin
  · have htimes : ((recent maxSamples (pushedTo .beta h)).map fun row => (row.t : ℝ)).Pairwise
        (· ≤ ·) := by
      rw [List.pairwise_map]
      refine ((hordered .beta).sublist (recent_suffix _ _).sublist).imp fun {p q} hpq => ?_
      exact_mod_cast hpq
    have hpast : ∀ u ∈ (recent maxSamples (pushedTo .beta h)).map fun row => (row.t : ℝ),
        u ≤ (tn : ℝ) := by
      intro u hu
      obtain ⟨row, hrow, rfl⟩ := List.mem_map.mp hu
      exact_mod_cast hle .beta (by cases realMode <;> decide) row
        ((recent_suffix _ _).subset hrow)
    have hlt : tl ≤ tn := by
      have : (0 : ℚ) ≤ defaultWindowSec := by norm_num [defaultWindowSec]
      linarith
    have hshows := showsTimeouts (actuatorTimeoutSec timeout : ℚ)
      (by exact_mod_cast hlt : (tl : ℝ) ≤ tn) htimes hpast
    rw [List.map_map] at hshows
    dsimp only
    rw [hs.data]
    exact hshows

end Update

/-- Every update of a live view, whenever callbacks and updates come: before the clock starts
    nothing is drawn, and from then on what is seen is what the buffers hold of the window. -/
theorem live_frames {realMode : Bool} {timeout : ℚ} {h : List Entry} {s : Display} {t : Unit}
    (hr : (display realMode timeout).Run (start none) () h s t) (hlive : IsLive h)
    (hordered : InOrder h) :
    Past.Always (Past.At fun k past => ∀ now, k.event = .update now →
      (now ≤ 0 ∧ (∀ b ∈ dataBuffers realMode, ∀ row ∈ pushedTo b past, row.t ≤ 0) ∧
        k.post = k.pre) ∨
      ∃ tl tn, DrawsLive realMode timeout now past tl tn k.post) h := by
  rw [Past.always_iff_append]
  rintro a k past rfl now hk
  obtain ⟨s', t', hr', -⟩ := hr.of_append
  cases hr' with
  | @handle _ s t e hrun _ _ =>
    obtain rfl : e = .update now := hk
    have hs : Live past s := isRun_live hrun fun k hk =>
      hlive k (List.mem_append_right a (List.mem_cons_of_mem _ hk))
    have hpast : InOrder past := by
      rw [List.append_cons] at hordered
      exact hordered.of_append
    show (_ ∧ _ ∧ s.update realMode timeout now = s) ∨
      ∃ tl tn, DrawsLive realMode timeout now past tl tn (s.update realMode timeout now)
    cases hspan : s.span realMode now with
    | some span => exact Or.inr ⟨span.1, span.2, hs.draws hpast hspan⟩
    | none =>
      left
      unfold span at hspan
      rw [hs.replay] at hspan
      dsimp only at hspan
      split at hspan
      · rename_i hle
        refine ⟨(le_max_right _ _).trans hle, fun b hb row hrow => ?_, ?_⟩
        · exact (hs.le_newestTime hpast hb hrow).trans ((le_max_left _ _).trans hle)
        · unfold Display.update span
          rw [hs.replay]
          dsimp only
          rw [if_pos hle]
      · cases hspan

/-- A topic that has gone quiet: at the second update its window is empty. -/
noncomputable def quietTopic : List DisplayEvent :=
  [.push ⟨.pos, 1, [.num 1, .num 2, .num 3]⟩, .update 2, .update 20]

theorem live_frames_quietTopic :
    Past.Always (Past.At fun k past => ∀ now, k.event = .update now →
      (now ≤ 0 ∧ (∀ b ∈ dataBuffers false, ∀ row ∈ pushedTo b past, row.t ≤ 0) ∧
        k.post = k.pre) ∨
      ∃ tl tn, DrawsLive false (1 / 5) now past tl tn k.post)
      ((display false (1 / 5)).trace (start none) quietTopic []) := by
  obtain ⟨s, t, hr⟩ := Machine.run_trace (M := display false (1 / 5)) (start none) () quietTopic
    ⟨trivial, trivial, trivial, trivial, trivial, trivial, trivial⟩
  refine live_frames hr ?_ ?_
  · simp [IsLive, quietTopic, Machine.trace, Machine.record]
  · intro b
    by_cases hb : Buffer.pos = b <;>
      simp [pushedTo, quietTopic, Machine.trace, Machine.record, hb]

end Display

end Viewer

end Hummingbird
