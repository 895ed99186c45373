/-
  The replay controls of `ViewerWindow` in `px4_multirotor_viewer.py`.

  A change of the slider is not applied at once: `_on_replay_controls_changed` keeps the range and
  starts a single-shot timer anew, and `_apply_pending_replay_range` applies it when the timer
  fires. The events are those of the mouse and of the timer, each at its time; a timer fires no
  earlier than it is due. `view_follows_slider` is what holds in every run: the timer runs from the
  last change, a range is applied only when the slider has not moved for 30 ms, and whenever the
  timer is idle the view shows what the slider selects: of a log whose times do not go back the
  records from the warm-up before the range to its end.
-/
import Hummingbird.Viewer.Slider
import Hummingbird.Viewer.ReplayRange

namespace Hummingbird

namespace Viewer

/-! ## The window -/

/-- `WINDOW_SEC`. -/
def defaultWindowSec : ℚ := 10

/-- What `_replay_apply_timer` is started with, in seconds. -/
def replayApplySec : ℚ := 3 / 100

/-- The members of `ViewerWindow` and of its node that the replay controls set. `timer` is when
    `_replay_apply_timer` is due, if it is active; `shown` is what the node has ingested last. -/
structure ReplayWindow (δ : Type*) where
  slider : ManualRangeSlider
  pendingReplayRange : Option (ℤ × ℤ)
  timer : Option ℚ
  windowSec : ℚ
  currentReplayTime : ℚ
  shown : List (ReplayRecord δ)

/-- What the window does not decide: the mouse on the slider, and the timer. -/
inductive ControlEvent
  | mousePress (t : ℚ) (leftButton : Bool) (size : WidgetSize) (x y : ℤ)
  | mouseMove (t : ℚ) (size : WidgetSize) (x y : ℤ)
  | mouseRelease (t : ℚ) (leftButton : Bool)
  | timeout (t : ℚ)

def ControlEvent.t : ControlEvent → ℚ
  | mousePress t _ _ _ _ => t
  | mouseMove t _ _ _ => t
  | mouseRelease t _ => t
  | timeout t => t

/-- What an event has done: it has told of these ranges, or applied one. -/
structure ControlOut where
  changed : List (ℤ × ℤ)
  applied : Option (ℚ × ℚ)

namespace ReplayWindow

variable {δ : Type*}

/-- `duration_ms`. -/
def durationMs (r : Replay δ) : ℤ := max 1 (pyRound (r.replayDuration * 1000))

/-- `start_ms`. -/
def startMs (r : Replay δ) : ℤ := max 0 (durationMs r - pyRound (defaultWindowSec * 1000))

/-- `_on_replay_controls_changed`. -/
def onReplayControlsChanged (w : ReplayWindow δ) (t : ℚ) (values : ℤ × ℤ) : ReplayWindow δ :=
  { w with
    pendingReplayRange := some values
    timer := some (t + replayApplySec) }

/-- `apply_replay_range` of the node, as far as it says what is shown. -/
def applyReplayRange (r : Replay δ) (w : ReplayWindow δ) (startTime endTime : ℚ) :
    ReplayWindow δ :=
  if r.replayEnabled = false ∨ r.replayTimes = [] then w
  else
    { w with
      currentReplayTime := r.clampedEnd startTime endTime
      shown := r.applyReplayRange startTime endTime }

/-- `_apply_pending_replay_range`. -/
def applyPendingReplayRange (r : Replay δ) (w : ReplayWindow δ) :
    ReplayWindow δ × Option (ℚ × ℚ) :=
  match w.pendingReplayRange with
  | none => (w, none)
  | some (lowMs, highMs) =>
    let startTime : ℚ := lowMs / 1000
    let endTime : ℚ := highMs / 1000
    let w := { w with
      pendingReplayRange := none
      windowSec := max (1 / 1000) (endTime - startTime) }
    (applyReplayRange r w startTime endTime, some (startTime, endTime))

noncomputable section

/-- The window of a node that has loaded its log, once its controls are built at the time `t`. -/
def construct (r : Replay δ) (t : ℚ) : ReplayWindow δ :=
  let slider := (ManualRangeSlider.construct.setRange (.num 0) (.num (durationMs r))).1
  let slider := (slider.setValue (.num (startMs r)) (.num (durationMs r)) false).1
  onReplayControlsChanged
    { slider := slider
      pendingReplayRange := none
      timer := none
      windowSec := defaultWindowSec
      currentReplayTime := r.replayDuration
      shown := [] } t (slider.low, slider.high)

/-- The slider handles an event, and its signal is handled with it. -/
def onSlider (w : ReplayWindow δ) (t : ℚ) (e : ManualRangeSlider.Event) :
    ReplayWindow δ × ControlOut :=
  let (slider, out) := w.slider.handle e
  (out.emitted.foldl (fun w values => onReplayControlsChanged w t values)
    { w with slider := slider }, ⟨out.emitted, none⟩)

def handle (r : Replay δ) (w : ReplayWindow δ) : ControlEvent → ReplayWindow δ × ControlOut
  | .mousePress t leftButton size x y => w.onSlider t (.mousePress leftButton size x y)
  | .mouseMove t size x y => w.onSlider t (.mouseMove size x y)
  | .mouseRelease t leftButton => w.onSlider t (.mouseRelease leftButton)
  | .timeout t =>
    match w.timer with
    | none => (w, ⟨[], none⟩)
    | some due =>
      if due ≤ t then
        let (w, applied) := applyPendingReplayRange r { w with timer := none }
        (w, ⟨[], applied⟩)
      else (w, ⟨[], none⟩)

/-- The window over the replayed log `r`. -/
def controls (r : Replay δ) : Machine (ReplayWindow δ) ControlEvent ControlOut ℚ where
  step := handle r
  enter := ControlEvent.t
  leave := ControlEvent.t

end

abbrev Entry (δ : Type*) := Machine.Step (ReplayWindow δ) ControlEvent ControlOut

/-- When the slider has told of a change, if it has. -/
def changeTime (k : Entry δ) : Option ℚ := if k.out.changed = [] then none else some k.event.t

/-- When the slider has last told of a change, or else when the controls were built. -/
def lastChange (t₀ : ℚ) (h : List (Entry δ)) : ℚ := (Past.latest changeTime h).getD t₀

/-- The view shows what the slider selects. -/
structure Shows (r : Replay δ) (w : ReplayWindow δ) : Prop where
  windowSec : w.windowSec = ((w.slider.high - w.slider.low : ℤ) : ℚ) / 1000
  log : r.replayEnabled = true → r.replayTimes ≠ [] →
    w.currentReplayTime = r.clampedEnd (w.slider.low / 1000) (w.slider.high / 1000) ∧
      w.shown = r.applyReplayRange (w.slider.low / 1000) (w.slider.high / 1000)
  records : r.replayEnabled = true → r.replayTimes ≠ [] → r.SelectsRange →
    w.shown = r.replayRecords.filter fun x =>
      r.warmupStart (w.slider.low / 1000) (w.slider.high / 1000) ≤ x.replayT ∧
        x.replayT ≤ r.clampedEnd (w.slider.low / 1000) (w.slider.high / 1000)

/-- The newest step has applied what the slider selects, which has not changed for a while. -/
def AppliesSettled (r : Replay δ) (k : Entry δ) (before : List (Entry δ)) : Prop :=
  ∀ range ∈ k.out.applied,
    range = ((k.post.slider.low : ℚ) / 1000, (k.post.slider.high : ℚ) / 1000) ∧
      0 ≤ range.1 ∧ range.1 < range.2 ∧ range.2 ≤ (durationMs r : ℚ) / 1000 ∧
      ∀ k' ∈ before, k'.out.changed ≠ [] → k'.event.t + replayApplySec ≤ k.event.t

/-- What holds in a run from `t₀` on with the history `h` that has arrived at `w`. -/
structure FollowsSlider (r : Replay δ) (t₀ : ℚ) (h : List (Entry δ)) (w : ReplayWindow δ) :
    Prop where
  idle : w.timer = none → Shows r w
  pending : ∀ due ∈ w.timer, due = lastChange t₀ h + replayApplySec ∧
    w.pendingReplayRange = some (w.slider.low, w.slider.high)
  applies : Past.Always (Past.At (AppliesSettled r)) h

/-! ## The slider in the window -/

section Slider

open ManualRangeSlider

variable {s : ManualRangeSlider}

/-- What the slider tells of is what it selects, and it tells of every change. -/
def Tells (s s' : ManualRangeSlider) (emitted : List (ℤ × ℤ)) : Prop :=
  emitted = [(s'.low, s'.high)] ∨ emitted = [] ∧ s'.low = s.low ∧ s'.high = s.high

theorem tells_place (s : ManualRangeSlider) (v₀ v₁ : ℤ) :
    Tells s (s.place v₀ v₁ true).1 (s.place v₀ v₁ true).2.emitted := by
  have hemitted : (s.place v₀ v₁ true).2.emitted =
      if (s.place v₀ v₁ true).1.low ≠ s.low ∨ (s.place v₀ v₁ true).1.high ≠ s.high
      then [((s.place v₀ v₁ true).1.low, (s.place v₀ v₁ true).1.high)] else [] := by
    simp only [place, true_and]
  rw [Tells, hemitted]
  split
  · exact Or.inl rfl
  · rename_i hsame
    rw [not_or, not_not, not_not] at hsame
    exact Or.inr ⟨rfl, hsame⟩

/-- A mouse event. -/
def IsMouse : ManualRangeSlider.Event → Prop
  | .mousePress _ _ _ _ => True
  | .mouseMove _ _ _ => True
  | .mouseRelease _ => True
  | _ => False

/-- What a mouse event does. -/
structure MouseSpec (s s' : ManualRangeSlider) (out : ManualRangeSlider.Out) : Prop where
  minimum : s'.minimum = s.minimum
  maximum : s'.maximum = s.maximum
  raised : out.raised = false
  tells : Tells s s' out.emitted

theorem mouse_spec (s : ManualRangeSlider) {e : ManualRangeSlider.Event} (he : IsMouse e) :
    MouseSpec s (s.handle e).1 (s.handle e).2 := by
  cases e with
  | setRange => exact he.elim
  | setValue => exact he.elim
  | mousePress leftButton size x y =>
    cases leftButton <;> exact ⟨rfl, rfl, rfl, Or.inr ⟨rfl, rfl, rfl⟩⟩
  | mouseMove size x y =>
    unfold ManualRangeSlider.handle mouseMoveEvent
    dsimp only
    split
    · exact ⟨rfl, rfl, rfl, Or.inr ⟨rfl, rfl, rfl⟩⟩
    all_goals exact ⟨rfl, rfl, rfl, tells_place s _ _⟩
  | mouseRelease leftButton =>
    cases leftButton <;> exact ⟨rfl, rfl, rfl, Or.inr ⟨rfl, rfl, rfl⟩⟩

end Slider

/-! ## The invariant -/

theorem lastChange_cons_of_changed {t₀ : ℚ} {k : Entry δ} (hk : k.out.changed ≠ [])
    (h : List (Entry δ)) : lastChange t₀ (k :: h) = k.event.t := by
  have htime : changeTime k = some k.event.t := if_neg hk
  unfold lastChange
  rw [Past.latest_cons_of_some htime, Option.getD_some]

theorem lastChange_cons_of_unchanged {t₀ : ℚ} {k : Entry δ} (hk : k.out.changed = [])
    (h : List (Entry δ)) : lastChange t₀ (k :: h) = lastChange t₀ h := by
  have htime : changeTime k = none := if_pos hk
  unfold lastChange
  rw [Past.latest_cons_of_none htime]

/-- The window after the events of `h`. -/
structure Following (r : Replay δ) (t₀ : ℚ) (h : List (Entry δ)) (w : ReplayWindow δ) : Prop where
  minimum : w.slider.minimum = 0
  maximum : w.slider.maximum = durationMs r
  selected : w.slider.Selected
  idle : w.timer = none → w.pendingReplayRange = none ∧ Shows r w
  pending : ∀ due ∈ w.timer, w.pendingReplayRange = some (w.slider.low, w.slider.high)
  due : ∀ due ∈ w.timer, due = lastChange t₀ h + replayApplySec
  quiet : ∀ due ∈ w.timer, ∀ k ∈ h, k.out.changed ≠ [] → k.event.t + replayApplySec ≤ due

section Invariant

variable {r : Replay δ} {h : List (Entry δ)} {w : ReplayWindow δ} {t₀ t : ℚ}

theorem durationMs_pos (r : Replay δ) : 1 ≤ durationMs r := le_max_left _ _

theorem toInt_intCast (n : ℤ) : PyFloat.toInt (.num n) = some n := by
  show some (if (0 : ℝ) ≤ n then ⌊(n : ℝ)⌋ else ⌈(n : ℝ)⌉) = some n
  rw [Int.floor_intCast, Int.ceil_intCast, ite_self]

/-- The slider of the controls has the log for its bounds. -/
theorem setRange_durationMs (r : Replay δ) :
    ManualRangeSlider.construct.setRange (.num 0) (.num (durationMs r)) =
      ManualRangeSlider.place { ManualRangeSlider.construct with
        minimum := 0, maximum := durationMs r } 0 1000 false := by
  have hpos : (0 : ℝ) < durationMs r := by exact_mod_cast durationMs_pos r
  have hmin : PyFloat.pyMin (.num 0) (.num (durationMs r)) = .num ((0 : ℤ) : ℝ) := by
    rw [PyFloat.pyMin, if_neg (by simpa using hpos.le), Int.cast_zero]
  have hmax : PyFloat.pyMax (.num 0) (.num (durationMs r)) = .num (durationMs r) := by
    rw [PyFloat.pyMax, if_pos (by simpa using hpos)]
  unfold ManualRangeSlider.setRange
  rw [hmin, hmax, toInt_intCast, toInt_intCast]
  rfl

theorem setValue_intCast (s : ManualRangeSlider) (v₀ v₁ : ℤ) (emit : Bool) :
    s.setValue (.num v₀) (.num v₁) emit = s.place v₀ v₁ emit := by
  unfold ManualRangeSlider.setValue
  rw [toInt_intCast, toInt_intCast]

theorem following_construct (r : Replay δ) (t : ℚ) : Following r t [] (construct r t) := by
  have hle : (0 : ℤ) ≤ durationMs r := zero_le_one.trans (durationMs_pos r)
  unfold construct
  rw [setRange_durationMs]
  dsimp only
  rw [setValue_intCast]
  exact {
    minimum := rfl
    maximum := rfl
    selected := ManualRangeSlider.selected_place hle _ _ false
    idle := nofun
    pending := fun _ _ => rfl
    due := fun _ hdue => (Option.some.inj hdue).symm
    quiet := fun _ _ _ hk => nomatch hk }

/-- The window as its slider, and the signal, leave it. -/
theorem onSlider_eq (w : ReplayWindow δ) (t : ℚ) (e : ManualRangeSlider.Event) :
    w.onSlider t e =
      (((w.slider.handle e).2.emitted.foldl (fun w values => onReplayControlsChanged w t values)
        { w with slider := (w.slider.handle e).1 }), ⟨(w.slider.handle e).2.emitted, none⟩) := rfl

/-- A mouse event that changes nothing, or one that starts the timer anew. -/
theorem Following.onSlider {e : ManualRangeSlider.Event} {event : ControlEvent}
    (hw : Following r t₀ h w) (he : IsMouse e) (hlast : ∀ k ∈ h, k.event.t ≤ event.t) :
    Following r t₀ (⟨w, event, (w.onSlider event.t e).2, (w.onSlider event.t e).1⟩ :: h)
      (w.onSlider event.t e).1 := by
  obtain ⟨hmin, hmax, hraised, htells⟩ := mouse_spec w.slider he
  have hselected := hw.selected.handle hraised
  rw [onSlider_eq]
  generalize w.slider.handle e = result at *
  obtain ⟨slider, out⟩ := result
  dsimp only at *
  rcases htells with htells | ⟨htells, hlow, hhigh⟩
  · rw [htells]
    refine ⟨hmin.trans hw.minimum, hmax.trans hw.maximum, hselected, nofun, fun _ _ => rfl, ?_, ?_⟩
    · intro due hdue
      obtain rfl := Option.some.inj hdue
      rw [lastChange_cons_of_changed (List.cons_ne_nil _ _)]
    · intro due hdue k hk _
      obtain rfl := Option.some.inj hdue
      rcases List.mem_cons.mp hk with rfl | hk
      · exact le_rfl
      · linarith [hlast k hk]
  · rw [htells]
    refine ⟨hmin.trans hw.minimum, hmax.trans hw.maximum, hselected, ?_, ?_, ?_, ?_⟩
    · intro hidle
      obtain ⟨hpending, hsec, hlog, hrecords⟩ := hw.idle hidle
      refine ⟨hpending, ?_, ?_, ?_⟩
      · show w.windowSec = ((slider.high - slider.low : ℤ) : ℚ) / 1000
        rw [hlow, hhigh]
        exact hsec
      · show r.replayEnabled = true → r.replayTimes ≠ [] →
          w.currentReplayTime = r.clampedEnd (slider.low / 1000) (slider.high / 1000) ∧
            w.shown = r.applyReplayRange (slider.low / 1000) (slider.high / 1000)
        rw [hlow, hhigh]
        exact hlog
      · show r.replayEnabled = true → r.replayTimes ≠ [] → r.SelectsRange →
          w.shown = r.replayRecords.filter fun x =>
            r.warmupStart (slider.low / 1000) (slider.high / 1000) ≤ x.replayT ∧
              x.replayT ≤ r.clampedEnd (slider.low / 1000) (slider.high / 1000)
        rw [hlow, hhigh]
        exact hrecords
    · intro due hdue
      show w.pendingReplayRange = some (slider.low, slider.high)
      rw [hlow, hhigh]
      exact hw.pending due hdue
    · intro due hdue
      rw [lastChange_cons_of_unchanged rfl]
      exact hw.due due hdue
    · intro due hdue k hk hchanged
      rcases List.mem_cons.mp hk with rfl | hk
      · exact absurd rfl hchanged
      · exact hw.quiet due hdue k hk hchanged

/-- An event that leaves the window as it was. -/
theorem Following.unchanged {event : ControlEvent} (hw : Following r t₀ h w) :
    Following r t₀ (⟨w, event, ⟨[], none⟩, w⟩ :: h) w where
  minimum := hw.minimum
  maximum := hw.maximum
  selected := hw.selected
  idle := hw.idle
  pending := hw.pending
  due due hdue := by
    rw [lastChange_cons_of_unchanged rfl]
    exact hw.due due hdue
  quiet due hdue k hk hchanged := by
    rcases List.mem_cons.mp hk with rfl | hk
    · exact absurd rfl hchanged
    · exact hw.quiet due hdue k hk hchanged

/-- What the slider selects, in seconds. -/
def sliderRange (w : ReplayWindow δ) : ℚ × ℚ :=
  ((w.slider.low : ℚ) / 1000, (w.slider.high : ℚ) / 1000)

/-- The window once the pending range is applied. -/
def applied (r : Replay δ) (w : ReplayWindow δ) : ReplayWindow δ :=
  applyReplayRange r { w with
    timer := none
    pendingReplayRange := none
    windowSec := max (1 / 1000) ((sliderRange w).2 - (sliderRange w).1) }
    (sliderRange w).1 (sliderRange w).2

/-- The timer is not due, or what the slider selects is applied. -/
theorem timeout_cases (hw : Following r t₀ h w) (t : ℚ) :
    handle r w (.timeout t) = (w, ⟨[], none⟩) ∨
      ∃ due, w.timer = some due ∧ due ≤ t ∧
        handle r w (.timeout t) = (applied r w, ⟨[], some (sliderRange w)⟩) := by
  cases htimer : w.timer with
  | none =>
    left
    unfold handle
    rw [htimer]
  | some due =>
    have hpending := hw.pending due htimer
    by_cases hdue : due ≤ t
    · right
      refine ⟨due, rfl, hdue, ?_⟩
      unfold handle applyPendingReplayRange
      rw [htimer]
      dsimp only
      rw [if_pos hdue, hpending]
      rfl
    · left
      unfold handle
      rw [htimer]
      exact if_neg hdue

theorem applied_slider (r : Replay δ) (w : ReplayWindow δ) : (applied r w).slider = w.slider := by
  unfold applied applyReplayRange
  split <;> rfl

theorem applied_timer (r : Replay δ) (w : ReplayWindow δ) :
    (applied r w).timer = none ∧ (applied r w).pendingReplayRange = none := by
  unfold applied applyReplayRange
  split <;> exact ⟨rfl, rfl⟩

/-- The handles are at least a millisecond apart. -/
theorem Following.low_lt_high (hw : Following r t₀ h w) : w.slider.low + 1 ≤ w.slider.high := by
  have hroom : ManualRangeSlider.minimumSpan ≤ w.slider.maximum - w.slider.minimum := by
    rw [hw.minimum, hw.maximum, sub_zero]
    exact durationMs_pos r
  have hspan : 1 ≤ w.slider.high - w.slider.low := hw.selected.span_le hroom
  omega

theorem Following.shows_applied (hw : Following r t₀ h w) : Shows r (applied r w) where
  windowSec := by
    have hsec : (applied r w).windowSec =
        max (1 / 1000) ((sliderRange w).2 - (sliderRange w).1) := by
      unfold applied applyReplayRange
      split <;> rfl
    have hspan : (w.slider.low : ℚ) + 1 ≤ w.slider.high := by exact_mod_cast hw.low_lt_high
    rw [hsec, applied_slider, max_eq_right]
    · push_cast
      show (w.slider.high : ℚ) / 1000 - w.slider.low / 1000 = _
      ring
    · show _ ≤ (w.slider.high : ℚ) / 1000 - w.slider.low / 1000
      linarith
  log henabled htimes := by
    have hgo : ¬ (r.replayEnabled = false ∨ r.replayTimes = []) := by simp [henabled, htimes]
    rw [applied_slider]
    unfold applied applyReplayRange
    rw [if_neg hgo]
    exact ⟨rfl, rfl⟩
  records henabled htimes hselects := by
    have hgo : ¬ (r.replayEnabled = false ∨ r.replayTimes = []) := by simp [henabled, htimes]
    rw [applied_slider, ← hselects.range]
    unfold applied applyReplayRange
    rw [if_neg hgo]
    rfl

theorem Following.timeout (hw : Following r t₀ h w) (t : ℚ) :
    Following r t₀ (⟨w, .timeout t, (handle r w (.timeout t)).2, (handle r w (.timeout t)).1⟩ :: h)
      (handle r w (.timeout t)).1 := by
  rcases timeout_cases hw t with heq | ⟨due, htimer, hdue, heq⟩
  · rw [heq]
    exact hw.unchanged
  · obtain ⟨hnone, hpending⟩ := applied_timer r w
    rw [heq]
    refine ⟨?_, ?_, ?_, fun _ => ⟨hpending, hw.shows_applied⟩, ?_, ?_, ?_⟩
    · exact (congrArg _ (applied_slider r w)).trans hw.minimum
    · exact (congrArg _ (applied_slider r w)).trans hw.maximum
    · rw [applied_slider]
      exact hw.selected
    · rw [hnone]
      nofun
    · rw [hnone]
      nofun
    · rw [hnone]
      nofun

/-- Every event keeps the invariant. -/
theorem Following.step (hw : Following r t₀ h w) (e : ControlEvent)
    (hlast : ∀ k ∈ h, k.event.t ≤ e.t) :
    Following r t₀ ((controls r).record w e :: h) ((controls r).step w e).1 := by
  cases e with
  | mousePress t leftButton size x y =>
    exact hw.onSlider (e := .mousePress leftButton size x y) trivial hlast
  | mouseMove t size x y => exact hw.onSlider (e := .mouseMove size x y) trivial hlast
  | mouseRelease t leftButton => exact hw.onSlider (e := .mouseRelease leftButton) trivial hlast
  | timeout t => exact hw.timeout t

/-- A range that is applied. -/
theorem Following.applies (hw : Following r t₀ h w) (e : ControlEvent) :
    AppliesSettled r ((controls r).record w e) h := by
  intro range hrange
  cases e with
  | mousePress => cases hrange
  | mouseMove => cases hrange
  | mouseRelease => cases hrange
  | timeout t =>
    have hout : (handle r w (.timeout t)).2.applied = some range := hrange
    rcases timeout_cases hw t with heq | ⟨due, htimer, hdue, heq⟩
    · rw [heq] at hout
      cases hout
    · rw [heq] at hout
      obtain rfl := Option.some.inj hout
      have hpost : ((controls r).record w (.timeout t)).post = applied r w :=
        congrArg Prod.fst heq
      rw [hpost, applied_slider]
      have hspan : (w.slider.low : ℚ) + 1 ≤ w.slider.high := by exact_mod_cast hw.low_lt_high
      have hlow : (0 : ℚ) ≤ w.slider.low := by
        have hmin := hw.selected.minimum_le
        rw [hw.minimum] at hmin
        exact_mod_cast hmin
      have hhigh : (w.slider.high : ℚ) ≤ durationMs r := by
        have hmax := hw.selected.le_maximum
        rw [hw.maximum] at hmax
        exact_mod_cast hmax
      refine ⟨rfl, ?_, ?_, ?_, fun k' hk' hchanged => ?_⟩
      · exact div_nonneg hlow (by norm_num)
      · show (w.slider.low : ℚ) / 1000 < w.slider.high / 1000
        linarith
      · show (w.slider.high : ℚ) / 1000 ≤ durationMs r / 1000
        linarith
      · exact (hw.quiet due htimer k' hk' hchanged).trans hdue

/-- Whatever the mouse does, and whenever the timer fires once it is due. -/
theorem view_follows_slider {r : Replay δ} {t₀ t : ℚ} {h : List (Entry δ)} {w : ReplayWindow δ}
    (hr : Machine.Run (controls r) (construct r t₀) t₀ h w t) : FollowsSlider r t₀ h w := by
  have hall : Following r t₀ h w ∧ Past.Always (Past.At (AppliesSettled r)) h := by
    refine hr.invariant (P := fun h w _ => Following r t₀ h w ∧
      Past.Always (Past.At (AppliesSettled r)) h) ⟨following_construct r t₀, trivial⟩ ?_
    rintro h w t e hprev ⟨hw, happlies⟩ ht -
    have hlast : ∀ k ∈ h, k.event.t ≤ e.t := fun k hk => (hprev.event_times hk).2.2.trans ht
    exact ⟨hw.step e hlast, hw.applies e, happlies⟩
  exact ⟨fun hidle => (hall.1.idle hidle).2,
    fun due hdue => ⟨hall.1.due due hdue, hall.1.pending due hdue⟩, hall.2⟩

end Invariant

/-! ## A log that is opened -/

/-- A log of twelve seconds. -/
def shortLog : Replay Unit where
  replayEnabled := true
  optiDelayAvg := 1
  optiRateWindow := 1
  replayRecords := [⟨⟨none, some 5, none, ()⟩, 0⟩, ⟨⟨none, some 17, none, ()⟩, 12⟩]
  replayTimes := [0, 12]
  replayDuration := 12

theorem timer_applyPendingReplayRange {r : Replay δ} (w : ReplayWindow δ) :
    (applyPendingReplayRange r w).1.timer = w.timer := by
  unfold applyPendingReplayRange applyReplayRange
  split
  · rfl
  · dsimp only
    split <;> rfl

/-- The last ten seconds are shown once the timer has fired. -/
theorem view_follows_slider_shortLog :
    FollowsSlider shortLog 0 ((controls shortLog).trace (construct shortLog 0) [.timeout 1] [])
        ((controls shortLog).final (construct shortLog 0) [.timeout 1]) ∧
      ((controls shortLog).final (construct shortLog 0) [.timeout 1]).timer = none := by
  obtain ⟨t, hr⟩ := Machine.run_final (M := controls shortLog) (construct shortLog 0) 0
    [.timeout 1] ⟨zero_le_one, le_rfl, trivial⟩
  refine ⟨view_follows_slider hr, ?_⟩
  have htimer : (construct shortLog 0).timer = some (0 + replayApplySec) := rfl
  have hdue : 0 + replayApplySec ≤ 1 := by norm_num [replayApplySec]
  show (handle shortLog (construct shortLog 0) (.timeout 1)).1.timer = none
  unfold handle
  rw [htimer]
  dsimp only
  rw [if_pos hdue]
  exact timer_applyPendingReplayRange _

end ReplayWindow

end Viewer

end Hummingbird
