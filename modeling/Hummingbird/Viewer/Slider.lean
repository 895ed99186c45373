/-
  `ManualRangeSlider` of `px4_multirotor_viewer.py`.

  The bounds and values are integers; what is passed to `setRange` and `setValue` are numbers, which
  `int` converts or raises for. Positions are computed in exact rationals. A run is any sequence of
  calls and mouse events in which nothing raises (PyQt ends the program otherwise); the size of the
  widget comes with every mouse event, since it may change at any time.

  `Selected` is the invariant, which `setValue` establishes whatever it is given
  (`selected_place`); `slider_selects` is what holds in every run.
-/
import Mathlib.Algebra.Order.Floor.Semiring
import Mathlib.Data.Rat.Floor
import Hummingbird.Library.Machine
import Hummingbird.Viewer.Float

namespace Hummingbird

namespace Viewer

/-! ## The widget -/

inductive DragMode
  | low
  | high
  | range
  deriving DecidableEq

structure ManualRangeSlider where
  minimum : ℤ
  maximum : ℤ
  low : ℤ
  high : ℤ
  dragMode : Option DragMode
  pressX : ℤ
  pressLow : ℤ
  pressHigh : ℤ

/-- `QRect`, by its inclusive edges. -/
structure Rect where
  left : ℤ
  top : ℤ
  right : ℤ
  bottom : ℤ

namespace Rect

/-- `QRect(x, y, width, height)`. -/
def ofSize (x y width height : ℤ) : Rect := ⟨x, y, x + width - 1, y + height - 1⟩

def adjusted (r : Rect) (dx1 dy1 dx2 dy2 : ℤ) : Rect :=
  ⟨r.left + dx1, r.top + dy1, r.right + dx2, r.bottom + dy2⟩

/-- `contains`, for a rectangle of positive size. -/
def contains (r : Rect) (x y : ℤ) : Bool :=
  r.left ≤ x && x ≤ r.right && r.top ≤ y && y ≤ r.bottom

end Rect

/-- The current size of the widget. -/
structure WidgetSize where
  width : ℤ
  height : ℤ

/-- `round` of Python: to the nearest integer, and to the even one of two. -/
def pyRound (q : ℚ) : ℤ := Rounding.toEven q

namespace ManualRangeSlider

def minimumSpan : ℤ := 1
def padding : ℤ := 10
def handleWidth : ℤ := 12

/-- `ManualRangeSlider()`. -/
def construct : ManualRangeSlider where
  minimum := 0
  maximum := 1000
  low := 0
  high := 1000
  dragMode := none
  pressX := 0
  pressLow := 0
  pressHigh := 0

/-- What a call puts out: the values emitted by `valueChanged`, and whether it raises. -/
structure Out where
  emitted : List (ℤ × ℤ)
  raised : Bool

/-- `setValue` once its values are integers. -/
def place (s : ManualRangeSlider) (v₀ v₁ : ℤ) (emit : Bool) : ManualRangeSlider × Out :=
  let low := max s.minimum (min (min v₀ v₁) s.maximum)
  let high := max s.minimum (min (max v₀ v₁) s.maximum)
  let high' := if high - low < minimumSpan then min s.maximum (low + minimumSpan) else high
  let low' := if high - low < minimumSpan then max s.minimum (high' - minimumSpan) else low
  let changed := low' ≠ s.low ∨ high' ≠ s.high
  ({ s with low := low', high := high' },
    ⟨if emit = true ∧ changed then [(low', high')] else [], false⟩)

noncomputable section

def setValue (s : ManualRangeSlider) (v₀ v₁ : PyFloat) (emit : Bool) : ManualRangeSlider × Out :=
  match v₀.toInt, v₁.toInt with
  | some v₀, some v₁ => s.place v₀ v₁ emit
  | _, _ => (s, ⟨[], true⟩)

def setRange (s : ManualRangeSlider) (minimum maximum : PyFloat) : ManualRangeSlider × Out :=
  match (PyFloat.pyMin minimum maximum).toInt with
  | none => (s, ⟨[], true⟩)
  | some lo =>
    match (PyFloat.pyMax minimum maximum).toInt with
    | none => ({ s with minimum := lo }, ⟨[], true⟩)
    | some hi => place { s with minimum := lo, maximum := hi } s.low s.high false

end

/-! ## The mouse -/

/-- `_track_width`. -/
def trackWidth (size : WidgetSize) : ℤ := max 1 (size.width - 2 * padding)

/-- `_x_from_value`. -/
def xFromValue (s : ManualRangeSlider) (size : WidgetSize) (value : ℤ) : ℤ :=
  let span := s.maximum - s.minimum
  let ratio : ℚ := if span ≤ 0 then 0 else (value - s.minimum : ℤ) / (span : ℚ)
  pyRound (padding + ratio * trackWidth size)

/-- `_value_from_x`. -/
def valueFromX (s : ManualRangeSlider) (size : WidgetSize) (x : ℤ) : ℤ :=
  let inside := max padding (min x (padding + trackWidth size))
  let ratio : ℚ := (inside - padding : ℤ) / (trackWidth size : ℚ)
  pyRound (s.minimum + ratio * (s.maximum - s.minimum : ℤ))

/-- The selected range and the two handles of `_geometry`. -/
def geometry (s : ManualRangeSlider) (size : WidgetSize) : Rect × Rect × Rect :=
  let centerY := size.height / 2
  let lowX := s.xFromValue size s.low
  let highX := s.xFromValue size s.high
  (.ofSize lowX (centerY - 4) (max 1 (highX - lowX)) 8,
    .ofSize (lowX - handleWidth / 2) (centerY - 9) handleWidth 18,
    .ofSize (highX - handleWidth / 2) (centerY - 9) handleWidth 18)

/-- The mode in which `mousePressEvent` starts to drag. -/
def pressMode (s : ManualRangeSlider) (size : WidgetSize) (x y : ℤ) : DragMode :=
  let (selected, lowHandle, highHandle) := s.geometry size
  if (lowHandle.adjusted (-8) (-5) 8 5).contains x y then .low
  else if (highHandle.adjusted (-8) (-5) 8 5).contains x y then .high
  else if selected.contains x y then .range
  else if |x - s.xFromValue size s.low| ≤ |x - s.xFromValue size s.high| then .low
  else .high

/-- `mousePressEvent`. -/
def mousePressEvent (s : ManualRangeSlider) (leftButton : Bool) (size : WidgetSize) (x y : ℤ) :
    ManualRangeSlider :=
  if leftButton then
    { s with
      dragMode := some (s.pressMode size x y)
      pressX := x
      pressLow := s.low
      pressHigh := s.high }
  else s

/-- `mouseMoveEvent`. -/
def mouseMoveEvent (s : ManualRangeSlider) (size : WidgetSize) (x : ℤ) : ManualRangeSlider × Out :=
  match s.dragMode with
  | none => (s, ⟨[], false⟩)
  | some .low => s.place (min (s.valueFromX size x) (s.high - minimumSpan)) s.high true
  | some .high => s.place s.low (max (s.valueFromX size x) (s.low + minimumSpan)) true
  | some .range =>
    let delta := s.valueFromX size x - s.valueFromX size s.pressX
    let span := s.pressHigh - s.pressLow
    let low := max s.minimum (min (s.pressLow + delta) (s.maximum - span))
    s.place low (low + span) true

/-- `mouseReleaseEvent`. -/
def mouseReleaseEvent (s : ManualRangeSlider) (leftButton : Bool) : ManualRangeSlider :=
  if leftButton then { s with dragMode := none } else s

/-! ## Runs -/

inductive Event
  | setRange (minimum maximum : PyFloat)
  | setValue (low high : PyFloat) (emit : Bool)
  | mousePress (leftButton : Bool) (size : WidgetSize) (x y : ℤ)
  | mouseMove (size : WidgetSize) (x y : ℤ)
  | mouseRelease (leftButton : Bool)

noncomputable def handle (s : ManualRangeSlider) : Event → ManualRangeSlider × Out
  | .setRange minimum maximum => s.setRange minimum maximum
  | .setValue low high emit => s.setValue low high emit
  | .mousePress leftButton size x y => (s.mousePressEvent leftButton size x y, ⟨[], false⟩)
  | .mouseMove size x _ => s.mouseMoveEvent size x
  | .mouseRelease leftButton => (s.mouseReleaseEvent leftButton, ⟨[], false⟩)

/-- The widget as a machine; nothing orders its events but the run. -/
noncomputable def slider : Machine ManualRangeSlider Event Out Unit where
  step := handle
  enter _ := ()
  leave _ := ()

abbrev Entry := Machine.Step ManualRangeSlider Event Out

/-- The widget has handled the events of `h`, newest first, and none of them raised. -/
structure IsRun (h : List Entry) (s : ManualRangeSlider) : Prop where
  run : Machine.Run slider construct () h s ()
  completed : ∀ k ∈ h, k.out.raised = false

/-- The handles are in the bounds, in order, and the minimum span apart if there is room. -/
structure Selected (s : ManualRangeSlider) : Prop where
  minimum_le : s.minimum ≤ s.low
  low_le : s.low ≤ s.high
  le_maximum : s.high ≤ s.maximum
  span_le : minimumSpan ≤ s.maximum - s.minimum → minimumSpan ≤ s.high - s.low

/-- A press of the left button. -/
def Event.IsPress : Event → Prop
  | mousePress leftButton _ _ _ => leftButton = true
  | _ => False

/-- The mouse moves while the selected range is dragged. -/
def DragsRange (k : Entry) : Prop :=
  (∃ size x y, k.event = .mouseMove size x y) ∧ k.pre.dragMode = some .range

/-- What holds in a run with the history `h`. -/
structure Selects (h : List Entry) : Prop where
  selected : ∀ k ∈ h, Selected k.post
  dragged : ∀ a k b p c, h = a ++ k :: b ++ p :: c → DragsRange k → p.event.IsPress →
    (∀ j ∈ b, ¬ j.event.IsPress) →
    k.pre.minimum = p.pre.minimum → k.pre.maximum = p.pre.maximum →
    k.post.high - k.post.low = p.pre.high - p.pre.low
  emitted : ∀ k ∈ h, ∀ v ∈ k.out.emitted,
    v = (k.post.low, k.post.high) ∧ v ≠ (k.pre.low, k.pre.high)

/-! ## One call -/

section Step

variable {s : ManualRangeSlider}

theorem place_bounds (s : ManualRangeSlider) (v₀ v₁ : ℤ) (emit : Bool) :
    (s.place v₀ v₁ emit).1.minimum = s.minimum ∧ (s.place v₀ v₁ emit).1.maximum = s.maximum ∧
      (s.place v₀ v₁ emit).1.pressLow = s.pressLow ∧
      (s.place v₀ v₁ emit).1.pressHigh = s.pressHigh := ⟨rfl, rfl, rfl, rfl⟩

/-- Whatever the values are. -/
theorem selected_place (h : s.minimum ≤ s.maximum) (v₀ v₁ : ℤ) (emit : Bool) :
    Selected (s.place v₀ v₁ emit).1 := by
  have hmin : minimumSpan = 1 := rfl
  refine ⟨?_, ?_, ?_, ?_⟩ <;> simp only [place, hmin] <;> split <;> omega

/-- Values that are selected already stay as they are. -/
theorem place_of_selected {v₀ v₁ : ℤ} {emit : Bool}
    (h : Selected { s with low := v₀, high := v₁ }) :
    (s.place v₀ v₁ emit).1.low = v₀ ∧ (s.place v₀ v₁ emit).1.high = v₁ := by
  have hmin : minimumSpan = 1 := rfl
  obtain ⟨hlo, hle, hhi, hspan⟩ := h
  simp only [hmin] at hlo hle hhi hspan
  simp only [place, hmin]
  constructor
  · split <;> omega
  · split <;> omega

theorem place_emitted {v₀ v₁ : ℤ} {emit : Bool} {v : ℤ × ℤ}
    (hv : v ∈ (s.place v₀ v₁ emit).2.emitted) :
    v = ((s.place v₀ v₁ emit).1.low, (s.place v₀ v₁ emit).1.high) ∧ v ≠ (s.low, s.high) := by
  have hemitted : (s.place v₀ v₁ emit).2.emitted =
      if emit = true ∧ ((s.place v₀ v₁ emit).1.low ≠ s.low ∨ (s.place v₀ v₁ emit).1.high ≠ s.high)
      then [((s.place v₀ v₁ emit).1.low, (s.place v₀ v₁ emit).1.high)] else [] := rfl
  rw [hemitted] at hv
  split at hv
  · rename_i hchanged
    obtain rfl := List.mem_singleton.mp hv
    refine ⟨rfl, fun heq => ?_⟩
    obtain ⟨hlow, hhigh⟩ := Prod.mk.inj heq
    rcases hchanged.2 with hne | hne
    · exact hne hlow
    · exact hne hhigh
  · cases hv

/-- What an event that does not raise does: it places two values between bounds that are in order,
    or leaves bounds and values alone and emits nothing. -/
theorem handle_cases {e : Event} (hle : s.minimum ≤ s.maximum)
    (hok : (s.handle e).2.raised = false) :
    (∃ s' v₀ v₁ emit, s.handle e = place s' v₀ v₁ emit ∧ s'.low = s.low ∧ s'.high = s.high ∧
      s'.minimum ≤ s'.maximum ∧ s'.pressLow = s.pressLow ∧ s'.pressHigh = s.pressHigh ∧
      ¬ e.IsPress) ∨
    ((s.handle e).1.minimum = s.minimum ∧ (s.handle e).1.maximum = s.maximum ∧
      (s.handle e).1.low = s.low ∧ (s.handle e).1.high = s.high ∧
      (s.handle e).2.emitted = [] ∧
      (e.IsPress ∧ (s.handle e).1.pressLow = s.low ∧ (s.handle e).1.pressHigh = s.high ∨
        ¬ e.IsPress ∧ (s.handle e).1.pressLow = s.pressLow ∧
          (s.handle e).1.pressHigh = s.pressHigh)) := by
  cases e with
  | setRange minimum maximum =>
    left
    unfold handle setRange at *
    dsimp only at *
    split at hok
    · cases hok
    · rename_i lo hlo
      split at hok
      · cases hok
      · rename_i hi hhi
        exact ⟨_, _, _, _, rfl, rfl, rfl, PyFloat.toInt_pyMin_le hlo hhi, rfl, rfl, id⟩
  | setValue v₀ v₁ emit =>
    left
    unfold handle setValue at *
    dsimp only at *
    split at hok
    · exact ⟨_, _, _, _, rfl, rfl, rfl, hle, rfl, rfl, id⟩
    · cases hok
  | mousePress leftButton size x y =>
    right
    cases leftButton with
    | true => exact ⟨rfl, rfl, rfl, rfl, rfl, Or.inl ⟨rfl, rfl, rfl⟩⟩
    | false => exact ⟨rfl, rfl, rfl, rfl, rfl, Or.inr ⟨Bool.false_ne_true, rfl, rfl⟩⟩
  | mouseMove size x y =>
    unfold handle mouseMoveEvent
    dsimp only
    split
    · right
      exact ⟨rfl, rfl, rfl, rfl, rfl, Or.inr ⟨id, rfl, rfl⟩⟩
    all_goals
      left
      exact ⟨_, _, _, _, rfl, rfl, rfl, hle, rfl, rfl, id⟩
  | mouseRelease leftButton =>
    right
    cases leftButton with
    | true => exact ⟨rfl, rfl, rfl, rfl, rfl, Or.inr ⟨id, rfl, rfl⟩⟩
    | false => exact ⟨rfl, rfl, rfl, rfl, rfl, Or.inr ⟨id, rfl, rfl⟩⟩

/-- A drag of a range that fits the bounds keeps its width. -/
theorem move_range {size : WidgetSize} {x y : ℤ} (hmode : s.dragMode = some .range)
    (h : Selected { s with low := s.pressLow, high := s.pressHigh }) :
    (s.handle (.mouseMove size x y)).1.high - (s.handle (.mouseMove size x y)).1.low =
      s.pressHigh - s.pressLow := by
  obtain ⟨hlo, hle, hhi, hspan⟩ := h
  dsimp only at hlo hle hhi hspan
  have hhandle : s.handle (.mouseMove size x y) = s.mouseMoveEvent size x := rfl
  rw [hhandle, mouseMoveEvent, hmode]
  dsimp only
  generalize s.valueFromX size x - s.valueFromX size s.pressX = delta
  obtain ⟨v, hv⟩ : ∃ v, v = max s.minimum (min (s.pressLow + delta)
      (s.maximum - (s.pressHigh - s.pressLow))) := ⟨_, rfl⟩
  rw [← hv]
  have hselected : Selected { s with low := v, high := v + (s.pressHigh - s.pressLow) } := by
    refine ⟨?_, ?_, ?_, ?_⟩
    · dsimp only
      omega
    · dsimp only
      omega
    · dsimp only
      omega
    · dsimp only
      intro hroom
      have := hspan hroom
      omega
  obtain ⟨hlow, hhigh⟩ : (s.place v (v + (s.pressHigh - s.pressLow)) true).1.low = v ∧
      (s.place v (v + (s.pressHigh - s.pressLow)) true).1.high = v + (s.pressHigh - s.pressLow) :=
    place_of_selected hselected
  rw [hlow, hhigh, add_sub_cancel_left]

end Step

/-! ## Runs keep it -/

theorem selected_construct : Selected construct :=
  ⟨by decide, by decide, by decide, fun _ => by decide⟩

theorem Selected.handle {s : ManualRangeSlider} (h : Selected s) {e : Event}
    (hok : (s.handle e).2.raised = false) : Selected (s.handle e).1 := by
  have hle : s.minimum ≤ s.maximum := h.minimum_le.trans (h.low_le.trans h.le_maximum)
  rcases handle_cases hle hok with ⟨s', v₀, v₁, emit, heq, -, -, hle', -⟩ |
    ⟨hmin, hmax, hlow, hhigh, -⟩
  · rw [heq]
    exact selected_place hle' v₀ v₁ emit
  · obtain ⟨hlo, hlh, hhi, hspan⟩ := h
    rw [← hmin, ← hlow] at hlo
    rw [← hlow, ← hhigh] at hlh
    rw [← hmax, ← hhigh] at hhi
    rw [← hmin, ← hmax, ← hlow, ← hhigh] at hspan
    exact ⟨hlo, hlh, hhi, hspan⟩

theorem IsRun.selected {h : List Entry} {s : ManualRangeSlider} (hr : IsRun h s) : Selected s := by
  obtain ⟨hrun, hok⟩ := hr
  induction h generalizing s with
  | nil =>
    cases hrun
    exact selected_construct
  | cons k h ih =>
    obtain ⟨t, hprev, -, -, hout, hpost, rfl, -⟩ := hrun.newest
    have hraised := hok k List.mem_cons_self
    rw [hout] at hraised
    rw [hpost]
    exact (ih hprev fun j hj => hok j (List.mem_cons_of_mem k hj)).handle hraised

/-- Every part of a run is one. -/
theorem IsRun.of_append {a b : List Entry} {s : ManualRangeSlider} (hr : IsRun (a ++ b) s) :
    ∃ s', IsRun b s' := by
  obtain ⟨s', t, hrun, -⟩ := hr.run.of_append
  exact ⟨s', hrun, fun k hk => hr.completed k (List.mem_append_right a hk)⟩

/-- The newest step of a run. -/
theorem IsRun.newest {k : Entry} {h : List Entry} {s : ManualRangeSlider} (hr : IsRun (k :: h) s) :
    IsRun h k.pre ∧ k.post = (k.pre.handle k.event).1 ∧ k.out = (k.pre.handle k.event).2 ∧
      (k.pre.handle k.event).2.raised = false ∧ s = k.post := by
  obtain ⟨t, hprev, -, -, hout, hpost, hs, -⟩ := hr.run.newest
  have hraised := hr.completed k List.mem_cons_self
  rw [hout] at hraised
  exact ⟨⟨hprev, fun j hj => hr.completed j (List.mem_cons_of_mem k hj)⟩, hpost, hout, hraised, hs⟩

theorem IsRun.minimum_le_maximum {h : List Entry} {s : ManualRangeSlider} (hr : IsRun h s) :
    s.minimum ≤ s.maximum :=
  hr.selected.minimum_le.trans (hr.selected.low_le.trans hr.selected.le_maximum)

/-- The values at the newest press are remembered. -/
theorem IsRun.pressed {b c : List Entry} {p : Entry} {s : ManualRangeSlider}
    (hr : IsRun (b ++ p :: c) s) (hp : p.event.IsPress) (hb : ∀ j ∈ b, ¬ j.event.IsPress) :
    s.pressLow = p.pre.low ∧ s.pressHigh = p.pre.high := by
  induction b generalizing s with
  | nil =>
    obtain ⟨hprev, hpost, -, hok, rfl⟩ := hr.newest
    rcases handle_cases hprev.minimum_le_maximum hok with
      ⟨s', v₀, v₁, emit, -, -, -, -, -, -, hnot⟩ | ⟨-, -, -, -, -, ⟨-, hlow, hhigh⟩ | ⟨hnot, -⟩⟩
    · exact absurd hp hnot
    · rw [hpost]
      exact ⟨hlow, hhigh⟩
    · exact absurd hp hnot
  | cons j b ih =>
    obtain ⟨hprev, hpost, -, hok, rfl⟩ := hr.newest
    obtain ⟨hlow, hhigh⟩ := ih hprev fun i hi => hb i (List.mem_cons_of_mem j hi)
    rw [hpost, ← hlow, ← hhigh]
    rcases handle_cases hprev.minimum_le_maximum hok with
      ⟨s', v₀, v₁, emit, heq, -, -, -, hl, hh, -⟩ | ⟨-, -, -, -, -, ⟨hpress, -⟩ | ⟨-, hl, hh⟩⟩
    · obtain ⟨-, -, hl', hh'⟩ := place_bounds s' v₀ v₁ emit
      rw [heq, hl', hh']
      exact ⟨hl, hh⟩
    · exact absurd hpress (hb j List.mem_cons_self)
    · exact ⟨hl, hh⟩

/-- What holds in every run. -/
theorem slider_selects {h : List Entry} {s : ManualRangeSlider} (hr : IsRun h s) : Selects h where
  selected := by
    intro k hk
    obtain ⟨a, b, rfl⟩ := List.append_of_mem hk
    obtain ⟨s', hr'⟩ := hr.of_append
    obtain ⟨-, -, -, -, hs⟩ := hr'.newest
    exact hs ▸ hr'.selected
  dragged := by
    rintro a k b p c rfl ⟨⟨size, x, y, hmove⟩, hmode⟩ hp hb hmin hmax
    rw [List.append_assoc, List.cons_append] at hr
    obtain ⟨s', hr'⟩ := hr.of_append
    obtain ⟨hprev, hpost, -, -, -⟩ := hr'.newest
    obtain ⟨hlow, hhigh⟩ := hprev.pressed hp hb
    obtain ⟨s'', hr''⟩ := hprev.of_append
    -- at the press the range was between the same bounds
    have hfits : Selected { k.pre with low := k.pre.pressLow, high := k.pre.pressHigh } := by
      obtain ⟨hlo, hlh, hhi, hspan⟩ := hr''.newest.1.selected
      rw [← hmin, ← hlow] at hlo
      rw [← hlow, ← hhigh] at hlh
      rw [← hmax, ← hhigh] at hhi
      rw [← hmin, ← hmax, ← hlow, ← hhigh] at hspan
      exact ⟨hlo, hlh, hhi, hspan⟩
    rw [hpost, hmove, move_range hmode hfits, hlow, hhigh]
  emitted := by
    intro k hk v hv
    obtain ⟨a, b, rfl⟩ := List.append_of_mem hk
    obtain ⟨s', hr'⟩ := hr.of_append
    obtain ⟨hprev, hpost, hout, hok, -⟩ := hr'.newest
    rw [hout] at hv
    rw [hpost]
    rcases handle_cases hprev.minimum_le_maximum hok with
      ⟨s', v₀, v₁, emit, heq, hlow, hhigh, -⟩ | ⟨-, -, -, -, hnone, -⟩
    · rw [heq] at hv ⊢
      rw [← hlow, ← hhigh]
      exact place_emitted hv
    · rw [hnone] at hv
      cases hv

/-- The high handle is dragged to 600, then the range by 90. -/
def drags : List Event :=
  [.mousePress true ⟨1020, 26⟩ 1010 13, .mouseMove ⟨1020, 26⟩ 610 13, .mouseRelease true,
    .mousePress true ⟨1020, 26⟩ 310 13, .mouseMove ⟨1020, 26⟩ 400 13]

theorem drags_isRun : IsRun (slider.trace construct drags []) (slider.final construct drags) where
  run := by
    obtain ⟨t, hr⟩ := Machine.run_final (M := slider) construct () drags
      ⟨trivial, trivial, trivial, trivial, trivial, trivial, trivial, trivial, trivial, trivial,
        trivial⟩
    exact hr
  completed := by decide +kernel

theorem slider_selects_drags : Selects (slider.trace construct drags []) ∧
    (slider.final construct drags).low = 90 ∧ (slider.final construct drags).high = 690 :=
  ⟨slider_selects drags_isRun, by decide +kernel, by decide +kernel⟩

end ManualRangeSlider

end Viewer

end Hummingbird
