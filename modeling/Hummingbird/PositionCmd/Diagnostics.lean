/-
  The input diagnostics of `Px4PositionCommand`.

  Every subscription notes the gap since its last message before it stores the message, a second
  timer (`check_inputs`, every 100 ms) looks for inputs that are silent for too long, and the
  control timer notes gaps between its own ticks. `Diagnosed` is the node with the members that
  only these read: the four `..._missing_` flags and `last_control_tick_time_`. Of the log lines
  the model keeps those about times; the lines about what a message contains, the throttled ones
  and those of the control modes are left out.

  A subscription reads the clock in `note_input` (`noted`) and again when it stores the arrival
  time (`now`); `check_inputs` reads it once for each input.
-/
import Hummingbird.PositionCmd.Run

namespace Hummingbird

namespace Px4PositionCommand

/-- The inputs that the node watches. -/
inductive Input
  | controllerMode
  | localPosition
  | vehicleAttitude
  | vehicleStatus
  deriving DecidableEq

namespace Input

def topic : Input → String
  | controllerMode => "/fmu/out/hummingbird_status"
  | localPosition => "/fmu/out/vehicle_local_position"
  | vehicleAttitude => "/fmu/out/vehicle_attitude"
  | vehicleStatus => "/fmu/out/vehicle_status"

/-- `gap_limit_sec`, as the subscription of the input passes it to `note_input`. -/
def gapLimitSec : Input → ℚ
  | controllerMode => 0.2
  | localPosition => 0.1
  | vehicleAttitude => 0.1
  | vehicleStatus => 0.5

end Input

/-- `has_..._`. -/
def received (s : Px4PositionCommand) : Input → Bool
  | .controllerMode => s.hasControllerMode
  | .localPosition => s.hasLocalPosition
  | .vehicleAttitude => s.hasVehicleAttitude
  | .vehicleStatus => s.hasVehicleStatus

/-- `last_..._time_`. -/
def lastTime (s : Px4PositionCommand) : Input → Time
  | .controllerMode => s.lastControllerModeTime
  | .localPosition => s.lastLocalPositionTime
  | .vehicleAttitude => s.lastVehicleAttitudeTime
  | .vehicleStatus => s.lastVehicleStatusTime

/-- The log lines `CMD_INPUT_GAP`, `CMD_INPUT_RECOVERED`, `CMD_INPUT_TIMEOUT` and
    `CMD_LOOP_GAP`. -/
inductive LogLine
  | inputGap (topic : String) (gapSec : ℚ)
  | inputRecovered (topic : String) (gapSec : ℚ)
  | inputTimeout (topic : String) (received : Bool) (ageSec : ℚ)
  | loopGap (tickGapSec targetSec : ℚ)
  deriving DecidableEq

/-- `note_input`; returns `missing` as it leaves it. -/
def noteInput (topic : String) (received : Bool) (last : Time) (missing : Bool)
    (gapLimitSec : ℚ) (now : Time) : Bool × List LogLine :=
  let gapSec := secs (now - last)
  let gap := if received ∧ gapLimitSec ≤ gapSec then [.inputGap topic gapSec] else []
  if missing then (false, gap ++ [.inputRecovered topic gapSec]) else (missing, gap)

/-- `check_input`; returns `missing` as it leaves it. -/
def checkInput (topic : String) (received : Bool) (last : Time) (missing : Bool) (now : Time) :
    Bool × List LogLine :=
  let ageSec := secs (now - last)
  if messageTimeoutSec ≤ ageSec ∧ !missing then (true, [.inputTimeout topic received ageSec])
  else (missing, [])

/-- The readings of one call of `check_inputs`. -/
structure CheckClock where
  reading : Input → Time
  ordered : reading .controllerMode ≤ reading .localPosition ∧
    reading .localPosition ≤ reading .vehicleAttitude ∧
    reading .vehicleAttitude ≤ reading .vehicleStatus

/-- A call whose readings are all the same. -/
def CheckClock.all (now : Time) : CheckClock := ⟨fun _ => now, le_rfl, le_rfl, le_rfl⟩

/-- The node with its diagnostics. -/
structure Diagnosed where
  command : Px4PositionCommand
  missing : Input → Bool
  lastControlTickTime : Time

/-- What a handler hands to the publishers and to the log. -/
structure Output where
  published : List Publication
  logged : List LogLine

/-- What the node handles, with the readings of the diagnostics. -/
inductive DiagnosedEvent
  | hummingbirdStatus (noted now : Time) (message : HummingbirdStatus)
  | vehicleLocalPosition (noted now : Time) (message : VehicleLocalPosition)
  | vehicleAttitude (noted now : Time) (message : VehicleAttitude)
  | vehicleStatus (noted now : Time) (message : VehicleStatus)
  | tick (c : TickClock)
  | checkInputs (c : CheckClock)

namespace DiagnosedEvent

def enter : DiagnosedEvent → Time
  | hummingbirdStatus noted _ _ => noted
  | vehicleLocalPosition noted _ _ => noted
  | vehicleAttitude noted _ _ => noted
  | vehicleStatus noted _ _ => noted
  | tick c => c.now
  | checkInputs c => c.reading .controllerMode

def leave : DiagnosedEvent → Time
  | hummingbirdStatus _ now _ => now
  | vehicleLocalPosition _ now _ => now
  | vehicleAttitude _ now _ => now
  | vehicleStatus _ now _ => now
  | tick c => c.later
  | checkInputs c => c.reading .vehicleStatus

/-- The event without its diagnostics. -/
def control : DiagnosedEvent → Option Event
  | hummingbirdStatus _ now message => some (.hummingbirdStatus now message)
  | vehicleLocalPosition _ now message => some (.vehicleLocalPosition now message)
  | vehicleAttitude _ now message => some (.vehicleAttitude now message)
  | vehicleStatus _ now message => some (.vehicleStatus now message)
  | tick c => some (.tick c)
  | checkInputs _ => none

end DiagnosedEvent

namespace Diagnosed

noncomputable section

def construct (p : Parameters) (now : Time) : Diagnosed where
  command := Px4PositionCommand.construct p now
  missing := fun _ => false
  lastControlTickTime := now

/-- The call of `note_input` with which the subscription of the input `i` starts. -/
def noteInput (s : Diagnosed) (i : Input) (noted : Time) : Diagnosed × List LogLine :=
  let r := Px4PositionCommand.noteInput i.topic (s.command.received i) (s.command.lastTime i)
    (s.missing i) i.gapLimitSec noted
  ({ s with missing := Function.update s.missing i r.1 }, r.2)

/-- The call of `check_input` for the input `i`. -/
def checkInput (s : Diagnosed) (i : Input) (now : Time) : Diagnosed × List LogLine :=
  let r := Px4PositionCommand.checkInput i.topic (s.command.received i) (s.command.lastTime i)
    (s.missing i) now
  ({ s with missing := Function.update s.missing i r.1 }, r.2)

/-- `controller_mode_callback`. -/
def controllerModeCallback (s : Diagnosed) (noted now : Time) (message : HummingbirdStatus) :
    Diagnosed × Output :=
  let (s, logged) := s.noteInput .controllerMode noted
  ({ s with command := s.command.controllerModeCallback now message }, ⟨[], logged⟩)

/-- `local_position_callback`. -/
def localPositionCallback (s : Diagnosed) (noted now : Time) (message : VehicleLocalPosition) :
    Diagnosed × Output :=
  let (s, logged) := s.noteInput .localPosition noted
  ({ s with command := s.command.localPositionCallback now message }, ⟨[], logged⟩)

/-- `vehicle_attitude_callback`. -/
def vehicleAttitudeCallback (s : Diagnosed) (noted now : Time) (message : VehicleAttitude) :
    Diagnosed × Output :=
  let (s, logged) := s.noteInput .vehicleAttitude noted
  ({ s with command := s.command.vehicleAttitudeCallback now message }, ⟨[], logged⟩)

/-- `vehicle_status_callback`. -/
def vehicleStatusCallback (s : Diagnosed) (noted now : Time) (message : VehicleStatus) :
    Diagnosed × Output :=
  let (s, logged) := s.noteInput .vehicleStatus noted
  ({ s with command := s.command.vehicleStatusCallback now message }, ⟨[], logged⟩)

/-- `on_tick`. -/
def onTick (s : Diagnosed) (c : TickClock) : Diagnosed × Output :=
  let tickGapSec := secs (c.now - s.lastControlTickTime)
  let logged := if 0.1 ≤ tickGapSec then [.loopGap tickGapSec (1 / rateHz)] else []
  let (command, published) := s.command.onTick c
  ({ s with command := command, lastControlTickTime := c.now }, ⟨published, logged⟩)

/-- `check_inputs`. -/
def checkInputs (s : Diagnosed) (c : CheckClock) : Diagnosed × Output :=
  let (s, logged₁) := s.checkInput .controllerMode (c.reading .controllerMode)
  let (s, logged₂) := s.checkInput .localPosition (c.reading .localPosition)
  let (s, logged₃) := s.checkInput .vehicleAttitude (c.reading .vehicleAttitude)
  let (s, logged₄) := s.checkInput .vehicleStatus (c.reading .vehicleStatus)
  (s, ⟨[], logged₁ ++ logged₂ ++ logged₃ ++ logged₄⟩)

/-- Handle one event. -/
def handle (s : Diagnosed) : DiagnosedEvent → Diagnosed × Output
  | .hummingbirdStatus noted now message => s.controllerModeCallback noted now message
  | .vehicleLocalPosition noted now message => s.localPositionCallback noted now message
  | .vehicleAttitude noted now message => s.vehicleAttitudeCallback noted now message
  | .vehicleStatus noted now message => s.vehicleStatusCallback noted now message
  | .tick c => s.onTick c
  | .checkInputs c => s.checkInputs c

def node : Machine Diagnosed DiagnosedEvent Output Time where
  step := handle
  enter := DiagnosedEvent.enter
  leave := DiagnosedEvent.leave

end

abbrev Entry := Machine.Step Diagnosed DiagnosedEvent Output

/-- What the node has handled, newest first. -/
abbrev History := List Entry

/-- Runs of the node with its diagnostics. -/
abbrev IsRun (p : Parameters) (t₀ : Time) : History → Diagnosed → Time → Prop :=
  Machine.Run node (construct p t₀) t₀

/-! ## The node without its diagnostics -/

/-- What is left of an entry without the diagnostics. -/
def controlEntry (k : Entry) : Option Px4PositionCommand.Entry :=
  k.event.control.map fun e => ⟨k.pre.command, e, k.out.published, k.post.command⟩

/-- The control does not see its diagnostics. -/
theorem handle_control (s : Diagnosed) (e : DiagnosedEvent) :
    match e.control with
    | none => (s.handle e).1.command = s.command ∧ (s.handle e).2.published = []
    | some e' => (s.handle e).1.command = (s.command.handle e').1 ∧
        (s.handle e).2.published = (s.command.handle e').2 := by
  cases e <;> exact ⟨rfl, rfl⟩

/-- A run of the node is one of the control alone. -/
theorem IsRun.control {p : Parameters} {t₀ t : Time} {h : History} {s : Diagnosed}
    (hr : IsRun p t₀ h s t) :
    ∃ t' ≤ t, Px4PositionCommand.IsRun p t₀ (h.filterMap controlEntry) s.command t' := by
  refine hr.invariant (P := fun h s t => ∃ t' ≤ t,
    Px4PositionCommand.IsRun p t₀ (h.filterMap controlEntry) s.command t')
    ⟨t₀, le_rfl, .start⟩ ?_
  rintro h s t e - ⟨t', hle, hrun⟩ hin hout
  have hcontrol := handle_control s e
  have henter : ∀ e', e.control = some e' → e.enter ≤ e'.enter ∧ e'.enter ≤ e'.leave ∧
      e'.leave ≤ e.leave := by
    intro e' he
    cases e with
    | checkInputs c => exact nomatch he
    | tick c =>
      obtain rfl := Option.some.inj he
      exact ⟨le_rfl, hout, le_rfl⟩
    | _ =>
      obtain rfl := Option.some.inj he
      exact ⟨hout, le_rfl, le_rfl⟩
  cases he : e.control with
  | none =>
    rw [he] at hcontrol
    have hentry : controlEntry (node.record s e) = none := by
      show Option.map _ e.control = none
      rw [he]
      rfl
    rw [List.filterMap_cons_none hentry]
    refine ⟨t', hle.trans (hin.trans hout), ?_⟩
    show Px4PositionCommand.IsRun p t₀ _ (s.handle e).1.command t'
    rw [hcontrol.1]
    exact hrun
  | some e' =>
    rw [he] at hcontrol
    obtain ⟨hin', hout', hlast⟩ := henter e' he
    have hentry : controlEntry (node.record s e) =
        some (Px4PositionCommand.node.record s.command e') := by
      show Option.map _ e.control = _
      rw [he]
      show some (⟨s.command, e', (s.handle e).2.published, (s.handle e).1.command⟩ :
        Px4PositionCommand.Entry) = _
      rw [hcontrol.1, hcontrol.2]
      rfl
    rw [List.filterMap_cons_some hentry]
    refine ⟨e'.leave, hlast, ?_⟩
    show Px4PositionCommand.IsRun p t₀ _ (s.handle e).1.command e'.leave
    rw [hcontrol.1]
    exact hrun.handle e' (hle.trans (hin.trans hin')) hout'

end Diagnosed

end Px4PositionCommand

end Hummingbird
