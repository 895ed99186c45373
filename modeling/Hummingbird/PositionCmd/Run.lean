/-
  Runs of `Px4PositionCommand`, and what a history says about the node's state.

  `node` handles four kinds of message and the control timer; `IsRun p t₀ h s t` says that
  the node constructed at `t₀` with the parameters `p` has handled the events of `h` (newest
  first, in any order, at times that never go back) and is in the state `s`.

  What the outside knows at a tick is read off the history alone: the message received last
  on a topic and its age. `Reflects` connects the two sides: along every run the node's
  members hold exactly these messages (`IsRun.reflects`), so the conditions that a tick tests
  are conditions on the history (`Reflects.ddsControlEnabled_iff` and the lemmas after it).
  `IsRun.onTicks` is the rule that proves a property of every tick of every run.
-/
import Hummingbird.Library.Machine
import Hummingbird.PositionCmd.Tick

namespace Hummingbird

namespace Px4PositionCommand

/-! ## Events -/

/-- What the node handles: a message on one of its subscriptions, or the control timer. -/
inductive Event
  | hummingbirdStatus (now : Time) (message : HummingbirdStatus)
  | vehicleLocalPosition (now : Time) (message : VehicleLocalPosition)
  | vehicleAttitude (now : Time) (message : VehicleAttitude)
  | vehicleStatus (now : Time) (message : VehicleStatus)
  | tick (c : TickClock)

namespace Event

/-- The first clock reading of the handler. -/
def enter : Event → Time
  | hummingbirdStatus now _ => now
  | vehicleLocalPosition now _ => now
  | vehicleAttitude now _ => now
  | vehicleStatus now _ => now
  | tick c => c.now

/-- The last clock reading of the handler. -/
def leave : Event → Time
  | tick c => c.later
  | e => e.enter

def receivedHummingbirdStatus : Event → Option (Time × HummingbirdStatus)
  | hummingbirdStatus now message => some (now, message)
  | _ => none

def receivedLocalPosition : Event → Option (Time × VehicleLocalPosition)
  | vehicleLocalPosition now message => some (now, message)
  | _ => none

def receivedVehicleAttitude : Event → Option (Time × VehicleAttitude)
  | vehicleAttitude now message => some (now, message)
  | _ => none

def receivedVehicleStatus : Event → Option (Time × VehicleStatus)
  | vehicleStatus now message => some (now, message)
  | _ => none

def isTick : Event → Bool
  | tick _ => true
  | _ => false

end Event

/-- Handle one event. -/
noncomputable def handle (s : Px4PositionCommand) : Event → Px4PositionCommand × List Publication
  | .hummingbirdStatus now message => (s.controllerModeCallback now message, [])
  | .vehicleLocalPosition now message => (s.localPositionCallback now message, [])
  | .vehicleAttitude now message => (s.vehicleAttitudeCallback now message, [])
  | .vehicleStatus now message => (s.vehicleStatusCallback now message, [])
  | .tick c => s.onTick c

noncomputable def node : Machine Px4PositionCommand Event (List Publication) Time where
  step := handle
  enter := Event.enter
  leave := Event.leave

abbrev Entry := Machine.Step Px4PositionCommand Event (List Publication)

/-- What the node has handled, newest first. -/
abbrev History := List Entry

/-- Runs of the node constructed with the parameters `p` at the time `t₀`. -/
abbrev IsRun (p : Parameters) (t₀ : Time) : History → Px4PositionCommand → Time → Prop :=
  Machine.Run node (construct p t₀) t₀

/-! ## What a history says -/

/-- The `HummingbirdStatus` received last, with its arrival time. -/
def lastHummingbirdStatus (h : History) : Option (Time × HummingbirdStatus) :=
  Past.latest (fun k => k.event.receivedHummingbirdStatus) h

def lastLocalPosition (h : History) : Option (Time × VehicleLocalPosition) :=
  Past.latest (fun k => k.event.receivedLocalPosition) h

def lastVehicleAttitude (h : History) : Option (Time × VehicleAttitude) :=
  Past.latest (fun k => k.event.receivedVehicleAttitude) h

def lastVehicleStatus (h : History) : Option (Time × VehicleStatus) :=
  Past.latest (fun k => k.event.receivedVehicleStatus) h

/-- DDS control is enabled at the time `now`: the last `HummingbirdStatus` has arrived at
    most `messageTimeoutSec` ago and names DDS as the command source. -/
def DdsControl (h : History) (now : Time) : Prop :=
  ∃ t m, lastHummingbirdStatus h = some (t, m) ∧
    (secs (now - t) ≤ messageTimeoutSec ∧ m.hbCmdSource = hbCmdSourceDds)

/-- The last `VehicleStatus` has arrived at most `messageTimeoutSec` ago. -/
def StatusFresh (h : History) (now : Time) : Prop :=
  ∃ t m, lastVehicleStatus h = some (t, m) ∧ secs (now - t) ≤ messageTimeoutSec

/-- The last `VehicleStatus` reports offboard mode. -/
def OffboardReported (h : History) : Prop :=
  ∃ t m, lastVehicleStatus h = some (t, m) ∧ m.navState = navigationStateOffboard

/-- The last `VehicleStatus` reports the vehicle armed. -/
def ArmedReported (h : History) : Prop :=
  ∃ t m, lastVehicleStatus h = some (t, m) ∧ m.armingState = armingStateArmed

/-- The vehicle is in the active control state: offboard and, under `auto_arm`, armed. -/
def ActiveReported (p : Parameters) (h : History) : Prop :=
  OffboardReported h ∧ (p.autoArm = true → ArmedReported h)

/-- The history as it stood at the last tick. -/
def lastTick (h : History) : History := Past.lastWhere (fun k => k.event.isTick) h

/-- The newest entry is a tick with DDS control enabled. -/
def DdsTick : History → Prop
  | [] => False
  | k :: past => ∃ c, k.event = .tick c ∧ DdsControl past c.now

/-- `P c k past` holds for every tick `k` of the history, `c` being its clock readings and
    `past` what the node had handled before it. -/
def OnTicks (P : TickClock → Entry → History → Prop) : History → Prop :=
  Past.Always fun g => ∀ k past c, g = k :: past → k.event = .tick c → P c k past

theorem onTicks_iff_append {P : TickClock → Entry → History → Prop} {h : History} :
    OnTicks P h ↔ ∀ a k b c, h = a ++ k :: b → k.event = .tick c → P c k b := by
  unfold OnTicks
  rw [Past.always_iff_append]
  constructor
  · intro hp a k b c he hk
    exact hp a k b he k b c rfl hk
  · rintro hp a k b he k' b' c heq hk
    obtain ⟨rfl, rfl⟩ := List.cons.inj heq
    exact hp a k b c he hk

theorem OnTicks.newest {P : TickClock → Entry → History → Prop} {c : TickClock} {k : Entry}
    {past : History} (h : OnTicks P (k :: past)) (hk : k.event = .tick c) : P c k past :=
  h.1 k past c rfl hk

theorem onTicks_congr {P Q : TickClock → Entry → History → Prop} {h : History}
    (hpq : OnTicks (fun c k past => P c k past ↔ Q c k past) h) : OnTicks P h ↔ OnTicks Q h := by
  refine Past.always_congr hpq fun k g hr => ?_
  refine forall_congr' fun k' => forall_congr' fun past => forall_congr' fun c => ?_
  exact forall_congr' fun he => forall_congr' fun hk => hr k' past c he hk

/-! ## What a tick leaves alone -/

/-- A tick writes none of the members that messages and parameters set. -/
theorem TickBranch.frame {s s' : Px4PositionCommand} {c : TickClock} {out : List Publication}
    (hb : TickBranch s c s' out) :
    s' = { s with
      lastTarget := s'.lastTarget
      rc2ddsHandoffFilters := s'.rc2ddsHandoffFilters
      previousDdsControlEnabled := s'.previousDdsControlEnabled
      controlMode := s'.controlMode
      lastOffboardRequestTimeSec := s'.lastOffboardRequestTimeSec
      lastArmRequestTimeSec := s'.lastArmRequestTimeSec
      trajectoryStartTimeSec := s'.trajectoryStartTimeSec
      posX := s'.posX
      posY := s'.posY
      posZ := s'.posZ } := by
  cases hb <;> rfl

/-- `previous_dds_control_enabled_` after a tick. -/
theorem TickBranch.previousDdsControlEnabled {s s' : Px4PositionCommand} {c : TickClock}
    {out : List Publication} (hb : TickBranch s c s' out) :
    s'.previousDdsControlEnabled = s.ddsControlEnabled c.now := by
  cases hb <;> simp_all [startRc2ddsHandoff]

/-! ## The node's members along a run -/

/-- A topic's members hold the message `r` received last; before the first one they are as
    the constructor left them. -/
def Holds {α : Type} (has : Bool) (time : Time) (message initial : α) :
    Option (Time × α) → Prop
  | none => has = false ∧ message = initial
  | some r => has = true ∧ time = r.1 ∧ message = r.2

theorem Holds.iff {α : Type} {has : Bool} {time : Time} {message initial : α}
    {r : Option (Time × α)} (h : Holds has time message initial r) (P : Time → α → Prop) :
    (has = true ∧ P time message) ↔ ∃ t m, r = some (t, m) ∧ P t m := by
  cases r with
  | none => simp [h.1]
  | some r =>
    obtain ⟨hhas, rfl, rfl⟩ := h
    constructor
    · rintro ⟨-, hp⟩
      exact ⟨r.1, r.2, rfl, hp⟩
    · rintro ⟨t, m, he, hp⟩
      obtain rfl := Option.some.inj he
      exact ⟨hhas, hp⟩

/-- For a property that the initial message lacks, having received one need not be said. -/
theorem Holds.message_iff {α : Type} {has : Bool} {time : Time} {message initial : α}
    {r : Option (Time × α)} (h : Holds has time message initial r) {P : α → Prop}
    (hi : ¬ P initial) : P message ↔ ∃ t m, r = some (t, m) ∧ P m := by
  rw [← h.iff fun _ m => P m]
  cases r with
  | none => simp [h.1, h.2, hi]
  | some r => simp [h.1]

/-- The state `s` holds what the history `h` says. -/
structure Reflects (p : Parameters) (t₀ : Time) (h : History) (s : Px4PositionCommand) :
    Prop where
  nodeStartTime : s.nodeStartTime = t₀
  trajectoryName : s.trajectoryName = p.path
  autoOffboard : s.autoOffboard = p.autoOffboard
  autoArm : s.autoArm = p.autoArm
  hummingbirdStatus :
    Holds s.hasControllerMode s.lastControllerModeTime s.controllerMode {}
      (lastHummingbirdStatus h)
  localPosition :
    Holds s.hasLocalPosition s.lastLocalPositionTime s.localPosition {} (lastLocalPosition h)
  vehicleAttitude :
    Holds s.hasVehicleAttitude s.lastVehicleAttitudeTime s.vehicleAttitude {}
      (lastVehicleAttitude h)
  vehicleStatus :
    Holds s.hasVehicleStatus s.lastVehicleStatusTime s.vehicleStatus {} (lastVehicleStatus h)

namespace Reflects

variable {p : Parameters} {t₀ : Time} {h : History} {s : Px4PositionCommand}

theorem construct (p : Parameters) (t₀ : Time) : Reflects p t₀ [] (construct p t₀) where
  nodeStartTime := rfl
  trajectoryName := rfl
  autoOffboard := rfl
  autoArm := rfl
  hummingbirdStatus := ⟨rfl, rfl⟩
  localPosition := ⟨rfl, rfl⟩
  vehicleAttitude := ⟨rfl, rfl⟩
  vehicleStatus := ⟨rfl, rfl⟩

theorem tick (hs : Reflects p t₀ h s) (c : TickClock) :
    Reflects p t₀ (node.record s (.tick c) :: h) (s.onTick c).1 := by
  rw [(onTick_branch s c).frame]
  exact ⟨hs.1, hs.2, hs.3, hs.4, hs.5, hs.6, hs.7, hs.8⟩

/-- Handling an event keeps the members and the history in step. -/
theorem handle (hs : Reflects p t₀ h s) (e : Event) :
    Reflects p t₀ (node.record s e :: h) (s.handle e).1 := by
  cases e with
  | hummingbirdStatus now m =>
    exact { hs with hummingbirdStatus := ⟨rfl, rfl, rfl⟩ }
  | vehicleLocalPosition now m =>
    exact { hs with localPosition := ⟨rfl, rfl, rfl⟩ }
  | vehicleAttitude now m =>
    exact { hs with vehicleAttitude := ⟨rfl, rfl, rfl⟩ }
  | vehicleStatus now m =>
    exact { hs with vehicleStatus := ⟨rfl, rfl, rfl⟩ }
  | tick c => exact hs.tick c

theorem ddsControlEnabled_iff (hs : Reflects p t₀ h s) (now : Time) :
    s.ddsControlEnabled now = true ↔ DdsControl h now := by
  unfold DdsControl
  rw [← hs.hummingbirdStatus.iff fun t m =>
    secs (now - t) ≤ messageTimeoutSec ∧ m.hbCmdSource = hbCmdSourceDds]
  simp [Px4PositionCommand.ddsControlEnabled, and_assoc]

theorem vehicleStatusFresh_iff (hs : Reflects p t₀ h s) (now : Time) :
    s.vehicleStatusFresh now = true ↔ StatusFresh h now := by
  unfold StatusFresh
  rw [← hs.vehicleStatus.iff fun t _ => secs (now - t) ≤ messageTimeoutSec]
  simp [Px4PositionCommand.vehicleStatusFresh]

theorem offboardModeActive_iff (hs : Reflects p t₀ h s) :
    s.offboardModeActive = true ↔ OffboardReported h := by
  have hinit : ¬ (({} : VehicleStatus).navState = navigationStateOffboard) := by decide
  unfold OffboardReported
  rw [← hs.vehicleStatus.message_iff hinit]
  simp [Px4PositionCommand.offboardModeActive]

theorem vehicleArmed_iff (hs : Reflects p t₀ h s) :
    s.vehicleArmed = true ↔ ArmedReported h := by
  have hinit : ¬ (({} : VehicleStatus).armingState = armingStateArmed) := by decide
  unfold ArmedReported
  rw [← hs.vehicleStatus.message_iff hinit]
  simp [Px4PositionCommand.vehicleArmed]

theorem armReady_iff (hs : Reflects p t₀ h s) :
    s.armReady = true ↔ (p.autoArm = true → ArmedReported h) := by
  rw [← hs.vehicleArmed_iff, ← hs.autoArm]
  cases ha : s.autoArm <;> simp [armReady, ha]

theorem activeState_iff (hs : Reflects p t₀ h s) :
    s.activeState = true ↔ ActiveReported p h := by
  unfold ActiveReported
  rw [← hs.offboardModeActive_iff, ← hs.armReady_iff]
  exact Bool.and_eq_true_iff

theorem elapsedSec_eq (hs : Reflects p t₀ h s) (c : TickClock) :
    s.elapsedSec c = secs (c.now - t₀) := by
  rw [Px4PositionCommand.elapsedSec, hs.nodeStartTime]

end Reflects

section Runs

variable {p : Parameters} {t₀ t : Time} {h : History} {s : Px4PositionCommand}

theorem IsRun.reflects (hr : IsRun p t₀ h s t) : Reflects p t₀ h s := by
  refine Machine.Run.invariant (P := fun h s _ => Reflects p t₀ h s) hr ?_ ?_
  · exact Reflects.construct p t₀
  · intro h s t e _ hs _ _
    exact hs.handle e

/-- Every state on the way reflects what had been handled before it. -/
theorem IsRun.reflects_of_mem {k : Entry} (hr : IsRun p t₀ h s t) (hk : k ∈ h) :
    ∃ past, Reflects p t₀ past k.pre := by
  obtain ⟨a, past, rfl⟩ := List.append_of_mem hk
  obtain ⟨s', t', hr', -⟩ := hr.of_append
  obtain ⟨t'', hr'', -⟩ := hr'.newest
  exact ⟨past, IsRun.reflects hr''⟩

/-- `previous_dds_control_enabled_` remembers whether the last tick had DDS control. -/
theorem IsRun.previousDdsControlEnabled_iff (hr : IsRun p t₀ h s t) :
    s.previousDdsControlEnabled = true ↔ DdsTick (lastTick h) := by
  refine Machine.Run.invariant
    (P := fun h s _ => s.previousDdsControlEnabled = true ↔ DdsTick (lastTick h)) hr ?_ ?_
  · simp [construct, lastTick, DdsTick]
  · intro h s t e hr ih _ _
    cases e with
    | tick c =>
      have hlast : lastTick (node.record s (.tick c) :: h) = node.record s (.tick c) :: h :=
        Past.lastWhere_cons_of_pos rfl h
      have hprev := (onTick_branch s c).previousDdsControlEnabled
      rw [hlast]
      show (s.onTick c).1.previousDdsControlEnabled = true ↔ _
      rw [hprev, (IsRun.reflects hr).ddsControlEnabled_iff]
      constructor
      · intro hd
        exact ⟨c, rfl, hd⟩
      · rintro ⟨c', hc, hd⟩
        obtain rfl := Event.tick.inj hc
        exact hd
    | _ => exact ih

/-- What every tick does from every state a run reaches holds on every tick of a run. -/
theorem IsRun.onTicks {P : TickClock → Entry → History → Prop} (hr : IsRun p t₀ h s t)
    (hp : ∀ {past : History} {s : Px4PositionCommand} {t : Time} (c : TickClock),
      IsRun p t₀ past s t →
      IsRun p t₀ (node.record s (.tick c) :: past) (s.onTick c).1 c.later →
      TickBranch s c (s.onTick c).1 (s.onTick c).2 →
        P c (node.record s (.tick c)) past) : OnTicks P h := by
  refine Machine.Run.always hr ?_
  rintro k past s t hr k' past' c heq hk
  obtain ⟨rfl, rfl⟩ := List.cons.inj heq
  cases hr with
  | handle e hr hin hout =>
    obtain rfl : e = .tick c := hk
    exact hp c hr (hr.handle (.tick c) hin hout) (onTick_branch _ c)

end Runs

end Px4PositionCommand

end Hummingbird
