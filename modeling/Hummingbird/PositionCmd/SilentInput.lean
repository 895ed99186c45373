/-
  What `Px4PositionCommand` does while an input is silent.

  The control does not read the `..._missing_` flags: it tests the ages of the inputs by itself.
  `silent_input` ties the two together. Once `check_inputs` has logged the timeout of an input, and
  until a message ends it, a later tick treats the input as stale (`stale_of_silent`): without
  `hummingbird_status` nothing is published but the one request for position control, without
  `vehicle_status` no setpoint and no request for offboard mode or arming, without a position or an
  attitude the handoff does not end, and without a position it starts from the initial pose.
-/
import Hummingbird.PositionCmd.InputReports
import Hummingbird.PositionCmd.Modes

namespace Hummingbird

namespace Px4PositionCommand

section Stale

variable {s : Px4PositionCommand} {now : Time}

theorem ddsControlEnabled_of_stale
    (h : messageTimeoutSec < secs (now - s.lastTime .controllerMode)) :
    s.ddsControlEnabled now = false := by
  have hstale : ¬ secs (now - s.lastControllerModeTime) ≤ messageTimeoutSec := not_le.mpr h
  simp [ddsControlEnabled, hstale]

theorem vehicleStatusFresh_of_stale
    (h : messageTimeoutSec < secs (now - s.lastTime .vehicleStatus)) :
    s.vehicleStatusFresh now = false := by
  have hstale : ¬ secs (now - s.lastVehicleStatusTime) ≤ messageTimeoutSec := not_le.mpr h
  simp [vehicleStatusFresh, hstale]

theorem localPositionFresh_of_stale
    (h : messageTimeoutSec < secs (now - s.lastTime .localPosition)) :
    s.localPositionFresh now = false := by
  have hstale : ¬ secs (now - s.lastLocalPositionTime) ≤ messageTimeoutSec := not_le.mpr h
  simp [localPositionFresh, hstale]

theorem vehicleAttitudeFresh_of_stale
    (h : messageTimeoutSec < secs (now - s.lastTime .vehicleAttitude)) :
    s.vehicleAttitudeFresh now = false := by
  have hstale : ¬ secs (now - s.lastVehicleAttitudeTime) ≤ messageTimeoutSec := not_le.mpr h
  simp [vehicleAttitudeFresh, hstale]

theorem initialPoseReached_of_stale {target : TargetCMD Double}
    (h : s.localPositionFresh now = false ∨ s.vehicleAttitudeFresh now = false) :
    s.initialPoseReached target now = false := by
  have hguard : (!s.localPositionFresh now || !s.vehicleAttitudeFresh now) = true := by
    rcases h with h | h <;> simp [h]
  rw [initialPoseReached, if_pos hguard]

variable {s' : Px4PositionCommand} {c : TickClock} {out : List Publication}

/-- Where a stale status has not stopped a path, the mode is the one before. -/
theorem fallback_eq {m m' : ControlMode}
    (h : (if m = .pathActive then ControlMode.waitOffboard else m) = m')
    (hne : m' ≠ .waitOffboard) : m = m' ∧ m ≠ .pathActive := by
  split at h
  · exact absurd h.symm hne
  · rename_i hpath
    exact ⟨h, hpath⟩

theorem TickBranch.of_statusStale (hb : TickBranch s c s' out)
    (hs : s.vehicleStatusFresh c.now = false)
    (hp : Publishing s.controlMode → s.previousDdsControlEnabled = true) :
    s'.controlMode ≠ .pathActive ∧
      ∀ m ∈ out, m = heartbeat c ∨ m = .vehicleCommand (posctlCommand c.timestampUs) := by
  cases hb with
  | takeover => exact ⟨nofun, fun m hm => Or.inr (List.mem_singleton.mp hm)⟩
  | released _ hn => exact ⟨fun hm => hn ⟨hp (Or.inl hm), Or.inl hm⟩, fun m hm =>
    absurd hm List.not_mem_nil⟩
  | statusStale =>
    refine ⟨fun hm => ?_, fun m hm => Or.inl (List.mem_singleton.mp hm)⟩
    obtain ⟨hpath, hne⟩ := fallback_eq hm (by decide)
    exact hne hpath
  | _ _ hs' => exact absurd (hs.symm.trans hs') Bool.false_ne_true

/-- Without a fresh pose a tick does not enter the path. -/
theorem TickBranch.pathActive_of_stale (hb : TickBranch s c s' out)
    (hs : s.localPositionFresh c.later = false ∨ s.vehicleAttitudeFresh c.later = false)
    (hm : s'.controlMode = .pathActive) : s.controlMode = .pathActive := by
  cases hb with
  | released => exact hm
  | path _ _ hpath => exact hpath
  | statusStale => exact (fallback_eq hm (by decide)).1
  | handoff _ _ hhandoff => exact absurd (hhandoff.symm.trans hm) (by decide)
  | handoffReached _ _ _ hreached =>
    exact absurd (initialPoseReached_of_stale hs) (by rw [hreached]; decide)
  | _ => exact nomatch hm

/-- Without a fresh position a handoff starts from the initial pose. -/
theorem TickBranch.lastTarget_of_stale (hb : TickBranch s c s' out)
    (hs : s.localPositionFresh c.later = false) (hm : s.controlMode ≠ .rc2ddsHandoff)
    (hm' : s'.controlMode = .rc2ddsHandoff) : s'.lastTarget = initialPose := by
  cases hb with
  | startHandoff =>
    show handoffStart { s with previousDdsControlEnabled := true } c.later = initialPose
    exact if_neg (by rw [show localPositionFresh { s with previousDdsControlEnabled := true }
      c.later = false from hs]; decide)
  | released => exact absurd hm' hm
  | path _ _ hpath => exact absurd (hpath.symm.trans hm') (by decide)
  | handoff _ _ hhandoff => exact absurd hhandoff hm
  | statusStale => exact absurd (fallback_eq hm' (by decide)).1 hm
  | _ => exact nomatch hm'

end Stale

namespace Diagnosed

/-- Every check of the input `i` was made before the time `now`. -/
def CheckedBefore (i : Input) (now : Time) (h : History) : Prop :=
  ∀ k ∈ h, ∀ c, k.event = .checkInputs c → c.reading i < now

/-- The timeout of the input `i` has been logged before `now`, and no message has come since. -/
def MissingAt (i : Input) (t₀ now : Time) (h : History) : Prop :=
  Silent i t₀ h ∧ CheckedBefore i now h

/-- What the tick `k` with the readings `c` does after `past`. -/
structure WhileMissing (t₀ : Time) (c : TickClock) (k : Entry) (past : History) : Prop where
  controllerMode : MissingAt .controllerMode t₀ c.now past →
    ¬ Publishing k.post.command.controlMode ∧
      (k.out.published = [] ∨ k.out.published = [.vehicleCommand (posctlCommand c.timestampUs)])
  vehicleStatus : MissingAt .vehicleStatus t₀ c.now past →
    k.post.command.controlMode ≠ .pathActive ∧
      ∀ m ∈ k.out.published, m = heartbeat c ∨ m = .vehicleCommand (posctlCommand c.timestampUs)
  pose : MissingAt .localPosition t₀ c.now past ∨ MissingAt .vehicleAttitude t₀ c.now past →
    k.post.command.controlMode = .pathActive → k.pre.command.controlMode = .pathActive
  start : MissingAt .localPosition t₀ c.now past → k.pre.command.controlMode ≠ .rc2ddsHandoff →
    k.post.command.controlMode = .rc2ddsHandoff → k.post.command.lastTarget = initialPose

section Ticks

variable {p : Parameters} {t₀ t : Time} {h : History} {s : Diagnosed}

/-- An input whose timeout has been logged is older than the timeout at every later time. -/
theorem IsRun.stale_of_silent (hr : IsRun p t₀ h s t) {i : Input} {now later : Time}
    (hm : MissingAt i t₀ now h) (hlater : now ≤ later) :
    messageTimeoutSec < secs (later - s.command.lastTime i) := by
  obtain ⟨tested, told, hmem, hle⟩ := hm.1.exists_check
  obtain ⟨k, hk, hview⟩ := List.mem_filterMap.mp hmem
  obtain ⟨c, he, rfl, -⟩ := watched_eq_check.mp hview
  have hlast : s.command.lastTime i = lastHeard i t₀ h :=
    ((simulates i).watches (fun _ => trivial) (watch_construct p t₀ i) hr).last
  have hlt : c.reading i < later := (hm.2 k hk c he).trans_le hlater
  rw [hlast]
  calc messageTimeoutSec ≤ secs (c.reading i - lastHeard i t₀ h) := hle
    _ < secs (later - lastHeard i t₀ h) := by
      unfold secs
      have hcast : ((c.reading i - lastHeard i t₀ h : ℤ) : ℚ) < (later - lastHeard i t₀ h : ℤ) := by
        exact_mod_cast sub_lt_sub_right hlt _
      linarith

/-- A tick of a run. -/
theorem IsRun.whileMissing (hr : IsRun p t₀ h s t) {c : TickClock} (hclock : c.now ≤ c.later) :
    WhileMissing t₀ c (node.record s (.tick c)) h := by
  obtain ⟨t', -, hcontrol⟩ := hr.control
  have hb : TickBranch s.command c (s.command.onTick c).1 (s.command.onTick c).2 :=
    onTick_branch s.command c
  have hprevious := IsRun.previousDds_of_publishing hcontrol
  constructor
  · intro hm
    have hd := ddsControlEnabled_of_stale (hr.stale_of_silent hm le_rfl)
    refine ⟨hb.not_publishing_of_released hprevious hd, ?_⟩
    rcases hb.out_of_released hd with ⟨-, -, hout, -⟩ | ⟨-, hout, -⟩
    · exact Or.inr hout
    · exact Or.inl hout
  · intro hm
    exact hb.of_statusStale (vehicleStatusFresh_of_stale (hr.stale_of_silent hm le_rfl)) hprevious
  · intro hm
    refine hb.pathActive_of_stale (hm.imp (fun hm => ?_) fun hm => ?_)
    · exact localPositionFresh_of_stale (hr.stale_of_silent hm hclock)
    · exact vehicleAttitudeFresh_of_stale (hr.stale_of_silent hm hclock)
  · intro hm
    exact hb.lastTarget_of_stale (localPositionFresh_of_stale (hr.stale_of_silent hm hclock))

/-- From the timeout that the log shows to the message that ends it, every later tick of every run
    treats the input as stale. -/
theorem silent_input (hr : IsRun p t₀ h s t) :
    Past.Always (Past.At fun k past => ∀ c, k.event = .tick c → WhileMissing t₀ c k past) h := by
  refine hr.always fun {k h s t} hrun => ?_
  cases hrun with
  | handle e hrun _ hout =>
    intro c he
    obtain rfl : e = .tick c := he
    exact IsRun.whileMissing hrun hout

end Ticks

/-- A tick after a second without messages. -/
def lateTick : List DiagnosedEvent :=
  [.checkInputs (.all 1000000000),
    .tick ⟨1002500000, 1002500000, 1002500000⟩]

theorem silent_input_lateTick :
    Past.Always (Past.At fun k past => ∀ c, k.event = .tick c → WhileMissing 0 c k past)
      (node.trace (construct {} 0) lateTick []) := by
  obtain ⟨s, t, hr⟩ := node.run_trace (construct {} 0) 0 lateTick (by decide)
  exact silent_input hr

end Diagnosed

end Px4PositionCommand

end Hummingbird
