/-
  Outages of `Px4ServoToDynamixel`: what the timer writes when messages stop.

  `AfterMessage tₘ msg a s t` is the invariant of a run since its last valid message: the
  goals are somewhere between the zero counts and those of the message, have moved towards
  zero at every tick of `a`, and the flags say in which of three phases the run is (`Phase`):
  holding the message, returning to zero, or returned. `IsRun.afterMessage` proves it along
  the run, and `outage_handling` reads what every tick writes off it.

  A tick that comes `DDS_RECEIVE_TIMEOUT_SEC` or more after a message is the first tick of
  the next outage, also when no tick came in between, so it does not write the message's goal
  (`nextTick_fails`).
-/
import Hummingbird.Servo.Dynamixel

namespace Hummingbird

namespace Px4ServoToDynamixel

open WithNaN Approach

abbrev Entry := Machine.Step Px4ServoToDynamixel ServoEvent (Option GoalPpr)

/-- What the node has handled since its startup, newest first. -/
abbrev History := List Entry

/-- Runs of the node whose startup ended at the time `t₀`. -/
abbrev IsRun (t₀ : Time) : History → Px4ServoToDynamixel → Time → Prop :=
  Machine.Run dxlBridge (afterStartup t₀) t₀

/-- The goals that a message commands. -/
noncomputable def messageGoal (msg : ActuatorServos) : GoalPpr :=
  fun j => toPpr (dxlServos j) (messageRad msg j)

/-- The goals of an outage that is over. -/
noncomputable def zeroGoal : GoalPpr := fun j => (dxlServos j).zeroPpr

/-! ## Since the last valid message -/

/-- Where a run is since its last valid message, at `tₘ`, with `a` handled since. -/
inductive Phase (tₘ : Time) (msg : ActuatorServos) (a : History) (s : Px4ServoToDynamixel)
    (t : Time) : Prop
  | holding (hr : s.returningToZero = false) (hc : s.zeroReturnComplete = false)
      (hg : s.latestGoalPpr = messageGoal msg)
      (hn : ∀ k ∈ a, ∀ now, k.event = .timer now → secs (now - tₘ) < ddsReceiveTimeoutSec)
  | returning (hr : s.returningToZero = true) (hc : s.zeroReturnComplete = false)
      (hs : ddsReceiveTimeoutSec ≤ secs (s.returnStartSteady - tₘ))
      (ht : s.returnStartSteady ≤ t)
      (hn : ∀ k ∈ a, ∀ now, k.event = .timer now → ddsReceiveTimeoutSec ≤ secs (now - tₘ) →
        s.returnStartSteady ≤ now)
  | returned (hc : s.zeroReturnComplete = true) (ht : ddsReceiveTimeoutSec ≤ secs (t - tₘ))
      (hg : s.latestGoalPpr = zeroGoal)

/-- The state of a run since its last valid message. -/
structure AfterMessage (tₘ : Time) (msg : ActuatorServos) (a : History)
    (s : Px4ServoToDynamixel) (t : Time) : Prop where
  received : s.ddsReceived = true
  haveGoal : s.haveGoal = true
  receiveTime : s.lastDdsReceiveSteady = tₘ
  gain : ∀ j, (s.servoLpf j).alpha = LPF.gain servoReturnTimeSec
  initialized : ∀ j, (s.servoLpf j).initialized = true
  angle : ∀ j, (s.servoLpf j).y ∈ Set.uIcc 0 (messageRad msg j)
  goal : s.zeroReturnComplete = false →
    ∀ j, s.latestGoalPpr j = toPpr (dxlServos j) (s.servoLpf j).y
  between : ∀ j, s.latestGoalPpr j ∈ Set.uIcc (zeroGoal j) (messageGoal msg j)
  towards : ∀ k ∈ a, ∀ g, k.out = some g → ∀ j, s.latestGoalPpr j ∈ Set.uIcc (zeroGoal j) (g j)
  phase : Phase tₘ msg a s t

section Step

variable {tₘ t now : Time} {msg : ActuatorServos} {a : History} {s : Px4ServoToDynamixel}

/-- A valid message begins a new period. -/
theorem afterMessage_ddsCallback (tₘ : Time)
    (hgain : ∀ j, (s.servoLpf j).alpha = LPF.gain servoReturnTimeSec) (hm : msg.Finite) :
    AfterMessage tₘ msg [] (s.ddsCallback tₘ msg) tₘ := by
  rw [ddsCallback_of_valid hm]
  exact {
    received := rfl
    haveGoal := rfl
    receiveTime := rfl
    gain := hgain
    initialized := fun _ => rfl
    angle := fun _ => Set.right_mem_uIcc
    goal := fun _ _ => rfl
    between := fun _ => Set.right_mem_uIcc
    towards := by simp
    phase := .holding rfl rfl rfl (by simp) }

/-- The goals of the next state lie between zero and those of this one. -/
theorem AfterMessage.towards_cons {s' : Px4ServoToDynamixel} {k : Entry}
    (hs : AfterMessage tₘ msg a s t)
    (hnext : ∀ j, s'.latestGoalPpr j ∈ Set.uIcc (zeroGoal j) (s.latestGoalPpr j))
    (hk : ∀ g, k.out = some g → g = s'.latestGoalPpr) :
    ∀ k' ∈ k :: a, ∀ g, k'.out = some g →
      ∀ j, s'.latestGoalPpr j ∈ Set.uIcc (zeroGoal j) (g j) := by
  intro k' hk' g hg j
  rcases List.mem_cons.mp hk' with rfl | hk'
  · rw [hk g hg]
    exact Set.right_mem_uIcc
  · exact mem_uIcc_trans (hnext j) (hs.towards k' hk' g hg j)

/-- What a tick writes, as its entry in the history has it. -/
theorem record_timer_out {s' : Px4ServoToDynamixel} {g : GoalPpr}
    (heq : s.timeoutCallback now = (s', some g)) :
    ∀ g', (dxlBridge.record s (.timer now)).out = some g' → g' = g := by
  intro g' hg
  have hg : (s.timeoutCallback now).2 = some g' := hg
  rw [heq] at hg
  exact (Option.some.inj hg).symm

/-- A completed return has left the servos at zero. -/
theorem AfterMessage.goal_eq_zero (hs : AfterMessage tₘ msg a s t)
    (hc : s.zeroReturnComplete = true) : s.latestGoalPpr = zeroGoal := by
  cases hs.phase with
  | holding _ hc' => simp [hc] at hc'
  | returning _ hc' => simp [hc] at hc'
  | returned _ _ hg => exact hg

/-- The start of the return to zero that a tick past the timeout belongs to. -/
theorem AfterMessage.returnStart_facts (hs : AfterMessage tₘ msg a s t) (ht : t ≤ now)
    (hc : s.zeroReturnComplete = false) (hgap : ddsReceiveTimeoutSec ≤ secs (now - tₘ)) :
    ddsReceiveTimeoutSec ≤ secs (s.returnStart now - tₘ) ∧ s.returnStart now ≤ now ∧
      ∀ k ∈ a, ∀ now', k.event = .timer now' → ddsReceiveTimeoutSec ≤ secs (now' - tₘ) →
        s.returnStart now ≤ now' := by
  cases hs.phase with
  | holding hr _ _ hn =>
    have hstart : s.returnStart now = now := by simp [returnStart, hr]
    rw [hstart]
    refine ⟨hgap, le_rfl, fun k hk now' he hge => ?_⟩
    exact absurd hge (not_le.mpr (hn k hk now' he))
  | returning hr _ hstart' hle hn =>
    have hstart : s.returnStart now = s.returnStartSteady := by simp [returnStart, hr]
    rw [hstart]
    exact ⟨hstart', hle.trans ht, hn⟩
  | returned hc' => simp [hc] at hc'

/-- Before the timeout a run still holds its message. -/
theorem AfterMessage.holding_of_active (hs : AfterMessage tₘ msg a s t) (ht : t ≤ now)
    (hgap : secs (now - tₘ) < ddsReceiveTimeoutSec) :
    s.returningToZero = false ∧ s.zeroReturnComplete = false ∧
      s.latestGoalPpr = messageGoal msg ∧
      ∀ k ∈ a, ∀ now', k.event = .timer now' → secs (now' - tₘ) < ddsReceiveTimeoutSec := by
  cases hs.phase with
  | holding hr hc hg hn => exact ⟨hr, hc, hg, hn⟩
  | returning _ _ hstart hle =>
    have hmono := secs_mono (sub_le_sub_right (hle.trans ht) tₘ)
    exact absurd (hstart.trans hmono) (not_le.mpr hgap)
  | returned _ hle =>
    have hmono := secs_mono (sub_le_sub_right ht tₘ)
    exact absurd (hle.trans hmono) (not_le.mpr hgap)

/-- A step that leaves the state alone, as a tick does while holding and after the return. -/
theorem AfterMessage.unchanged {k : Entry} (hs : AfterMessage tₘ msg a s t)
    (hk : ∀ g, k.out = some g → g = s.latestGoalPpr) (hphase : Phase tₘ msg (k :: a) s now) :
    AfterMessage tₘ msg (k :: a) s now :=
  { hs with
    towards := hs.towards_cons (fun _ => Set.right_mem_uIcc) hk
    phase := hphase }

/-- One filter update towards zero. -/
theorem AfterMessage.update_mem (hs : AfterMessage tₘ msg a s t) (j : Fin 6) :
    ((s.servoLpf j).update 0).y ∈ Set.uIcc 0 (s.servoLpf j).y :=
  LPF.update_mem_uIcc (hs.initialized j) (hs.gain j) 0

/-- A tick that steps the goals towards zero. -/
theorem AfterMessage.timer_returning (hs : AfterMessage tₘ msg a s t) (ht : t ≤ now)
    (hgap : ddsReceiveTimeoutSec ≤ secs (now - tₘ)) (hc : s.zeroReturnComplete = false)
    (hf : secs (now - s.returnStart now) < servoReturnTimeSec) :
    AfterMessage tₘ msg (dxlBridge.record s (.timer now) :: a) (s.timeoutCallback now).1 now ∧
      (s.timeoutCallback now).2 = some (s.timeoutCallback now).1.latestGoalPpr := by
  have heq := timeoutCallback_of_returning hs.received hs.haveGoal
    (hs.receiveTime.symm ▸ hgap) hc hf
  obtain ⟨hstart, hle, hold⟩ := hs.returnStart_facts ht hc hgap
  have hrange : ∀ j, InRange (s.servoLpf j).y := fun j =>
    (messageRad_inRange msg j).of_mem_uIcc (hs.angle j)
  -- the goals move from their last values towards zero
  have hnext : ∀ j, toPpr (dxlServos j) ((s.servoLpf j).update 0).y ∈
      Set.uIcc (zeroGoal j) (s.latestGoalPpr j) := by
    intro j
    rw [hs.goal hc j]
    exact toPpr_mem_uIcc j (hrange j) (hs.update_mem j)
  rw [startReturn_eq] at heq
  have hk := record_timer_out heq
  refine ⟨?_, by rw [heq]⟩
  rw [heq]
  refine {
    received := hs.received
    haveGoal := hs.haveGoal
    receiveTime := hs.receiveTime
    gain := fun j => (LPF.update_alpha _ _).trans (hs.gain j)
    initialized := fun j => LPF.update_initialized _ _
    angle := fun j => mem_uIcc_trans (hs.update_mem j) (hs.angle j)
    goal := fun _ _ => rfl
    between := fun j => mem_uIcc_trans (hnext j) (hs.between j)
    towards := hs.towards_cons hnext hk
    phase := .returning rfl hc hstart hle ?_ }
  intro k hk' now' he hge
  rcases List.mem_cons.mp hk' with rfl | hk'
  · obtain rfl := ServoEvent.timer.inj he
    exact hle
  · exact hold k hk' now' he hge

/-- A tick that ends the return to zero. -/
theorem AfterMessage.timer_finished (hs : AfterMessage tₘ msg a s t)
    (hgap : ddsReceiveTimeoutSec ≤ secs (now - tₘ)) (hc : s.zeroReturnComplete = false)
    (hf : servoReturnTimeSec ≤ secs (now - s.returnStart now)) :
    AfterMessage tₘ msg (dxlBridge.record s (.timer now) :: a) (s.timeoutCallback now).1 now ∧
      (s.timeoutCallback now).2 = some (s.timeoutCallback now).1.latestGoalPpr := by
  have heq := timeoutCallback_of_finished hs.received hs.haveGoal
    (hs.receiveTime.symm ▸ hgap) hc hf
  rw [startReturn_eq] at heq
  have hk := record_timer_out heq
  refine ⟨?_, by rw [heq]⟩
  rw [heq]
  exact {
    received := hs.received
    haveGoal := hs.haveGoal
    receiveTime := hs.receiveTime
    gain := hs.gain
    initialized := fun j => rfl
    angle := fun j => Set.left_mem_uIcc
    goal := by simp
    between := fun j => Set.left_mem_uIcc
    towards := hs.towards_cons (fun j => Set.left_mem_uIcc) hk
    phase := .returned rfl hgap rfl }

/-- A tick of the timer keeps the invariant and writes the latest goals. -/
theorem AfterMessage.timer (hs : AfterMessage tₘ msg a s t) (ht : t ≤ now) :
    AfterMessage tₘ msg (dxlBridge.record s (.timer now) :: a) (s.timeoutCallback now).1 now ∧
      (s.timeoutCallback now).2 = some (s.timeoutCallback now).1.latestGoalPpr := by
  -- the two cases in which the tick only writes
  have hheld : (secs (now - tₘ) < ddsReceiveTimeoutSec ∨ s.zeroReturnComplete = true) →
      Phase tₘ msg (dxlBridge.record s (.timer now) :: a) s now →
      AfterMessage tₘ msg (dxlBridge.record s (.timer now) :: a) (s.timeoutCallback now).1 now ∧
        (s.timeoutCallback now).2 = some (s.timeoutCallback now).1.latestGoalPpr := by
    intro hcond hphase
    have heq : s.timeoutCallback now = (s, some s.latestGoalPpr) :=
      timeoutCallback_of_holding hs.received hs.haveGoal (hs.receiveTime.symm ▸ hcond)
    have hk := record_timer_out heq
    rw [heq]
    exact ⟨hs.unchanged hk hphase, rfl⟩
  rcases lt_or_ge (secs (now - tₘ)) ddsReceiveTimeoutSec with hgap | hgap
  · obtain ⟨hr, hc, hg, hn⟩ := hs.holding_of_active ht hgap
    refine hheld (Or.inl hgap) (.holding hr hc hg ?_)
    intro k hk now' he
    rcases List.mem_cons.mp hk with rfl | hk
    · obtain rfl := ServoEvent.timer.inj he
      exact hgap
    · exact hn k hk now' he
  cases hc : s.zeroReturnComplete with
  | true => exact hheld (Or.inr hc) (.returned hc hgap (hs.goal_eq_zero hc))
  | false =>
    rcases lt_or_ge (secs (now - s.returnStart now)) servoReturnTimeSec with hf | hf
    · exact hs.timer_returning ht hgap hc hf
    · exact hs.timer_finished hgap hc hf

/-- `SERVO_RETURN_TIME_SEC` after any tick of the outage, a tick writes the zero goals. -/
theorem AfterMessage.timer_zero (hs : AfterMessage tₘ msg a s t) (ht : t ≤ now) {k : Entry}
    {now' : Time} (hk : k ∈ a) (he : k.event = .timer now')
    (hge : ddsReceiveTimeoutSec ≤ secs (now' - tₘ)) (hle : now' ≤ now)
    (hret : servoReturnTimeSec ≤ secs (now - now')) :
    (s.timeoutCallback now).1.latestGoalPpr = zeroGoal := by
  have hgap : ddsReceiveTimeoutSec ≤ secs (now - tₘ) :=
    hge.trans (secs_mono (sub_le_sub_right hle tₘ))
  cases hc : s.zeroReturnComplete with
  | true =>
    rw [timeoutCallback_of_holding hs.received hs.haveGoal (Or.inr hc)]
    exact hs.goal_eq_zero hc
  | false =>
    obtain ⟨-, -, hold⟩ := hs.returnStart_facts ht hc hgap
    have hstart := hold k hk now' he hge
    have hf : servoReturnTimeSec ≤ secs (now - s.returnStart now) :=
      hret.trans (secs_mono (sub_le_sub_left hstart now))
    rw [timeoutCallback_of_finished hs.received hs.haveGoal (hs.receiveTime.symm ▸ hgap) hc hf]
    rfl

/-- Every step without a valid message keeps the invariant. -/
theorem AfterMessage.handle (hs : AfterMessage tₘ msg a s t) {e : ServoEvent}
    (ht : t ≤ e.now) (he : ¬ e.IsValid) :
    AfterMessage tₘ msg (dxlBridge.record s e :: a) (s.handle e).1 e.now := by
  cases e with
  | timer now => exact (hs.timer ht).1
  | actuatorServos now m =>
    have heq : s.ddsCallback now m = s := ddsCallback_of_invalid he
    show AfterMessage tₘ msg _ (s.ddsCallback now m) now
    rw [heq]
    refine hs.unchanged (fun g hg => by cases hg) ?_
    cases hs.phase with
    | holding hr hc hg hn =>
      refine .holding hr hc hg fun k hk now' he => ?_
      rcases List.mem_cons.mp hk with rfl | hk
      · cases he
      · exact hn k hk now' he
    | returning hr hc hstart hle hn =>
      refine .returning hr hc hstart (hle.trans ht) fun k hk now' he hge => ?_
      rcases List.mem_cons.mp hk with rfl | hk
      · cases he
      · exact hn k hk now' he hge
    | returned hc hle hg =>
      exact .returned hc (hle.trans (secs_mono (sub_le_sub_right ht tₘ))) hg

end Step

/-! ## Along a run -/

section Run

variable {t₀ tₘ t : Time} {msg : ActuatorServos} {a b h : History} {s : Px4ServoToDynamixel}

/-- The filters keep the gain of the constructor. -/
theorem IsRun.gain (hr : IsRun t₀ h s t) (j : Fin 6) :
    (s.servoLpf j).alpha = LPF.gain servoReturnTimeSec := by
  induction hr with
  | start => rfl
  | handle e _ _ _ ih => exact (handle_alpha e j).trans ih

/-- Until a valid message comes the node is waiting for one. -/
theorem IsRun.waiting (hr : IsRun t₀ h s t) (hn : ∀ k ∈ h, ¬ k.event.IsValid) :
    s.ddsReceived = false := by
  induction hr with
  | start => rfl
  | @handle h s t e hr _ _ ih =>
    have hs := ih fun k hk => hn k (List.mem_cons_of_mem _ hk)
    have he : ¬ e.IsValid := hn _ List.mem_cons_self
    cases e with
    | timer now => exact (timeoutCallback_of_waiting hs).2
    | actuatorServos now m =>
      have heq : s.ddsCallback now m = s := ddsCallback_of_invalid he
      show (s.ddsCallback now m).ddsReceived = false
      rw [heq]
      exact hs

/-- The invariant holds since the last valid message. -/
theorem IsRun.afterMessage {kₘ : Entry} (hr : IsRun t₀ (a ++ kₘ :: b) s t)
    (he : kₘ.event = .actuatorServos tₘ msg) (hm : msg.Finite)
    (ha : ∀ k ∈ a, ¬ k.event.IsValid) : AfterMessage tₘ msg a s t := by
  induction a generalizing s t with
  | nil =>
    obtain ⟨t', hr', -, -, -, hpost, rfl, rfl⟩ := hr.newest
    rw [hpost, he]
    exact afterMessage_ddsCallback tₘ (IsRun.gain hr') hm
  | cons k a ih =>
    rw [List.cons_append] at hr
    cases hr with
    | handle e hr hin _ =>
      have hs := ih hr fun k' hk' => ha k' (List.mem_cons_of_mem _ hk')
      exact hs.handle hin (ha _ List.mem_cons_self)

end Run

/-! ## What every tick writes -/

/-- The goals `g` that a tick at `now` writes, `a` after the last valid message, at `tₘ`. -/
structure Writes (tₘ : Time) (msg : ActuatorServos) (a : History) (now : Time)
    (g : GoalPpr) : Prop where
  /-- Before the timeout it writes what the message commands. -/
  message : secs (now - tₘ) < ddsReceiveTimeoutSec → g = messageGoal msg
  /-- No servo is sent past its zero count, or further from it than the message asks. -/
  between : ∀ j, g j ∈ Set.uIcc (zeroGoal j) (messageGoal msg j)
  /-- Every servo is at or on the way to zero from where an earlier tick sent it. -/
  towards : ∀ k ∈ a, ∀ g', k.out = some g' → ∀ j, g j ∈ Set.uIcc (zeroGoal j) (g' j)
  /-- `SERVO_RETURN_TIME_SEC` after a tick past the timeout every servo is at zero. -/
  zero : ∀ k ∈ a, ∀ now', k.event = .timer now' → ddsReceiveTimeoutSec ≤ secs (now' - tₘ) →
    servoReturnTimeSec ≤ secs (now - now') → g = zeroGoal

/-- The outage handling of one step: an invalid message changes nothing, a tick writes nothing
    before the first valid message, and what `Writes` says of the last one after it. -/
structure HandlesOutage (k : Entry) (past : History) : Prop where
  invalid : ∀ now m, k.event = .actuatorServos now m → ¬ m.Finite → k.post = k.pre
  waiting : ∀ now, k.event = .timer now → (∀ k' ∈ past, ¬ k'.event.IsValid) → k.out = none
  writes : ∀ now, k.event = .timer now → ∀ a kₘ b tₘ msg, past = a ++ kₘ :: b →
    kₘ.event = .actuatorServos tₘ msg → msg.Finite → (∀ k' ∈ a, ¬ k'.event.IsValid) →
    ∃ g, k.out = some g ∧ Writes tₘ msg a now g

/-- In every run, from the first message through every outage and recovery. -/
theorem outage_handling {t₀ t : Time} {h : History} {s : Px4ServoToDynamixel}
    (hr : IsRun t₀ h s t) : Past.Always (Past.At HandlesOutage) h := by
  refine Machine.Run.always hr ?_
  intro k past s t hr
  obtain ⟨t', hr', hin, -, hout, hpost, -, -⟩ := hr.newest
  refine ⟨?_, ?_, ?_⟩
  · intro now m he hm
    rw [hpost, he]
    exact ddsCallback_of_invalid hm
  · intro now he hn
    rw [hout, he]
    exact (timeoutCallback_of_waiting (IsRun.waiting hr' hn)).1
  · rintro now he a kₘ b tₘ msg rfl heₘ hm ha
    have hs := IsRun.afterMessage hr' heₘ hm ha
    have ht : t' ≤ now := by
      rw [he] at hin
      exact hin
    obtain ⟨hs', hwrite⟩ := hs.timer ht
    refine ⟨(k.pre.timeoutCallback now).1.latestGoalPpr, ?_, ?_⟩
    · rw [hout, he]
      exact hwrite
    refine ⟨?_, hs'.between, ?_, ?_⟩
    · intro hgap
      have hgap' := hs.receiveTime.symm ▸ hgap
      rw [timeoutCallback_of_holding hs.received hs.haveGoal (Or.inl hgap')]
      exact (hs.holding_of_active ht hgap).2.2.1
    · intro k' hk'
      exact hs'.towards k' (List.mem_cons_of_mem _ hk')
    · intro k' hk' now' he' hge hret
      have hle : now' ≤ now := by
        have hmem : k' ∈ a ++ kₘ :: b := List.mem_append_left _ hk'
        have hlast := (hr'.event_times hmem).2.2
        rw [he'] at hlast
        exact hlast.trans ht
      exact hs.timer_zero ht hk' he' hge hle hret

/-! ## A tick that finds the next outage -/

/-- A message with the same value in all controls. -/
def constantMessage (v : ℝ) : ActuatorServos where
  timestamp := 0
  control := fun _ => num v

theorem constantMessage_finite (v : ℝ) : (constantMessage v).Finite := fun _ => isNum_num v

/-- An outage with its return to zero, and a message that the next tick finds timed out. -/
noncomputable def lateTickEvents : List ServoEvent :=
  [.actuatorServos 0 (constantMessage 1),
    .timer 500000000,
    .timer 5500000000,
    .actuatorServos 6000000000 (constantMessage (-1)),
    .timer 6600000000]

theorem lateTickEvents_timed : dxlBridge.Timed 0 lateTickEvents :=
  ⟨by decide, le_rfl, by decide, le_rfl, by decide, le_rfl, by decide, le_rfl, by decide, le_rfl,
    trivial⟩

theorem outage_handling_lateTick :
    Past.Always (Past.At HandlesOutage)
      (dxlBridge.trace (afterStartup 0) lateTickEvents []) := by
  obtain ⟨s, t, hr⟩ :=
    Machine.run_trace (afterStartup 0) 0 lateTickEvents lateTickEvents_timed
  exact outage_handling hr

/-- The tick right after the message that ends a completed return writes that message's
    goal. -/
def NextTickWritesMessage (k : Entry) (past : History) : Prop :=
  ∀ now kₘ b tₘ msg, k.event = .timer now → past = kₘ :: b →
    kₘ.event = .actuatorServos tₘ msg → msg.Finite → kₘ.pre.zeroReturnComplete = true →
    k.out = some (messageGoal msg)

/-- A tick past the timeout of the message before it starts a return to zero. -/
theorem timeoutCallback_ddsCallback {s : Px4ServoToDynamixel} {tₘ now : Time}
    {msg : ActuatorServos} (hm : msg.Finite) (hgap : ddsReceiveTimeoutSec ≤ secs (now - tₘ)) :
    (s.ddsCallback tₘ msg).timeoutCallback now =
      ({ (s.ddsCallback tₘ msg).startReturn now with
          servoLpf := fun j => ((s.ddsCallback tₘ msg).servoLpf j).update 0
          latestGoalPpr := fun j =>
            toPpr (dxlServos j) (((s.ddsCallback tₘ msg).servoLpf j).update 0).y },
        some fun j => toPpr (dxlServos j) (((s.ddsCallback tₘ msg).servoLpf j).update 0).y) := by
  obtain ⟨hd, hg, ht, hr, hc⟩ : (s.ddsCallback tₘ msg).ddsReceived = true ∧
      (s.ddsCallback tₘ msg).haveGoal = true ∧
      (s.ddsCallback tₘ msg).lastDdsReceiveSteady = tₘ ∧
      (s.ddsCallback tₘ msg).returningToZero = false ∧
      (s.ddsCallback tₘ msg).zeroReturnComplete = false := by
    rw [ddsCallback_of_valid hm]
    exact ⟨rfl, rfl, rfl, rfl, rfl⟩
  have hstart : (s.ddsCallback tₘ msg).returnStart now = now := by simp [returnStart, hr]
  have hf : secs (now - (s.ddsCallback tₘ msg).returnStart now) < servoReturnTimeSec := by
    rw [hstart, sub_self]
    decide +kernel
  exact timeoutCallback_of_returning hd hg (ht.symm ▸ hgap) hc hf

/-- Its goals have moved on by one filter update. -/
theorem timeoutCallback_ddsCallback_snd {s : Px4ServoToDynamixel} {tₘ now : Time}
    {msg : ActuatorServos} (hgain : ∀ j, (s.servoLpf j).alpha = LPF.gain servoReturnTimeSec)
    (hm : msg.Finite) (hgap : ddsReceiveTimeoutSec ≤ secs (now - tₘ)) :
    ((s.ddsCallback tₘ msg).timeoutCallback now).2 = some fun j =>
      toPpr (dxlServos j) (approach (LPF.gain servoReturnTimeSec) 0 (messageRad msg j)) := by
  have hs := afterMessage_ddsCallback tₘ hgain hm
  have hy : ∀ j, ((s.ddsCallback tₘ msg).servoLpf j).y = messageRad msg j := by
    rw [ddsCallback_of_valid hm]
    exact fun j => rfl
  rw [timeoutCallback_ddsCallback hm hgap]
  simp only [LPF.update_y_real (hs.initialized _), hs.gain, hy]

theorem counts_servo_zero (rad : ℝ) :
    counts (dxlServos 0) rad = max 0 (min (lround (2048 + rad * pprPerRad)) 4095) := by
  rw [← clamp_eq (by norm_num)]
  simp [counts, dxlServos]

theorem messageRad_lower : messageRad (constantMessage (-1)) 0 = -Real.pi := by
  simp [messageRad, constantMessage, clamp, dxlServos, betaLimitRad]

theorem messageGoal_lower : messageGoal (constantMessage (-1)) 0 = 0 := by
  have hexact : 2048 + messageRad (constantMessage (-1)) 0 * pprPerRad = (0 : ℤ) := by
    rw [messageRad_lower, neg_mul, pi_mul_pprPerRad]
    norm_num
  rw [messageGoal, toPpr_eq_counts 0 (messageRad_inRange _ 0), counts_servo_zero, hexact,
    lround_intCast]
  rfl

/-- One update away from its lower end the first servo is off the end by a count. -/
theorem one_le_toPpr_update :
    1 ≤ toPpr (dxlServos 0) (approach (LPF.gain servoReturnTimeSec) 0
      (messageRad (constantMessage (-1)) 0)) := by
  have hgain : 1 / 4096 ≤ LPF.gain servoReturnTimeSec :=
    LPF.le_gain (n := 2000) (by norm_num [servoReturnTimeSec])
      (by norm_num [servoReturnTimeSec, rateHz]) (by norm_num) (by norm_num)
  have hmem := approach_mem_uIcc (LPF.gain_pos servoReturnTimeSec).le
    (LPF.gain_le_one servoReturnTimeSec) 0 (messageRad (constantMessage (-1)) 0)
  -- the exact position is half a count or more
  have hexact : 2048 + approach (LPF.gain servoReturnTimeSec) 0
      (messageRad (constantMessage (-1)) 0) * pprPerRad =
        2048 * LPF.gain servoReturnTimeSec := by
    rw [messageRad_lower, approach]
    linear_combination (LPF.gain servoReturnTimeSec - 1) * pi_mul_pprPerRad
  have hround : 1 ≤ lround (2048 * LPF.gain servoReturnTimeSec) := by
    rw [lround, if_pos (by linarith)]
    exact Int.le_floor.mpr (by push_cast; linarith)
  rw [toPpr_eq_counts 0 ((messageRad_inRange _ 0).of_mem_uIcc hmem), counts_servo_zero, hexact]
  exact le_max_of_le_right (le_min hround (by norm_num))

theorem nextTick_fails :
    ¬ ∀ (t₀ t : Time) (h : History) (s : Px4ServoToDynamixel), IsRun t₀ h s t →
      Past.Always (Past.At NextTickWritesMessage) h := by
  intro hall
  obtain ⟨s, t, hr⟩ :=
    Machine.run_trace (afterStartup 0) 0 lateTickEvents lateTickEvents_timed
  have hnew := (hall 0 t _ s hr).1 6600000000 _ _ 6000000000 (constantMessage (-1)) rfl rfl rfl
    (constantMessage_finite _) (by decide +kernel)
  obtain ⟨t', hr', -⟩ := Machine.Run.newest hr
  obtain ⟨t'', hr'', -⟩ := Machine.Run.newest hr'
  have hgap : ddsReceiveTimeoutSec ≤ secs ((6600000000 : Time) - 6000000000) := by
    decide +kernel
  have hout := timeoutCallback_ddsCallback_snd (IsRun.gain hr'') (constantMessage_finite (-1)) hgap
  have hgoal := congrFun (Option.some.inj (hout.symm.trans hnew)) 0
  have hle := one_le_toPpr_update
  rw [hgoal, messageGoal_lower] at hle
  exact absurd hle (by norm_num)

end Px4ServoToDynamixel

end Hummingbird
