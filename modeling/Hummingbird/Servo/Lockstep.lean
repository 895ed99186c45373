/-
  The simulation bridge and the hardware bridge on the same events.

  `bridges` hands every event to both nodes. `Lockstep g d t` is the relation of their states
  from the first message on: the filters of a joint and of its servo hold the same angle, the
  goals are the counts of these angles, and the flags, which the nodes keep differently, say
  the same phase. After the return to zero the simulation bridge goes on updating filters that
  are at zero while the hardware bridge latches a flag. `lockstep_message` establishes the
  relation, `Lockstep.timer` keeps it, and `anglesAgree` reads off it that what was published
  for a joint and the goal of its servo are the same angle.
-/
import Hummingbird.Servo.Dynamixel
import Hummingbird.Servo.Gz

namespace Hummingbird

namespace ServoBridges

open WithNaN Approach Px4ServoToGz Px4ServoToDynamixel

/-- The two nodes on the same events. -/
noncomputable abbrev bridges :
    Machine (Px4ServoToGz × Px4ServoToDynamixel) ServoEvent (JointCommands × Option GoalPpr)
      Time :=
  gzBridge.prod dxlBridge

abbrev Entry :=
  Machine.Step (Px4ServoToGz × Px4ServoToDynamixel) ServoEvent (JointCommands × Option GoalPpr)

/-- What the two nodes have handled, newest first. -/
abbrev History := List Entry

/-- The nodes before the first event: the simulation bridge without wobble and with all its
    publishers, constructed at the time `now`, the hardware bridge ready at the time `ready`. -/
noncomputable def launched (servoWobbleHz : ℝ) (start now ready : Time) :
    Px4ServoToGz × Px4ServoToDynamixel :=
  (construct 0 servoWobbleHz (fun _ => true) start now, afterStartup ready)

/-! ## The relation of the two states -/

/-- What no event changes. -/
structure Configured (g : Px4ServoToGz) (d : Px4ServoToDynamixel) : Prop where
  wobble : g.wobbleDeg = 0
  valid : ∀ i, g.servoPubsValid i = true
  gzGain : ∀ i, (g.servoLpf i).alpha = LPF.gain servoReturnTimeSec
  dxlGain : ∀ j, (d.servoLpf j).alpha = LPF.gain servoReturnTimeSec

/-- The phase the two nodes are in, by the flags of each. -/
inductive Phase (g : Px4ServoToGz) (d : Px4ServoToDynamixel) (t : Time) : Prop
  | holding (hg : g.returningToZero = false) (hd : d.returningToZero = false)
      (hc : d.zeroReturnComplete = false)
  | returning (hg : g.returningToZero = true) (hd : d.returningToZero = true)
      (hc : d.zeroReturnComplete = false) (hs : g.returnStartTime = d.returnStartSteady)
      (ht : ddsReceiveTimeoutSec ≤ secs (t - g.lastActuatorMsgTime))
  | returned (hg : g.returningToZero = true) (hc : d.zeroReturnComplete = true)
      (hy : ∀ j, (d.servoLpf j).y = 0)
      (hf : servoReturnTimeSec ≤ secs (t - g.returnStartTime))
      (ht : ddsReceiveTimeoutSec ≤ secs (t - g.lastActuatorMsgTime))

/-- The two nodes command the same angles. -/
structure Lockstep (g : Px4ServoToGz) (d : Px4ServoToDynamixel) (t : Time) : Prop where
  received : d.ddsReceived = true
  haveGoal : d.haveGoal = true
  receiveTime : d.lastDdsReceiveSteady = g.lastActuatorMsgTime
  gzInitialized : ∀ i, (g.servoLpf i).initialized = true
  dxlInitialized : ∀ j, (d.servoLpf j).initialized = true
  angle : ∀ i, (g.servoLpf i).y = num (d.servoLpf (servoControlIndex i)).y
  goal : ∀ j, d.latestGoalPpr j = toPpr (dxlServos j) (d.servoLpf j).y
  phase : Phase g d t

/-- The simulation bridge has published what its filters hold, or nothing when they have not
    moved. -/
def Publishes (g g' : Px4ServoToGz) (out : JointCommands) : Prop :=
  ∀ i, out i = some (g'.servoLpf i).y ∨ out i = none ∧ (g'.servoLpf i).y = (g.servoLpf i).y

theorem servoLimitRad_eq (i : Fin 8) :
    servoLimitRad i = (dxlServos (servoControlIndex i)).angleLimitRad := by
  fin_cases i <;> rfl

theorem jointCommand_eq_messageRad {g : Px4ServoToGz} {now : Time} {msg : ActuatorServos}
    (hw : g.wobbleDeg = 0) (hm : msg.Finite) (i : Fin 8) :
    g.jointCommand now msg i = num (messageRad msg (servoControlIndex i)) := by
  rw [jointCommand_of_num hw (hm _), servoLimitRad_eq]
  rfl

section Step

variable {g : Px4ServoToGz} {d : Px4ServoToDynamixel} {t now : Time} {msg : ActuatorServos}

theorem publish_of_valid (hc : Configured g d) (command : Fin 8 → Double) (i : Fin 8) :
    g.publish command i = some (command i) :=
  if_pos (hc.valid i)

theorem publishes_of_valid (hc : Configured g d) {g' : Px4ServoToGz} {command : Fin 8 → Double}
    (hy : ∀ i, command i = (g'.servoLpf i).y) : Publishes g g' (g.publish command) := by
  intro i
  left
  rw [publish_of_valid hc, hy i]

theorem Configured.handle (hc : Configured g d) (e : ServoEvent) :
    Configured (g.handle e).1 (d.handle e).1 := by
  obtain ⟨hw, hv, hgain⟩ := Px4ServoToGz.handle_config (s := g) e
  exact {
    wobble := hw.trans hc.wobble
    valid := fun i => (congrFun hv i).trans (hc.valid i)
    gzGain := fun i => (hgain i).trans (hc.gzGain i)
    dxlGain := fun j => (Px4ServoToDynamixel.handle_alpha e j).trans (hc.dxlGain j) }

/-- A message puts both nodes on the same angles, wherever they were before. -/
theorem lockstep_message (now : Time) (hc : Configured g d) (hm : msg.Finite) :
    Lockstep (g.actuatorServosCallback now msg).1 (d.ddsCallback now msg) now ∧
      ∀ i, (g.actuatorServosCallback now msg).2 i =
        some ((g.actuatorServosCallback now msg).1.servoLpf i).y := by
  rw [ddsCallback_of_valid hm]
  refine ⟨?_, fun i => publish_of_valid hc _ i⟩
  exact {
    received := rfl
    haveGoal := rfl
    receiveTime := rfl
    gzInitialized := fun _ => rfl
    dxlInitialized := fun _ => rfl
    angle := fun i => jointCommand_eq_messageRad hc.wobble hm i
    goal := fun _ => rfl
    phase := .holding rfl rfl rfl }

/-- A tick before the timeout: the simulation bridge is silent, the hardware bridge repeats
    its goals. -/
theorem Lockstep.timer_active (hs : Lockstep g d t) (ht : t ≤ now)
    (hgap : secs (now - g.lastActuatorMsgTime) < ddsReceiveTimeoutSec) :
    Lockstep (g.publishTimer now).1 (d.timeoutCallback now).1 now ∧
      Publishes g (g.publishTimer now).1 (g.publishTimer now).2 := by
  have hmono := secs_mono (sub_le_sub_right ht g.lastActuatorMsgTime)
  have hgap' := hs.receiveTime.symm ▸ hgap
  rw [publishTimer_of_active hgap,
    timeoutCallback_of_holding hs.received hs.haveGoal (Or.inl hgap')]
  refine ⟨?_, fun i => Or.inr ⟨rfl, rfl⟩⟩
  cases hs.phase with
  | holding hg hd hc => exact { hs with phase := .holding rfl hd hc }
  | returning _ _ _ _ hle => exact absurd (hle.trans hmono) (not_le.mpr hgap)
  | returned _ _ _ _ hle => exact absurd (hle.trans hmono) (not_le.mpr hgap)

/-- A tick past the timeout, while the return to zero is not complete: both nodes take the
    same step of the same return. -/
theorem Lockstep.timer_outage (hs : Lockstep g d t) (hc : Configured g d)
    (hgap : ddsReceiveTimeoutSec ≤ secs (now - g.lastActuatorMsgTime))
    (hn : d.zeroReturnComplete = false) :
    Lockstep (g.publishTimer now).1 (d.timeoutCallback now).1 now ∧
      Publishes g (g.publishTimer now).1 (g.publishTimer now).2 := by
  have hgap' := hs.receiveTime.symm ▸ hgap
  have hstart : g.returnStart now = d.returnStart now := by
    unfold Px4ServoToGz.returnStart Px4ServoToDynamixel.returnStart
    cases hs.phase with
    | holding hg hd => rw [hg, hd]; rfl
    | returning hg hd _ heq => rw [hg, hd, heq]
    | returned _ hc' => simp [hn] at hc'
  rcases lt_or_ge (secs (now - g.returnStart now)) servoReturnTimeSec with hf | hf
  · have hangle : ∀ i, ((g.servoLpf i).update 0).y =
        num ((d.servoLpf (servoControlIndex i)).update 0).y := by
      intro i
      rw [zero_eq, LPF.update_y_num (hs.gzInitialized i) (hs.angle i),
        LPF.update_y_real (hs.dxlInitialized _), hc.gzGain, hc.dxlGain]
    rw [publishTimer_of_returning hgap hf,
      timeoutCallback_of_returning hs.received hs.haveGoal hgap' hn (hstart ▸ hf),
      Px4ServoToDynamixel.startReturn_eq]
    refine ⟨?_, publishes_of_valid hc fun _ => rfl⟩
    exact {
      received := hs.received
      haveGoal := hs.haveGoal
      receiveTime := hs.receiveTime
      gzInitialized := fun i => LPF.update_initialized _ _
      dxlInitialized := fun j => LPF.update_initialized _ _
      angle := hangle
      goal := fun _ => rfl
      phase := .returning rfl rfl hn hstart hgap }
  · rw [publishTimer_of_finished hgap hf,
      timeoutCallback_of_finished hs.received hs.haveGoal hgap' hn (hstart ▸ hf),
      Px4ServoToDynamixel.startReturn_eq]
    refine ⟨?_, publishes_of_valid hc fun _ => rfl⟩
    exact {
      received := hs.received
      haveGoal := hs.haveGoal
      receiveTime := hs.receiveTime
      gzInitialized := fun i => rfl
      dxlInitialized := fun j => rfl
      angle := fun _ => rfl
      goal := fun j => (toPpr_zero j).symm
      phase := .returned rfl rfl (fun _ => rfl) hf hgap }

/-- A tick after the return to zero: the simulation bridge publishes zeros from filters it
    resets again, the hardware bridge repeats its zero counts. -/
theorem Lockstep.timer_returned (hs : Lockstep g d t) (hc : Configured g d) (ht : t ≤ now)
    (hgap : ddsReceiveTimeoutSec ≤ secs (now - g.lastActuatorMsgTime))
    (hn : d.zeroReturnComplete = true) :
    Lockstep (g.publishTimer now).1 (d.timeoutCallback now).1 now ∧
      Publishes g (g.publishTimer now).1 (g.publishTimer now).2 := by
  cases hs.phase with
  | holding _ _ hc' => simp [hn] at hc'
  | returning _ _ hc' => simp [hn] at hc'
  | returned hg _ hy hf _ =>
    have hstart : g.returnStart now = g.returnStartTime := by
      simp [Px4ServoToGz.returnStart, hg]
    have hf' : servoReturnTimeSec ≤ secs (now - g.returnStart now) := by
      rw [hstart]
      exact hf.trans (secs_mono (sub_le_sub_right ht _))
    rw [publishTimer_of_finished hgap hf',
      timeoutCallback_of_holding hs.received hs.haveGoal (Or.inr hn)]
    refine ⟨?_, publishes_of_valid hc fun _ => rfl⟩
    exact {
      received := hs.received
      haveGoal := hs.haveGoal
      receiveTime := hs.receiveTime
      gzInitialized := fun i => rfl
      dxlInitialized := hs.dxlInitialized
      angle := fun i => congrArg num (hy _).symm
      goal := hs.goal
      phase := .returned rfl hn hy hf' hgap }

/-- A tick of both timers keeps the nodes in lockstep. -/
theorem Lockstep.timer (hs : Lockstep g d t) (hc : Configured g d) (ht : t ≤ now) :
    Lockstep (g.publishTimer now).1 (d.timeoutCallback now).1 now ∧
      Publishes g (g.publishTimer now).1 (g.publishTimer now).2 := by
  rcases lt_or_ge (secs (now - g.lastActuatorMsgTime)) ddsReceiveTimeoutSec with hgap | hgap
  · exact hs.timer_active ht hgap
  cases hn : d.zeroReturnComplete with
  | false => exact hs.timer_outage hc hgap hn
  | true => exact hs.timer_returned hc ht hgap hn

end Step

/-! ## Along a run -/

/-- A message has arrived. -/
def HasMessage (h : History) : Prop :=
  ∃ k ∈ h, ∃ now msg, k.event = .actuatorServos now msg

/-- All controls that have arrived are finite. -/
def MessagesFinite (h : History) : Prop :=
  ∀ k ∈ h, ∀ now msg, k.event = .actuatorServos now msg → msg.Finite

/-- What a step published for a joint. -/
def published (i : Fin 8) (k : Entry) : Option Double := k.out.1 i

/-- The angle last published for a joint. -/
def lastPublished (i : Fin 8) (h : History) : Option Double := Past.latest (published i) h

/-- After the entry `k`, if a message has arrived: the angle last published for each joint is,
    in counts, the latest goal of its servo. -/
def AnglesAgree (k : Entry) (past : History) : Prop :=
  HasMessage (k :: past) → ∀ i, ∃ θ : ℝ, lastPublished i (k :: past) = some (num θ) ∧
    toPpr (dxlServos (servoControlIndex i)) θ = k.post.2.latestGoalPpr (servoControlIndex i)

section Run

variable {servoWobbleHz : ℝ} {start now ready t₀ t : Time} {h : History}
  {s : Px4ServoToGz × Px4ServoToDynamixel}

theorem lastPublished_cons_of_some {k : Entry} {i : Fin 8} {c : Double} (hk : k.out.1 i = some c) :
    lastPublished i (k :: h) = some c :=
  Past.latest_cons_of_some (f := published i) hk h

/-- The angle last published for a joint is what its filter holds. -/
theorem lastPublished_cons {k : Entry} {g g' : Px4ServoToGz} {i : Fin 8}
    (hout : Publishes g g' k.out.1) (hlast : lastPublished i h = some (g.servoLpf i).y) :
    lastPublished i (k :: h) = some (g'.servoLpf i).y := by
  rcases hout i with hk | ⟨hk, hy⟩
  · exact lastPublished_cons_of_some hk
  · rw [hy, ← hlast]
    exact Past.latest_cons_of_none (f := published i) hk h

theorem configured_launched :
    Configured (launched servoWobbleHz start now ready).1
      (launched servoWobbleHz start now ready).2 where
  wobble := by norm_num [launched, construct, clamp, servoWobbleMaxDeg]
  valid := fun _ => rfl
  gzGain := fun _ => rfl
  dxlGain := fun _ => rfl

theorem run_configured
    (hr : Machine.Run bridges (launched servoWobbleHz start now ready) t₀ h s t) :
    Configured s.1 s.2 := by
  induction hr with
  | start => exact configured_launched
  | handle e _ _ _ ih => exact ih.handle e

/-- From the first message on the nodes are in lockstep, and the joints were last told what
    the filters hold. -/
theorem run_lockstep
    (hr : Machine.Run bridges (launched servoWobbleHz start now ready) t₀ h s t)
    (hfin : MessagesFinite h) (hmsg : HasMessage h) :
    Lockstep s.1 s.2 t ∧ ∀ i, lastPublished i h = some (s.1.servoLpf i).y := by
  induction hr with
  | start =>
    obtain ⟨k, hk, -⟩ := hmsg
    cases hk
  | @handle h s t e hr hin _ ih =>
    have hc := run_configured hr
    cases e with
    | actuatorServos now msg =>
      have hm : msg.Finite := hfin _ List.mem_cons_self now msg rfl
      obtain ⟨hs, hout⟩ := lockstep_message now hc hm
      exact ⟨hs, fun i => lastPublished_cons_of_some (hout i)⟩
    | timer now =>
      have hmsg' : HasMessage h := by
        obtain ⟨k, hk, now', msg, he⟩ := hmsg
        rcases List.mem_cons.mp hk with rfl | hk
        · cases he
        · exact ⟨k, hk, now', msg, he⟩
      obtain ⟨hs, hlast⟩ := ih (fun k hk => hfin k (List.mem_cons_of_mem _ hk)) hmsg'
      obtain ⟨hs', hout⟩ := hs.timer hc hin
      exact ⟨hs', fun i => lastPublished_cons hout (hlast i)⟩

/-- After every event from the first message on, the two nodes command the same angles. -/
theorem anglesAgree
    (hr : Machine.Run bridges (launched servoWobbleHz start now ready) t₀ h s t)
    (hfin : MessagesFinite h) : Past.Always (Past.At AnglesAgree) h := by
  induction hr with
  | start => trivial
  | @handle h s t e hr hin hout ih =>
    refine ⟨?_, ih fun k hk => hfin k (List.mem_cons_of_mem _ hk)⟩
    intro hmsg i
    obtain ⟨hs, hlast⟩ := run_lockstep (hr.handle e hin hout) hfin hmsg
    refine ⟨_, (hlast i).trans (congrArg some (hs.angle i)), ?_⟩
    exact (hs.goal _).symm

end Run

/-- A message, its outage and return to zero, a message in the middle of the next return. -/
noncomputable def outageEvents : List ServoEvent :=
  [.timer 0,
    .actuatorServos 100000000 ⟨0, fun _ => num 1⟩,
    .timer 600000000,
    .timer 5600000000,
    .timer 5602500000,
    .actuatorServos 6000000000 ⟨0, fun _ => num (-1)⟩,
    .timer 6500000000,
    .actuatorServos 6501000000 ⟨0, fun _ => num (1 / 2)⟩,
    .timer 6502500000]

theorem outageEvents_timed : bridges.Timed 0 outageEvents :=
  ⟨le_rfl, le_rfl, by decide, le_rfl, by decide, le_rfl, by decide, le_rfl, by decide, le_rfl,
    by decide, le_rfl, by decide, le_rfl, by decide, le_rfl, by decide, le_rfl, trivial⟩

theorem outageEvents_finite :
    MessagesFinite (bridges.trace (launched 13 0 0 0) outageEvents []) := by
  intro k hk now msg he
  simp only [outageEvents, Machine.trace, Machine.record, List.mem_cons, List.not_mem_nil,
    or_false] at hk
  rcases hk with rfl | rfl | rfl | rfl | rfl | rfl | rfl | rfl | rfl <;> cases he <;>
    exact fun _ => isNum_num _

theorem anglesAgree_outage :
    Past.Always (Past.At AnglesAgree) (bridges.trace (launched 13 0 0 0) outageEvents []) := by
  obtain ⟨s, t, hr⟩ :=
    Machine.run_trace (launched 13 0 0 0) 0 outageEvents outageEvents_timed
  exact anglesAgree hr outageEvents_finite

end ServoBridges

end Hummingbird
