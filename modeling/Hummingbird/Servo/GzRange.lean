/-
  What `Px4ServoToGz` publishes, whatever the clock reads.

  The ROS clock may be set while the node runs, so these runs are over events at any times
  (`anyClock`). The invariant `Ranged` (a filter holds an angle in its joint's range) is kept by
  messages with and without wobble, by every update towards zero and by the resets. Between two
  messages a filter only moves towards zero, and as long as the ticks find the outage going on
  its start is remembered (`IsRun.returning`).

  A wobble whose phase overflows commands NaN, which the clamp lets through and the filters keep.
  `commandsJoints_iff` says that nothing else takes a joint out of its range.
-/
import Hummingbird.Servo.Gz

namespace Hummingbird

namespace Px4ServoToGz

open Approach Rounding WithNaN

/-- The node with events at any times. -/
noncomputable def anyClock : Machine Px4ServoToGz ServoEvent JointCommands Unit where
  step := handle
  enter _ := ()
  leave _ := ()

abbrev Entry := Machine.Step Px4ServoToGz ServoEvent JointCommands

/-- What the node has handled, newest first. -/
abbrev History := List Entry

/-- The parameters and the clock readings of the constructor, and the publishers that could be
    advertised. -/
structure Launch where
  servoWobbleDeg : ℝ
  servoWobbleHz : ℝ
  servoPubsValid : Fin 8 → Bool
  start : Time
  now : Time

/-- The node after its constructor. -/
noncomputable def Launch.node (l : Launch) : Px4ServoToGz :=
  construct l.servoWobbleDeg l.servoWobbleHz l.servoPubsValid l.start l.now

/-- Runs of the node launched with `l`. -/
abbrev IsRun (l : Launch) (h : History) (s : Px4ServoToGz) : Prop :=
  Machine.Run anyClock l.node () h s ()

/-- The zero commands that the constructor publishes once and the destructor five times. -/
noncomputable def Launch.zeroCommands (l : Launch) : JointCommands :=
  l.node.publish fun _ => 0

/-- All that the node publishes from its constructor to its destructor, newest first. -/
noncomputable def published (l : Launch) (h : History) : List JointCommands :=
  List.replicate 5 l.zeroCommands ++ h.map (fun k => k.out) ++ [l.zeroCommands]

/-! ## Outages -/

/-- The time of the last message, or that of the constructor. -/
def lastMessage (l : Launch) (h : History) : Time :=
  (Past.latest (fun k => match k.event with
    | .actuatorServos now _ => some now
    | .timer _ => none) h).getD l.now

/-- The newest entry is a tick that finds the last message `DDS_RECEIVE_TIMEOUT_SEC` old. -/
def OutageTick (l : Launch) : History → Prop :=
  Past.At fun k past => ∃ now, k.event = .timer now ∧
    ddsReceiveTimeoutSec ≤ secs (now - lastMessage l past)

/-- `k₁` is the first tick of an outage, and `a` has been handled since without a message. -/
structure Outage (l : Launch) (a : History) (k₁ : Entry) (b : History) : Prop where
  tick : OutageTick l (k₁ :: b)
  first : ¬ OutageTick l b
  silent : ∀ k ∈ a, ∃ now, k.event = .timer now

/-- The command is an angle in the range of the joint. -/
def InRange (i : Fin 8) (c : Double) : Prop :=
  ∃ θ ∈ Set.Icc (-servoLimitRad i) (servoLimitRad i), c = num θ

/-- The magnitudes in `out` are at most those in `out'`. -/
def Within (out out' : JointCommands) : Prop :=
  ∀ i, ∀ c ∈ out i, ∀ c' ∈ out' i, Double.abs c ≤ Double.abs c'

/-- What the node publishes over a run. -/
structure CommandsJoints (l : Launch) (h : History) : Prop where
  /-- Every command is in the range of its joint. -/
  range : ∀ out ∈ published l h, ∀ i, ∀ c ∈ out i, InRange i c
  /-- From the first tick of an outage to the next message no magnitude increases. -/
  decreases : ∀ x a k₁ b, h = x ++ (a ++ k₁ :: b) → Outage l a k₁ b →
    (a ++ [k₁]).Pairwise fun k k' => Within k.out k'.out
  /-- `SERVO_RETURN_TIME_SEC` after the first tick of an outage that goes on, the commands are
      0. -/
  zero : ∀ x k a k₁ b now₁ now, h = x ++ (k :: a ++ k₁ :: b) → Outage l (k :: a) k₁ b →
    k₁.event = .timer now₁ → k.event = .timer now →
    (∀ k' ∈ k :: a, ddsReceiveTimeoutSec ≤ secs (k'.event.now - lastMessage l b)) →
    servoReturnTimeSec ≤ secs (now - now₁) → k.out = l.zeroCommands
  /-- The same when the clock is never set back: then an outage goes on until a message. -/
  zeroOrdered : (h.Pairwise fun k k' => k'.event.now ≤ k.event.now) →
    ∀ x k a k₁ b now₁ now, h = x ++ (k :: a ++ k₁ :: b) → Outage l (k :: a) k₁ b →
    k₁.event = .timer now₁ → k.event = .timer now →
    servoReturnTimeSec ≤ secs (now - now₁) → k.out = l.zeroCommands

/-- At this time the phase of the wobble is not too large for a double. -/
def PhaseInRange (l : Launch) (now : Time) : Prop :=
  0 < l.servoWobbleDeg →
    ¬ Format.double.Overflows (2 * Real.pi * max l.servoWobbleHz 0) ∧
      ¬ Format.double.Overflows
        (2 * Real.pi * max l.servoWobbleHz 0 * (secs (now - l.start) : ℝ))

/-- The same whenever a message was handled. -/
def PhasesInRange (l : Launch) (h : History) : Prop :=
  ∀ k ∈ h, ∀ now msg, k.event = .actuatorServos now msg → PhaseInRange l now

/-! ## One event -/

/-- What no handler changes. -/
structure Configured (l : Launch) (s : Px4ServoToGz) : Prop where
  wobbleStartTime : s.wobbleStartTime = l.start
  wobbleDeg : s.wobbleDeg = clamp l.servoWobbleDeg 0 servoWobbleMaxDeg
  wobbleHz : s.wobbleHz = max l.servoWobbleHz 0
  valid : s.servoPubsValid = l.servoPubsValid
  gain : ∀ i, (s.servoLpf i).alpha = LPF.gain servoReturnTimeSec
  initialized : ∀ i, (s.servoLpf i).initialized = true

/-- Every filter holds an angle in its joint's range. -/
structure Ranged (l : Launch) (s : Px4ServoToGz) : Prop extends Configured l s where
  angle : ∀ i, InRange i (s.servoLpf i).y

section Step

variable {l : Launch} {s : Px4ServoToGz} {now : Time} {msg : ActuatorServos} {i : Fin 8}
  {c : Double}

theorem servoLimitRad_nonneg (i : Fin 8) : 0 ≤ servoLimitRad i := by
  have hpi : 0 ≤ Real.pi := Real.pi_pos.le
  have halpha : 0 ≤ alphaLimitRad := by
    unfold alphaLimitRad
    positivity
  fin_cases i
  · exact hpi
  · exact hpi
  · exact hpi
  · exact hpi
  · exact halpha
  · exact halpha
  · exact halpha
  · exact halpha

theorem inRange_zero (i : Fin 8) : InRange i 0 :=
  ⟨0, ⟨neg_nonpos.mpr (servoLimitRad_nonneg i), servoLimitRad_nonneg i⟩, rfl⟩

theorem InRange.isNum (hc : InRange i c) : c.IsNum := by
  obtain ⟨θ, -, rfl⟩ := hc
  exact isNum_num θ

theorem mem_publish {command : Fin 8 → Double} (h : c ∈ s.publish command i) :
    c = command i ∧ s.servoPubsValid i = true := by
  unfold publish at h
  split at h
  · rename_i hvalid
    exact ⟨(Option.some.inj h).symm, hvalid⟩
  · cases h

theorem clamp_num (x lo hi : ℝ) : clamp (num x) (num lo) (num hi) = num (clamp x lo hi) := by
  unfold clamp
  simp only [num_lt_num]
  split_ifs <;> rfl

/-- `std::clamp` lets a NaN through. -/
theorem clamp_nan (lo hi : Double) : clamp nan lo hi = nan := by
  unfold clamp
  rw [if_neg (not_nan_lt lo), if_neg (not_lt_nan hi)]

theorem wobbleDeg_pos_iff (hs : Configured l s) : 0 < s.wobbleDeg ↔ 0 < l.servoWobbleDeg := by
  have hmax : (0 : ℝ) < servoWobbleMaxDeg := by norm_num [servoWobbleMaxDeg]
  rw [hs.wobbleDeg, clamp_eq hmax.le, lt_max_iff, lt_min_iff, and_iff_left hmax]
  exact or_iff_right (lt_irrefl 0)

/-- The phase is a number exactly if neither of its products overflows. -/
theorem isNum_wobblePhase_iff (hs : Configured l s) :
    (s.wobblePhase now).IsNum ↔ PhaseInRange l now := by
  unfold wobblePhase PhaseInRange
  rw [← wobbleDeg_pos_iff hs, hs.wobbleHz, hs.wobbleStartTime]
  by_cases hdeg : 0 < s.wobbleDeg
  · rw [if_pos hdeg, forall_prop_of_true hdeg]
    by_cases hfrequency : Format.double.Overflows (2 * Real.pi * max l.servoWobbleHz 0)
    · rw [Double.finiteOrNan_of_overflows hfrequency]
      exact iff_of_false id fun h => h.1 hfrequency
    rw [Double.finiteOrNan_num hfrequency, num_mul, and_iff_right hfrequency]
    by_cases hphase : Format.double.Overflows
        (2 * Real.pi * max l.servoWobbleHz 0 * (secs (now - l.start) : ℝ))
    · rw [Double.finiteOrNan_of_overflows hphase]
      exact iff_of_false id fun h => h hphase
    · rw [Double.finiteOrNan_num hphase]
      exact iff_of_true (isNum_num _) hphase
  · rw [if_neg hdeg]
    exact iff_of_true (isNum_num 0) fun h => absurd h hdeg

/-- With or without wobble a message commands an angle in the joint's range. -/
theorem jointCommand_inRange (hphase : (s.wobblePhase now).IsNum) (msg : ActuatorServos)
    (i : Fin 8) : InRange i (s.jointCommand now msg i) := by
  have hlim := servoLimitRad_nonneg i
  have hnormalized : |(if (msg.control (servoControlIndex i)).isfinite then
      clamp (msg.control (servoControlIndex i)).value (-1) 1 else 0 : ℝ)| ≤ 1 := by
    split
    · exact abs_le.mpr (clamp_mem (by norm_num) _)
    · rw [abs_zero]
      exact zero_le_one
  obtain ⟨phase, hphase⟩ := isNum_iff.mp hphase
  unfold jointCommand
  dsimp only
  rw [hphase]
  split
  · rw [num_add, Double.sin_num, num_mul, num_add]
    exact ⟨_, clamp_mem (by linarith) _, clamp_num _ _ _⟩
  · refine ⟨_, ?_, rfl⟩
    rw [Set.mem_Icc, ← abs_le, abs_mul, abs_of_nonneg hlim]
    exact mul_le_of_le_one_left hlim hnormalized

/-- A phase that is too large reaches the command. -/
theorem isNum_jointCommand_iff :
    (s.jointCommand now msg i).IsNum ↔ (s.wobblePhase now).IsNum := by
  refine ⟨fun h => ?_, fun h => (jointCommand_inRange h msg i).isNum⟩
  by_contra hnan
  have hphase := not_isNum_iff.mp hnan
  have hdeg : 0 < s.wobbleDeg := by
    by_contra hdeg
    rw [wobblePhase, if_neg hdeg] at hphase
    cases hphase
  unfold jointCommand at h
  dsimp only at h
  rw [hphase, if_pos hdeg, nan_add, Double.sin_nan, mul_nan, add_nan, clamp_nan] at h
  exact h

theorem Launch.ranged (l : Launch) : Ranged l l.node where
  wobbleStartTime := rfl
  wobbleDeg := rfl
  wobbleHz := rfl
  valid := rfl
  gain := fun _ => rfl
  initialized := fun _ => rfl
  angle := fun i => inRange_zero i

/-- The ways through the `publish_timer_` lambda. -/
inductive TimerBranch (s : Px4ServoToGz) (now : Time) : Px4ServoToGz → JointCommands → Prop
  | active (ha : secs (now - s.lastActuatorMsgTime) < ddsReceiveTimeoutSec) :
      TimerBranch s now { s with returningToZero := false } fun _ => none
  | returning (ha : ddsReceiveTimeoutSec ≤ secs (now - s.lastActuatorMsgTime))
      (hf : secs (now - s.returnStart now) < servoReturnTimeSec) :
      TimerBranch s now
        { s with
          returningToZero := true
          returnStartTime := s.returnStart now
          servoLpf := fun i => (s.servoLpf i).update 0 }
        (s.publish fun i => ((s.servoLpf i).update 0).y)
  | finished (ha : ddsReceiveTimeoutSec ≤ secs (now - s.lastActuatorMsgTime))
      (hf : servoReturnTimeSec ≤ secs (now - s.returnStart now)) :
      TimerBranch s now
        { s with
          returningToZero := true
          returnStartTime := s.returnStart now
          servoLpf := fun i => ((s.servoLpf i).update 0).reset 0 }
        (s.publish fun _ => 0)

theorem publishTimer_branch (s : Px4ServoToGz) (now : Time) :
    TimerBranch s now (s.publishTimer now).1 (s.publishTimer now).2 := by
  rcases lt_or_ge (secs (now - s.lastActuatorMsgTime)) ddsReceiveTimeoutSec with ha | ha
  · rw [publishTimer_of_active ha]
    exact .active ha
  rcases lt_or_ge (secs (now - s.returnStart now)) servoReturnTimeSec with hf | hf
  · rw [publishTimer_of_returning ha hf]
    exact .returning ha hf
  · rw [publishTimer_of_finished ha hf]
    exact .finished ha hf

variable {s' : Px4ServoToGz} {out : JointCommands}

theorem TimerBranch.configured (hb : TimerBranch s now s' out) (hs : Configured l s) :
    Configured l s' := by
  obtain ⟨hstart, hdeg, hhz, hvalid, hgain, hinit⟩ := hs
  cases hb with
  | active => exact ⟨hstart, hdeg, hhz, hvalid, hgain, hinit⟩
  | returning =>
    exact ⟨hstart, hdeg, hhz, hvalid, fun i => (LPF.update_alpha _ _).trans (hgain i),
      fun i => LPF.update_initialized _ _⟩
  | finished =>
    exact ⟨hstart, hdeg, hhz, hvalid, fun i => (LPF.update_alpha _ _).trans (hgain i),
      fun i => rfl⟩

/-- A tick moves the filters towards zero. -/
theorem TimerBranch.towards (hb : TimerBranch s now s' out) (hs : Configured l s) {θ : ℝ}
    (hθ : (s.servoLpf i).y = num θ) :
    ∃ θ' ∈ Set.uIcc 0 θ, (s'.servoLpf i).y = num θ' := by
  cases hb with
  | active => exact ⟨θ, Set.right_mem_uIcc, hθ⟩
  | returning =>
    refine ⟨_, ?_, LPF.update_y_num (hs.initialized i) hθ 0⟩
    rw [hs.gain]
    exact approach_mem_uIcc (LPF.gain_pos _).le (LPF.gain_le_one _) 0 θ
  | finished => exact ⟨0, Set.left_mem_uIcc, rfl⟩

theorem TimerBranch.out_eq (hb : TimerBranch s now s' out) (h : c ∈ out i) :
    c = (s'.servoLpf i).y ∧ s.servoPubsValid i = true := by
  cases hb with
  | active => cases h
  | returning => exact mem_publish h
  | finished => exact mem_publish h

theorem TimerBranch.ranged (hb : TimerBranch s now s' out) (hs : Ranged l s) : Ranged l s' := by
  refine ⟨hb.configured hs.toConfigured, fun i => ?_⟩
  obtain ⟨θ, hmem, hθ⟩ := hs.angle i
  obtain ⟨θ', htowards, hθ'⟩ := hb.towards hs.toConfigured hθ
  have habs := abs_le_of_mem_uIcc_zero htowards
  exact ⟨θ', abs_le.mp (habs.trans (abs_le.mpr hmem)), hθ'⟩

theorem TimerBranch.lastActuatorMsgTime (hb : TimerBranch s now s' out) :
    s'.lastActuatorMsgTime = s.lastActuatorMsgTime := by
  cases hb <;> rfl

theorem TimerBranch.returningToZero_iff (hb : TimerBranch s now s' out) :
    s'.returningToZero = true ↔ ddsReceiveTimeoutSec ≤ secs (now - s.lastActuatorMsgTime) := by
  cases hb with
  | active ha => simp [ha]
  | returning ha => simp [ha]
  | finished ha => simp [ha]

/-- A tick of an outage remembers when the outage began. -/
theorem TimerBranch.returnStartTime (hb : TimerBranch s now s' out)
    (ha : ddsReceiveTimeoutSec ≤ secs (now - s.lastActuatorMsgTime)) :
    s'.returnStartTime = s.returnStart now := by
  cases hb with
  | active ha' => exact absurd ha (not_le.mpr ha')
  | returning => rfl
  | finished => rfl

/-- `SERVO_RETURN_TIME_SEC` after the start of the outage a tick commands 0. -/
theorem TimerBranch.zero (hb : TimerBranch s now s' out)
    (ha : ddsReceiveTimeoutSec ≤ secs (now - s.lastActuatorMsgTime))
    (hf : servoReturnTimeSec ≤ secs (now - s.returnStart now)) :
    out = s.publish fun _ => 0 := by
  cases hb with
  | active ha' => exact absurd ha (not_le.mpr ha')
  | returning _ hf' => exact absurd hf (not_le.mpr hf')
  | finished => rfl

/-- What a handler publishes for a joint is what its filter holds afterwards. -/
theorem handle_out {e : ServoEvent} (h : c ∈ (s.handle e).2 i) :
    c = ((s.handle e).1.servoLpf i).y ∧ s.servoPubsValid i = true := by
  cases e with
  | actuatorServos now msg => exact mem_publish h
  | timer now => exact (publishTimer_branch s now).out_eq h

theorem Configured.handle (hs : Configured l s) (e : ServoEvent) :
    Configured l (s.handle e).1 := by
  cases e with
  | actuatorServos now msg =>
    exact ⟨hs.wobbleStartTime, hs.wobbleDeg, hs.wobbleHz, hs.valid, hs.gain, fun i => rfl⟩
  | timer now => exact (publishTimer_branch s now).configured hs

theorem Ranged.handle (hs : Ranged l s) {e : ServoEvent}
    (he : ∀ now msg, e = .actuatorServos now msg → PhaseInRange l now) :
    Ranged l (s.handle e).1 := by
  cases e with
  | actuatorServos now msg =>
    have hphase := (isNum_wobblePhase_iff hs.toConfigured).mpr (he now msg rfl)
    exact ⟨hs.toConfigured.handle _, fun i => jointCommand_inRange hphase msg i⟩
  | timer now => exact (publishTimer_branch s now).ranged hs

end Step

/-! ## Along a run -/

section Runs

variable {l : Launch} {h a b : History} {k k₁ : Entry} {s : Px4ServoToGz} {i : Fin 8}
  {c : Double}

theorem PhasesInRange.of_append (hp : PhasesInRange l (a ++ b)) : PhasesInRange l b :=
  fun k hk => hp k (List.mem_append_right a hk)

theorem IsRun.configured (hr : IsRun l h s) : Configured l s := by
  refine Machine.Run.invariant (P := fun _ s _ => Configured l s) hr l.ranged.toConfigured ?_
  intro h s t e _ hs _ _
  exact hs.handle e

theorem IsRun.ranged (hr : IsRun l h s) : PhasesInRange l h → Ranged l s := by
  refine Machine.Run.invariant (P := fun h s _ => PhasesInRange l h → Ranged l s) hr
    (fun _ => l.ranged) ?_
  intro h s t e _ hs _ _ hp
  refine (hs fun k hk => hp k (List.mem_cons_of_mem _ hk)).handle fun now msg he => ?_
  exact hp _ List.mem_cons_self now msg he

theorem IsRun.lastActuatorMsgTime (hr : IsRun l h s) :
    s.lastActuatorMsgTime = lastMessage l h := by
  refine Machine.Run.invariant (P := fun h s _ => s.lastActuatorMsgTime = lastMessage l h) hr rfl
    ?_
  intro h s t e _ hs _ _
  cases e with
  | actuatorServos now msg => rfl
  | timer now => exact (publishTimer_branch s now).lastActuatorMsgTime.trans hs

/-- `returning_to_zero_` says that the last event was a tick of an outage. -/
theorem IsRun.returningToZero_iff (hr : IsRun l h s) :
    s.returningToZero = true ↔ OutageTick l h := by
  cases hr with
  | start => exact iff_of_false Bool.false_ne_true id
  | @handle h s t e hr _ _ =>
    cases e with
    | actuatorServos now msg =>
      refine iff_of_false Bool.false_ne_true ?_
      rintro ⟨now', he, -⟩
      cases he
    | timer now =>
      refine (publishTimer_branch s now).returningToZero_iff.trans ?_
      rw [IsRun.lastActuatorMsgTime hr]
      constructor
      · intro ha
        exact ⟨now, rfl, ha⟩
      · rintro ⟨now', he, ha⟩
        obtain rfl := ServoEvent.timer.inj he
        exact ha

/-- Every entry of a run published what its filters held, on the valid publishers. -/
theorem IsRun.out_eq (hr : IsRun l h s) (hk : k ∈ h) (hc : c ∈ k.out i) :
    c = (k.post.servoLpf i).y ∧ l.servoPubsValid i = true := by
  obtain ⟨a, b, rfl⟩ := List.append_of_mem hk
  obtain ⟨s', t', hr', -⟩ := hr.of_append
  obtain ⟨t'', hr'', -, -, hout, hpost, -, -⟩ := hr'.newest
  rw [hout] at hc
  rw [hpost, ← (IsRun.configured hr'').valid]
  exact handle_out hc

theorem IsRun.post_ranged (hr : IsRun l h s) (hp : PhasesInRange l h) (hk : k ∈ h) :
    Ranged l k.post := by
  obtain ⟨a, b, rfl⟩ := List.append_of_mem hk
  obtain ⟨s', t', hr', -⟩ := hr.of_append
  have hs := IsRun.ranged hr' hp.of_append
  obtain ⟨-, -, -, -, -, -, rfl, -⟩ := hr'.newest
  exact hs

/-- Ticks after an entry have left the filters between zero and where it left them. -/
theorem IsRun.towards {θ : ℝ} (hr : IsRun l (a ++ k :: b) s)
    (ha : ∀ k ∈ a, ∃ now, k.event = .timer now) (hθ : (k.post.servoLpf i).y = num θ) :
    ∃ θ', (s.servoLpf i).y = num θ' ∧ |θ'| ≤ |θ| := by
  induction a generalizing s with
  | nil =>
    obtain ⟨-, -, -, -, -, -, rfl, -⟩ := hr.newest
    exact ⟨θ, hθ, le_rfl⟩
  | cons k' a ih =>
    obtain ⟨t', hr', -, -, -, hpost, rfl, -⟩ := hr.newest
    obtain ⟨now, he⟩ := ha k' List.mem_cons_self
    obtain ⟨θ₁, hθ₁, hle⟩ := ih hr' fun k'' hk'' => ha k'' (List.mem_cons_of_mem _ hk'')
    rw [hpost, he]
    obtain ⟨θ', htowards, hθ'⟩ :=
      (publishTimer_branch k'.pre now).towards (IsRun.configured hr') hθ₁
    exact ⟨θ', hθ', (abs_le_of_mem_uIcc_zero htowards).trans hle⟩

/-- Ticks do not change when the last message was. -/
theorem lastMessage_of_silent (ha : ∀ k ∈ a, ∃ now, k.event = .timer now) :
    lastMessage l (a ++ b) = lastMessage l b := by
  induction a with
  | nil => rfl
  | cons k a ih =>
    obtain ⟨now, he⟩ := ha k List.mem_cons_self
    rw [← ih fun k' hk' => ha k' (List.mem_cons_of_mem _ hk'), List.cons_append, lastMessage,
      Past.latest_cons_of_none (by rw [he]), lastMessage]

/-- The same with the tick in between that the outage began at. -/
theorem Outage.lastMessage_eq {now₁ : Time} (ho : Outage l a k₁ b) (he : k₁.event = .timer now₁) :
    lastMessage l (a ++ k₁ :: b) = lastMessage l b := by
  rw [lastMessage_of_silent ho.silent]
  exact lastMessage_of_silent (a := [k₁]) (by simp [he])

theorem Outage.of_cons (ho : Outage l (k :: a) k₁ b) : Outage l a k₁ b :=
  ⟨ho.tick, ho.first, fun k' hk' => ho.silent k' (List.mem_cons_of_mem _ hk')⟩

/-- While an outage goes on the node remembers when it began. -/
theorem IsRun.returning {now₁ : Time} (hr : IsRun l (a ++ k₁ :: b) s) (ho : Outage l a k₁ b)
    (he : k₁.event = .timer now₁)
    (ha : ∀ k ∈ a, ddsReceiveTimeoutSec ≤ secs (k.event.now - lastMessage l b)) :
    s.returningToZero = true ∧ s.returnStartTime = now₁ := by
  induction a generalizing s with
  | nil =>
    obtain ⟨t', hr', -, -, -, hpost, rfl, -⟩ := hr.newest
    obtain ⟨now, he', htick⟩ := ho.tick
    obtain rfl := ServoEvent.timer.inj (he.symm.trans he')
    rw [← IsRun.lastActuatorMsgTime hr'] at htick
    have hfirst : k₁.pre.returningToZero = false := by
      rw [← Bool.not_eq_true, IsRun.returningToZero_iff hr']
      exact ho.first
    have hb := publishTimer_branch k₁.pre now₁
    have hstart : k₁.pre.returnStart now₁ = now₁ := by simp [returnStart, hfirst]
    rw [hpost, he]
    exact ⟨hb.returningToZero_iff.mpr htick, (hb.returnStartTime htick).trans hstart⟩
  | cons k a ih =>
    rw [List.cons_append] at hr
    obtain ⟨t', hr', -, -, -, hpost, rfl, -⟩ := hr.newest
    obtain ⟨hret, htime⟩ := ih hr' ho.of_cons fun k' hk' => ha k' (List.mem_cons_of_mem _ hk')
    obtain ⟨now, hek⟩ := ho.silent k List.mem_cons_self
    have htick : ddsReceiveTimeoutSec ≤ secs (now - k.pre.lastActuatorMsgTime) := by
      have hk := ha k List.mem_cons_self
      rwa [hek, ← ho.of_cons.lastMessage_eq he, ← IsRun.lastActuatorMsgTime hr'] at hk
    have hb := publishTimer_branch k.pre now
    have hstart : k.pre.returnStart now = now₁ := by simp [returnStart, hret, htime]
    rw [hpost, hek]
    exact ⟨hb.returningToZero_iff.mpr htick, (hb.returnStartTime htick).trans hstart⟩

/-! ## What the node publishes -/

theorem mem_zeroCommands (h : c ∈ l.zeroCommands i) :
    c = 0 ∧ l.servoPubsValid i = true := mem_publish h

/-- What is published is 0, or an entry's; and only on valid publishers. -/
theorem IsRun.published_cases (hr : IsRun l h s) {out : JointCommands} (hout : out ∈ published l h)
    (hc : c ∈ out i) :
    (c = 0 ∨ ∃ k ∈ h, k.out = out ∧ c = (k.post.servoLpf i).y) ∧ l.servoPubsValid i = true := by
  simp only [published, List.mem_append, List.mem_map, List.mem_singleton] at hout
  rcases hout with (hout | ⟨k, hk, rfl⟩) | rfl
  · rw [List.eq_of_mem_replicate hout] at hc
    exact (mem_zeroCommands hc).imp_left Or.inl
  · exact (IsRun.out_eq hr hk hc).imp_left fun heq => Or.inr ⟨k, hk, rfl, heq⟩
  · exact (mem_zeroCommands hc).imp_left Or.inl

theorem IsRun.range (hr : IsRun l h s) (hp : PhasesInRange l h) {out : JointCommands}
    (hout : out ∈ published l h) (hc : c ∈ out i) : InRange i c := by
  obtain ⟨rfl | ⟨k, hk, -, rfl⟩, -⟩ := IsRun.published_cases hr hout hc
  · exact inRange_zero i
  · exact (IsRun.post_ranged hr hp hk).angle i

/-- Of two entries with only ticks after the older one, the newer one commands no more. -/
theorem IsRun.within (hr : IsRun l (k :: (a ++ k₁ :: b)) s) (hp : PhasesInRange l (k₁ :: b))
    (ha : ∀ k' ∈ k :: a, ∃ now, k'.event = .timer now) {c₁ : Double} (hc : c ∈ k.out i)
    (hc₁ : c₁ ∈ k₁.out i) : Double.abs c ≤ Double.abs c₁ := by
  obtain ⟨rfl, -⟩ := IsRun.out_eq hr List.mem_cons_self hc
  obtain ⟨rfl, -⟩ := IsRun.out_eq hr (by simp) hc₁
  rw [← List.cons_append] at hr
  obtain ⟨s₁, t₁, hr₁, -⟩ := hr.of_append
  obtain ⟨θ, -, hθ⟩ := (IsRun.post_ranged hr₁ hp List.mem_cons_self).angle i
  obtain ⟨θ', hθ', hle⟩ := IsRun.towards hr ha hθ
  obtain ⟨-, -, -, -, -, -, rfl, -⟩ := hr.newest
  rw [hθ, hθ']
  exact hle

theorem IsRun.decreases (hr : IsRun l (a ++ b) s)
    (hp : ∀ i, l.servoPubsValid i = true → PhasesInRange l (a ++ b))
    (ha : ∀ k ∈ a, ∃ now, k.event = .timer now) :
    a.Pairwise fun k k' => Within k.out k'.out := by
  induction a generalizing s with
  | nil => exact .nil
  | cons k a ih =>
    rw [List.cons_append] at hr
    obtain ⟨t', hr', -⟩ := hr.newest
    have hp' : ∀ i, l.servoPubsValid i = true → PhasesInRange l (a ++ b) := fun i hi =>
      (hp i hi).of_append (a := [k])
    refine List.Pairwise.cons ?_ (ih hr' hp' fun k' hk' => ha k' (List.mem_cons_of_mem _ hk'))
    intro k' hk' i c hc c' hc'
    obtain ⟨-, hvalid⟩ := IsRun.out_eq hr List.mem_cons_self hc
    have hphases := hp' i hvalid
    obtain ⟨x, y, rfl⟩ := List.append_of_mem hk'
    rw [List.append_assoc, List.cons_append] at hr hphases
    refine IsRun.within hr hphases.of_append (fun k'' hk'' => ha k'' ?_) hc hc'
    exact List.mem_append_left (k' :: y) hk''

theorem IsRun.zero {now₁ now : Time} (hr : IsRun l (k :: (a ++ k₁ :: b)) s)
    (ho : Outage l (k :: a) k₁ b) (he₁ : k₁.event = .timer now₁) (he : k.event = .timer now)
    (ha : ∀ k' ∈ k :: a, ddsReceiveTimeoutSec ≤ secs (k'.event.now - lastMessage l b))
    (hf : servoReturnTimeSec ≤ secs (now - now₁)) : k.out = l.zeroCommands := by
  obtain ⟨t', hr', -, -, hout, -⟩ := hr.newest
  obtain ⟨hret, htime⟩ :=
    IsRun.returning hr' ho.of_cons he₁ fun k' hk' => ha k' (List.mem_cons_of_mem _ hk')
  have htick : ddsReceiveTimeoutSec ≤ secs (now - k.pre.lastActuatorMsgTime) := by
    have hk := ha k List.mem_cons_self
    rwa [he, ← ho.of_cons.lastMessage_eq he₁, ← IsRun.lastActuatorMsgTime hr'] at hk
  have hstart : k.pre.returnStart now = now₁ := by simp [returnStart, hret, htime]
  have hzero := (publishTimer_branch k.pre now).zero htick (hstart.symm ▸ hf)
  rw [hout, he]
  refine hzero.trans ?_
  unfold publish Launch.zeroCommands publish
  rw [(IsRun.configured hr').valid, l.ranged.valid]

/-- Where joints are commanded, they stay in range only if the phase does. -/
theorem CommandsJoints.phasesInRange (hcommands : CommandsJoints l h) (hr : IsRun l h s)
    (hvalid : l.servoPubsValid i = true) : PhasesInRange l h := by
  intro k hk now msg he
  have hout : k.out ∈ published l h :=
    List.mem_append_left _ (List.mem_append_right _ (List.mem_map_of_mem hk))
  have hrange := hcommands.range k.out hout i
  obtain ⟨a, b, rfl⟩ := List.append_of_mem hk
  obtain ⟨s', t', hr', -⟩ := hr.of_append
  obtain ⟨t'', hr'', -, -, heq, -, -, -⟩ := hr'.newest
  have hs := IsRun.configured hr''
  have hc : k.pre.jointCommand now msg i ∈ k.out i := by
    rw [heq, he]
    exact if_pos ((congrFun hs.valid i).trans hvalid)
  rw [← isNum_wobblePhase_iff hs, ← isNum_jointCommand_iff]
  exact (hrange _ hc).isNum

/-- Whatever the parameters, the messages and the times are, the joints are commanded as they
    should be exactly if no phase of the wobble overflows, or no publisher is valid. -/
theorem commandsJoints_iff (hr : IsRun l h s) :
    CommandsJoints l h ↔ (∀ i, l.servoPubsValid i = false) ∨ PhasesInRange l h := by
  constructor
  · intro hcommands
    by_cases hvalid : ∃ i, l.servoPubsValid i = true
    · obtain ⟨i, hi⟩ := hvalid
      exact Or.inr (hcommands.phasesInRange hr hi)
    · exact Or.inl fun i => Bool.eq_false_iff.mpr fun hi => hvalid ⟨i, hi⟩
  intro hphases
  have hall : ∀ i, l.servoPubsValid i = true → PhasesInRange l h := by
    intro i hi
    refine hphases.resolve_left fun hnone => ?_
    rw [hnone i] at hi
    cases hi
  have hzero : ∀ x k a k₁ b now₁ now, h = x ++ (k :: a ++ k₁ :: b) → Outage l (k :: a) k₁ b →
      k₁.event = .timer now₁ → k.event = .timer now →
      (∀ k' ∈ k :: a, ddsReceiveTimeoutSec ≤ secs (k'.event.now - lastMessage l b)) →
      servoReturnTimeSec ≤ secs (now - now₁) → k.out = l.zeroCommands := by
    rintro x k a k₁ b now₁ now rfl ho he₁ he ha hf
    obtain ⟨s', t', hr', -⟩ := hr.of_append
    exact IsRun.zero hr' ho he₁ he ha hf
  refine ⟨?_, ?_, hzero, ?_⟩
  · intro out hout i c hc
    exact IsRun.range hr (hall i (IsRun.published_cases hr hout hc).2) hout hc
  · rintro x a k₁ b rfl ho
    obtain ⟨s', t', hr', -⟩ := hr.of_append
    rw [List.append_cons] at hr' hall
    refine IsRun.decreases hr' (fun i hi => (hall i hi).of_append) fun k hk => ?_
    rcases List.mem_append.mp hk with hk | hk
    · exact ho.silent k hk
    · obtain ⟨now, he, -⟩ := ho.tick
      exact ⟨now, List.mem_singleton.mp hk ▸ he⟩
  · intro hord x k a k₁ b now₁ now heq ho he₁ he hf
    refine hzero x k a k₁ b now₁ now heq ho he₁ he ?_ hf
    intro k' hk'
    obtain ⟨now', he', htick⟩ := ho.tick
    obtain rfl := ServoEvent.timer.inj (he₁.symm.trans he')
    have hle : now₁ ≤ k'.event.now := by
      rw [heq] at hord
      have hpair := (List.pairwise_append.mp (List.pairwise_append.mp hord).2.1).2.2 k' hk' k₁
        List.mem_cons_self
      rwa [he₁] at hpair
    exact htick.trans (secs_mono (sub_le_sub_right hle _))

end Runs

/-- Wobble, a control that is NaN, and an outage that is over 5 s after its first tick; the
    clock is set back in the middle of it. -/
noncomputable def wobbleEvents : List ServoEvent :=
  [.actuatorServos 100000000 ⟨0, fun j => if j = 0 then .nan else .num 2⟩,
    .timer 700000000, .timer 900000000, .timer 800000000, .timer 5700000000]

/-- A node that wobbles at this frequency, in Hz. -/
noncomputable def wobbling (servoWobbleHz : ℝ) : Launch := ⟨20, servoWobbleHz, fun _ => true, 0, 0⟩

theorem run_wobbling (servoWobbleHz : ℝ) (es : List ServoEvent) :
    ∃ s, IsRun (wobbling servoWobbleHz) (anyClock.trace (wobbling servoWobbleHz).node es []) s := by
  have htimed : ∀ es : List ServoEvent, anyClock.Timed () es := by
    intro es
    induction es with
    | nil => trivial
    | cons e es ih => exact ⟨le_rfl, le_rfl, ih⟩
  obtain ⟨s, t, hr⟩ := Machine.run_trace (wobbling servoWobbleHz).node () es (htimed es)
  exact ⟨s, hr⟩

theorem commandsJoints_wobbleEvents :
    CommandsJoints (wobbling 13) (anyClock.trace (wobbling 13).node wobbleEvents []) := by
  obtain ⟨s, hr⟩ := run_wobbling 13 wobbleEvents
  refine (commandsJoints_iff hr).mpr (Or.inr ?_)
  intro k hk now msg he _
  have hnow : now = 100000000 := by
    simp only [wobbleEvents, Machine.trace, Machine.record, List.mem_cons, List.not_mem_nil,
      or_false] at hk
    rcases hk with rfl | rfl | rfl | rfl | rfl <;> cases he
    rfl
  have hpi := Real.pi_pos
  have hpi4 := Real.pi_le_four
  have hsmall : ∀ {x : ℝ}, 0 ≤ x → x ≤ 1000 → ¬ Format.double.Overflows x := by
    intro x h0 h1
    refine Format.not_overflows (k := 10) (by decide) ?_
    rw [abs_of_nonneg h0]
    exact h1.trans_lt (by norm_num)
  subst hnow
  have hmax : max (wobbling 13).servoWobbleHz 0 = 13 := max_eq_left (by norm_num [wobbling])
  have hsecs : (secs (100000000 - (wobbling 13).start) : ℝ) = 1 / 10 := by
    norm_num [wobbling, secs]
  rw [hmax, hsecs]
  exact ⟨hsmall (by linarith) (by linarith), hsmall (by linarith) (by linarith)⟩

/-- A message with all controls at 0. -/
noncomputable def levelEvents : List ServoEvent := [.actuatorServos 100000000 ⟨0, fun _ => num 0⟩]

/-- A frequency of 1e308 Hz, which is a finite parameter, makes the first message command NaN. -/
theorem commandsJoints_fails :
    (∃ s, IsRun (wobbling (10 ^ 308))
      (anyClock.trace (wobbling (10 ^ 308)).node levelEvents []) s) ∧
    ¬ CommandsJoints (wobbling (10 ^ 308))
      (anyClock.trace (wobbling (10 ^ 308)).node levelEvents []) := by
  obtain ⟨s, hr⟩ := run_wobbling (10 ^ 308) levelEvents
  refine ⟨⟨s, hr⟩, fun hcommands => ?_⟩
  have hphases := hcommands.phasesInRange hr (i := 0) rfl
  obtain ⟨hfrequency, -⟩ := hphases _ (List.mem_singleton_self _) 100000000 _ rfl
    (by norm_num [wobbling])
  have hmax : max (wobbling (10 ^ 308)).servoWobbleHz 0 = 10 ^ 308 :=
    max_eq_left (by norm_num [wobbling])
  have hpi := Real.pi_gt_three
  have hnat : (2 : ℕ) ^ 1024 ≤ 2 * 3 * 10 ^ 308 := by decide +kernel
  have hbound : (2 : ℝ) ^ (1024 : ℤ) ≤ 2 * 3 * 10 ^ 308 := by exact_mod_cast hnat
  apply hfrequency
  rw [hmax]
  refine Format.overflows_of_le ?_
  rw [abs_of_nonneg (by positivity)]
  exact hbound.trans (by gcongr)

end Px4ServoToGz

end Hummingbird
