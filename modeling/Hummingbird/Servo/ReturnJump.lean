/-
  How a return to zero of `Px4ServoToDynamixel` ends.

  `timeout_callback` ends a return by the time since it started, and sends the servos to zero
  from wherever the filters have come. The filters move once per tick: after `n` ticks of the
  return the fraction `(1 - alpha) ^ n` of every angle is left (`IsRun.residual`). They are
  built to leave 1% after the `SERVO_RETURN_TIME_SEC * RATE_HZ` ticks that the nominal rate
  fits into the time, so `endsSmoothly_iff` says that the last step is as small as that exactly
  when the ticks have come.
-/
import Hummingbird.Servo.Outage

namespace Hummingbird

/-- The event is a tick of the timer. -/
def ServoEvent.isTimer : ServoEvent → Bool
  | actuatorServos _ _ => false
  | timer _ => true

namespace Px4ServoToDynamixel

open Approach

/-! ## One event -/

section Step

variable {s s' : Px4ServoToDynamixel} {now : Time} {out : Option GoalPpr}

/-- The ways through `timeout_callback`. -/
inductive TimeoutBranch (s : Px4ServoToDynamixel) (now : Time) :
    Px4ServoToDynamixel → Option GoalPpr → Prop
  | waiting (reported : Bool) (hw : s.ddsReceived = false ∨ s.haveGoal = false) :
      TimeoutBranch s now { s with noDdsReported := reported } none
  | holding (hd : s.ddsReceived = true) (hg : s.haveGoal = true)
      (hh : secs (now - s.lastDdsReceiveSteady) < ddsReceiveTimeoutSec ∨
        s.zeroReturnComplete = true) :
      TimeoutBranch s now s (some s.latestGoalPpr)
  | returning (hd : s.ddsReceived = true) (hg : s.haveGoal = true)
      (ha : ddsReceiveTimeoutSec ≤ secs (now - s.lastDdsReceiveSteady))
      (hc : s.zeroReturnComplete = false)
      (hf : secs (now - s.returnStart now) < servoReturnTimeSec) :
      TimeoutBranch s now
        { s.startReturn now with
          servoLpf := fun j => (s.servoLpf j).update 0
          latestGoalPpr := fun j => toPpr (dxlServos j) ((s.servoLpf j).update 0).y }
        (some fun j => toPpr (dxlServos j) ((s.servoLpf j).update 0).y)
  | finished (hd : s.ddsReceived = true) (hg : s.haveGoal = true)
      (ha : ddsReceiveTimeoutSec ≤ secs (now - s.lastDdsReceiveSteady))
      (hc : s.zeroReturnComplete = false)
      (hf : servoReturnTimeSec ≤ secs (now - s.returnStart now)) :
      TimeoutBranch s now
        { s.startReturn now with
          servoLpf := fun j => (s.servoLpf j).reset 0
          latestGoalPpr := fun j => (dxlServos j).zeroPpr
          returningToZero := false
          zeroReturnComplete := true }
        (some fun j => (dxlServos j).zeroPpr)

theorem timeoutCallback_branch (s : Px4ServoToDynamixel) (now : Time) :
    TimeoutBranch s now (s.timeoutCallback now).1 (s.timeoutCallback now).2 := by
  by_cases hw : (!s.ddsReceived || !s.haveGoal) = true
  · have hor : s.ddsReceived = false ∨ s.haveGoal = false := by simpa using hw
    unfold timeoutCallback
    rw [if_pos hw]
    dsimp only
    split
    · exact .waiting true hor
    · exact .waiting s.noDdsReported hor
  · obtain ⟨hd, hg⟩ : s.ddsReceived = true ∧ s.haveGoal = true := by simpa using hw
    rcases lt_or_ge (secs (now - s.lastDdsReceiveSteady)) ddsReceiveTimeoutSec with ha | ha
    · rw [timeoutCallback_of_holding hd hg (Or.inl ha)]
      exact .holding hd hg (Or.inl ha)
    cases hc : s.zeroReturnComplete with
    | true =>
      rw [timeoutCallback_of_holding hd hg (Or.inr hc)]
      exact .holding hd hg (Or.inr hc)
    | false =>
      rcases lt_or_ge (secs (now - s.returnStart now)) servoReturnTimeSec with hf | hf
      · rw [timeoutCallback_of_returning hd hg ha hc hf]
        exact .returning hd hg ha hc hf
      · rw [timeoutCallback_of_finished hd hg ha hc hf]
        exact .finished hd hg ha hc hf

end Step

/-! ## A return in progress -/

/-- The angle commanded last, before it is rounded to counts. -/
def commandedRad (s : Px4ServoToDynamixel) (j : Fin 6) : ℝ := (s.servoLpf j).y

/-- `k₀` found no return to zero going on and all of `a` found one. -/
structure Return (a : History) (k₀ : Entry) : Prop where
  starts : k₀.pre.returningToZero = false
  goesOn : ∀ k ∈ a, k.pre.returningToZero = true

/-- How many ticks the return has had. -/
def returnTicks (a : History) (k₀ : Entry) : ℕ :=
  (a ++ [k₀]).countP fun k => k.event.isTimer

/-- The tick completes a return to zero. -/
def Completes (k : Entry) : Prop :=
  k.pre.zeroReturnComplete = false ∧ k.post.zeroReturnComplete = true

/-- At the tick that completes a return the commanded angle of every servo changes by at most
    1% of what it was when the return started. -/
def EndsSmoothly (k : Entry) (past : History) : Prop :=
  Completes k → ∃ a k₀ b, past = a ++ k₀ :: b ∧ Return a k₀ ∧
    ∀ j, |commandedRad k.post j - commandedRad k.pre j| ≤ 0.01 * |commandedRad k₀.pre j|

/-- The tick finds a return to zero that started `SERVO_RETURN_TIME_SEC` or more before it. -/
def ReturnTimeOver (k : Entry) : Prop :=
  ∃ now, k.event = .timer now ∧ k.pre.returningToZero = true ∧
    servoReturnTimeSec ≤ secs (now - k.pre.returnStartSteady)

/-- A tick that finds the time of a return over has had before it the ticks of the return that
    the nominal rate fits into this time, or the return started with all servos at zero. -/
def EnoughTicks (k : Entry) (past : History) : Prop :=
  ReturnTimeOver k → ∃ a k₀ b, past = a ++ k₀ :: b ∧ Return a k₀ ∧
    (servoReturnTimeSec * rateHz ≤ returnTicks a k₀ ∨ ∀ j, commandedRad k₀.pre j = 0)

/-- What the flag `returning_to_zero_` stands for. -/
structure Outstanding (s : Px4ServoToDynamixel) (t : Time) : Prop where
  received : s.ddsReceived = true
  haveGoal : s.haveGoal = true
  incomplete : s.zeroReturnComplete = false
  gap : ddsReceiveTimeoutSec ≤ secs (t - s.lastDdsReceiveSteady)

theorem Outstanding.later {s : Px4ServoToDynamixel} {t t' : Time} (h : Outstanding s t)
    (hle : t ≤ t') : Outstanding s t' :=
  ⟨h.received, h.haveGoal, h.incomplete, h.gap.trans (secs_mono (sub_le_sub_right hle _))⟩

section Branch

variable {s s' : Px4ServoToDynamixel} {now : Time} {out : Option GoalPpr}

theorem TimeoutBranch.outstanding (hb : TimeoutBranch s now s' out)
    (hs : s.returningToZero = true → Outstanding s now) (hr : s'.returningToZero = true) :
    Outstanding s' now := by
  cases hb with
  | waiting reported hw =>
    have h := hs hr
    exact ⟨h.received, h.haveGoal, h.incomplete, h.gap⟩
  | holding => exact hs hr
  | returning hd hg ha hc hf =>
    rw [startReturn_eq]
    exact ⟨hd, hg, hc, ha⟩
  | finished => cases hr

theorem TimeoutBranch.initialized (hb : TimeoutBranch s now s' out) {j : Fin 6}
    (hs : (s.servoLpf j).initialized = true) : (s'.servoLpf j).initialized = true := by
  cases hb with
  | waiting => exact hs
  | holding => exact hs
  | returning => exact LPF.update_initialized _ _
  | finished => rfl

/-- A tick that leaves a return going on has moved every filter once. -/
theorem TimeoutBranch.moves (hb : TimeoutBranch s now s' out)
    (hs : s.returningToZero = true → Outstanding s now) (hr : s'.returningToZero = true) {j : Fin 6}
    (hi : (s.servoLpf j).initialized = true)
    (hgain : (s.servoLpf j).alpha = LPF.gain servoReturnTimeSec) :
    commandedRad s' j = (1 - LPF.gain servoReturnTimeSec) * commandedRad s j := by
  cases hb with
  | waiting reported hw =>
    have h := hs hr
    rcases hw with hw | hw
    · exact absurd (h.received.symm.trans hw) (by decide)
    · exact absurd (h.haveGoal.symm.trans hw) (by decide)
  | holding hd hg hh =>
    have h := hs hr
    rcases hh with hh | hh
    · exact absurd h.gap (not_le.mpr hh)
    · exact absurd (h.incomplete.symm.trans hh) (by decide)
  | returning =>
    show ((s.servoLpf j).update 0).y = _
    rw [LPF.update_y_real hi, hgain, approach, mul_zero, zero_add]
    rfl
  | finished => cases hr

/-- A tick completes a return exactly when it finds its time over. -/
theorem TimeoutBranch.completes_iff (hb : TimeoutBranch s now s' out)
    (hs : s.returningToZero = true → Outstanding s now) :
    s.zeroReturnComplete = false ∧ s'.zeroReturnComplete = true ↔
      s.returningToZero = true ∧ servoReturnTimeSec ≤ secs (now - s.returnStartSteady) := by
  cases hb with
  | waiting reported hw =>
    refine ⟨fun h => absurd (h.1.symm.trans h.2) (by decide), ?_⟩
    rintro ⟨hr, -⟩
    simp [(hs hr).received, (hs hr).haveGoal] at hw
  | holding hd hg hh =>
    refine ⟨fun h => absurd (h.1.symm.trans h.2) (by decide), ?_⟩
    rintro ⟨hr, -⟩
    simp [(hs hr).incomplete, not_lt.mpr (hs hr).gap] at hh
  | returning hd hg ha hc hf =>
    rw [startReturn_eq]
    refine ⟨fun h => absurd (h.1.symm.trans h.2) (by decide), ?_⟩
    rintro ⟨hr, ht⟩
    rw [returnStart, if_pos hr] at hf
    exact absurd ht (not_le.mpr hf)
  | finished hd hg ha hc hf =>
    refine ⟨fun _ => ?_, fun _ => ⟨hc, rfl⟩⟩
    -- a return that starts at this tick has not gone on for any time
    have hr : s.returningToZero = true := by
      by_contra hr
      rw [returnStart, if_neg hr, sub_self] at hf
      exact absurd hf (by decide +kernel)
    rw [returnStart, if_pos hr] at hf
    exact ⟨hr, hf⟩

/-- It sends every servo to zero. -/
theorem TimeoutBranch.commandedRad_of_completes (hb : TimeoutBranch s now s' out)
    (hc : s.zeroReturnComplete = false) (hc' : s'.zeroReturnComplete = true) (j : Fin 6) :
    commandedRad s' j = 0 := by
  cases hb with
  | waiting => exact absurd (hc.symm.trans hc') (by decide)
  | holding => exact absurd (hc.symm.trans hc') (by decide)
  | returning =>
    rw [startReturn_eq] at hc'
    exact absurd (hc.symm.trans hc') (by decide)
  | finished => rfl

end Branch

/-! ## Along a run -/

section Run

variable {t₀ t : Time} {a b h : History} {k k₀ : Entry} {s : Px4ServoToDynamixel}

theorem IsRun.initialized (hr : IsRun t₀ h s t) (j : Fin 6) :
    (s.servoLpf j).initialized = true := by
  refine Machine.Run.invariant (P := fun _ s _ => (s.servoLpf j).initialized = true) hr rfl ?_
  intro h s t e _ hs _ _
  cases e with
  | timer now => exact (timeoutCallback_branch s now).initialized hs
  | actuatorServos now msg =>
    show ((s.ddsCallback now msg).servoLpf j).initialized = true
    by_cases hm : msg.Finite
    · rw [ddsCallback_of_valid hm]
      rfl
    · rw [ddsCallback_of_invalid hm]
      exact hs

theorem IsRun.outstanding (hr : IsRun t₀ h s t) :
    s.returningToZero = true → Outstanding s t := by
  refine Machine.Run.invariant (P := fun _ s t => s.returningToZero = true → Outstanding s t) hr
    (fun h => by cases h) ?_
  intro h s t e _ hs hin _
  cases e with
  | timer now =>
    exact (timeoutCallback_branch s now).outstanding fun hret => (hs hret).later hin
  | actuatorServos now msg =>
    show (s.ddsCallback now msg).returningToZero = true → Outstanding (s.ddsCallback now msg) now
    by_cases hm : msg.Finite
    · rw [ddsCallback_of_valid hm]
      exact fun hret => by cases hret
    · rw [ddsCallback_of_invalid hm]
      exact fun hret => (hs hret).later hin

/-- An entry of a return: a tick, which moves every filter once, or a message that is not
    valid, which changes nothing. -/
theorem IsRun.step (hr : IsRun t₀ (k :: h) s t) (hret : k.post.returningToZero = true)
    (j : Fin 6) :
    commandedRad k.post j =
      (1 - LPF.gain servoReturnTimeSec) ^ (if k.event.isTimer then 1 else 0) *
        commandedRad k.pre j := by
  obtain ⟨t', hr', hin, -, -, hpost, -, -⟩ := hr.newest
  rw [hpost] at hret ⊢
  cases he : k.event with
  | timer now =>
    rw [he] at hret hin
    have hs : k.pre.returningToZero = true → Outstanding k.pre now := fun hret =>
      (IsRun.outstanding hr' hret).later hin
    rw [ServoEvent.isTimer, if_pos rfl, pow_one]
    exact (timeoutCallback_branch k.pre now).moves hs hret (IsRun.initialized hr' j)
      (IsRun.gain hr' j)
  | actuatorServos now msg =>
    rw [he] at hret
    change (k.pre.ddsCallback now msg).returningToZero = true at hret
    have hm : ¬ msg.Finite := by
      intro hm
      rw [ddsCallback_of_valid hm] at hret
      cases hret
    have hsame : k.pre.ddsCallback now msg = k.pre := ddsCallback_of_invalid hm
    rw [ServoEvent.isTimer, if_neg Bool.false_ne_true, pow_zero, one_mul]
    exact congrArg (fun s => commandedRad s j) hsame

/-- After `n` ticks of a return the fraction `(1 - alpha) ^ n` of every angle is left. -/
theorem IsRun.residual (hr : IsRun t₀ (a ++ k₀ :: b) s t) (ha : Return a k₀)
    (hs : s.returningToZero = true) (j : Fin 6) :
    commandedRad s j =
      (1 - LPF.gain servoReturnTimeSec) ^ returnTicks a k₀ * commandedRad k₀.pre j := by
  induction a generalizing s t with
  | nil =>
    obtain ⟨t', -, -, -, -, -, rfl, -⟩ := hr.newest
    rw [IsRun.step hr hs j, returnTicks, List.nil_append, List.countP_singleton]
  | cons k a ih =>
    rw [List.cons_append] at hr
    obtain ⟨t', hr', -, -, -, -, rfl, -⟩ := hr.newest
    have hprev := ih hr' ⟨ha.starts, fun k' hk' => ha.goesOn k' (List.mem_cons_of_mem _ hk')⟩
      (ha.goesOn k List.mem_cons_self)
    rw [IsRun.step hr hs j, hprev, ← mul_assoc, ← pow_add, returnTicks, returnTicks,
      List.cons_append, List.countP_cons, add_comm]

theorem IsRun.completes_iff (hr : IsRun t₀ (k :: h) s t) :
    Completes k ↔ ReturnTimeOver k := by
  obtain ⟨t', hr', hin, -, -, hpost, -, -⟩ := hr.newest
  unfold Completes ReturnTimeOver
  rw [hpost]
  cases he : k.event with
  | timer now =>
    rw [he] at hin
    have hs : k.pre.returningToZero = true → Outstanding k.pre now := fun hret =>
      (IsRun.outstanding hr' hret).later hin
    refine ((timeoutCallback_branch k.pre now).completes_iff hs).trans ?_
    simp
  | actuatorServos now msg =>
    refine iff_of_false ?_ (by simp)
    rintro ⟨hc, hc'⟩
    change (k.pre.ddsCallback now msg).zeroReturnComplete = true at hc'
    by_cases hm : msg.Finite
    · rw [ddsCallback_of_valid hm] at hc'
      cases hc'
    · rw [ddsCallback_of_invalid hm] at hc'
      exact absurd (hc.symm.trans hc') (by decide)

end Run

/-! ## The last step -/

/-- The fraction `r` of every one of some angles is at most 1% of it. -/
theorem forall_abs_residual_le_iff {r : ℝ} (hr : 0 ≤ r) (y : Fin 6 → ℝ) :
    (∀ j, |0 - r * y j| ≤ 0.01 * |y j|) ↔ r ≤ 0.01 ∨ ∀ j, y j = 0 := by
  have hiff : ∀ j, |0 - r * y j| ≤ 0.01 * |y j| ↔ r ≤ 0.01 ∨ y j = 0 := by
    intro j
    rw [zero_sub, abs_neg, abs_mul, abs_of_nonneg hr]
    rcases eq_or_ne (y j) 0 with hy | hy
    · simp [hy]
    · rw [mul_le_mul_iff_left₀ (abs_pos.mpr hy)]
      simp [hy]
  simp only [hiff, forall_or_left]

/-- The jump at the end of a return is what its ticks have left of the angles. -/
theorem IsRun.jump_le_iff {t₀ t : Time} {a b past : History} {k k₀ : Entry}
    {s : Px4ServoToDynamixel} (hr : IsRun t₀ (k :: past) s t) (heq : past = a ++ k₀ :: b)
    (hk : Completes k) (ha : Return a k₀) :
    (∀ j, |commandedRad k.post j - commandedRad k.pre j| ≤ 0.01 * |commandedRad k₀.pre j|) ↔
      servoReturnTimeSec * rateHz ≤ returnTicks a k₀ ∨ ∀ j, commandedRad k₀.pre j = 0 := by
  obtain ⟨now, he, hret, -⟩ := (IsRun.completes_iff hr).mp hk
  obtain ⟨t', hr', -, -, -, hpost, -, -⟩ := hr.newest
  rw [heq] at hr'
  have hzero : ∀ j, commandedRad k.post j = 0 := by
    rw [he] at hpost
    obtain ⟨hc, hc'⟩ := hk
    rw [hpost] at hc' ⊢
    exact (timeoutCallback_branch k.pre now).commandedRad_of_completes hc hc'
  have hT : (0 : ℝ) < servoReturnTimeSec := by norm_num [servoReturnTimeSec]
  have hticks : ((servoReturnTimeSec : ℚ) : ℝ) * rateHz = (2000 : ℕ) := by
    norm_num [servoReturnTimeSec, rateHz]
  have hleft := pow_nonneg (LPF.one_sub_gain_pos hT).le (returnTicks a k₀)
  simp only [hzero, IsRun.residual hr' ha hret]
  rw [forall_abs_residual_le_iff hleft, LPF.one_sub_gain_pow_le_iff hT hticks]
  norm_cast

/-- A return ends without a jump exactly when it has had its ticks: the filters move at each
    tick of the timer, and completion goes by the time. -/
theorem endsSmoothly_iff {t₀ t : Time} {h : History} {s : Px4ServoToDynamixel}
    (hr : IsRun t₀ h s t) :
    Past.Always (Past.At EndsSmoothly) h ↔ Past.Always (Past.At EnoughTicks) h := by
  refine Past.always_congr (R := fun h => Past.At EndsSmoothly h ↔ Past.At EnoughTicks h)
    (hr.always fun {k h s t} hr => ?_) fun k h hagree => hagree
  show EndsSmoothly k h ↔ EnoughTicks k h
  unfold EndsSmoothly EnoughTicks
  rw [← IsRun.completes_iff hr]
  refine imp_congr_right fun hk => exists₃_congr fun a k₀ b => ?_
  refine and_congr_right fun heq => and_congr_right fun ha => ?_
  exact IsRun.jump_le_iff hr heq hk ha

/-- A return from full deflection that has one tick before its time is over. -/
noncomputable def oneTickEvents : List ServoEvent :=
  [.actuatorServos 0 (constantMessage 1), .timer 500000000, .timer 5500000000]

theorem oneTickEvents_timed : dxlBridge.Timed 0 oneTickEvents := by
  simp [oneTickEvents, Machine.Timed, dxlBridge, ServoEvent.now]

theorem endsSmoothly_iff_oneTick :
    Past.Always (Past.At EndsSmoothly) (dxlBridge.trace (afterStartup 0) oneTickEvents []) ↔
      Past.Always (Past.At EnoughTicks) (dxlBridge.trace (afterStartup 0) oneTickEvents []) := by
  obtain ⟨s, t, hr⟩ := Machine.run_trace (afterStartup 0) 0 oneTickEvents oneTickEvents_timed
  exact endsSmoothly_iff hr

theorem messageRad_upper : messageRad (constantMessage 1) 0 = Real.pi := by
  simp [messageRad, constantMessage, clamp, dxlServos, betaLimitRad]

/-- The tick at 0.5 s starts the return, so the tick at 5.5 s finds its time over. -/
theorem oneTick_over :
    ReturnTimeOver (dxlBridge.record
      (((afterStartup 0).ddsCallback 0 (constantMessage 1)).timeoutCallback 500000000).1
      (.timer 5500000000)) := by
  rw [timeoutCallback_ddsCallback (constantMessage_finite 1) (by decide +kernel), startReturn_eq,
    ddsCallback_of_valid (constantMessage_finite 1)]
  refine ⟨5500000000, rfl, rfl, ?_⟩
  show servoReturnTimeSec ≤ secs (5500000000 - 500000000)
  decide +kernel

/-- Only this tick can have started it, and the first servo was at `π`. -/
theorem oneTick_start {k₂ k₁ k₀ : Entry} {a b : History}
    (h₂ : k₂.pre = (afterStartup 0).ddsCallback 0 (constantMessage 1))
    (heq : [k₂, k₁] = a ++ k₀ :: b) (ha : Return a k₀) :
    returnTicks a k₀ ≤ 1 ∧ commandedRad k₀.pre 0 = Real.pi := by
  have hm := constantMessage_finite 1
  cases a with
  | nil =>
    obtain ⟨rfl, -⟩ := List.cons.inj heq
    rw [h₂, ddsCallback_of_valid hm]
    exact ⟨List.countP_le_length, messageRad_upper⟩
  | cons k a =>
    obtain ⟨rfl, -⟩ := List.cons.inj heq
    have hret := ha.goesOn k₂ List.mem_cons_self
    rw [h₂, ddsCallback_of_valid hm] at hret
    cases hret

theorem endsSmoothly_fails :
    ¬ ∀ (t₀ t : Time) (h : History) (s : Px4ServoToDynamixel),
      IsRun t₀ h s t → Past.Always (Past.At EndsSmoothly) h := by
  intro hall
  obtain ⟨s, t, hr⟩ := Machine.run_trace (afterStartup 0) 0 oneTickEvents oneTickEvents_timed
  have hk := (IsRun.completes_iff hr).mpr oneTick_over
  obtain ⟨a, k₀, b, heq, ha, hjump⟩ := (hall 0 t _ s hr).1 hk
  obtain ⟨hticks, hangle⟩ := oneTick_start rfl heq ha
  rcases (IsRun.jump_le_iff hr heq hk ha).mp hjump with hn | hzero
  · have hle : (returnTicks a k₀ : ℚ) ≤ 1 := by exact_mod_cast hticks
    exact absurd (hn.trans hle) (by norm_num [servoReturnTimeSec, rateHz])
  · exact Real.pi_ne_zero (hangle.symm.trans (hzero 0))

end Px4ServoToDynamixel

end Hummingbird
