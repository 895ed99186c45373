/-
  What `Px4ServoToDynamixel` logs about its input.

  `dds_callback` and `timeout_callback` log the first message, gaps, the start of an outage and its
  end; the throttled lines and the one of a completed return are left out. The three flags of an
  outage and `no_dds_reported_` are one `Watchdog` (`simulates`), with one limit before the first
  valid message and another one after it: `FlagsAgree` is the invariant that makes them so.
  `outage_reports` says which lines every event of every run logs.
-/
import Hummingbird.Library.Watchdog
import Hummingbird.Servo.Outage

namespace Hummingbird

namespace Px4ServoToDynamixel

/-- The log lines `SERVO_DDS_NO_DATA`, `SERVO_DDS_FIRST_SAMPLE`, "Servo DDS gap", "Servo DDS outage"
    and "Servo DDS resumed". -/
inductive LogLine
  | noData (waitSec : ℚ)
  | firstSample (waitSec : ℚ)
  | gap (hostGapMs px4GapMs : ℚ)
  | outage (receiveGapSec timeoutSec : ℚ)
  | resumed (outageSec : ℚ)
  deriving DecidableEq

/-- A line about a silence. -/
def LogLine.isSilence : LogLine → Bool
  | noData _ => true
  | outage _ _ => true
  | resumed _ => true
  | _ => false

/-- `px4_gap_ms`: how far the PX4 timestamp has moved, or -1 where it has gone back. -/
def px4GapMs (last timestamp : UInt64) : ℚ :=
  if last ≤ timestamp then (timestamp - last).toNat / 1000 else -1

/-- What `dds_callback` logs. -/
def ddsLog (s : Px4ServoToDynamixel) (receiveTime : Time) (msg : ActuatorServos) : List LogLine :=
  if !msg.allFinite then []
  else
    let hostGapSec := secs (receiveTime - s.lastDdsReceiveSteady)
    (if !s.ddsReceived then [.firstSample (secs (receiveTime - s.nodeReadySteady))]
      else if servoDiagnosticGapSec ≤ hostGapSec then
        [.gap (hostGapSec * 1000) (px4GapMs s.lastPx4TimestampUs msg.timestamp)]
      else []) ++
    if s.ddsTimeoutReported then [.resumed (secs (receiveTime - s.lastTimeoutStart))] else []

/-- What `timeout_callback` logs. -/
def timeoutLog (s : Px4ServoToDynamixel) (now : Time) : List LogLine :=
  if !s.ddsReceived || !s.haveGoal then
    let waitSec := secs (now - s.nodeReadySteady)
    if 1 ≤ waitSec ∧ !s.noDdsReported then [.noData waitSec] else []
  else
    let receiveGapSec := secs (now - s.lastDdsReceiveSteady)
    if ddsReceiveTimeoutSec ≤ receiveGapSec ∧ !s.zeroReturnComplete then
      if !s.returningToZero then [.outage receiveGapSec ddsReceiveTimeoutSec] else []
    else []

/-- What the entry logs. -/
def logged (k : Entry) : List LogLine :=
  match k.event with
  | .actuatorServos now message => k.pre.ddsLog now message
  | .timer now => k.pre.timeoutLog now

/-! ## What the history says -/

/-- A valid message, with the time of its arrival. -/
def validMessage : ServoEvent → Option (Time × ActuatorServos)
  | .actuatorServos now message => if message.allFinite then some (now, message) else none
  | .timer _ => none

/-- What the event is for the watchdog of the input. -/
def watched : ServoEvent → Option (Watchdog.Event Time)
  | .actuatorServos now message => if message.allFinite then some (.feed now now) else none
  | .timer now => some (.check now now)

/-- Ages in seconds; the limit is one second until the first valid message. -/
def gauge : Watchdog.Gauge Time ℚ where
  age now last := secs (now - last)
  limit received := if received then ddsReceiveTimeoutSec else 1

/-- The valid messages and the ticks, newest first. -/
def signs (h : History) : List (Watchdog.Event Time) := h.filterMap fun k => watched k.event

/-- When the last valid message has arrived; the end of the startup before the first one. -/
def lastHeard (t₀ : Time) (h : History) : Time := Watchdog.lastFed t₀ (signs h)

/-- A valid message has arrived. -/
def heard (h : History) : Bool := Watchdog.fed (signs h)

/-- Since the last valid message a tick has found the input silent for too long. -/
def Silent (t₀ : Time) (h : History) : Prop := Watchdog.Overdue gauge t₀ (signs h)

/-- The PX4 timestamp of the last valid message. -/
def lastStamp (h : History) : UInt64 :=
  ((Past.latest (fun k : Entry => validMessage k.event) h).map fun m => m.2.timestamp).getD 0

/-- What the entry `k` logs after `past`. -/
structure LogsDds (t₀ : Time) (k : Entry) (past : History) : Prop where
  noData : ∀ waitSec, .noData waitSec ∈ logged k ↔
    ∃ now, k.event = .timer now ∧ heard past = false ∧ waitSec = secs (now - t₀) ∧
      1 ≤ waitSec ∧ ¬ Silent t₀ past
  outage : ∀ gapSec timeoutSec, .outage gapSec timeoutSec ∈ logged k ↔
    ∃ now, k.event = .timer now ∧ heard past = true ∧ gapSec = secs (now - lastHeard t₀ past) ∧
      timeoutSec = ddsReceiveTimeoutSec ∧ timeoutSec ≤ gapSec ∧ ¬ Silent t₀ past
  resumed : ∀ outageSec, .resumed outageSec ∈ logged k ↔
    ∃ now message, validMessage k.event = some (now, message) ∧ heard past = true ∧
      outageSec = secs (now - lastHeard t₀ past) ∧ Silent t₀ past
  firstSample : ∀ waitSec, .firstSample waitSec ∈ logged k ↔
    ∃ now message, validMessage k.event = some (now, message) ∧ heard past = false ∧
      waitSec = secs (now - t₀)
  gap : ∀ hostGapMs gapMs, .gap hostGapMs gapMs ∈ logged k ↔
    ∃ now message, validMessage k.event = some (now, message) ∧ heard past = true ∧
      hostGapMs = secs (now - lastHeard t₀ past) * 1000 ∧
      servoDiagnosticGapSec ≤ secs (now - lastHeard t₀ past) ∧
      gapMs = px4GapMs (lastStamp past) message.timestamp

/-! ## The flags -/

/-- How the flags of an outage hang together. -/
structure FlagsAgree (s : Px4ServoToDynamixel) : Prop where
  haveGoal : s.haveGoal = s.ddsReceived
  reported : s.ddsTimeoutReported = (s.returningToZero || s.zeroReturnComplete)
  start : s.ddsTimeoutReported = true → s.lastTimeoutStart = s.lastDdsReceiveSteady
  waiting : s.ddsReceived = false → s.ddsTimeoutReported = false

/-- The watchdog among the members of the node. -/
def watch (s : Px4ServoToDynamixel) : Watchdog Time where
  last := if s.ddsReceived then s.lastDdsReceiveSteady else s.nodeReadySteady
  received := s.ddsReceived
  missing := if s.ddsReceived then s.ddsTimeoutReported else s.noDdsReported

/-- The line that the node logs for a report of the watchdog; nothing tells that the node has
    stopped to wait for the first message. -/
def tell : Watchdog.Report ℚ → List LogLine
  | .timeout true age => [.outage age ddsReceiveTimeoutSec]
  | .timeout false age => [.noData age]
  | .recovered true gap => [.resumed gap]
  | .recovered false _ => []

/-- The lines of the entry about a silence. -/
def silenceLines (k : Entry) : List LogLine := (logged k).filter LogLine.isSilence

section Flags

variable {s : Px4ServoToDynamixel} {now : Time} {msg : ActuatorServos}

theorem FlagsAgree.startReturn (hs : FlagsAgree s) (hreceived : s.ddsReceived = true)
    (now : Time) : FlagsAgree (s.startReturn now) ∧ (s.startReturn now).returningToZero = true := by
  unfold Px4ServoToDynamixel.startReturn
  cases hreturning : s.returningToZero with
  | true => exact ⟨hs, hreturning⟩
  | false =>
    refine ⟨⟨hs.haveGoal, rfl, fun _ => rfl, fun hwaiting => ?_⟩, rfl⟩
    exact absurd (hreceived.symm.trans hwaiting) (by decide)

theorem FlagsAgree.stepReturn (hs : FlagsAgree s) (hreturning : s.returningToZero = true)
    (now : Time) : FlagsAgree (s.stepReturn now) := by
  have hreported : s.ddsTimeoutReported = true := by rw [hs.reported, hreturning, Bool.true_or]
  rcases lt_or_ge (secs (now - s.returnStartSteady)) servoReturnTimeSec with hlt | hge
  · rw [stepReturn_of_returning hlt]
    exact ⟨hs.haveGoal, hs.reported, hs.start, hs.waiting⟩
  · rw [stepReturn_of_finished hge]
    exact ⟨hs.haveGoal, hreported, hs.start, hs.waiting⟩

theorem FlagsAgree.handle (hs : FlagsAgree s) (e : ServoEvent) : FlagsAgree (s.handle e).1 := by
  cases e with
  | actuatorServos now message =>
    show FlagsAgree (s.ddsCallback now message)
    by_cases hvalid : message.Finite
    · rw [ddsCallback_of_valid hvalid]
      exact ⟨rfl, rfl, nofun, nofun⟩
    · rw [ddsCallback_of_invalid hvalid]
      exact hs
  | timer now =>
    show FlagsAgree (s.timeoutCallback now).1
    cases hreceived : s.ddsReceived with
    | false =>
      unfold timeoutCallback
      rw [if_pos (by simp [hreceived])]
      dsimp only
      split
      · exact ⟨hs.haveGoal, hs.reported, hs.start, hs.waiting⟩
      · exact hs
    | true =>
      have hgoal : s.haveGoal = true := hs.haveGoal.trans hreceived
      by_cases houtage : ddsReceiveTimeoutSec ≤ secs (now - s.lastDdsReceiveSteady) ∧
          s.zeroReturnComplete = false
      · rw [timeoutCallback_of_outage hreceived hgoal houtage.1 houtage.2]
        obtain ⟨hstart, hreturning⟩ := hs.startReturn hreceived now
        exact hstart.stepReturn hreturning now
      · rw [timeoutCallback_of_holding hreceived hgoal]
        · exact hs
        · rcases lt_or_ge (secs (now - s.lastDdsReceiveSteady)) ddsReceiveTimeoutSec with h | h
          · exact Or.inl h
          · exact Or.inr (by simpa [h] using houtage)

theorem IsRun.flagsAgree {t₀ t : Time} {h : History} (hr : IsRun t₀ h s t) : FlagsAgree s :=
  hr.invariant (P := fun _ s _ => FlagsAgree s) ⟨rfl, rfl, nofun, fun _ => rfl⟩
    fun e _ hs _ _ => hs.handle e

end Flags

section Watch

variable {s : Px4ServoToDynamixel} {now : Time} {msg : ActuatorServos}

/-- What one step of the return leaves alone. -/
theorem stepReturn_frame (s : Px4ServoToDynamixel) (now : Time) :
    s.stepReturn now = { s with
      servoLpf := (s.stepReturn now).servoLpf
      latestGoalPpr := (s.stepReturn now).latestGoalPpr
      returningToZero := (s.stepReturn now).returningToZero
      zeroReturnComplete := (s.stepReturn now).zeroReturnComplete } := by
  rcases lt_or_ge (secs (now - s.returnStartSteady)) servoReturnTimeSec with hlt | hge
  · rw [stepReturn_of_returning hlt]
  · rw [stepReturn_of_finished hge]

theorem watch_of_waiting (h : s.ddsReceived = false) :
    s.watch = ⟨s.nodeReadySteady, false, s.noDdsReported⟩ := by
  unfold watch
  rw [h]
  rfl

theorem watch_of_received (h : s.ddsReceived = true) :
    s.watch = ⟨s.lastDdsReceiveSteady, true, s.ddsTimeoutReported⟩ := by
  unfold watch
  rw [h]
  rfl

/-- A tick before the first valid message. -/
theorem waiting_simulates (h : s.ddsReceived = false) :
    (s.timeoutCallback now).1.watch = (s.watch.step gauge (.check now now)).1 ∧
      (s.timeoutLog now).filter LogLine.isSilence =
        (s.watch.step gauge (.check now now)).2.toList.flatMap tell := by
  have hguard : (!s.ddsReceived || !s.haveGoal) = true := by simp [h]
  unfold timeoutCallback timeoutLog
  rw [if_pos hguard, if_pos hguard, watch_of_waiting h]
  dsimp only
  by_cases hexpired : 1 ≤ secs (now - s.nodeReadySteady) ∧ s.noDdsReported = false
  · have hflag : 1 ≤ secs (now - s.nodeReadySteady) ∧ (!s.noDdsReported) = true := by
      simpa using hexpired
    rw [if_pos hflag, if_pos hflag,
      Watchdog.step_check_of_expired (w := ⟨s.nodeReadySteady, false, s.noDdsReported⟩)
        (g := gauge) hexpired.1 hexpired.2]
    exact ⟨watch_of_waiting h, rfl⟩
  · have hflag : ¬ (1 ≤ secs (now - s.nodeReadySteady) ∧ (!s.noDdsReported) = true) := by
      simpa using hexpired
    rw [if_neg hflag, if_neg hflag,
      Watchdog.step_check_of_not (w := ⟨s.nodeReadySteady, false, s.noDdsReported⟩)
        (g := gauge) hexpired]
    exact ⟨watch_of_waiting h, rfl⟩

/-- A tick after it. -/
theorem received_simulates (hs : FlagsAgree s) (h : s.ddsReceived = true) :
    (s.timeoutCallback now).1.watch = (s.watch.step gauge (.check now now)).1 ∧
      (s.timeoutLog now).filter LogLine.isSilence =
        (s.watch.step gauge (.check now now)).2.toList.flatMap tell := by
  have hgoal : s.haveGoal = true := hs.haveGoal.trans h
  have hguard : ¬ (!s.ddsReceived || !s.haveGoal) = true := by simp [h, hgoal]
  unfold timeoutLog
  rw [if_neg hguard, watch_of_received h]
  dsimp only
  by_cases houtage : ddsReceiveTimeoutSec ≤ secs (now - s.lastDdsReceiveSteady) ∧
      s.zeroReturnComplete = false
  · have hflag : ddsReceiveTimeoutSec ≤ secs (now - s.lastDdsReceiveSteady) ∧
        (!s.zeroReturnComplete) = true := by simpa using houtage
    rw [timeoutCallback_of_outage h hgoal houtage.1 houtage.2, if_pos hflag]
    have hreported : s.ddsTimeoutReported = s.returningToZero := by
      rw [hs.reported, houtage.2, Bool.or_false]
    have hafter : ((s.startReturn now).stepReturn now).watch =
        ⟨s.lastDdsReceiveSteady, true, true⟩ := by
      rw [stepReturn_frame, startReturn_eq]
      refine (watch_of_received ?_).trans ?_
      · exact h
      show (⟨_, _, !s.returningToZero || s.ddsTimeoutReported⟩ : Watchdog Time) = _
      rw [hreported, Bool.not_or_self]
    rw [hafter]
    cases hreturning : s.returningToZero with
    | false =>
      rw [Watchdog.step_check_of_expired
        (w := ⟨s.lastDdsReceiveSteady, true, s.ddsTimeoutReported⟩) (g := gauge) houtage.1
        (hreported.trans hreturning)]
      exact ⟨rfl, rfl⟩
    | true =>
      rw [Watchdog.step_check_of_not
        (w := ⟨s.lastDdsReceiveSteady, true, s.ddsTimeoutReported⟩) (g := gauge)
        (fun hexpired => Bool.false_ne_true
          (hexpired.2.symm.trans (hreported.trans hreturning)))]
      exact ⟨by rw [hreported, hreturning], rfl⟩
  · have hflag : ¬ (ddsReceiveTimeoutSec ≤ secs (now - s.lastDdsReceiveSteady) ∧
        (!s.zeroReturnComplete) = true) := by simpa using houtage
    have hexpired : ¬ (ddsReceiveTimeoutSec ≤ secs (now - s.lastDdsReceiveSteady) ∧
        s.ddsTimeoutReported = false) := by
      rintro ⟨hle, hfalse⟩
      rw [hs.reported, Bool.or_eq_false_iff] at hfalse
      exact houtage ⟨hle, hfalse.2⟩
    rw [timeoutCallback_of_holding h hgoal, if_neg hflag, Watchdog.step_check_of_not
      (w := ⟨s.lastDdsReceiveSteady, true, s.ddsTimeoutReported⟩) (g := gauge) hexpired]
    · exact ⟨watch_of_received h, rfl⟩
    · rcases lt_or_ge (secs (now - s.lastDdsReceiveSteady)) ddsReceiveTimeoutSec with hlt | hge
      · exact Or.inl hlt
      · exact Or.inr (by simpa [hge] using houtage)

/-- A valid message feeds the watchdog. -/
theorem message_simulates (hs : FlagsAgree s) (hvalid : msg.allFinite = true) :
    (s.ddsCallback now msg).watch = (s.watch.step gauge (.feed now now)).1 ∧
      (s.ddsLog now msg).filter LogLine.isSilence =
        (s.watch.step gauge (.feed now now)).2.toList.flatMap tell := by
  rw [ddsCallback_of_valid (ActuatorServos.allFinite_iff.mp hvalid)]
  refine ⟨rfl, ?_⟩
  unfold ddsLog
  rw [if_neg (by simp [hvalid])]
  dsimp only
  rw [List.filter_append]
  cases hreceived : s.ddsReceived with
  | false =>
    rw [hs.waiting hreceived, watch_of_waiting hreceived]
    cases s.noDdsReported <;> rfl
  | true =>
    rw [watch_of_received hreceived]
    cases hreported : s.ddsTimeoutReported with
    | false =>
      split
      · contradiction
      · split <;> rfl
    | true =>
      rw [hs.start hreported]
      split
      · contradiction
      · split <;> rfl

theorem simulates : Watchdog.Simulates dxlBridge FlagsAgree gauge (fun k => watched k.event) tell
    silenceLines watch := by
  intro s e hs
  cases e with
  | timer now =>
    refine .inr ⟨.check now now, rfl, ?_⟩
    cases hreceived : s.ddsReceived with
    | false => exact waiting_simulates hreceived
    | true => exact received_simulates hs hreceived
  | actuatorServos now message =>
    cases hvalid : message.allFinite with
    | false =>
      refine .inl ⟨if_neg (by rw [hvalid]; exact Bool.false_ne_true), ?_, ?_⟩
      · show (s.ddsCallback now message).watch = s.watch
        rw [ddsCallback_of_invalid]
        rw [← ActuatorServos.allFinite_iff, hvalid]
        exact Bool.false_ne_true
      · show (s.ddsLog now message).filter _ = []
        unfold ddsLog
        rw [if_pos (by rw [hvalid]; rfl)]
        rfl
    | true => exact .inr ⟨.feed now now, if_pos hvalid, message_simulates hs hvalid⟩

theorem watched_eq_check {e : ServoEvent} {told : Time} :
    watched e = some (.check now told) ↔ e = .timer now ∧ told = now := by
  cases e with
  | timer now' =>
    constructor
    · intro he
      obtain ⟨rfl, rfl⟩ := Watchdog.Event.check.inj (Option.some.inj he)
      exact ⟨rfl, rfl⟩
    · rintro ⟨he, rfl⟩
      obtain rfl := ServoEvent.timer.inj he
      rfl
  | actuatorServos now' message =>
    refine ⟨fun he => ?_, fun he => nomatch he.1⟩
    exact nomatch (Option.ite_none_right_eq_some.mp he).2

theorem watched_eq_feed {e : ServoEvent} {stored : Time} :
    watched e = some (.feed now stored) ↔
      ∃ message, validMessage e = some (now, message) ∧ stored = now := by
  cases e with
  | timer now' => exact ⟨nofun, nofun⟩
  | actuatorServos now' message =>
    unfold watched validMessage
    dsimp only
    split
    · constructor
      · intro he
        obtain ⟨rfl, rfl⟩ := Watchdog.Event.feed.inj (Option.some.inj he)
        exact ⟨message, rfl, rfl⟩
      · rintro ⟨message', he, rfl⟩
        obtain ⟨rfl, -⟩ := Prod.mk.inj (Option.some.inj he)
        rfl
    · exact ⟨nofun, nofun⟩

theorem mem_silenceLines {k : Entry} {l : LogLine} (hl : l.isSilence = true) :
    l ∈ silenceLines k ↔ l ∈ logged k := by
  simp [silenceLines, hl]

variable {reports : List (Watchdog.Report ℚ)}

theorem mem_tell_noData {waitSec : ℚ} :
    .noData waitSec ∈ reports.flatMap tell ↔ .timeout false waitSec ∈ reports := by
  rw [List.mem_flatMap]
  constructor
  · rintro ⟨⟨_ | _, age⟩ | ⟨_ | _, gap⟩, hr, hl⟩
    · obtain rfl := LogLine.noData.inj (List.mem_singleton.mp hl)
      exact hr
    · exact nomatch List.mem_singleton.mp hl
    · exact nomatch hl
    · exact nomatch List.mem_singleton.mp hl
  · exact fun hr => ⟨_, hr, List.mem_singleton.mpr rfl⟩

theorem mem_tell_outage {gapSec timeoutSec : ℚ} :
    .outage gapSec timeoutSec ∈ reports.flatMap tell ↔
      .timeout true gapSec ∈ reports ∧ timeoutSec = ddsReceiveTimeoutSec := by
  rw [List.mem_flatMap]
  constructor
  · rintro ⟨⟨_ | _, age⟩ | ⟨_ | _, gap⟩, hr, hl⟩
    · exact nomatch List.mem_singleton.mp hl
    · obtain ⟨rfl, rfl⟩ := LogLine.outage.inj (List.mem_singleton.mp hl)
      exact ⟨hr, rfl⟩
    · exact nomatch hl
    · exact nomatch List.mem_singleton.mp hl
  · rintro ⟨hr, rfl⟩
    exact ⟨_, hr, List.mem_singleton.mpr rfl⟩

theorem mem_tell_resumed {outageSec : ℚ} :
    .resumed outageSec ∈ reports.flatMap tell ↔ .recovered true outageSec ∈ reports := by
  rw [List.mem_flatMap]
  constructor
  · rintro ⟨⟨_ | _, age⟩ | ⟨_ | _, gap⟩, hr, hl⟩
    · exact nomatch List.mem_singleton.mp hl
    · exact nomatch List.mem_singleton.mp hl
    · exact nomatch hl
    · obtain rfl := LogLine.resumed.inj (List.mem_singleton.mp hl)
      exact hr
  · exact fun hr => ⟨_, hr, List.mem_singleton.mpr rfl⟩

theorem allFinite_of_validMessage {e : ServoEvent} (he : validMessage e = some (now, msg)) :
    msg.allFinite = true := by
  cases e with
  | timer now' => exact nomatch he
  | actuatorServos now' message =>
    obtain ⟨hvalid, he⟩ := Option.ite_none_right_eq_some.mp he
    obtain ⟨-, rfl⟩ := Prod.mk.inj (Option.some.inj he)
    exact hvalid

/-- The other lines of an entry are those of a valid message. -/
theorem mem_logged_message {k : Entry} {l : LogLine} (hl : l.isSilence = false) :
    l ∈ logged k ↔ ∃ now message, validMessage k.event = some (now, message) ∧
      l ∈ k.pre.ddsLog now message := by
  unfold logged
  cases he : k.event with
  | timer now =>
    refine ⟨fun hmem => ?_, nofun⟩
    dsimp only at hmem
    unfold timeoutLog at hmem
    split at hmem
    · dsimp only at hmem
      split at hmem
      · obtain rfl := List.mem_singleton.mp hmem
        exact nomatch hl
      · exact nomatch hmem
    · dsimp only at hmem
      split at hmem
      · split at hmem
        · obtain rfl := List.mem_singleton.mp hmem
          exact nomatch hl
        · exact nomatch hmem
      · exact nomatch hmem
  | actuatorServos now message =>
    dsimp only [validMessage]
    cases hvalid : message.allFinite with
    | false =>
      refine ⟨fun hmem => ?_, nofun⟩
      unfold ddsLog at hmem
      rw [hvalid] at hmem
      exact nomatch hmem
    | true =>
      rw [if_pos rfl]
      constructor
      · exact fun hmem => ⟨now, message, rfl, hmem⟩
      · rintro ⟨now', message', he', hmem⟩
        obtain ⟨rfl, rfl⟩ := Prod.mk.inj (Option.some.inj he')
        exact hmem

theorem ddsLog_of_valid (hvalid : msg.allFinite = true) :
    s.ddsLog now msg =
      (if !s.ddsReceived then [.firstSample (secs (now - s.nodeReadySteady))]
        else if servoDiagnosticGapSec ≤ secs (now - s.lastDdsReceiveSteady) then
          [.gap (secs (now - s.lastDdsReceiveSteady) * 1000)
            (px4GapMs s.lastPx4TimestampUs msg.timestamp)]
        else []) ++
        if s.ddsTimeoutReported then [.resumed (secs (now - s.lastTimeoutStart))] else [] :=
  if_neg (by rw [hvalid]; decide)

theorem mem_ddsLog_firstSample (hvalid : msg.allFinite = true) {waitSec : ℚ} :
    .firstSample waitSec ∈ s.ddsLog now msg ↔
      s.ddsReceived = false ∧ waitSec = secs (now - s.nodeReadySteady) := by
  have hresumed : LogLine.firstSample waitSec ∉
      if s.ddsTimeoutReported then [LogLine.resumed (secs (now - s.lastTimeoutStart))] else [] := by
    split
    · exact fun hmem => nomatch List.mem_singleton.mp hmem
    · exact List.not_mem_nil
  rw [ddsLog_of_valid hvalid, List.mem_append, or_iff_left hresumed]
  cases s.ddsReceived with
  | false =>
    constructor
    · exact fun hmem => ⟨rfl, LogLine.firstSample.inj (List.mem_singleton.mp hmem)⟩
    · rintro ⟨-, rfl⟩
      exact List.mem_singleton.mpr rfl
  | true =>
    refine ⟨fun hmem => ?_, nofun⟩
    rw [if_neg (by decide)] at hmem
    split at hmem
    · exact nomatch List.mem_singleton.mp hmem
    · exact nomatch hmem

theorem mem_ddsLog_gap (hvalid : msg.allFinite = true) {hostMs px4Ms : ℚ} :
    .gap hostMs px4Ms ∈ s.ddsLog now msg ↔
      s.ddsReceived = true ∧ hostMs = secs (now - s.lastDdsReceiveSteady) * 1000 ∧
        servoDiagnosticGapSec ≤ secs (now - s.lastDdsReceiveSteady) ∧
        px4Ms = px4GapMs s.lastPx4TimestampUs msg.timestamp := by
  have hresumed : LogLine.gap hostMs px4Ms ∉
      if s.ddsTimeoutReported then [LogLine.resumed (secs (now - s.lastTimeoutStart))] else [] := by
    split
    · exact fun hmem => nomatch List.mem_singleton.mp hmem
    · exact List.not_mem_nil
  rw [ddsLog_of_valid hvalid, List.mem_append, or_iff_left hresumed]
  cases s.ddsReceived with
  | false => exact ⟨fun hmem => (nomatch List.mem_singleton.mp hmem), nofun⟩
  | true =>
    rw [if_neg (by decide)]
    split
    · rename_i hle
      constructor
      · intro hmem
        obtain ⟨hhost, hpx4⟩ := LogLine.gap.inj (List.mem_singleton.mp hmem)
        exact ⟨rfl, hhost, hle, hpx4⟩
      · rintro ⟨-, rfl, -, rfl⟩
        exact List.mem_singleton.mpr rfl
    · rename_i hnot
      exact ⟨nofun, fun hgap => absurd hgap.2.2.1 hnot⟩

/-- A tick leaves the times and the stamp of the messages alone. -/
theorem timeoutCallback_frame (s : Px4ServoToDynamixel) (now : Time) :
    (s.timeoutCallback now).1.nodeReadySteady = s.nodeReadySteady ∧
      (s.timeoutCallback now).1.lastPx4TimestampUs = s.lastPx4TimestampUs := by
  unfold timeoutCallback
  split
  · dsimp only
    split <;> exact ⟨rfl, rfl⟩
  · dsimp only
    split
    · rw [stepReturn_frame, startReturn_eq]
      exact ⟨rfl, rfl⟩
    · exact ⟨rfl, rfl⟩

end Watch

section Runs

variable {t₀ t : Time} {h : History} {s : Px4ServoToDynamixel}

theorem watch_afterStartup (t₀ : Time) : watch (afterStartup t₀) = Watchdog.start t₀ := rfl

/-- What the node remembers of its start and of the stamps. -/
theorem IsRun.remembers (hr : IsRun t₀ h s t) :
    s.nodeReadySteady = t₀ ∧ s.lastPx4TimestampUs = lastStamp h := by
  refine hr.invariant (P := fun h s _ => s.nodeReadySteady = t₀ ∧
    s.lastPx4TimestampUs = lastStamp h) ⟨rfl, rfl⟩ ?_
  rintro h s t e - ⟨hready, hstamp⟩ - -
  cases e with
  | timer now =>
    obtain ⟨hready', hstamp'⟩ := timeoutCallback_frame s now
    exact ⟨hready'.trans hready, hstamp'.trans hstamp⟩
  | actuatorServos now message =>
    show (s.ddsCallback now message).nodeReadySteady = t₀ ∧
      (s.ddsCallback now message).lastPx4TimestampUs = _
    unfold lastStamp
    by_cases hvalid : message.Finite
    · have hmessage : validMessage (dxlBridge.record s (.actuatorServos now message)).event =
          some (now, message) := if_pos (ActuatorServos.allFinite_iff.mpr hvalid)
      rw [ddsCallback_of_valid hvalid,
        Past.latest_cons_of_some (f := fun k : Entry => validMessage k.event) hmessage]
      exact ⟨hready, rfl⟩
    · have hnone : validMessage (dxlBridge.record s (.actuatorServos now message)).event = none :=
        if_neg fun hall => hvalid (ActuatorServos.allFinite_iff.mp hall)
      rw [ddsCallback_of_invalid hvalid,
        Past.latest_cons_of_none (f := fun k : Entry => validMessage k.event) hnone]
      exact ⟨hready, hstamp⟩

/-- Whatever arrives and whenever the timer fires: the node logs one outage for every silence, at
    the first tick that finds it, and its length at the message that ends it. -/
theorem outage_reports (hr : IsRun t₀ h s t) : Past.Always (Past.At (LogsDds t₀)) h := by
  refine hr.always fun {k h s t} hrun => ?_
  obtain ⟨reports, haccounts, hlines⟩ :=
    (simulates.accounts IsRun.flagsAgree (watch_afterStartup t₀) hrun).1
  cases hrun with
  | @handle h s t e hrun hin _ =>
    have hwatches := simulates.watches IsRun.flagsAgree (watch_afterStartup t₀) hrun
    have hreceived : s.ddsReceived = heard h := hwatches.received
    have hlast : (if s.ddsReceived then s.lastDdsReceiveSteady else s.nodeReadySteady) =
      lastHeard t₀ h := hwatches.last
    obtain ⟨hready, hstamp⟩ := IsRun.remembers hrun
    have hfirst (hheard : heard h = false) : lastHeard t₀ h = t₀ := by
      rw [← hlast, hreceived, hheard, ← hready]
      rfl
    have hmember (hheard : heard h = true) : s.lastDdsReceiveSteady = lastHeard t₀ h := by
      rw [← hlast, hreceived, hheard]
      rfl
    refine ⟨fun waitSec => ?_, fun gapSec timeoutSec => ?_, fun outageSec => ?_,
      fun waitSec => ?_, fun hostMs px4Ms => ?_⟩
    · rw [← mem_silenceLines rfl, hlines, mem_tell_noData, haccounts.timeout]
      constructor
      · rintro ⟨tested, told, hview, hheard, hage, hle, hnot⟩
        obtain ⟨he, rfl⟩ := watched_eq_check.mp hview
        have hwait : waitSec = secs (told - t₀) := by
          rw [← hfirst hheard.symm]
          exact hage
        exact ⟨told, he, hheard.symm, hwait, hage ▸ hle, hnot⟩
      · rintro ⟨now, he, hheard, rfl, hle, hnot⟩
        refine ⟨now, now, watched_eq_check.mpr ⟨he, rfl⟩, hheard.symm, ?_, ?_, hnot⟩
        · show _ = secs (now - lastHeard t₀ h)
          rw [hfirst hheard]
        · show (1 : ℚ) ≤ secs (now - lastHeard t₀ h)
          rw [hfirst hheard]
          exact hle
    · rw [← mem_silenceLines rfl, hlines, mem_tell_outage, haccounts.timeout]
      constructor
      · rintro ⟨⟨tested, told, hview, hheard, rfl, hle, hnot⟩, rfl⟩
        obtain ⟨he, rfl⟩ := watched_eq_check.mp hview
        exact ⟨told, he, hheard.symm, rfl, rfl, hle, hnot⟩
      · rintro ⟨now, he, hheard, rfl, rfl, hle, hnot⟩
        exact ⟨⟨now, now, watched_eq_check.mpr ⟨he, rfl⟩, hheard.symm, rfl, hle, hnot⟩, rfl⟩
    · rw [← mem_silenceLines rfl, hlines, mem_tell_resumed, haccounts.recovered]
      constructor
      · rintro ⟨now, stored, hview, hheard, rest⟩
        obtain ⟨message, hmessage, -⟩ := watched_eq_feed.mp hview
        exact ⟨now, message, hmessage, hheard.symm, rest⟩
      · rintro ⟨now, message, hmessage, hheard, rest⟩
        exact ⟨now, now, watched_eq_feed.mpr ⟨message, hmessage, rfl⟩, hheard.symm, rest⟩
    · refine (mem_logged_message rfl).trans (exists_congr fun now => exists_congr fun message =>
        and_congr_right fun hmessage => ?_)
      refine (mem_ddsLog_firstSample (allFinite_of_validMessage hmessage)).trans ?_
      show s.ddsReceived = false ∧ waitSec = secs (now - s.nodeReadySteady) ↔ _
      rw [hreceived, hready]
    · refine (mem_logged_message rfl).trans (exists_congr fun now => exists_congr fun message =>
        and_congr_right fun hmessage => ?_)
      refine (mem_ddsLog_gap (allFinite_of_validMessage hmessage)).trans ?_
      show s.ddsReceived = true ∧ hostMs = secs (now - s.lastDdsReceiveSteady) * 1000 ∧
        servoDiagnosticGapSec ≤ secs (now - s.lastDdsReceiveSteady) ∧
        px4Ms = px4GapMs s.lastPx4TimestampUs message.timestamp ↔ _
      rw [hreceived, hstamp]
      exact and_congr_right fun hheard => by rw [hmember hheard]

end Runs

/-- Nothing for 1.2 s, a message, and half a second later the next one. -/
noncomputable def lateMessages : List ServoEvent :=
  [.timer 1200000000, .actuatorServos 1300000000 ⟨1000, fun _ => .num 0⟩, .timer 1800000000,
    .actuatorServos 1900000000 ⟨601000, fun _ => .num 0⟩]

theorem outage_reports_lateMessages : Past.Always (Past.At (LogsDds 0))
    (dxlBridge.trace (afterStartup 0) lateMessages []) := by
  obtain ⟨s, t, hr⟩ := dxlBridge.run_trace (afterStartup 0) 0 lateMessages
    ⟨by decide, by decide, by decide, by decide, by decide, by decide, by decide, by decide,
      trivial⟩
  exact outage_reports hr

end Px4ServoToDynamixel

end Hummingbird
