/-
  The input diagnostics of `MocapToPx4`.

  `onMocap` notes every message of the target body, valid or not, before it looks at the pose, and
  the output timer looks for a silence of 0.2 s before it publishes. `Diagnosed` is the node with
  the members that only these read, `has_input_`, `last_input_steady_`, `node_start_steady_` and
  `input_missing_`; the throttled log lines are left out. The members are a `Watchdog`
  (`simulates`). `mocap_input` says which lines every event of every run logs, and that nothing is
  published while the input is reported missing.
-/
import Hummingbird.Library.Watchdog
import Hummingbird.Mocap.Publications

namespace Hummingbird

open Rotation

namespace MocapToPx4

/-- The log lines `OPTI_INPUT_GAP`, `OPTI_INPUT_RECOVERED`, `OPTI_INPUT_FIRST_SAMPLE` and
    `OPTI_INPUT_TIMEOUT`. -/
inductive LogLine
  | inputGap (gapSec : ℚ)
  | inputRecovered (gapSec : ℚ)
  | inputFirstSample
  | inputTimeout (received : Bool) (ageSec : ℚ)
  deriving DecidableEq

/-- A line about a silence. -/
def LogLine.isSilence : LogLine → Bool
  | inputRecovered _ => true
  | inputTimeout _ _ => true
  | _ => false

/-- The node with its diagnostics. -/
structure Diagnosed where
  bridge : MocapToPx4
  hasInput : Bool
  lastInputSteady : Time
  nodeStartSteady : Time
  inputMissing : Bool

/-- What a callback hands to the publishers and to the log. -/
structure Output where
  published : List Publication
  logged : List LogLine

/-- What the node handles, with the readings of the steady clock. The timer tests the age of the
    input with one reading and tells it with another. -/
inductive DiagnosedEvent
  | mocap (steady : Time) (now : RosTime) (msg : PoseStamped)
  | tick (tested told : Time) (now : RosTime)

namespace DiagnosedEvent

def enter : DiagnosedEvent → Time
  | mocap steady _ _ => steady
  | tick tested _ _ => tested

def leave : DiagnosedEvent → Time
  | mocap steady _ _ => steady
  | tick _ told _ => told

end DiagnosedEvent

namespace Diagnosed

noncomputable section

def construct (steady : Time) : Diagnosed where
  bridge := MocapToPx4.construct
  hasInput := false
  lastInputSteady := 0
  nodeStartSteady := steady
  inputMissing := false

/-- The message is one of the target body. -/
def names (p : Parameters) (msg : PoseStamped) : Bool :=
  decide (p.targetBodyName = "" ∨ msg.frameId = p.targetBodyName)

/-- The start of `onMocap`, up to `last_input_steady_`. -/
def noteInput (s : Diagnosed) (receiveSteady : Time) : Diagnosed × List LogLine :=
  let logged :=
    if s.hasInput then
      let gapSec := secs (receiveSteady - s.lastInputSteady)
      (if 0.05 ≤ gapSec then [.inputGap gapSec] else []) ++
        if s.inputMissing then [.inputRecovered gapSec] else []
    else [.inputFirstSample]
  ({ s with inputMissing := false, hasInput := true, lastInputSteady := receiveSteady }, logged)

/-- The time since which the input is silent. -/
def silentSince (s : Diagnosed) : Time :=
  if s.hasInput then s.lastInputSteady else s.nodeStartSteady

/-- The start of `publishPx4`, up to the test of `pending_odom_`. -/
def checkInput (s : Diagnosed) (tested told : Time) : Diagnosed × List LogLine :=
  if 0.2 ≤ secs (tested - s.silentSince) then
    if !s.inputMissing then
      ({ s with inputMissing := true }, [.inputTimeout s.hasInput (secs (told - s.silentSince))])
    else (s, [])
  else (s, [])

variable (eigen : Matrix (Fin 3) (Fin 3) ℝ → Quat) (p : Parameters)

/-- `onMocap`. -/
def onMocap (s : Diagnosed) (steady : Time) (now : RosTime) (msg : PoseStamped) :
    Diagnosed × Output :=
  if !names p msg then (s, ⟨[], []⟩)
  else
    let (s, logged) := s.noteInput steady
    let (bridge, published) := MocapToPx4.onMocap eigen p s.bridge now msg
    ({ s with bridge := bridge }, ⟨published, logged⟩)

/-- `publishPx4`. -/
def publishPx4 (s : Diagnosed) (tested told : Time) (now : RosTime) : Diagnosed × Output :=
  let (s, logged) := s.checkInput tested told
  let (bridge, published) := MocapToPx4.publishPx4 p s.bridge now
  ({ s with bridge := bridge }, ⟨published, logged⟩)

/-- Handle one event; after an exception nothing is handled any more. -/
def handle (s : Diagnosed) (e : DiagnosedEvent) : Diagnosed × Output :=
  if s.bridge.stopped then (s, ⟨[], []⟩)
  else
    match e with
    | .mocap steady now msg => onMocap eigen p s steady now msg
    | .tick tested told now => publishPx4 p s tested told now

def node : Machine Diagnosed DiagnosedEvent Output Time where
  step := handle eigen p
  enter := DiagnosedEvent.enter
  leave := DiagnosedEvent.leave

end

abbrev Entry := Machine.Step Diagnosed DiagnosedEvent Output

/-- What the node has handled, newest first. -/
abbrev History := List Entry

/-- Runs of the node that was constructed at `t₀`. -/
abbrev IsRun (eigen : Matrix (Fin 3) (Fin 3) ℝ → Quat) (p : Parameters) (t₀ : Time) :
    History → Diagnosed → Time → Prop :=
  Machine.Run (node eigen p) (construct t₀) t₀

/-- When the message that is the event is noted, if it is one of the target body. -/
def arrivalOf (p : Parameters) : DiagnosedEvent → Option Time
  | .mocap steady _ msg => if names p msg then some steady else none
  | .tick _ _ _ => none

/-- What the event is for the watchdog of the input. -/
def signOf (p : Parameters) : DiagnosedEvent → Option (Watchdog.Event Time)
  | .mocap steady _ msg => if names p msg then some (.feed steady steady) else none
  | .tick tested told _ => some (.check tested told)

/-- When the node has noted a message in the entry `k`. -/
def arrival (p : Parameters) (k : Entry) : Option Time :=
  if k.pre.bridge.stopped then none else arrivalOf p k.event

/-- What the entry is for the watchdog of the input. -/
def watched (p : Parameters) (k : Entry) : Option (Watchdog.Event Time) :=
  if k.pre.bridge.stopped then none else signOf p k.event

/-- Ages in seconds, the limit being 0.2 s. -/
def gauge : Watchdog.Gauge Time ℚ where
  age now last := secs (now - last)
  limit _ := 0.2

/-- The messages and the checks, newest first. -/
def signs (p : Parameters) (h : History) : List (Watchdog.Event Time) := h.filterMap (watched p)

/-- When the last message has arrived; the node's start before the first one. -/
def lastHeard (p : Parameters) (t₀ : Time) (h : History) : Time :=
  Watchdog.lastFed t₀ (signs p h)

/-- A message has arrived. -/
def heard (p : Parameters) (h : History) : Bool := Watchdog.fed (signs p h)

/-- Since the last message the timer has found a silence of 0.2 s. -/
def Silent (p : Parameters) (t₀ : Time) (h : History) : Prop :=
  Watchdog.Overdue gauge t₀ (signs p h)

/-- What the entry `k` logs after `past`, and that the timer publishes nothing in a silence. -/
structure LogsInput (p : Parameters) (t₀ : Time) (k : Entry) (past : History) : Prop where
  timeout : ∀ received ageSec, .inputTimeout received ageSec ∈ k.out.logged ↔
    ∃ tested told now, k.pre.bridge.stopped = false ∧ k.event = .tick tested told now ∧
      received = heard p past ∧ ageSec = secs (told - lastHeard p t₀ past) ∧
      0.2 ≤ secs (tested - lastHeard p t₀ past) ∧ ¬ Silent p t₀ past
  recovered : ∀ gapSec, .inputRecovered gapSec ∈ k.out.logged ↔
    ∃ steady, arrival p k = some steady ∧ heard p past = true ∧
      gapSec = secs (steady - lastHeard p t₀ past) ∧ Silent p t₀ past
  long : ∀ gapSec, .inputRecovered gapSec ∈ k.out.logged → 0.2 ≤ gapSec
  firstSample : .inputFirstSample ∈ k.out.logged ↔
    ∃ steady, arrival p k = some steady ∧ heard p past = false
  gap : ∀ gapSec, .inputGap gapSec ∈ k.out.logged ↔
    ∃ steady, arrival p k = some steady ∧ heard p past = true ∧
      gapSec = secs (steady - lastHeard p t₀ past) ∧ 0.05 ≤ gapSec
  quiet : ∀ tested told now, k.event = .tick tested told now → Silent p t₀ past →
    k.out.published = []

/-! ## The watchdog of the input -/

/-- The watchdog among the members of the node. -/
def watch (s : Diagnosed) : Watchdog Time := ⟨s.silentSince, s.hasInput, s.inputMissing⟩

/-- The line that the node logs for a report of the watchdog; the first message has another one,
    whether or not the watchdog had reported a timeout. -/
def tell : Watchdog.Report ℚ → List LogLine
  | .timeout received age => [.inputTimeout received age]
  | .recovered true gap => [.inputRecovered gap]
  | .recovered false _ => []

/-- The lines of the entry about a silence. -/
def said (k : Entry) : List LogLine := k.out.logged.filter LogLine.isSilence

section Watch

variable {eigen : Matrix (Fin 3) (Fin 3) ℝ → Quat} {p : Parameters} {s : Diagnosed}
  {steady tested told : Time} {now : RosTime} {msg : PoseStamped}

theorem isSilence_of_mem_tell {reports : List (Watchdog.Report ℚ)} {l : LogLine}
    (hl : l ∈ reports.flatMap tell) : l.isSilence = true := by
  obtain ⟨r, -, hl⟩ := List.mem_flatMap.mp hl
  cases r with
  | timeout received age =>
    obtain rfl := List.mem_singleton.mp hl
    rfl
  | recovered received gap =>
    cases received with
    | true =>
      obtain rfl := List.mem_singleton.mp hl
      rfl
    | false => exact nomatch hl

theorem noteInput_said : (s.noteInput steady).2.filter LogLine.isSilence =
    (s.watch.step gauge (.feed steady steady)).2.toList.flatMap tell := by
  obtain ⟨bridge, received, last, start, missing⟩ := s
  cases received with
  | false => cases missing <;> rfl
  | true =>
    show ((if 0.05 ≤ secs (steady - last) then [LogLine.inputGap (secs (steady - last))] else []) ++
      if missing then [LogLine.inputRecovered (secs (steady - last))] else []).filter
        LogLine.isSilence = _
    rw [List.filter_append]
    split <;> cases missing <;> rfl

/-- The timer checks the watchdog. -/
theorem checkInput_eq : s.checkInput tested told =
    ({ s with inputMissing := (s.watch.step gauge (.check tested told)).1.missing },
      (s.watch.step gauge (.check tested told)).2.toList.flatMap tell) := by
  unfold checkInput
  by_cases hexpired : (0.2 : ℚ) ≤ secs (tested - s.silentSince) ∧ s.inputMissing = false
  · rw [Watchdog.step_check_of_expired (w := s.watch) (g := gauge) hexpired.1 hexpired.2,
      if_pos hexpired.1, if_pos (by rw [hexpired.2]; rfl)]
    rfl
  · rw [Watchdog.step_check_of_not (w := s.watch) (g := gauge) hexpired]
    split
    · rename_i hle
      rw [if_neg (fun hflag => hexpired ⟨hle, by simpa using hflag⟩)]
      rfl
    · rfl

theorem handle_of_stopped (hs : s.bridge.stopped = true) (e : DiagnosedEvent) :
    s.handle eigen p e = (s, ⟨[], []⟩) := if_pos hs

theorem handle_of_running (hs : s.bridge.stopped = false) (e : DiagnosedEvent) :
    s.handle eigen p e = match e with
      | .mocap steady now msg => s.onMocap eigen p steady now msg
      | .tick tested told now => s.publishPx4 p tested told now :=
  if_neg (by rw [hs]; exact Bool.false_ne_true)

theorem onMocap_of_other (hn : names p msg = false) :
    s.onMocap eigen p steady now msg = (s, ⟨[], []⟩) := if_pos (by rw [hn]; rfl)

theorem onMocap_of_named (hn : names p msg = true) :
    s.onMocap eigen p steady now msg =
      ({ (s.noteInput steady).1 with
          bridge := (MocapToPx4.onMocap eigen p s.bridge now msg).1 },
        ⟨(MocapToPx4.onMocap eigen p s.bridge now msg).2, (s.noteInput steady).2⟩) :=
  if_neg (by rw [hn]; exact Bool.false_ne_true)

/-- The members are a watchdog of the input. -/
theorem simulates : Watchdog.Simulates (node eigen p) (fun _ => True) gauge (watched p) tell said
    watch := by
  rintro s e -
  show (watched p ⟨s, e, (s.handle eigen p e).2, (s.handle eigen p e).1⟩ = none ∧
      watch (s.handle eigen p e).1 = s.watch ∧
      (s.handle eigen p e).2.logged.filter LogLine.isSilence = []) ∨
    ∃ e', watched p ⟨s, e, (s.handle eigen p e).2, (s.handle eigen p e).1⟩ = some e' ∧
      watch (s.handle eigen p e).1 = (s.watch.step gauge e').1 ∧
      (s.handle eigen p e).2.logged.filter LogLine.isSilence =
        (s.watch.step gauge e').2.toList.flatMap tell
  cases hs : s.bridge.stopped with
  | true =>
    rw [handle_of_stopped hs]
    exact .inl ⟨if_pos hs, rfl, rfl⟩
  | false =>
    have hrunning : ¬ s.bridge.stopped = true := by rw [hs]; exact Bool.false_ne_true
    rw [handle_of_running hs]
    cases e with
    | mocap steady now msg =>
      dsimp only
      cases hn : names p msg with
      | false =>
        rw [onMocap_of_other hn]
        exact .inl ⟨(if_neg hrunning).trans (if_neg (by rw [hn]; exact Bool.false_ne_true)),
          rfl, rfl⟩
      | true =>
        rw [onMocap_of_named hn]
        exact .inr ⟨.feed steady steady, (if_neg hrunning).trans (if_pos hn), rfl, noteInput_said⟩
    | tick tested told now =>
      dsimp only
      unfold publishPx4
      rw [checkInput_eq]
      refine .inr ⟨.check tested told, if_neg hrunning, ?_, ?_⟩
      · rw [Watchdog.step_check_frame]
        rfl
      · exact List.filter_eq_self.mpr fun l hl => isSilence_of_mem_tell hl

theorem signOf_eq_check {e : DiagnosedEvent} :
    signOf p e = some (.check tested told) ↔ ∃ now, e = .tick tested told now := by
  cases e with
  | mocap steady now msg =>
    refine ⟨fun he => ?_, nofun⟩
    exact nomatch (Option.ite_none_right_eq_some.mp he).2
  | tick tested' told' now =>
    constructor
    · intro he
      obtain ⟨rfl, rfl⟩ := Watchdog.Event.check.inj (Option.some.inj he)
      exact ⟨now, rfl⟩
    · rintro ⟨now', he⟩
      obtain ⟨rfl, rfl, -⟩ := DiagnosedEvent.tick.inj he
      rfl

theorem signOf_eq_feed {e : DiagnosedEvent} {stored : Time} :
    signOf p e = some (.feed steady stored) ↔ arrivalOf p e = some steady ∧ stored = steady := by
  cases e with
  | tick tested' told' now => exact ⟨nofun, nofun⟩
  | mocap steady' now msg =>
    unfold signOf arrivalOf
    dsimp only
    split
    · constructor
      · intro he
        obtain ⟨rfl, rfl⟩ := Watchdog.Event.feed.inj (Option.some.inj he)
        exact ⟨rfl, rfl⟩
      · rintro ⟨he, rfl⟩
        obtain rfl := Option.some.inj he
        rfl
    · exact ⟨nofun, nofun⟩

theorem watched_eq_check {k : Entry} :
    watched p k = some (.check tested told) ↔
      ∃ now, k.pre.bridge.stopped = false ∧ k.event = .tick tested told now := by
  rw [watched, Option.ite_none_left_eq_some, Bool.not_eq_true, signOf_eq_check, exists_and_left]

theorem watched_eq_feed {k : Entry} {stored : Time} :
    watched p k = some (.feed steady stored) ↔ arrival p k = some steady ∧ stored = steady := by
  rw [watched, arrival, Option.ite_none_left_eq_some, Option.ite_none_left_eq_some,
    signOf_eq_feed, and_assoc]

theorem mem_said {k : Entry} {l : LogLine} (hl : l.isSilence = true) :
    l ∈ said k ↔ l ∈ k.out.logged := by
  simp [said, hl]

theorem mem_tell_timeout {reports : List (Watchdog.Report ℚ)} {received : Bool} {age : ℚ} :
    .inputTimeout received age ∈ reports.flatMap tell ↔ .timeout received age ∈ reports := by
  rw [List.mem_flatMap]
  constructor
  · rintro ⟨r, hr, hl⟩
    cases r with
    | timeout received' age' =>
      obtain ⟨rfl, rfl⟩ := LogLine.inputTimeout.inj (List.mem_singleton.mp hl)
      exact hr
    | recovered received' gap =>
      cases received' with
      | true => exact nomatch List.mem_singleton.mp hl
      | false => exact nomatch hl
  · exact fun hr => ⟨_, hr, List.mem_singleton.mpr rfl⟩

theorem mem_tell_recovered {reports : List (Watchdog.Report ℚ)} {gap : ℚ} :
    .inputRecovered gap ∈ reports.flatMap tell ↔ .recovered true gap ∈ reports := by
  rw [List.mem_flatMap]
  constructor
  · rintro ⟨r, hr, hl⟩
    cases r with
    | timeout received' age' => exact nomatch List.mem_singleton.mp hl
    | recovered received' gap' =>
      cases received' with
      | true =>
        obtain rfl := LogLine.inputRecovered.inj (List.mem_singleton.mp hl)
        exact hr
      | false => exact nomatch hl
  · exact fun hr => ⟨_, hr, List.mem_singleton.mpr rfl⟩

/-- The other lines are those of `noteInput`. -/
theorem mem_handle_arrival {e : DiagnosedEvent} {l : LogLine} (hl : l.isSilence = false) :
    l ∈ (s.handle eigen p e).2.logged ↔
      ∃ steady, arrival p ((node eigen p).record s e) = some steady ∧
        l ∈ (s.noteInput steady).2 := by
  show _ ↔ ∃ steady, (if s.bridge.stopped then none else arrivalOf p e) = some steady ∧ _
  cases hs : s.bridge.stopped with
  | true =>
    rw [handle_of_stopped hs]
    exact ⟨nofun, nofun⟩
  | false =>
    rw [handle_of_running hs]
    cases e with
    | mocap steady now msg =>
      cases hn : names p msg with
      | false =>
        have hnone : arrivalOf p (.mocap steady now msg) = none :=
          if_neg (by rw [hn]; exact Bool.false_ne_true)
        dsimp only
        rw [onMocap_of_other hn, hnone]
        exact ⟨nofun, nofun⟩
      | true =>
        have hsome : arrivalOf p (.mocap steady now msg) = some steady := if_pos hn
        dsimp only
        rw [onMocap_of_named hn, hsome]
        constructor
        · exact fun hmem => ⟨steady, rfl, hmem⟩
        · rintro ⟨steady', he, hmem⟩
          obtain rfl := Option.some.inj he
          exact hmem
    | tick tested told now =>
      refine ⟨fun hmem => ?_, nofun⟩
      dsimp only at hmem
      unfold publishPx4 at hmem
      rw [checkInput_eq] at hmem
      exact absurd (hl.symm.trans (isSilence_of_mem_tell hmem)) Bool.false_ne_true

theorem mem_noteInput_gap {gap : ℚ} : .inputGap gap ∈ (s.noteInput steady).2 ↔
    s.hasInput = true ∧ gap = secs (steady - s.silentSince) ∧ 0.05 ≤ gap := by
  unfold noteInput silentSince
  dsimp only
  cases s.hasInput with
  | false => exact ⟨fun hmem => (nomatch List.mem_singleton.mp hmem), nofun⟩
  | true =>
    rw [if_pos rfl, if_pos rfl, List.mem_append]
    constructor
    · rintro (hmem | hmem)
      · split at hmem
        · rename_i hle
          obtain rfl := LogLine.inputGap.inj (List.mem_singleton.mp hmem)
          exact ⟨rfl, rfl, hle⟩
        · exact nomatch hmem
      · split at hmem
        · exact nomatch List.mem_singleton.mp hmem
        · exact nomatch hmem
    · rintro ⟨-, rfl, hle⟩
      rw [if_pos hle]
      exact Or.inl (List.mem_singleton.mpr rfl)

theorem mem_noteInput_firstSample : .inputFirstSample ∈ (s.noteInput steady).2 ↔
    s.hasInput = false := by
  unfold noteInput
  dsimp only
  cases s.hasInput with
  | false => exact ⟨fun _ => rfl, fun _ => List.mem_singleton.mpr rfl⟩
  | true =>
    rw [if_pos rfl, List.mem_append]
    refine ⟨?_, nofun⟩
    rintro (hmem | hmem)
    · split at hmem
      · exact nomatch List.mem_singleton.mp hmem
      · exact nomatch hmem
    · split at hmem
      · exact nomatch List.mem_singleton.mp hmem
      · exact nomatch hmem

end Watch

section Runs

variable {eigen : Matrix (Fin 3) (Fin 3) ℝ → Quat} {p : Parameters} {t₀ t : Time} {h : History}
  {s : Diagnosed}

theorem publishPx4_pendingOdom (b : MocapToPx4) (now : RosTime) :
    (MocapToPx4.publishPx4 p b now).1.pendingOdom = none := by
  unfold MocapToPx4.publishPx4
  cases hp : b.pendingOdom with
  | none => exact hp
  | some odom => rfl

/-- Nothing is pending once a timeout is reported. -/
theorem IsRun.pendingOdom_of_missing (hr : IsRun eigen p t₀ h s t) :
    s.inputMissing = true → s.bridge.pendingOdom = none := by
  refine hr.invariant (P := fun _ s _ => s.inputMissing = true → s.bridge.pendingOdom = none)
    nofun ?_
  intro h s t e _ ih _ _
  show (s.handle eigen p e).1.inputMissing = true →
    (s.handle eigen p e).1.bridge.pendingOdom = none
  cases hs : s.bridge.stopped with
  | true =>
    rw [handle_of_stopped hs]
    exact ih
  | false =>
    rw [handle_of_running hs]
    cases e with
    | mocap steady now msg =>
      dsimp only
      cases hn : names p msg with
      | false =>
        rw [onMocap_of_other hn]
        exact ih
      | true =>
        rw [onMocap_of_named hn]
        nofun
    | tick tested told now => exact fun _ => publishPx4_pendingOdom _ now

/-- A silence that the timer has found is as long at every later time. -/
theorem IsRun.silent_long (hr : IsRun eigen p t₀ h s t) (hs : Silent p t₀ h) {steady : Time}
    (hsteady : t ≤ steady) : 0.2 ≤ secs (steady - lastHeard p t₀ h) := by
  obtain ⟨tested, told, hmem, hle⟩ := hs.exists_check
  obtain ⟨k, hk, hview⟩ := List.mem_filterMap.mp hmem
  obtain ⟨now, -, he⟩ := watched_eq_check.mp hview
  obtain ⟨-, hclock, hlast⟩ := hr.event_times hk
  have htested : tested ≤ steady :=
    calc tested = k.event.enter := by rw [he]; rfl
      _ ≤ k.event.leave := hclock
      _ ≤ t := hlast
      _ ≤ steady := hsteady
  exact hle.trans (secs_mono (sub_le_sub_right htested _))

theorem enter_of_arrival {k : Entry} {steady : Time} (ha : arrival p k = some steady) :
    k.event.enter = steady := by
  obtain ⟨-, ha⟩ := Option.ite_none_left_eq_some.mp ha
  cases he : k.event with
  | mocap steady' now msg =>
    rw [he] at ha
    exact Option.some.inj (Option.ite_none_right_eq_some.mp ha).2
  | tick tested told now =>
    rw [he] at ha
    exact nomatch ha

/-- Whatever arrives and whenever the timer fires: the node logs one timeout for every silence, at
    the first tick that finds it, and its end at the message that ends it, and it publishes nothing
    in between. -/
theorem mocap_input (hr : IsRun eigen p t₀ h s t) :
    Past.Always (Past.At (LogsInput p t₀)) h := by
  refine hr.always fun {k h s t} hrun => ?_
  have hinv : ∀ {h s t}, Machine.Run (node eigen p) (construct t₀) t₀ h s t → True :=
    fun _ => trivial
  obtain ⟨reports, haccounts, hsaid⟩ := (simulates.accounts hinv rfl hrun).1
  cases hrun with
  | @handle h s t e hrun hin _ =>
    have hwatches := simulates.watches hinv rfl hrun
    have hreceived : s.hasInput = heard p h := hwatches.received
    have hlast : s.silentSince = lastHeard p t₀ h := hwatches.last
    have hrecovered (gapSec : ℚ) :
        .inputRecovered gapSec ∈ ((node eigen p).record s e).out.logged ↔
          ∃ steady, arrival p ((node eigen p).record s e) = some steady ∧ heard p h = true ∧
            gapSec = secs (steady - lastHeard p t₀ h) ∧ Silent p t₀ h := by
      rw [← mem_said rfl, hsaid, mem_tell_recovered, haccounts.recovered]
      constructor
      · rintro ⟨steady, stored, hview, hheard, rest⟩
        exact ⟨steady, (watched_eq_feed.mp hview).1, hheard.symm, rest⟩
      · rintro ⟨steady, harrival, hheard, rest⟩
        exact ⟨steady, steady, watched_eq_feed.mpr ⟨harrival, rfl⟩, hheard.symm, rest⟩
    refine ⟨fun received ageSec => ?_, hrecovered, fun gapSec hl => ?_, ?_, fun gapSec => ?_, ?_⟩
    · rw [← mem_said rfl, hsaid, mem_tell_timeout, haccounts.timeout]
      constructor
      · rintro ⟨tested, told, hview, rest⟩
        obtain ⟨now, hrunning, he⟩ := watched_eq_check.mp hview
        exact ⟨tested, told, now, hrunning, he, rest⟩
      · rintro ⟨tested, told, now, hrunning, he, rest⟩
        exact ⟨tested, told, watched_eq_check.mpr ⟨now, hrunning, he⟩, rest⟩
    · obtain ⟨steady, harrival, -, rfl, hsilent⟩ := (hrecovered gapSec).mp hl
      exact IsRun.silent_long hrun hsilent (hin.trans_eq (enter_of_arrival harrival))
    · refine (mem_handle_arrival rfl).trans ?_
      simp only [mem_noteInput_firstSample, hreceived]
    · refine (mem_handle_arrival rfl).trans ?_
      simp only [mem_noteInput_gap, hreceived, hlast]
    · intro tested told now he hsilent
      obtain rfl : e = .tick tested told now := he
      have hmissing : s.inputMissing = true := hwatches.missing.mpr hsilent
      have hpending := IsRun.pendingOdom_of_missing hrun hmissing
      show (s.handle eigen p (.tick tested told now)).2.published = []
      cases hs : s.bridge.stopped with
      | true => rw [handle_of_stopped hs]
      | false =>
        rw [handle_of_running hs]
        show (MocapToPx4.publishPx4 p (s.checkInput tested told).1.bridge now).2 = []
        rw [checkInput_eq]
        dsimp only
        unfold MocapToPx4.publishPx4
        rw [hpending]

end Runs

/-- A quarter of a second without a message, and then the first one. -/
noncomputable def lateMessage : List DiagnosedEvent :=
  [.tick 250000000 250000000 ⟨651000000, by norm_num⟩,
    .mocap 300000000 ⟨701000000, by norm_num⟩ (levelMessage 0)]

theorem mocap_input_lateMessage :
    Past.Always (Past.At (LogsInput defaults 0))
      ((node Viewer.rotToQuatBranch defaults).trace (construct 0) lateMessage []) := by
  obtain ⟨s, t, hr⟩ := (node Viewer.rotToQuatBranch defaults).run_trace (construct 0) 0 lateMessage
    ⟨by decide, by decide, by decide, by decide, trivial⟩
  exact mocap_input hr

end Diagnosed

end MocapToPx4

end Hummingbird
