/-
  What `Px4PositionCommand` logs about its inputs.

  The flags and the arrival times of an input are a `Watchdog` (`simulates`): its messages feed it,
  `check_inputs` checks it, and what happens to the other inputs does not matter. `lastHeard`,
  `heard` and `Silent` read off the history what such a watchdog remembers. `input_diagnostics`
  says which lines every event of every run logs.
-/
import Hummingbird.Library.Watchdog
import Hummingbird.PositionCmd.Diagnostics

namespace Hummingbird

namespace Px4PositionCommand

/-- A line about a silence of the input. -/
def LogLine.isAbout (i : Input) : LogLine → Bool
  | inputRecovered topic _ => topic = i.topic
  | inputTimeout topic _ _ => topic = i.topic
  | _ => false

def LogLine.isTimeout : LogLine → Bool
  | inputTimeout _ _ _ => true
  | _ => false

namespace DiagnosedEvent

def tickTime : DiagnosedEvent → Option Time
  | tick c => some c.now
  | _ => none

/-- The readings with which a message of the input `i` is noted and stored. -/
def arrival (i : Input) : DiagnosedEvent → Option (Time × Time)
  | hummingbirdStatus noted now _ => if i = .controllerMode then some (noted, now) else none
  | vehicleLocalPosition noted now _ => if i = .localPosition then some (noted, now) else none
  | vehicleAttitude noted now _ => if i = .vehicleAttitude then some (noted, now) else none
  | vehicleStatus noted now _ => if i = .vehicleStatus then some (noted, now) else none
  | _ => none

/-- What the event is for the watchdog of the input `i`. -/
def watched (i : Input) : DiagnosedEvent → Option (Watchdog.Event Time)
  | checkInputs c => some (.check (c.reading i) (c.reading i))
  | e => (e.arrival i).map fun (noted, now) => .feed noted now

end DiagnosedEvent

namespace Diagnosed

/-- Ages in seconds, the limit being `message_timeout_sec`. -/
def gauge : Watchdog.Gauge Time ℚ where
  age now last := secs (now - last)
  limit _ := messageTimeoutSec

/-- The messages of the input `i` and its checks, newest first. -/
def signs (i : Input) (h : History) : List (Watchdog.Event Time) :=
  h.filterMap fun k => k.event.watched i

/-- When the last message of the input `i` has arrived; the node's start before the first one. -/
def lastHeard (i : Input) (t₀ : Time) (h : History) : Time := Watchdog.lastFed t₀ (signs i h)

/-- A message of the input `i` has arrived. -/
def heard (i : Input) (h : History) : Bool := Watchdog.fed (signs i h)

/-- Since the last message of the input `i` a check has found it silent for
    `message_timeout_sec`. -/
def Silent (i : Input) (t₀ : Time) (h : History) : Prop := Watchdog.Overdue gauge t₀ (signs i h)

/-- The lines of the entry about a silence of the input `i`. -/
def said (i : Input) (k : Entry) : List LogLine := k.out.logged.filter (LogLine.isAbout i)

/-- When the last tick was; the node's start before the first one. -/
def lastTickTime (t₀ : Time) (h : History) : Time :=
  (Past.latest (fun k : Entry => k.event.tickTime) h).getD t₀

/-- What the entry `k` logs about the input `i` after `past`. -/
structure LogsInput (t₀ : Time) (i : Input) (k : Entry) (past : History) : Prop where
  timeout : ∀ received ageSec, .inputTimeout i.topic received ageSec ∈ k.out.logged ↔
    ∃ c, k.event = .checkInputs c ∧ received = heard i past ∧
      ageSec = secs (c.reading i - lastHeard i t₀ past) ∧ messageTimeoutSec ≤ ageSec ∧
      ¬ Silent i t₀ past
  recovered : ∀ gapSec, .inputRecovered i.topic gapSec ∈ k.out.logged ↔
    ∃ noted now, k.event.arrival i = some (noted, now) ∧
      gapSec = secs (noted - lastHeard i t₀ past) ∧ Silent i t₀ past
  gap : ∀ gapSec, .inputGap i.topic gapSec ∈ k.out.logged ↔
    ∃ noted now, k.event.arrival i = some (noted, now) ∧ heard i past = true ∧
      gapSec = secs (noted - lastHeard i t₀ past) ∧ i.gapLimitSec ≤ gapSec

/-- What the entry `k` logs about the control timer after `past`. -/
def LogsLoop (t₀ : Time) (k : Entry) (past : History) : Prop :=
  ∀ tickGapSec targetSec : ℚ, .loopGap tickGapSec targetSec ∈ k.out.logged ↔
    ∃ c, k.event = .tick c ∧ tickGapSec = secs (c.now - lastTickTime t₀ past) ∧
      0.1 ≤ tickGapSec ∧ targetSec = 1 / rateHz

/-- The lines of a history that started at `t₀`. -/
structure InputDiagnostics (t₀ : Time) (h : History) : Prop where
  inputs : ∀ i, Past.Always (Past.At (LogsInput t₀ i)) h
  alternate : ∀ i, (h.flatMap (said i)).IsChain fun l l' => l.isTimeout ≠ l'.isTimeout
  first : ∀ i, ∀ l ∈ (h.flatMap (said i)).getLast?, l.isTimeout = true
  long : ∀ i : Input, ∀ k ∈ h, ∀ gapSec, .inputRecovered i.topic gapSec ∈ k.out.logged →
    messageTimeoutSec ≤ gapSec
  loop : Past.Always (Past.At (LogsLoop t₀)) h

/-! ## The watchdog of an input -/

/-- The watchdog of the input `i`. -/
def watch (i : Input) (s : Diagnosed) : Watchdog Time :=
  ⟨s.command.lastTime i, s.command.received i, s.missing i⟩

/-- The line that the node logs for a report of the watchdog. -/
def line (i : Input) : Watchdog.Report ℚ → LogLine
  | .timeout received age => .inputTimeout i.topic received age
  | .recovered _ gap => .inputRecovered i.topic gap

def tell (i : Input) (r : Watchdog.Report ℚ) : List LogLine := [line i r]

section Watch

variable {i j : Input} {s : Diagnosed} {noted now : Time}

theorem topic_injective : Function.Injective Input.topic := by
  intro i j h
  cases i <;> cases j <;> first | rfl | exact absurd h (by decide)

theorem isAbout_timeout {received : Bool} {age : ℚ} :
    (LogLine.inputTimeout i.topic received age).isAbout j = decide (i = j) :=
  decide_eq_decide.mpr topic_injective.eq_iff

theorem isAbout_recovered {gap : ℚ} :
    (LogLine.inputRecovered i.topic gap).isAbout j = decide (i = j) :=
  decide_eq_decide.mpr topic_injective.eq_iff

/-- A line of another kind than those of a silence. -/
def gapLines (s : Diagnosed) (i : Input) (noted : Time) : List LogLine :=
  let gapSec := secs (noted - s.command.lastTime i)
  if s.command.received i ∧ i.gapLimitSec ≤ gapSec then [.inputGap i.topic gapSec] else []

/-- `note_input` feeds the watchdog of its input. -/
theorem noteInput_eq (s : Diagnosed) (i : Input) (noted now : Time) : s.noteInput i noted =
    ({ s with missing := Function.update s.missing i false },
      s.gapLines i noted ++
        ((s.watch i).step gauge (.feed noted now)).2.toList.flatMap (tell i)) := by
  unfold noteInput Px4PositionCommand.noteInput
  cases hmissing : s.missing i with
  | false =>
    have hstep : ((s.watch i).step gauge (.feed noted now)).2 = none := by
      show (if s.missing i then _ else _) = _
      rw [hmissing]
      rfl
    rw [hstep]
    exact Prod.ext rfl (List.append_nil _).symm
  | true =>
    have hstep : ((s.watch i).step gauge (.feed noted now)).2 =
        some (.recovered (s.command.received i) (secs (noted - s.command.lastTime i))) := by
      show (if s.missing i then _ else _) = _
      rw [hmissing]
      rfl
    rw [hstep]
    rfl

/-- `check_input` checks the watchdog of its input. -/
theorem checkInput_eq : s.checkInput i now =
    ({ s with
        missing :=
          Function.update s.missing i ((s.watch i).step gauge (.check now now)).1.missing },
      ((s.watch i).step gauge (.check now now)).2.toList.flatMap (tell i)) := by
  unfold checkInput Px4PositionCommand.checkInput
  by_cases hexpired : messageTimeoutSec ≤ secs (now - s.command.lastTime i) ∧ s.missing i = false
  · rw [Watchdog.step_check_of_expired (w := s.watch i) (g := gauge) hexpired.1 hexpired.2]
    dsimp only
    rw [if_pos ⟨hexpired.1, by simp [hexpired.2]⟩]
    rfl
  · rw [Watchdog.step_check_of_not (w := s.watch i) (g := gauge) hexpired]
    dsimp only
    rw [if_neg (by simpa using hexpired)]
    rfl

/-- The lines of a watchdog are about its own input. -/
theorem filter_tell (reports : List (Watchdog.Report ℚ)) :
    (reports.flatMap (tell i)).filter (LogLine.isAbout j) =
      if i = j then reports.flatMap (tell i) else [] := by
  have hline : ∀ r, ∀ l ∈ tell i r, l.isAbout j = decide (i = j) := by
    intro r l hl
    cases r with
    | timeout received age =>
      obtain rfl := List.mem_singleton.mp hl
      exact isAbout_timeout
    | recovered received gap =>
      obtain rfl := List.mem_singleton.mp hl
      exact isAbout_recovered
  split
  · rename_i heq
    refine List.filter_eq_self.mpr fun l hl => ?_
    obtain ⟨r, -, hl⟩ := List.mem_flatMap.mp hl
    rw [hline r l hl]
    exact decide_eq_true heq
  · rename_i hne
    refine List.filter_eq_nil_iff.mpr fun l hl => ?_
    obtain ⟨r, -, hl⟩ := List.mem_flatMap.mp hl
    rw [hline r l hl]
    exact fun heq => hne (of_decide_eq_true heq)

theorem filter_gapLines : (s.gapLines i noted).filter (LogLine.isAbout j) = [] := by
  unfold gapLines
  dsimp only
  split <;> rfl

/-- A message of the input `j` feeds its watchdog and no other. -/
theorem feed_simulates {e : DiagnosedEvent} {command : Px4PositionCommand}
    (hview : ∀ i, e.watched i = if i = j then some (.feed noted now) else none)
    (hstep : s.handle e =
      ({ (s.noteInput j noted).1 with command := command }, ⟨[], (s.noteInput j noted).2⟩))
    (hlast : command.lastTime = Function.update s.command.lastTime j now)
    (hreceived : command.received = Function.update s.command.received j true) :
    (e.watched i = none ∧ watch i (s.handle e).1 = s.watch i ∧
        (s.handle e).2.logged.filter (LogLine.isAbout i) = []) ∨
      ∃ e', e.watched i = some e' ∧ watch i (s.handle e).1 = ((s.watch i).step gauge e').1 ∧
        (s.handle e).2.logged.filter (LogLine.isAbout i) =
          ((s.watch i).step gauge e').2.toList.flatMap (tell i) := by
  rw [hview, hstep, noteInput_eq s j noted now]
  dsimp only
  rw [List.filter_append, filter_gapLines, filter_tell, List.nil_append]
  unfold watch
  dsimp only
  rw [hlast, hreceived]
  by_cases heq : i = j
  · subst heq
    rw [if_pos rfl, if_pos rfl, Function.update_self, Function.update_self, Function.update_self]
    exact .inr ⟨_, rfl, rfl, rfl⟩
  · rw [if_neg heq, if_neg (Ne.symm heq), Function.update_of_ne heq, Function.update_of_ne heq,
      Function.update_of_ne heq]
    exact .inl ⟨rfl, rfl, rfl⟩

/-- A check of the input `i` is one of its watchdog and of no other. -/
theorem watch_checkInput : watch j (s.checkInput i now).1 =
    if j = i then ((s.watch i).step gauge (.check now now)).1 else s.watch j := by
  rw [checkInput_eq]
  split
  · rename_i heq
    subst heq
    rw [Watchdog.step_check_frame]
    show (⟨s.command.lastTime j, s.command.received j, Function.update s.missing j _ j⟩ :
      Watchdog Time) = _
    rw [Function.update_self]
    rfl
  · rename_i hne
    show (⟨s.command.lastTime j, s.command.received j, Function.update s.missing i _ j⟩ :
      Watchdog Time) = _
    rw [Function.update_of_ne hne]
    rfl

theorem said_checkInput : (s.checkInput i now).2.filter (LogLine.isAbout j) =
    if j = i then ((s.watch i).step gauge (.check now now)).2.toList.flatMap (tell i) else [] := by
  rw [checkInput_eq, filter_tell]
  exact if_congr eq_comm rfl rfl

/-- `check_inputs` checks every watchdog once. -/
theorem checkInputs_simulates (c : CheckClock) :
    watch i (s.checkInputs c).1 =
        ((s.watch i).step gauge (.check (c.reading i) (c.reading i))).1 ∧
      (s.checkInputs c).2.logged.filter (LogLine.isAbout i) =
        ((s.watch i).step gauge (.check (c.reading i) (c.reading i))).2.toList.flatMap
          (tell i) := by
  cases i <;> simp [checkInputs, watch_checkInput, said_checkInput]

theorem tick_simulates (c : TickClock) : watch i (s.onTick c).1 = s.watch i ∧
    (s.onTick c).2.logged.filter (LogLine.isAbout i) = [] := by
  have hframe := (onTick_branch s.command c).frame
  constructor
  · show (⟨lastTime (s.command.onTick c).1 i, received (s.command.onTick c).1 i, s.missing i⟩ :
      Watchdog Time) = s.watch i
    rw [hframe]
    cases i <;> rfl
  · unfold onTick
    dsimp only
    split <;> rfl

/-- Every input has its watchdog. -/
theorem simulates (i : Input) :
    Watchdog.Simulates node (fun _ => True) gauge (fun k => k.event.watched i) (tell i) (said i)
      (watch i) := by
  rintro s e -
  cases e with
  | tick c => exact .inl ⟨rfl, tick_simulates c⟩
  | checkInputs c => exact .inr ⟨_, rfl, checkInputs_simulates c⟩
  | hummingbirdStatus noted now m =>
    exact feed_simulates (fun i => by cases i <;> rfl) rfl (by funext i; cases i <;> rfl)
      (by funext i; cases i <;> rfl)
  | vehicleLocalPosition noted now m =>
    exact feed_simulates (fun i => by cases i <;> rfl) rfl (by funext i; cases i <;> rfl)
      (by funext i; cases i <;> rfl)
  | vehicleAttitude noted now m =>
    exact feed_simulates (fun i => by cases i <;> rfl) rfl (by funext i; cases i <;> rfl)
      (by funext i; cases i <;> rfl)
  | vehicleStatus noted now m =>
    exact feed_simulates (fun i => by cases i <;> rfl) rfl (by funext i; cases i <;> rfl)
      (by funext i; cases i <;> rfl)

theorem watched_eq_check {e : DiagnosedEvent} {told : Time} :
    e.watched i = some (.check now told) ↔
      ∃ c, e = .checkInputs c ∧ now = c.reading i ∧ told = c.reading i := by
  constructor
  · intro he
    cases e with
    | checkInputs c =>
      obtain ⟨htested, htold⟩ := Watchdog.Event.check.inj (Option.some.inj he)
      exact ⟨c, rfl, htested.symm, htold.symm⟩
    | _ => cases i <;> exact nomatch he
  · rintro ⟨c, rfl, rfl, rfl⟩
    rfl

theorem watched_eq_feed {e : DiagnosedEvent} :
    e.watched i = some (.feed noted now) ↔ e.arrival i = some (noted, now) := by
  cases e with
  | checkInputs c => exact ⟨nofun, nofun⟩
  | tick c => exact ⟨nofun, nofun⟩
  | _ => cases i <;> simp [DiagnosedEvent.watched, DiagnosedEvent.arrival]

theorem arrival_enter {e : DiagnosedEvent} (he : e.arrival i = some (noted, now)) :
    e.enter = noted := by
  cases e with
  | tick c => exact nomatch he
  | checkInputs c => exact nomatch he
  | _ => exact (Prod.mk.inj (Option.some.inj (Option.ite_none_right_eq_some.mp he).2)).1

theorem mem_said {i : Input} {k : Entry} {l : LogLine} (hl : l.isAbout i = true) :
    l ∈ said i k ↔ l ∈ k.out.logged := by
  simp [said, hl]

theorem mem_tell_timeout {reports : List (Watchdog.Report ℚ)} {received : Bool} {age : ℚ} :
    .inputTimeout i.topic received age ∈ reports.flatMap (tell i) ↔
      .timeout received age ∈ reports := by
  rw [List.mem_flatMap]
  constructor
  · rintro ⟨r, hr, hl⟩
    cases r with
    | timeout received' age' =>
      obtain ⟨-, rfl, rfl⟩ := LogLine.inputTimeout.inj (List.mem_singleton.mp hl)
      exact hr
    | recovered _ _ => exact nomatch List.mem_singleton.mp hl
  · exact fun hr => ⟨_, hr, List.mem_singleton.mpr rfl⟩

theorem mem_tell_recovered {reports : List (Watchdog.Report ℚ)} {gap : ℚ} :
    .inputRecovered i.topic gap ∈ reports.flatMap (tell i) ↔
      ∃ received, .recovered received gap ∈ reports := by
  rw [List.mem_flatMap]
  constructor
  · rintro ⟨r, hr, hl⟩
    cases r with
    | timeout _ _ => exact nomatch List.mem_singleton.mp hl
    | recovered received gap' =>
      obtain ⟨-, rfl⟩ := LogLine.inputRecovered.inj (List.mem_singleton.mp hl)
      exact ⟨received, hr⟩
  · rintro ⟨received, hr⟩
    exact ⟨_, hr, List.mem_singleton.mpr rfl⟩

theorem not_mem_tell_gap {reports : List (Watchdog.Report ℚ)} {topic : String} {gap : ℚ} :
    .inputGap topic gap ∉ reports.flatMap (tell i) := by
  rw [List.mem_flatMap]
  rintro ⟨r, -, hl⟩
  cases r with
  | timeout _ _ => exact nomatch List.mem_singleton.mp hl
  | recovered _ _ => exact nomatch List.mem_singleton.mp hl

theorem mem_gapLines {j : Input} {gap : ℚ} :
    .inputGap i.topic gap ∈ s.gapLines j noted ↔ i = j ∧ s.command.received i = true ∧
      gap = secs (noted - s.command.lastTime i) ∧ i.gapLimitSec ≤ gap := by
  unfold gapLines
  dsimp only
  split
  · rename_i hgap
    rw [List.mem_singleton, LogLine.inputGap.injEq, topic_injective.eq_iff]
    constructor
    · rintro ⟨rfl, rfl⟩
      exact ⟨rfl, hgap.1, rfl, hgap.2⟩
    · rintro ⟨rfl, -, rfl, -⟩
      exact ⟨rfl, rfl⟩
  · rename_i hgap
    refine ⟨nofun, ?_⟩
    rintro ⟨rfl, hreceived, rfl, hle⟩
    exact absurd ⟨hreceived, hle⟩ hgap

/-- The gap lines of a subscription. -/
theorem mem_noteInput_gap {j : Input} {gap : ℚ} :
    .inputGap i.topic gap ∈ (s.noteInput j noted).2 ↔ i = j ∧ s.command.received i = true ∧
      gap = secs (noted - s.command.lastTime i) ∧ i.gapLimitSec ≤ gap := by
  rw [noteInput_eq s j noted noted, List.mem_append, mem_gapLines,
    or_iff_left not_mem_tell_gap]

/-- The gap lines of one step. -/
theorem mem_handle_gap {e : DiagnosedEvent} {gap : ℚ} :
    .inputGap i.topic gap ∈ (s.handle e).2.logged ↔
      ∃ noted now, e.arrival i = some (noted, now) ∧ s.command.received i = true ∧
        gap = secs (noted - s.command.lastTime i) ∧ i.gapLimitSec ≤ gap := by
  have hmessage : ∀ {j : Input} {noted now : Time} {e : DiagnosedEvent},
      (∀ i, e.arrival i = if i = j then some (noted, now) else none) →
      (s.handle e).2.logged = (s.noteInput j noted).2 →
      (.inputGap i.topic gap ∈ (s.handle e).2.logged ↔
        ∃ noted now, e.arrival i = some (noted, now) ∧ s.command.received i = true ∧
          gap = secs (noted - s.command.lastTime i) ∧ i.gapLimitSec ≤ gap) := by
    intro j noted now e harrival hlogged
    rw [hlogged, harrival, mem_noteInput_gap]
    constructor
    · rintro ⟨rfl, hgap⟩
      exact ⟨noted, now, if_pos rfl, hgap⟩
    · rintro ⟨noted', now', he, hgap⟩
      by_cases heq : i = j
      · rw [if_pos heq] at he
        obtain ⟨rfl, rfl⟩ := Prod.mk.inj (Option.some.inj he)
        exact ⟨heq, hgap⟩
      · rw [if_neg heq] at he
        exact nomatch he
  cases e with
  | hummingbirdStatus noted now m => exact hmessage (fun i => by cases i <;> rfl) rfl
  | vehicleLocalPosition noted now m => exact hmessage (fun i => by cases i <;> rfl) rfl
  | vehicleAttitude noted now m => exact hmessage (fun i => by cases i <;> rfl) rfl
  | vehicleStatus noted now m => exact hmessage (fun i => by cases i <;> rfl) rfl
  | tick c =>
    refine ⟨fun hl => ?_, nofun⟩
    change _ ∈ (s.onTick c).2.logged at hl
    unfold onTick at hl
    dsimp only at hl
    split at hl
    · exact nomatch List.mem_singleton.mp hl
    · exact nomatch hl
  | checkInputs c =>
    refine ⟨fun hl => ?_, nofun⟩
    change _ ∈ (s.checkInputs c).2.logged at hl
    unfold checkInputs at hl
    dsimp only at hl
    simp only [List.mem_append, checkInput_eq, not_mem_tell_gap, or_self] at hl

theorem not_mem_tell_loop {reports : List (Watchdog.Report ℚ)} {gap target : ℚ} :
    .loopGap gap target ∉ reports.flatMap (tell i) := by
  rw [List.mem_flatMap]
  rintro ⟨r, -, hl⟩
  cases r with
  | timeout _ _ => exact nomatch List.mem_singleton.mp hl
  | recovered _ _ => exact nomatch List.mem_singleton.mp hl

theorem not_mem_noteInput_loop {gap target : ℚ} :
    .loopGap gap target ∉ (s.noteInput i noted).2 := by
  rw [noteInput_eq s i noted noted, List.mem_append, or_iff_left not_mem_tell_loop]
  unfold gapLines
  dsimp only
  split
  · exact fun hl => nomatch List.mem_singleton.mp hl
  · exact List.not_mem_nil

/-- The loop lines of one step. -/
theorem mem_handle_loop {e : DiagnosedEvent} {gap target : ℚ} :
    .loopGap gap target ∈ (s.handle e).2.logged ↔
      ∃ c, e = .tick c ∧ gap = secs (c.now - s.lastControlTickTime) ∧ 0.1 ≤ gap ∧
        target = 1 / rateHz := by
  cases e with
  | tick c =>
    show _ ∈ (s.onTick c).2.logged ↔ _
    unfold onTick
    dsimp only
    split
    · rename_i hle
      rw [List.mem_singleton, LogLine.loopGap.injEq]
      constructor
      · rintro ⟨rfl, rfl⟩
        exact ⟨c, rfl, rfl, hle, rfl⟩
      · rintro ⟨c', he, rfl, -, rfl⟩
        obtain rfl := DiagnosedEvent.tick.inj he
        exact ⟨rfl, rfl⟩
    · rename_i hnot
      refine ⟨nofun, ?_⟩
      rintro ⟨c', he, rfl, hle, -⟩
      obtain rfl := DiagnosedEvent.tick.inj he
      exact absurd hle hnot
  | checkInputs c =>
    refine ⟨fun hl => ?_, nofun⟩
    change _ ∈ (s.checkInputs c).2.logged at hl
    unfold checkInputs at hl
    dsimp only at hl
    simp only [List.mem_append, checkInput_eq, not_mem_tell_loop, or_self] at hl
  | _ => exact ⟨fun hl => absurd hl not_mem_noteInput_loop, nofun⟩

end Watch

section Runs

variable {p : Parameters} {t₀ t : Time} {h : History} {s : Diagnosed}

theorem watch_construct (p : Parameters) (t₀ : Time) (i : Input) :
    watch i (construct p t₀) = Watchdog.start t₀ := by
  cases i <;> rfl

theorem IsRun.logsInput (hr : IsRun p t₀ h s t) (i : Input) :
    Past.Always (Past.At (LogsInput t₀ i)) h := by
  refine hr.always fun {k h s t} hrun => ?_
  obtain ⟨reports, haccounts, hsaid⟩ :=
    ((simulates i).accounts (fun _ => trivial) (watch_construct p t₀ i) hrun).1
  cases hrun with
  | @handle h s t e hrun _ _ =>
    have hwatches := (simulates i).watches (fun _ => trivial) (watch_construct p t₀ i) hrun
    refine ⟨fun received ageSec => ?_, fun gapSec => ?_, fun gapSec => ?_⟩
    · rw [← mem_said (isAbout_timeout.trans (decide_eq_true rfl)), hsaid, mem_tell_timeout,
        haccounts.timeout]
      constructor
      · rintro ⟨tested, told, hview, hreceived, rfl, hle, hnot⟩
        obtain ⟨c, he, rfl, rfl⟩ := watched_eq_check.mp hview
        exact ⟨c, he, hreceived, rfl, hle, hnot⟩
      · rintro ⟨c, he, hreceived, rfl, hle, hnot⟩
        exact ⟨c.reading i, c.reading i, watched_eq_check.mpr ⟨c, he, rfl, rfl⟩, hreceived, rfl,
          hle, hnot⟩
    · rw [← mem_said (isAbout_recovered.trans (decide_eq_true rfl)), hsaid, mem_tell_recovered]
      constructor
      · rintro ⟨received, hmem⟩
        obtain ⟨noted, now, hview, -, hgap, hsilent⟩ :=
          (haccounts.recovered received gapSec).mp hmem
        exact ⟨noted, now, watched_eq_feed.mp hview, hgap, hsilent⟩
      · rintro ⟨noted, now, hview, hgap, hsilent⟩
        exact ⟨heard i h, (haccounts.recovered _ gapSec).mpr
          ⟨noted, now, watched_eq_feed.mpr hview, rfl, hgap, hsilent⟩⟩
    · refine mem_handle_gap.trans ?_
      rw [show s.command.received i = heard i h from hwatches.received,
        show s.command.lastTime i = lastHeard i t₀ h from hwatches.last]
      rfl

theorem IsRun.alternating (hr : IsRun p t₀ h s t) (i : Input) :
    ((h.flatMap (said i)).IsChain fun l l' => l.isTimeout ≠ l'.isTimeout) ∧
      ∀ l ∈ (h.flatMap (said i)).getLast?, l.isTimeout = true := by
  have hkind : ∀ r, (line i r).isTimeout = r.isTimeout := by
    intro r
    cases r <;> rfl
  obtain ⟨reports, ha, hsaid⟩ :=
    (simulates i).alternating (fun _ => trivial) (watch_construct p t₀ i) hr
  have hlines : reports.flatMap (tell i) = reports.map (line i) := List.flatMap_pure_eq_map _ _
  rw [hsaid, hlines]
  constructor
  · rw [List.isChain_map]
    exact ha.alternate.imp fun r r' hne => by rwa [hkind, hkind]
  · intro l hl
    rw [List.getLast?_map] at hl
    obtain ⟨r, hr, rfl⟩ := Option.map_eq_some_iff.mp hl
    rw [hkind]
    exact ha.first r hr

theorem IsRun.lastControlTickTime (hr : IsRun p t₀ h s t) :
    s.lastControlTickTime = lastTickTime t₀ h := by
  refine hr.invariant (P := fun h s _ => s.lastControlTickTime = lastTickTime t₀ h) rfl ?_
  intro h s t e _ ih _ _
  cases e with
  | tick c => rfl
  | _ => exact ih

/-- A silence that a check has found is as long when the next message is noted. -/
theorem IsRun.silent_long (hr : IsRun p t₀ h s t) {i : Input} (hs : Silent i t₀ h) {now : Time}
    (hnow : t ≤ now) : messageTimeoutSec ≤ secs (now - lastHeard i t₀ h) := by
  obtain ⟨tested, told, hmem, hle⟩ := hs.exists_check
  obtain ⟨k, hk, hview⟩ := List.mem_filterMap.mp hmem
  obtain ⟨c, he, rfl, -⟩ := watched_eq_check.mp hview
  have hlast : c.reading i ≤ k.event.leave := by
    rw [he]
    obtain ⟨h₁, h₂, h₃⟩ := c.ordered
    cases i with
    | controllerMode => exact (h₁.trans h₂).trans h₃
    | localPosition => exact h₂.trans h₃
    | vehicleAttitude => exact h₃
    | vehicleStatus => exact le_rfl
  have hreading : c.reading i ≤ now := (hlast.trans (hr.event_times hk).2.2).trans hnow
  exact hle.trans (secs_mono (by show _ - _ ≤ _ - _; exact sub_le_sub_right hreading _))

/-- Whatever arrives in whatever order: the node logs one timeout for every silence of an input, at
    the first check that finds it, and one recovery at the message that ends it. -/
theorem input_diagnostics (hr : IsRun p t₀ h s t) : InputDiagnostics t₀ h where
  inputs i := hr.logsInput i
  alternate i := (hr.alternating i).1
  first i := (hr.alternating i).2
  long i k hk gapSec hl := by
    obtain ⟨newer, past, rfl⟩ := List.append_of_mem hk
    obtain ⟨s', t', hr', -⟩ := hr.of_append
    obtain ⟨t'', hr'', hin, -⟩ := hr'.newest
    obtain ⟨noted, now, harrival, rfl, hsilent⟩ :=
      ((IsRun.logsInput hr' i).1.recovered gapSec).mp hl
    have hnoted : k.event.enter = noted := arrival_enter harrival
    exact IsRun.silent_long hr'' hsilent (hnoted ▸ hin)
  loop := by
    refine hr.always fun {k h s t} hrun => ?_
    cases hrun with
    | handle e hrun _ _ =>
      intro gap target
      rw [← IsRun.lastControlTickTime hrun]
      exact mem_handle_loop

end Runs

/-- A second without a message, and then the first one. -/
def lateStatus : List DiagnosedEvent :=
  [.checkInputs (.all 1000000000),
    .hummingbirdStatus 1200000000 1200000000 { hbCmdSource := hbCmdSourceDds }]

theorem input_diagnostics_lateStatus :
    InputDiagnostics 0 (node.trace (construct {} 0) lateStatus []) := by
  obtain ⟨s, t, hr⟩ := node.run_trace (construct {} 0) 0 lateStatus (by decide)
  exact input_diagnostics hr

end Diagnosed

end Px4PositionCommand

end Hummingbird
