/-
  Calls of `write_goal`, one after the other.

  `writer` is the machine whose events are calls with any argument on a bus that answers
  anyhow; its state holds the members that the recovery of the port uses and all that was said.
  `Tracked` is its invariant: no parameter is left over, the failures since the last success
  are counted, and the reopenings of the port are spaced. `writeGoal_calls` reads what every
  call does off the branches of a call.
-/
import Hummingbird.Library.Machine
import Hummingbird.Library.Pacing
import Hummingbird.Servo.WriteCall

namespace Hummingbird

open Dialogue BusHistory Pacing

namespace Px4ServoToDynamixel

/-- One call of `write_goal` and what the bus answers to it. -/
structure WriteCall where
  syncWrite : Bool
  goal : Fin 6 → Int32
  answer : BusHistory → ∀ c : BusCommand, c.Response

/-- The node as far as its calls of `write_goal` go. -/
noncomputable def writer : Machine (PortRecovery × BusHistory) WriteCall Bool Unit where
  step s call :=
    let (h, s', ok) := (writeGoalIfSet call.syncWrite s.1 call.goal).run call.answer s.2
    ((s', h), ok)
  enter _ := ()
  leave _ := ()

abbrev WriteEntry := Machine.Step (PortRecovery × BusHistory) WriteCall Bool

/-- The calls so far, newest first. -/
abbrev WriteHistory := List WriteEntry

/-- Runs from the members as they are initialized. -/
abbrev IsWriteRun (h : WriteHistory) (s : PortRecovery × BusHistory) : Prop :=
  Machine.Run writer (PortRecovery.initial, []) () h s ()

/-- What the call has said, newest first. -/
def said (k : WriteEntry) : BusHistory := k.post.2.take (k.post.2.length - k.pre.2.length)

/-- The results of the transmissions of a call. -/
def results (k : WriteEntry) : List ℤ := (said k).filterMap transmits

/-- The results of all transmissions, newest first. -/
def transmissions (h : WriteHistory) : List ℤ := h.flatMap results

/-- How many transmissions have failed since the last one that succeeded. -/
def failuresSince (results : List ℤ) : ℕ :=
  (results.takeWhile fun result => result ≠ commSuccess).length

/-- When the port was reopened, newest first. -/
def reopens (h : WriteHistory) : List Time := h.flatMap fun k => reopenTimes (said k)

/-- A transmission of the call has failed. -/
def FailsToTransmit (k : WriteEntry) : Prop := ∃ result ∈ results k, result ≠ commSuccess

/-- What the calls do. -/
structure WritesGoals (h : WriteHistory) (s : PortRecovery × BusHistory) : Prop where
  appends : ∀ k ∈ h, k.post.2 = said k ++ k.pre.2
  cleared : ∀ k ∈ h, syncParams k.post.2 = []
  packets : ∀ k ∈ h, ∀ a result b, said k = a ++ ⟨.txPacket, result⟩ :: b →
    Carries (syncParams (b ++ k.pre.2)) fun i => (k.event.goal i).toInt
  refused : ∀ k ∈ h, ∀ id data, (⟨.addParam id data, false⟩ : BusExchange) ∈ said k →
    results k = []
  returns : ∀ k ∈ h, k.out = true ↔ results k = [commSuccess]
  failures : s.1.consecutiveWriteFailures.toNat = failuresSince (transmissions h) % 2 ^ 32
  apart : (reopens h).Pairwise fun t₂ t₁ => 1 ≤ secs (t₂ - t₁)
  first : ∀ a k b, h = a ++ k :: b → FailsToTransmit k → (∀ k' ∈ b, ¬ FailsToTransmit k') →
    reopenTimes (said k) ≠ []

/-! ## The invariant -/

/-- When the port was reopened last. -/
def PortRecovery.lastReopen (s : PortRecovery) : Option Time :=
  if s.reopenAttempted then some s.lastReopenAttempt else none

/-- What the members stand for, after transmissions with these results and reopenings at these
    times, newest first. -/
structure Tracked (results : List ℤ) (times : List Time) (s : PortRecovery) : Prop where
  failures : s.consecutiveWriteFailures.toNat = failuresSince results % 2 ^ 32
  limited : Limited (1000000000 : Time) times s.lastReopen
  unattempted : (∀ result ∈ results, result = commSuccess) → s.reopenAttempted = false

theorem one_le_secs_iff {d : Time} : 1 ≤ secs d ↔ 1000000000 ≤ d := by
  unfold secs
  rw [le_div_iff₀ (by norm_num), one_mul]
  norm_cast

theorem due_iff {s : PortRecovery} {now : Time} :
    Due (1000000000 : Time) s.lastReopen now ↔
      ¬ (s.reopenAttempted = true ∧ secs (now - s.lastReopenAttempt) < 1) := by
  unfold Due PortRecovery.lastReopen
  cases s.reopenAttempted <;> simp [← one_le_secs_iff]

theorem tracked_initial : Tracked [] [] PortRecovery.initial :=
  ⟨rfl, .start _, fun _ => rfl⟩

/-- A failed transmission is one more, modulo `2 ^ 32`. -/
theorem toNat_failures {results : List ℤ} {result : ℤ} {c : UInt32} (hr : result ≠ commSuccess)
    (hc : c.toNat = failuresSince results % 2 ^ 32) :
    (c + 1).toNat = failuresSince (result :: results) % 2 ^ 32 := by
  have hsucc : failuresSince (result :: results) = failuresSince results + 1 := by
    simp [failuresSince, hr]
  rw [hsucc, UInt32.toNat_add, hc]
  exact Nat.mod_add_mod _ _ _

/-- One call. -/
theorem Tracked.step {results results' : List ℤ} {times times' : List Time}
    {s s' : PortRecovery} {ok : Bool} (ht : Tracked results times s)
    (he : WriteEffect s results' times' s' ok) :
    Tracked (results' ++ results) (times' ++ times) s' := by
  cases he with
  | untransmitted => exact ht
  | sent =>
    refine ⟨by simp [failuresSince], ht.limited, fun hall => ht.unattempted ?_⟩
    exact fun result hmem => hall result (List.mem_cons_of_mem _ hmem)
  | throttled result now hr hd =>
    refine ⟨toNat_failures hr ht.failures, ht.limited, fun hall => ?_⟩
    exact absurd (hall result List.mem_cons_self) hr
  | reopened result now hr hd =>
    refine ⟨toNat_failures hr ht.failures, ?_, fun hall => ?_⟩
    · exact ht.limited.pass (by norm_num) (due_iff.mpr hd)
    · exact absurd (hall result List.mem_cons_self) hr

/-! ## Runs -/

section Runs

variable {h : WriteHistory} {k : WriteEntry} {s : PortRecovery × BusHistory}

/-- The newest call is one of the branches. -/
theorem IsWriteRun.branch (hr : IsWriteRun (k :: h) s) :
    k.post.2 = said k ++ k.pre.2 ∧
      WriteBranch k.pre.1 k.event.goal (said k) k.post.1 k.out := by
  obtain ⟨-, -, -, -, hout, hpost, -, -⟩ := hr.newest
  have hissued : Issued (fun _ _ => True) k.pre.2 :=
    Past.always_iff_append.mpr fun _ _ _ _ => trivial
  obtain ⟨-, a, hsaid, hb⟩ := (writeGoalIfSet_branch k.event.syncWrite k.pre.1 k.event.goal
    k.pre.2).sound k.event.answer hissued
  have hh : k.post.2 = a ++ k.pre.2 := by
    rw [hpost]
    exact hsaid
  have ha : said k = a := by
    rw [said, hh, List.length_append, Nat.add_sub_cancel, List.take_left]
  rw [ha, hout, hpost]
  exact ⟨hsaid, hb⟩

theorem IsWriteRun.tracked (hr : IsWriteRun h s) :
    syncParams s.2 = [] ∧ Tracked (transmissions h) (reopens h) s.1 := by
  induction h generalizing s with
  | nil =>
    cases hr
    exact ⟨rfl, tracked_initial⟩
  | cons k h ih =>
    obtain ⟨_, hr', -, -, -, -, rfl, -⟩ := hr.newest
    obtain ⟨hsaid, hb⟩ := IsWriteRun.branch hr
    obtain ⟨hcleared, ht⟩ := ih hr'
    refine ⟨?_, ht.step hb.effect⟩
    rw [hsaid]
    exact hb.cleared hcleared

/-- What holds of the newest call of every run holds of every call of a run. -/
theorem IsWriteRun.each {P : WriteEntry → Prop} (hr : IsWriteRun h s)
    (hnew : ∀ {k h s}, IsWriteRun (k :: h) s → P k) : ∀ k ∈ h, P k := by
  intro k hk
  obtain ⟨a, b, rfl⟩ := List.append_of_mem hk
  obtain ⟨s', t', hr', -⟩ := hr.of_append
  exact hnew hr'

/-- Whatever the goals and the answers of the bus are. -/
theorem writeGoal_calls (hr : IsWriteRun h s) : WritesGoals h s where
  appends := hr.each fun hr => (IsWriteRun.branch hr).1
  cleared := hr.each fun hr => by
    obtain ⟨_, -, -, -, -, -, rfl, -⟩ := hr.newest
    exact (IsWriteRun.tracked hr).1
  packets := hr.each fun hr a result b hsaid =>
    Past.always_iff_append.mp (IsWriteRun.branch hr).2.packets a _ b hsaid rfl
  refused := hr.each fun hr id data hmem => (IsWriteRun.branch hr).2.transmits_of_refused hmem
  returns := hr.each fun hr => (IsWriteRun.branch hr).2.effect.returns_iff
  failures := (IsWriteRun.tracked hr).2.failures
  apart := (IsWriteRun.tracked hr).2.limited.spaced.imp one_le_secs_iff.mpr
  first := by
    rintro a k b rfl hfail hnone
    obtain ⟨s', t', hr', -⟩ := hr.of_append
    obtain ⟨_, hpre, -⟩ := hr'.newest
    refine (IsWriteRun.branch hr').2.effect.reopens ?_ hfail
    refine (IsWriteRun.tracked hpre).2.unattempted fun result hmem => ?_
    obtain ⟨k', hk', hresult⟩ := List.mem_flatMap.mp hmem
    by_contra hne
    exact hnone k' hk' ⟨result, hresult, hne⟩

end Runs

/-- A bus on which transmissions have this result, the clock reads this time and parameters are
    added or refused. -/
def transmittingBus (result : ℤ) (now : Time) (added : Bool) :
    BusHistory → ∀ c : BusCommand, c.Response
  | _, .steadyNow => now
  | _, .addParam _ _ => added
  | _, .txPacket => result
  | h, c => obligingBus h c

/-- A goal that is sent, two within a second that are not, one with a refused parameter and one
    without a group. -/
def writeCalls : List WriteCall :=
  [⟨true, fun _ => 2048, transmittingBus commSuccess 0 true⟩,
    ⟨true, fun _ => -1, transmittingBus (-1000) 0 true⟩,
    ⟨true, fun _ => 0, transmittingBus (-1000) 500000000 true⟩,
    ⟨true, fun _ => 0, transmittingBus commSuccess 500000000 false⟩,
    ⟨false, fun _ => 0, transmittingBus commSuccess 500000000 true⟩]

theorem writeGoal_calls_writeCalls :
    WritesGoals (writer.trace (PortRecovery.initial, []) writeCalls [])
      (writer.final (PortRecovery.initial, []) writeCalls) := by
  obtain ⟨t, hr⟩ := Machine.run_final (M := writer) (PortRecovery.initial, []) () writeCalls
    ⟨le_rfl, le_rfl, le_rfl, le_rfl, le_rfl, le_rfl, le_rfl, le_rfl, le_rfl, le_rfl, trivial⟩
  exact writeGoal_calls hr

end Px4ServoToDynamixel

end Hummingbird
