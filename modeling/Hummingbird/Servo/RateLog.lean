/-
  The write-rate log of `Px4ServoToDynamixel`.

  `timeout_callback` counts the writes that succeed and reports them once their window is five
  seconds long. `Windows` says how the windows of the reports follow each other, and `Tallied` is
  the invariant of the callbacks: what was reported and what is still counted make up the writes
  that the bus has accepted. `rates_account` is this for every run of the callbacks.
-/
import Hummingbird.Servo.WriteCall
import Hummingbird.Servo.Lifetime

namespace Hummingbird

open Dialogue BusHistory Bus

namespace Px4ServoToDynamixel

/-- How many sync writes have succeeded. -/
def delivered (h : BusHistory) : ℕ := (h.filterMap transmits).count commSuccess

/-- The steady clock has not gone back. -/
def ClockForward (h : BusHistory) : Prop :=
  (h.filterMap readsClock).Pairwise fun newer older => older ≤ newer

/-- Windows of at least five seconds that follow each other, from one time to the other. -/
inductive Windows : Time → List RateReport → Time → Prop
  | none (t : Time) : Windows t [] t
  | cons {report : RateReport} {reports : List RateReport} {next last : Time}
      (hlong : 5 ≤ secs (report.stop - report.start)) (hnext : report.stop ≤ next)
      (hrest : Windows next reports last) : Windows report.start (report :: reports) last

/-- The writes of the reports. -/
def reported (reports : List RateReport) : ℕ := (reports.map fun r => r.writes.toNat).sum

/-- Reports that a node has made while it went from `s` to `s'` and the history from `h` to
    `h'`. -/
structure Tallied (s : ServoNode) (h : BusHistory) (reports : List RateReport) (s' : ServoNode)
    (h' : BusHistory) : Prop where
  grows : h <:+ h'
  counted : reported reports + s'.writeCountWindow.toNat + delivered h ≡
    s.writeCountWindow.toNat + delivered h' [MOD 2 ^ 32]
  long : ∀ r ∈ reports, 5 ≤ secs (r.stop - r.start)
  windows : ClockForward h' → Windows s.lastWriteRateLog reports s'.lastWriteRateLog

section Windows

variable {t t' t'' : Time} {reports reports' : List RateReport}

theorem Windows.append (hw : Windows t reports t') (hw' : Windows t' reports' t'') :
    Windows t (reports ++ reports') t'' := by
  induction hw with
  | none t => exact hw'
  | cons hlong hnext _ ih => exact .cons hlong hnext (ih hw')

theorem Windows.start_le (hw : Windows t reports t') : ∀ r ∈ reports, t ≤ r.start := by
  induction hw with
  | none t => exact fun _ hr => absurd hr List.not_mem_nil
  | @cons report reports next last hlong hnext _ ih =>
    intro r hr
    rcases List.mem_cons.mp hr with rfl | hr
    · exact le_rfl
    · have hpos : report.start ≤ report.stop := by
        by_contra hlt
        have hneg : secs (report.stop - report.start) ≤ secs 0 :=
          secs_mono (sub_nonpos.mpr (not_le.mp hlt).le)
        rw [show secs 0 = 0 from by norm_num [secs]] at hneg
        linarith
      exact (hpos.trans hnext).trans (ih r hr)

/-- The windows are disjoint, in their order. -/
theorem Windows.disjoint (hw : Windows t reports t') :
    reports.Pairwise fun r r' => r.stop ≤ r'.start := by
  induction hw with
  | none t => exact .nil
  | cons hlong hnext hrest ih =>
    exact List.pairwise_cons.mpr ⟨fun r hr => hnext.trans (hrest.start_le r hr), ih⟩

theorem Windows.first (hw : Windows t reports t') : ∀ r ∈ reports.head?, r.start = t := by
  cases hw with
  | none => exact fun _ hr => nomatch hr
  | cons hlong hnext hrest =>
    intro r hr
    rw [← Option.some.inj hr]

end Windows

section Tally

variable {s s' s'' : ServoNode} {h h' h'' : BusHistory} {reports reports' : List RateReport}

theorem ClockForward.of_suffix (hc : ClockForward h') (hs : h <:+ h') : ClockForward h :=
  hc.sublist (hs.sublist.filterMap _)

theorem reported_append :
    reported (reports ++ reports') = reported reports + reported reports' := by
  simp [reported]

theorem Tallied.refl (s : ServoNode) (h : BusHistory) : Tallied s h [] s h :=
  ⟨List.suffix_rfl, by simp [reported, Nat.ModEq], nofun, fun _ => .none _⟩

theorem Tallied.trans (ht : Tallied s h reports s' h') (ht' : Tallied s' h' reports' s'' h'') :
    Tallied s h (reports ++ reports') s'' h'' := by
  refine ⟨ht.grows.trans ht'.grows, ?_, List.forall_mem_append.mpr ⟨ht.long, ht'.long⟩, fun hc =>
    (ht.windows (hc.of_suffix ht'.grows)).append (ht'.windows hc)⟩
  have hsum := ht.counted.add ht'.counted
  refine Nat.ModEq.add_right_cancel' (s'.writeCountWindow.toNat + delivered h') ?_
  rw [reported_append]
  have hleft : reported reports + s'.writeCountWindow.toNat + delivered h +
      (reported reports' + s''.writeCountWindow.toNat + delivered h') =
      reported reports + reported reports' + s''.writeCountWindow.toNat + delivered h +
        (s'.writeCountWindow.toNat + delivered h') := by ring
  have hright : s.writeCountWindow.toNat + delivered h' +
      (s'.writeCountWindow.toNat + delivered h'') =
      s.writeCountWindow.toNat + delivered h'' + (s'.writeCountWindow.toNat + delivered h') := by
    ring
  rw [hleft, hright] at hsum
  exact hsum

theorem WriteEffect.count {p p' : PortRecovery} {results : List ℤ} {times : List Time} {ok : Bool}
    (he : WriteEffect p results times p' ok) :
    results.count commSuccess = if ok then 1 else 0 := by
  cases he with
  | untransmitted => rfl
  | sent => rfl
  | throttled result now hr => exact List.count_eq_zero_of_not_mem (by simpa using hr.symm)
  | reopened result now hr => exact List.count_eq_zero_of_not_mem (by simpa using hr.symm)

/-- A call of `write_goal` is delivered exactly if it succeeds. -/
theorem writeGoal_delivers (p : PortRecovery) (goal : Fin 6 → Int32) (h : BusHistory) :
    (writeGoal p goal).Ensures (fun _ _ => True)
      (fun h' r => h <:+ h' ∧ delivered h' = delivered h + if r.2 then 1 else 0) h := by
  refine (writeGoal_branch p goal h).mono ?_
  rintro h' ⟨p', ok⟩ ⟨said, rfl, hb⟩
  refine ⟨List.suffix_append said h, ?_⟩
  rw [delivered, List.filterMap_append, List.count_append, hb.effect.count, Nat.add_comm]
  rfl

theorem timerTick_tallied (s : ServoNode) (now : Time) (h : BusHistory) :
    (timerTick s now).Ensures (fun _ _ => True)
      (fun h' r => Tallied s h r.2.toList r.1 h') h := by
  unfold timerTick
  rcases hout : s.bridge.timeoutCallback now with ⟨bridge, _ | goal⟩
  · exact ⟨List.suffix_rfl, by simp [reported, Nat.ModEq], nofun, fun _ => .none _⟩
  dsimp only
  refine ensures_bind.mpr ((writeGoal_delivers _ _ h).mono ?_)
  rintro h' ⟨recovery, ok⟩ ⟨hgrows, hdelivered⟩
  cases ok with
  | false =>
    refine ⟨hgrows, ?_, nofun, fun _ => .none _⟩
    rw [hdelivered]
    simp [reported, Nat.ModEq]
  | true =>
    have hcounted : (s.writeCountWindow + 1).toNat + delivered h ≡
        s.writeCountWindow.toNat + delivered h' [MOD 2 ^ 32] := by
      have hsum : s.writeCountWindow.toNat + delivered h' =
          s.writeCountWindow.toNat + 1 + delivered h := by
        rw [hdelivered, if_pos rfl]
        ring
      rw [hsum, UInt32.toNat_add]
      exact (Nat.mod_modEq _ _).add_right _
    refine ensures_ask_bind.mpr ⟨trivial, fun rateNow => ?_⟩
    split
    · rename_i hlong
      refine ensures_ask_bind.mpr ⟨trivial, fun logged => ⟨?_, ?_, ?_, fun hc => ?_⟩⟩
      · exact (hgrows.trans (List.suffix_cons _ _)).trans (List.suffix_cons _ _)
      · have hreported : reported [⟨s.writeCountWindow + 1, s.lastWriteRateLog, rateNow⟩] =
            (s.writeCountWindow + 1).toNat := rfl
        show reported [⟨s.writeCountWindow + 1, s.lastWriteRateLog, rateNow⟩] + 0 + delivered h ≡
          _ [MOD 2 ^ 32]
        rw [hreported, Nat.add_zero]
        exact hcounted
      · intro r hr
        rw [List.mem_singleton.mp hr]
        exact hlong
      · exact @Windows.cons ⟨_, s.lastWriteRateLog, rateNow⟩ _ _ _ hlong
          (List.rel_of_pairwise_cons hc List.mem_cons_self) (.none _)
    · refine ⟨hgrows.trans (List.suffix_cons _ _), ?_, nofun, fun _ => .none _⟩
      show 0 + (s.writeCountWindow + 1).toNat + delivered h ≡ _ [MOD 2 ^ 32]
      rw [Nat.zero_add]
      exact hcounted

theorem callback_tallied (s : ServoNode) (e : ServoEvent) (h : BusHistory) :
    (callback s e).Ensures (fun _ _ => True)
      (fun h' r => Tallied s h r.2.toList r.1 h') h := by
  cases e with
  | actuatorServos now msg =>
    exact ⟨List.suffix_rfl, by simp [reported, Nat.ModEq], nofun, fun _ => .none _⟩
  | timer now => exact timerTick_tallied s now h

theorem spin_tallied (s : ServoNode) (events : List ServoEvent) (h : BusHistory) :
    (spin s events).Ensures (fun _ _ => True) (fun h' r => Tallied s h r.2 r.1 h') h := by
  induction events generalizing s h with
  | nil => exact .refl s h
  | cons e events ih =>
    refine ensures_bind.mpr ((callback_tallied s e h).mono fun h₁ r hfirst => ?_)
    exact ensures_bind.mpr ((ih r.1 h₁).mono fun h₂ r' hrest => hfirst.trans hrest)

end Tally

/-- What a run of the callbacks reports. -/
structure RatesAccount (s : ServoNode) (h : BusHistory) (s' : ServoNode)
    (reports : List RateReport) (h' : BusHistory) : Prop where
  counted : reported reports + s'.writeCountWindow.toNat + delivered h ≡
    s.writeCountWindow.toNat + delivered h' [MOD 2 ^ 32]
  long : ∀ r ∈ reports, 5 ≤ secs (r.stop - r.start)
  disjoint : ClockForward h' → reports.Pairwise fun r r' => r.stop ≤ r'.start
  first : ClockForward h' → ∀ r ∈ reports.head?, r.start = s.lastWriteRateLog

/-- Whatever the node has counted before: every write that the bus accepts is reported in one
    window or still counted, modulo `2 ^ 32`, and the windows are long and disjoint. -/
theorem rates_account (s : ServoNode) (events : List ServoEvent)
    (answer : BusHistory → ∀ c : BusCommand, c.Response) (h : BusHistory) :
    let (h', s', reports) := (spin s events).run answer h
    RatesAccount s h s' reports h' := by
  obtain ⟨-, ht⟩ := (spin_tallied s events h).sound answer
    (Past.always_iff_append.mpr fun _ _ _ _ => trivial)
  exact ⟨ht.counted, ht.long, fun hc => (ht.windows hc).disjoint, fun hc => (ht.windows hc).first⟩

end Px4ServoToDynamixel

end Hummingbird
