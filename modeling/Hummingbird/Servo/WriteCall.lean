/-
  One call of `write_goal`, whatever the bus answers.

  `WriteBranch s goal said s' ok` lists the ways through a call: `said` is what it exchanges with
  the bus, newest first, and `writeGoal_branch` says that there are no others. What holds of a
  call is read off these branches: the parameters that are left, the packet, the transmission's
  result and the time of a reopening.

  `decodeGoal` reads the four bytes of a parameter as a little endian number in two's
  complement.
-/
import Hummingbird.Servo.TorqueSafety

namespace Hummingbird

open Dialogue BusHistory Bus

namespace Px4ServoToDynamixel

/-! ## The bytes of a goal -/

/-- The number with these little endian bytes. -/
def littleEndian (data : Fin 4 → UInt8) : ℕ :=
  (data 0).toNat + 2 ^ 8 * (data 1).toNat + 2 ^ 16 * (data 2).toNat + 2 ^ 24 * (data 3).toNat

/-- The bytes as a number in two's complement. -/
def decodeGoal (data : Fin 4 → UInt8) : ℤ := (littleEndian data : ℤ).bmod (2 ^ 32)

theorem toNat_dxlLobyte (w : UInt16) : (dxlLobyte w).toNat = w.toNat % 2 ^ 8 := by
  rw [dxlLobyte, UInt16.toNat_toUInt8]

theorem toNat_dxlHibyte (w : UInt16) : (dxlHibyte w).toNat = w.toNat / 2 ^ 8 % 2 ^ 8 := by
  rw [dxlHibyte, UInt16.toNat_toUInt8, UInt16.toNat_shiftRight, Nat.shiftRight_eq_div_pow]
  rfl

theorem toNat_dxlLoword (l : UInt32) : (dxlLoword l).toNat = l.toNat % 2 ^ 16 := by
  rw [dxlLoword, UInt32.toNat_toUInt16]

theorem toNat_dxlHiword (l : UInt32) : (dxlHiword l).toNat = l.toNat / 2 ^ 16 % 2 ^ 16 := by
  rw [dxlHiword, UInt32.toNat_toUInt16, UInt32.toNat_shiftRight, Nat.shiftRight_eq_div_pow]
  rfl

theorem littleEndian_goalData (value : UInt32) : littleEndian (goalData value) = value.toNat := by
  have hlt : value.toNat < 2 ^ 32 := value.toNat_lt
  have hbytes : littleEndian (goalData value) = (dxlLobyte (dxlLoword value)).toNat +
    2 ^ 8 * (dxlHibyte (dxlLoword value)).toNat + 2 ^ 16 * (dxlLobyte (dxlHiword value)).toNat +
    2 ^ 24 * (dxlHibyte (dxlHiword value)).toNat := rfl
  rw [hbytes, toNat_dxlLobyte, toNat_dxlHibyte, toNat_dxlLobyte, toNat_dxlHibyte,
    toNat_dxlLoword, toNat_dxlHiword]
  omega

theorem decodeGoal_goalData (goal : Int32) :
    decodeGoal (goalData goal.toUInt32) = goal.toInt := by
  calc decodeGoal (goalData goal.toUInt32)
      = (goal.toUInt32.toNat : ℤ).bmod (2 ^ 32) :=
        congrArg (fun n : ℕ => (n : ℤ).bmod (2 ^ 32)) (littleEndian_goalData goal.toUInt32)
    _ = goal.toInt := (BitVec.toInt_eq_toNat_bmod goal.toBitVec).symm

/-- The packet carries each servo once, with the bytes of its goal, and nothing else. -/
structure Carries (params : List (UInt8 × (Fin 4 → UInt8))) (goal : Fin 6 → ℤ) : Prop where
  once : ∀ i, ∃ data, params.filter (fun p => p.1 = servoId i) = [(servoId i, data)] ∧
    decodeGoal data = goal i
  only : ∀ p ∈ params, ∃ i, p.1 = servoId i

theorem carries_goalParams (goal : Fin 6 → Int32) :
    Carries (goalParams fun i => (goal i).toUInt32) fun i => (goal i).toInt where
  once i := by
    refine ⟨goalData (goal i).toUInt32, ?_, decodeGoal_goalData (goal i)⟩
    fin_cases i <;> rfl
  only p hp := by
    obtain ⟨i, rfl⟩ := (List.mem_ofFn' _ _).mp hp
    exact ⟨i, rfl⟩

/-! ## What a call says -/

abbrev BusExchange := Exchange BusCommand.Response

/-- The result of a transmission. -/
def transmits : BusExchange → Option ℤ
  | ⟨.txPacket, result⟩ => some result
  | _ => none

/-- A reading of the steady clock. -/
def readsClock : BusExchange → Option Time
  | ⟨.steadyNow, now⟩ => some now
  | _ => none

/-- When the port was reopened, newest first: the last clock reading before it is closed. -/
def reopenTimes : BusHistory → List Time
  | [] => []
  | ⟨.closePort, _⟩ :: h => (Past.latest readsClock h).toList ++ reopenTimes h
  | _ :: h => reopenTimes h

/-- What the recovery does with the port once it is closed. -/
def Recovers : BusCommand → Prop
  | .openPort => True
  | .setBaudRate => True
  | .write1 _ _ _ => True
  | _ => False

noncomputable section

/-- The goal of the servo `i` is added to the parameters. -/
def goalAdded (goal : Fin 6 → Int32) (i : Fin 6) : BusExchange :=
  ⟨.addParam (servoId i) (goalData (goal i).toUInt32), true⟩

/-- The call has added the goals of the first `k` servos. -/
def goalsAdded (goal : Fin 6 → Int32) (k : ℕ) : BusHistory :=
  ((List.ofFn (goalAdded goal)).take k).reverse ++ [⟨.clearParam, ()⟩]

/-- The call has transmitted all goals. -/
def transmission (goal : Fin 6 → Int32) (result : ℤ) : BusHistory :=
  ⟨.clearParam, ()⟩ :: ⟨.txPacket, result⟩ :: goalsAdded goal 6

end

/-- The ways through `write_goal`. -/
inductive WriteBranch (s : PortRecovery) (goal : Fin 6 → Int32) :
    BusHistory → PortRecovery → Bool → Prop
  | unset : WriteBranch s goal [] s false
  | refused (i : Fin 6) (data : Fin 4 → UInt8) :
      WriteBranch s goal
        (⟨.clearParam, ()⟩ :: ⟨.addParam (servoId i) data, false⟩ :: goalsAdded goal i) s false
  | sent :
      WriteBranch s goal (transmission goal commSuccess)
        { s with consecutiveWriteFailures := 0 } true
  | throttled (result : ℤ) (now : Time) (hr : result ≠ commSuccess)
      (ht : s.reopenAttempted = true ∧ secs (now - s.lastReopenAttempt) < 1) :
      WriteBranch s goal (⟨.steadyNow, now⟩ :: transmission goal result)
        { s with consecutiveWriteFailures := s.consecutiveWriteFailures + 1 } false
  | reopened (result : ℤ) (now : Time) (hr : result ≠ commSuccess)
      (hd : ¬ (s.reopenAttempted = true ∧ secs (now - s.lastReopenAttempt) < 1))
      (recovery : BusHistory) (hc : ∀ e ∈ recovery, Recovers e.command) :
      WriteBranch s goal
        (recovery ++ ⟨.closePort, ()⟩ :: ⟨.steadyNow, now⟩ :: transmission goal result)
        { consecutiveWriteFailures := s.consecutiveWriteFailures + 1
          reopenAttempted := true
          lastReopenAttempt := now } false

/-- `write_goal` with its guard: `syncWrite` says whether `sync_write_` is set. -/
noncomputable def writeGoalIfSet (syncWrite : Bool) (s : PortRecovery) (goal : Fin 6 → Int32) :
    Bus (PortRecovery × Bool) :=
  if !syncWrite then pure (s, false) else writeGoal s goal

section Calls

variable {s s' : PortRecovery} {goal : Fin 6 → Int32} {h : BusHistory}

theorem addGoals_exchanges (goal : Fin 6 → Int32) (h : BusHistory) :
    (addGoals goal).run.Ensures (fun _ _ => True)
      (Ends (fun h' _ => h' = goalsAdded goal 6 ++ h)
        fun h' => ∃ (i : Fin 6) (data : Fin 4 → UInt8),
          h' = ⟨.addParam (servoId i) data, false⟩ :: goalsAdded goal i ++ h)
      (⟨.clearParam, ()⟩ :: h) := by
  have hlength : (List.ofFn (goalAdded goal)).length = 6 := List.length_ofFn
  refine ends_each_count (J := fun k h' => h' = goalsAdded goal k ++ h) ?_ rfl
  rintro i h' rfl
  refine ensures_ask_bind.mpr ⟨trivial, fun added => ?_⟩
  cases added with
  | false => exact ⟨i, _, rfl⟩
  | true =>
    have hlt : (i : ℕ) < (List.ofFn (goalAdded goal)).length := by omega
    have hget : (List.ofFn (goalAdded goal))[(i : ℕ)] = goalAdded goal i := List.getElem_ofFn hlt
    show goalAdded goal i :: (goalsAdded goal i ++ h) = goalsAdded goal (i + 1) ++ h
    rw [goalsAdded, goalsAdded, List.take_succ_eq_append_getElem hlt, hget, List.reverse_append]
    rfl

theorem openAtBaudRate_recovers (h : BusHistory) :
    openAtBaudRate.Ensures (fun _ c => Recovers c) (fun _ _ => True) h := by
  refine ensures_ask_bind.mpr ⟨trivial, fun opened => ?_⟩
  cases opened with
  | true => exact And.intro trivial fun _ => trivial
  | false => trivial

/-- The recovery of the port after a failed transmission. -/
theorem reopenPortAfterFailure_branch {result : ℤ} (hr : result ≠ commSuccess) :
    (reopenPortAfterFailure s).Ensures (fun _ _ => True)
      (fun h' s' => ∃ said, h' = said ++ h ∧ WriteBranch s goal said s' false)
      (transmission goal result ++ h) := by
  refine ensures_ask_bind.mpr ⟨trivial, fun now => ?_⟩
  split
  · rename_i ht
    exact ⟨_, rfl, .throttled result now hr ht⟩
  rename_i hd
  have hd : ¬ (s.reopenAttempted = true ∧ secs (now - s.lastReopenAttempt) < 1) := hd
  refine ensures_ask_bind.mpr ⟨trivial, fun _ => ?_⟩
  refine Ensures.said (q := Recovers)
    (P := fun _ s' => s' = ⟨s.consecutiveWriteFailures + 1, true, now⟩)
    (ensures_bind.mpr ((openAtBaudRate_recovers _).mono fun h' opened _ => ?_)) ?_
  · cases opened with
    | false => rfl
    | true =>
      have hloop : Attempts (fun _ c => Recovers c) (fun _ _ => True)
          (each fun i => OptionT.lift (Bus.write1 (servoId i) addrBusWatchdog 0)) h' :=
        attempts_each_count (J := fun _ _ => True)
          (fun i h _ => attempts_lift.mpr (And.intro trivial fun _ => trivial)) trivial
      exact ensures_bind.mpr (Ensures.mono hloop fun _ _ _ => rfl)
  · rintro said s' hsaid rfl
    refine ⟨_, ?_, .reopened result now hr hd said hsaid⟩
    rw [List.append_assoc]
    rfl

theorem writeGoal_branch (s : PortRecovery) (goal : Fin 6 → Int32) (h : BusHistory) :
    (writeGoal s goal).Ensures (fun _ _ => True)
      (fun h' r => ∃ said, h' = said ++ h ∧ WriteBranch s goal said r.1 r.2) h := by
  refine ensures_ask_bind.mpr ⟨trivial, fun _ => ?_⟩
  refine ensures_bind.mpr ((addGoals_exchanges goal h).mono ?_)
  intro h' added hadded
  cases added with
  | none =>
    obtain ⟨i, data, rfl⟩ := hadded
    exact And.intro trivial fun _ => ⟨_, rfl, .refused i data⟩
  | some v =>
    obtain rfl := hadded
    refine ensures_ask_bind.mpr ⟨trivial, fun result => ?_⟩
    refine ensures_ask_bind.mpr ⟨trivial, fun _ => ?_⟩
    split
    · rename_i hr
      exact ensures_bind.mpr ((reopenPortAfterFailure_branch hr).mono fun _ _ hb => hb)
    · rename_i hr
      rw [not_not] at hr
      subst hr
      exact ⟨_, rfl, .sent⟩

theorem writeGoalIfSet_branch (syncWrite : Bool) (s : PortRecovery) (goal : Fin 6 → Int32)
    (h : BusHistory) :
    (writeGoalIfSet syncWrite s goal).Ensures (fun _ _ => True)
      (fun h' r => ∃ said, h' = said ++ h ∧ WriteBranch s goal said r.1 r.2) h := by
  cases syncWrite with
  | false => exact ⟨[], rfl, .unset⟩
  | true => exact writeGoal_branch s goal h

end Calls

/-! ## What is read off a call -/

section Read

variable {s s' : PortRecovery} {goal : Fin 6 → Int32} {said a b h : BusHistory} {ok : Bool}
  {e : BusExchange} {k : ℕ} {result : ℤ}

theorem mem_goalsAdded (he : e ∈ goalsAdded goal k) :
    (∃ i, e = goalAdded goal i) ∨ e = ⟨.clearParam, ()⟩ := by
  rcases List.mem_append.mp he with he | he
  · obtain ⟨i, rfl⟩ := (List.mem_ofFn' _ _).mp (List.mem_of_mem_take (List.mem_reverse.mp he))
    exact Or.inl ⟨i, rfl⟩
  · exact Or.inr (List.mem_singleton.mp he)

theorem mem_transmission (he : e ∈ transmission goal result) :
    (∃ i, e = goalAdded goal i) ∨ e = ⟨.clearParam, ()⟩ ∨ e = ⟨.txPacket, result⟩ := by
  rcases List.mem_cons.mp he with rfl | he
  · exact Or.inr (Or.inl rfl)
  rcases List.mem_cons.mp he with rfl | he
  · exact Or.inr (Or.inr rfl)
  · exact (mem_goalsAdded he).imp_right Or.inl

theorem transmits_eq_nil (h : ∀ e ∈ said, e.command ≠ .txPacket) :
    said.filterMap transmits = [] := by
  refine List.filterMap_eq_nil_iff.mpr fun e he => ?_
  obtain ⟨c, r⟩ := e
  cases c with
  | txPacket => exact absurd rfl (h _ he)
  | _ => rfl

theorem ne_txPacket_of_mem_goalsAdded (he : e ∈ goalsAdded goal k) : e.command ≠ .txPacket := by
  rcases mem_goalsAdded he with ⟨i, rfl⟩ | rfl <;> nofun

theorem Recovers.ne_txPacket (hc : Recovers e.command) : e.command ≠ .txPacket := by
  intro heq
  rw [heq] at hc
  exact hc

theorem Recovers.ne_closePort (hc : Recovers e.command) : e.command ≠ .closePort := by
  intro heq
  rw [heq] at hc
  exact hc

theorem transmits_goalsAdded : (goalsAdded goal k).filterMap transmits = [] :=
  transmits_eq_nil fun _ he => ne_txPacket_of_mem_goalsAdded he

theorem transmits_transmission : (transmission goal result).filterMap transmits = [result] :=
  congrArg (List.cons result) transmits_goalsAdded

/-- Only a port that is closed is reopened. -/
theorem reopenTimes_append (ha : ∀ e ∈ a, e.command ≠ .closePort) :
    reopenTimes (a ++ b) = reopenTimes b := by
  induction a with
  | nil => rfl
  | cons e a ih =>
    obtain ⟨c, r⟩ := e
    have hrest := ih fun e he => ha e (List.mem_cons_of_mem _ he)
    cases c with
    | closePort => exact absurd rfl (ha _ List.mem_cons_self)
    | _ => exact hrest

theorem reopenTimes_goalsAdded : reopenTimes (goalsAdded goal k) = [] := by
  rw [← List.append_nil (goalsAdded goal k)]
  refine reopenTimes_append fun e he => ?_
  rcases mem_goalsAdded he with ⟨i, rfl⟩ | rfl <;> nofun

theorem reopenTimes_transmission : reopenTimes (transmission goal result) = [] :=
  reopenTimes_goalsAdded

theorem syncParams_append_of_recovers (ha : ∀ e ∈ a, Recovers e.command) :
    syncParams (a ++ b) = syncParams b := by
  induction a with
  | nil => rfl
  | cons e a ih =>
    obtain ⟨c, r⟩ := e
    have hc : Recovers c := ha _ List.mem_cons_self
    have hrest := ih fun e he => ha e (List.mem_cons_of_mem _ he)
    cases c with
    | openPort => exact hrest
    | setBaudRate => exact hrest
    | write1 => exact hrest
    | _ => exact hc.elim

/-- No parameter is left. -/
theorem WriteBranch.cleared (hb : WriteBranch s goal said s' ok) (hh : syncParams h = []) :
    syncParams (said ++ h) = [] := by
  cases hb with
  | unset => exact hh
  | refused => rfl
  | sent => rfl
  | throttled => rfl
  | reopened result now hr hd recovery hc =>
    rw [List.append_assoc, syncParams_append_of_recovers hc]
    rfl

/-- A packet carries all goals of the call. -/
theorem WriteBranch.packets (hb : WriteBranch s goal said s' ok) :
    Past.Always (Past.At fun e before =>
      e.command = .txPacket →
        Carries (syncParams (before ++ h)) fun i => (goal i).toInt) said := by
  have hother : ∀ {a : BusHistory}, (∀ e ∈ a, e.command ≠ .txPacket) → ∀ e ∈ a,
      ∀ before : BusHistory, e.command = .txPacket →
        Carries (syncParams (before ++ h)) fun i => (goal i).toInt :=
    fun ha e he _ heq => absurd heq (ha e he)
  have hadded : ∀ k, Past.Always (Past.At fun e before =>
      e.command = .txPacket → Carries (syncParams (before ++ h)) fun i => (goal i).toInt)
        (goalsAdded goal k) := by
    intro k
    rw [← List.append_nil (goalsAdded goal k)]
    exact Past.always_at_append (hother fun e he => ne_txPacket_of_mem_goalsAdded he) trivial
  have hsent : ∀ result, Past.Always (Past.At fun e before =>
      e.command = .txPacket → Carries (syncParams (before ++ h)) fun i => (goal i).toInt)
        (transmission goal result) := fun result =>
    ⟨nofun, fun _ => carries_goalParams goal, hadded 6⟩
  cases hb with
  | unset => trivial
  | refused i data => exact ⟨nofun, nofun, hadded i⟩
  | sent => exact hsent commSuccess
  | throttled result => exact ⟨nofun, hsent result⟩
  | reopened result now hr hd recovery hc =>
    exact Past.always_at_append (hother fun e he => (hc e he).ne_txPacket)
      ⟨nofun, nofun, hsent result⟩

/-- A refused parameter keeps the call from transmitting. -/
theorem WriteBranch.transmits_of_refused (hb : WriteBranch s goal said s' ok) {id : UInt8}
    {data : Fin 4 → UInt8} (hmem : (⟨.addParam id data, false⟩ : BusExchange) ∈ said) :
    said.filterMap transmits = [] := by
  have hnot : ∀ result, (⟨.addParam id data, false⟩ : BusExchange) ∉ transmission goal result := by
    intro result hmem
    rcases mem_transmission hmem with ⟨i, heq⟩ | heq | heq
    · cases heq
    · cases heq
    · cases heq
  cases hb with
  | unset => rfl
  | refused i data => exact transmits_goalsAdded
  | sent => exact absurd hmem (hnot commSuccess)
  | throttled result =>
    rcases List.mem_cons.mp hmem with heq | hmem
    · cases heq
    · exact absurd hmem (hnot result)
  | reopened result now hr hd recovery hc =>
    rcases List.mem_append.mp hmem with hmem | hmem
    · exact (hc _ hmem).elim
    rcases List.mem_cons.mp hmem with heq | hmem
    · cases heq
    rcases List.mem_cons.mp hmem with heq | hmem
    · cases heq
    · exact absurd hmem (hnot result)

/-- What a call does to the members: the results of its transmissions and the times at which it
    reopens the port decide it. -/
inductive WriteEffect (s : PortRecovery) : List ℤ → List Time → PortRecovery → Bool → Prop
  | untransmitted : WriteEffect s [] [] s false
  | sent : WriteEffect s [commSuccess] [] { s with consecutiveWriteFailures := 0 } true
  | throttled (result : ℤ) (now : Time) (hr : result ≠ commSuccess)
      (ht : s.reopenAttempted = true ∧ secs (now - s.lastReopenAttempt) < 1) :
      WriteEffect s [result] []
        { s with consecutiveWriteFailures := s.consecutiveWriteFailures + 1 } false
  | reopened (result : ℤ) (now : Time) (hr : result ≠ commSuccess)
      (hd : ¬ (s.reopenAttempted = true ∧ secs (now - s.lastReopenAttempt) < 1)) :
      WriteEffect s [result] [now]
        { consecutiveWriteFailures := s.consecutiveWriteFailures + 1
          reopenAttempted := true
          lastReopenAttempt := now } false

theorem WriteBranch.effect (hb : WriteBranch s goal said s' ok) :
    WriteEffect s (said.filterMap transmits) (reopenTimes said) s' ok := by
  cases hb with
  | unset => exact .untransmitted
  | refused i data =>
    show WriteEffect s ((goalsAdded goal i).filterMap transmits)
      (reopenTimes (goalsAdded goal i)) s false
    rw [transmits_goalsAdded, reopenTimes_goalsAdded]
    exact .untransmitted
  | sent =>
    rw [transmits_transmission, reopenTimes_transmission]
    exact .sent
  | throttled result now hr ht =>
    show WriteEffect s ((transmission goal result).filterMap transmits)
      (reopenTimes (transmission goal result)) _ false
    rw [transmits_transmission, reopenTimes_transmission]
    exact .throttled result now hr ht
  | reopened result now hr hd recovery hc =>
    have hrecovery : recovery.filterMap transmits = [] :=
      transmits_eq_nil fun e he => (hc e he).ne_txPacket
    rw [List.filterMap_append, hrecovery, reopenTimes_append fun e he => (hc e he).ne_closePort]
    show WriteEffect s ((transmission goal result).filterMap transmits)
      (now :: reopenTimes (transmission goal result)) _ false
    rw [transmits_transmission, reopenTimes_transmission]
    exact .reopened result now hr hd

end Read

section Effect

variable {s s' : PortRecovery} {results : List ℤ} {times : List Time} {ok : Bool}

theorem WriteEffect.returns_iff (he : WriteEffect s results times s' ok) :
    ok = true ↔ results = [commSuccess] := by
  cases he with
  | untransmitted => simp
  | sent => simp
  | throttled result now hr => simp [hr]
  | reopened result now hr => simp [hr]

/-- A failed transmission reopens the port if none was attempted before. -/
theorem WriteEffect.reopens (he : WriteEffect s results times s' ok)
    (hn : s.reopenAttempted = false) (hf : ∃ result ∈ results, result ≠ commSuccess) :
    times ≠ [] := by
  cases he with
  | untransmitted => simp at hf
  | sent => simp at hf
  | throttled result now hr hd => exact absurd (hn.symm.trans hd.1) Bool.false_ne_true
  | reopened result now hr => exact List.cons_ne_nil _ _

end Effect

end Px4ServoToDynamixel

end Hummingbird
