/-
  What a failed startup leaves behind.

  The last loop of `initial_setting` switches the servos on one after the other, and nothing
  switches one off again: the node keeps the torque of a servo that is on. A startup that fails
  before this loop has not touched TORQUE_ENABLE (`prepare_ends`). One that fails in it has
  switched on the servos before the one that did not acknowledge (`enableTorque_ends`), so
  `failedStartup_leaves_iff` says which servos are left on.
-/
import Hummingbird.Servo.TorqueSafety

namespace Hummingbird

open Dialogue BusHistory Bus

namespace Px4ServoToDynamixel

/-- The constructor up to `initial_return_to_zero`. It throws if `initial_setting` fails and
    closes the port before that, if `port_handler_` is set. -/
noncomputable def startup (portHandler : Bool) : OptionT Bus (Fin 6 → Int32) :=
  OptionT.mk do
    match ← initialSetting.run with
    | some initialPpr => pure (some initialPpr)
    | none =>
      if portHandler then closePort
      pure none

/-! ## What is left -/

section

variable (h : BusHistory) (i : Fin 6)

/-- TORQUE_ENABLE of the servo was read as off. -/
def WasOff : Prop := byteRead h (servoId i) addrTorqueEnable = some torqueOff

/-- The servo was read as off, and the last write of TORQUE_ENABLE that it has acknowledged
    switched it on. -/
def NewlyPowered : Prop :=
  WasOff h i ∧ byteWritten h (servoId i) addrTorqueEnable = some torqueOn

/-- The servo was told to switch on. -/
def Asked : Prop :=
  ∃ status, (⟨.write1 (servoId i) addrTorqueEnable torqueOn, status⟩ :
    Exchange BusCommand.Response) ∈ h

/-- The servo was read as off and told to switch on, and has not acknowledged it. -/
def Refuses : Prop :=
  WasOff h i ∧ Asked h i ∧ byteWritten h (servoId i) addrTorqueEnable = none

/-- Nothing was written to TORQUE_ENABLE of the servo. -/
def Untouched : Prop :=
  ∀ value status, (⟨.write1 (servoId i) addrTorqueEnable value, status⟩ :
    Exchange BusCommand.Response) ∉ h

/-- The last loop of `initial_setting` before its step `k`. -/
structure Switching (torqueEnabled : Fin 6 → UInt8) (k : ℕ) : Prop where
  read : ∀ i, byteRead h (servoId i) addrTorqueEnable = some (torqueEnabled i)
  on : ∀ i : Fin 6, i < k → torqueEnabled i = torqueOff →
    byteWritten h (servoId i) addrTorqueEnable = some torqueOn
  untouched : ∀ i : Fin 6, k ≤ i → Untouched h i

/-- The loop at its step `i`, which the servo has not acknowledged. -/
structure Trying (torqueEnabled : Fin 6 → UInt8) (i : Fin 6) : Prop where
  read : ∀ i, byteRead h (servoId i) addrTorqueEnable = some (torqueEnabled i)
  on : ∀ i' < i, torqueEnabled i' = torqueOff →
    byteWritten h (servoId i') addrTorqueEnable = some torqueOn
  off : byteWritten h (servoId i) addrTorqueEnable = none
  untouched : ∀ i', i < i' → Untouched h i'

/-- A startup fails before its last loop, or at the step `i` of this loop. -/
inductive Failed : Prop
  | early (hu : ∀ i, Untouched h i)
  | late (torqueEnabled : Fin 6 → UInt8) (i : Fin 6) (hoff : torqueEnabled i = torqueOff)
      (ht : Trying h torqueEnabled i) (ha : Asked h i)

end

section Keep

variable {h : BusHistory} {c : BusCommand} {r : c.Response} {i : Fin 6}

theorem Untouched.byteWritten (hu : Untouched h i) :
    byteWritten h (servoId i) addrTorqueEnable = none := by
  refine List.findSome?_eq_none_iff.mpr ?_
  rintro ⟨c, r⟩ hmem
  cases c with
  | write1 id address value =>
    apply if_neg
    rintro ⟨rfl, rfl, -⟩
    exact hu value r hmem
  | _ => rfl

theorem Untouched.not_asked (hu : Untouched h i) : ¬ Asked h i :=
  fun ⟨status, hmem⟩ => hu torqueOn status hmem

theorem Untouched.cons (hu : Untouched h i)
    (hc : ∀ value, c ≠ .write1 (servoId i) addrTorqueEnable value) :
    Untouched (⟨c, r⟩ :: h) i := by
  intro value status hmem
  rcases List.mem_cons.mp hmem with heq | hmem
  · exact hc value (congrArg Exchange.command heq).symm
  · exact hu value status hmem

/-- A command that does not write TORQUE_ENABLE leaves every servo untouched. -/
theorem untouched_cons_of_gentle (hu : ∀ i, Untouched h i)
    (hc : ¬ WritesRegister addrTorqueEnable c) : ∀ i, Untouched (⟨c, r⟩ :: h) i := by
  intro i
  refine (hu i).cons ?_
  rintro value rfl
  exact hc rfl

theorem Switching.trying {torqueEnabled : Fin 6 → UInt8} (hs : Switching h torqueEnabled i) :
    Trying h torqueEnabled i where
  read := hs.read
  on i' hlt := hs.on i' hlt
  off := (hs.untouched i le_rfl).byteWritten
  untouched i' hlt := hs.untouched i' hlt.le

end Keep

/-! ## The last loop -/

section Loop

variable {torqueEnabled : Fin 6 → UInt8} {h : BusHistory}

theorem write1_ne_write1 {i j : Fin 6} (hij : i ≠ j) (address : UInt16) (v w : UInt8) :
    BusCommand.write1 (servoId i) address v ≠ .write1 (servoId j) address w := by
  intro heq
  injection heq with hid
  exact hij (servoId_injective hid)

/-- One write that switches a servo on. -/
theorem Trying.write {i : Fin 6} (ht : Trying h torqueEnabled i) (status : BusStatus) :
    (status.Ok → Switching (⟨.write1 (servoId i) addrTorqueEnable torqueOn, status⟩ :: h)
      torqueEnabled (i + 1)) ∧
    (¬ status.Ok → Trying (⟨.write1 (servoId i) addrTorqueEnable torqueOn, status⟩ :: h)
      torqueEnabled i) := by
  have hread : ∀ j, byteRead (⟨.write1 (servoId i) addrTorqueEnable torqueOn, status⟩ :: h)
      (servoId j) addrTorqueEnable = some (torqueEnabled j) := fun j =>
    (byteRead_cons (by nofun)).trans (ht.read j)
  have hon : ∀ j < i, torqueEnabled j = torqueOff →
      byteWritten (⟨.write1 (servoId i) addrTorqueEnable torqueOn, status⟩ :: h) (servoId j)
        addrTorqueEnable = some torqueOn := fun j hlt hoff =>
    (byteWritten_cons fun v => write1_ne_write1 hlt.ne' _ _ v).trans (ht.on j hlt hoff)
  have hlater : ∀ j, i < j →
      Untouched (⟨.write1 (servoId i) addrTorqueEnable torqueOn, status⟩ :: h) j :=
    fun j hlt => (ht.untouched j hlt).cons fun v => write1_ne_write1 hlt.ne _ _ v
  constructor
  · intro hok
    refine ⟨hread, fun j hj hoff => ?_, fun j hj => hlater j hj⟩
    rcases (Nat.lt_succ_iff_lt_or_eq.mp hj) with hlt | heq
    · exact hon j hlt hoff
    · rw [Fin.ext heq, byteWritten_cons_write1, if_pos hok]
  · intro hnot
    refine ⟨hread, hon, ?_, hlater⟩
    rw [byteWritten_cons_write1, if_neg hnot]
    exact ht.off

theorem enableTorque_ends (hs : Switching h torqueEnabled 0) :
    (enableTorque torqueEnabled).run.Ensures (fun _ _ => True)
      (Ends (fun h' _ => Switching h' torqueEnabled 6) Failed) h := by
  refine ends_each_count (J := fun k h => Switching h torqueEnabled k) (fun i h hs => ?_) hs
  split
  · rename_i hoff
    have hattempt : ∀ h, Trying h torqueEnabled i → (do
        let status ← write1 (servoId i) addrTorqueEnable torqueOn
        pure (ifOk status ()) : Bus (Option Unit)).Ensures (fun _ _ => True)
          (Ends (fun h' _ => Switching h' torqueEnabled (i + 1))
            fun h' => Trying h' torqueEnabled i ∧ Asked h' i) h := by
      intro h ht
      refine ensures_ask_bind.mpr ⟨trivial, fun status => ?_⟩
      obtain ⟨hyes, hno⟩ := ht.write status
      unfold ifOk
      split
      · rename_i hok
        exact hyes hok
      · rename_i hnot
        exact ⟨hno hnot, status, List.mem_cons_self⟩
    refine (ends_retry hattempt (fun h hf => hf.1) 2 hs.trying).mono ?_
    intro h' r hr
    cases r with
    | none => exact .late torqueEnabled i hoff hr.1 hr.2
    | some _ => exact hr
  · rename_i hon
    refine ⟨hs.read, fun j hj hoff => ?_, fun j hj => hs.untouched j (Nat.le_of_succ_le hj)⟩
    rcases (Nat.lt_succ_iff_lt_or_eq.mp hj) with hlt | heq
    · exact hs.on j hlt hoff
    · rw [Fin.ext heq] at hoff
      exact absurd hoff hon

end Loop

/-! ## The startup -/

theorem prepare_ends :
    prepare.run.Ensures (fun _ _ => True)
      (Ends (fun h x => (∀ i, Untouched h i) ∧ Prepared h x.1 fun i => (x.2 i).toUInt32)
        Failed) [] := by
  refine Ensures.conseq (F := fun h => ∀ i, Untouched h i) (prepare_spec [])
    (fun _ _ _ hmem => nomatch hmem) ?_ (fun _ _ _ _ => trivial) ?_
  · intro h c r hu hc
    exact untouched_cons_of_gentle hu hc.2.1
  · intro h r hu hr
    cases r with
    | none => exact .early hu
    | some x => exact ⟨hu, hr x rfl⟩

theorem holdAndEnable_ends {torqueEnabled : Fin 6 → UInt8} {initialPpr : Fin 6 → Int32}
    {h : BusHistory} (hu : ∀ i, Untouched h i)
    (hp : Prepared h torqueEnabled fun i => (initialPpr i).toUInt32) :
    (holdAndEnable torqueEnabled initialPpr).run.Ensures (fun _ _ => True)
      (Ends (fun _ _ => True) Failed) h := by
  refine ends_bind (ends_lift.mpr ((writeGoal_spec _ initialPpr h).conseq
    (F := fun h => (∀ i, Untouched h i) ∧
      Prepared h torqueEnabled fun i => (initialPpr i).toUInt32) ⟨hu, hp⟩ ?_
    (fun _ _ _ _ => trivial) ?_))
  · rintro h c r ⟨hu, hp⟩ hc
    exact ⟨untouched_cons_of_gentle hu hc.noTorque, hp.cons hc.noRead hc.noPosition⟩
  rintro h' ⟨s, held⟩ ⟨hu, hp⟩ -
  cases held with
  | false => exact Failed.early hu
  | true =>
    have hs : Switching h' torqueEnabled 0 :=
      ⟨fun i => (hp.ready i).checked.torque, fun i hi => absurd hi (Nat.not_lt_zero _),
        fun i _ => hu i⟩
    refine ends_bind ((enableTorque_ends hs).mono fun h'' r hr => ?_)
    cases r with
    | none => exact hr
    | some _ => trivial

theorem initialSetting_ends :
    initialSetting.run.Ensures (fun _ _ => True) (Ends (fun _ _ => True) Failed) [] := by
  refine ends_bind (prepare_ends.mono fun h r hr => ?_)
  cases r with
  | none => exact hr
  | some x =>
    obtain ⟨torqueEnabled, initialPpr⟩ := x
    obtain ⟨hu, hp⟩ := hr
    refine ends_bind ((holdAndEnable_ends hu hp).mono fun h' r hr => ?_)
    cases r with
    | none => exact hr
    | some _ => trivial

theorem Failed.closePort {h : BusHistory} (hf : Failed h) :
    Failed (⟨.closePort, ()⟩ :: h) := by
  cases hf with
  | early hu => exact .early fun i => (hu i).cons nofun
  | late torqueEnabled i hoff ht ha =>
    obtain ⟨status, hmem⟩ := ha
    refine .late torqueEnabled i hoff ⟨?_, ?_, ?_, ?_⟩ ⟨status, List.mem_cons_of_mem _ hmem⟩
    · exact fun j => (byteRead_cons (by nofun)).trans (ht.read j)
    · exact fun j hlt hj => (byteWritten_cons (by nofun)).trans (ht.on j hlt hj)
    · exact (byteWritten_cons (by nofun)).trans ht.off
    · exact fun j hlt => (ht.untouched j hlt).cons nofun

theorem startup_ends (portHandler : Bool) :
    (startup portHandler).run.Ensures (fun _ _ => True) (Ends (fun _ _ => True) Failed) [] := by
  refine ensures_bind.mpr (initialSetting_ends.mono fun h r hr => ?_)
  cases r with
  | some initialPpr => trivial
  | none =>
    cases portHandler with
    | false => exact hr
    | true => exact And.intro trivial fun _ => hr.closePort

theorem Failed.newlyPowered {h : BusHistory} (hf : Failed h) (i : Fin 6) :
    NewlyPowered h i ↔ WasOff h i ∧ ∃ j, i < j ∧ Refuses h j := by
  cases hf with
  | early hu =>
    constructor
    · rintro ⟨-, hon⟩
      rw [(hu i).byteWritten] at hon
      cases hon
    · rintro ⟨-, j, -, -, hasked, -⟩
      exact absurd hasked (hu j).not_asked
  | late torqueEnabled k hoff ht ha =>
    have hk : WasOff h k := by
      rw [WasOff, ht.read k, hoff]
    constructor
    · rintro ⟨hwas, hon⟩
      refine ⟨hwas, k, ?_, hk, ha, ht.off⟩
      rcases lt_trichotomy i k with hlt | rfl | hlt
      · exact hlt
      · rw [ht.off] at hon
        cases hon
      · rw [(ht.untouched i hlt).byteWritten] at hon
        cases hon
    · rintro ⟨hwas, j, hij, hj, hasked, -⟩
      have hjk : j ≤ k := by
        by_contra hlt
        exact (ht.untouched j (not_le.mp hlt)).not_asked hasked
      refine ⟨hwas, ht.on i (hij.trans_le hjk) ?_⟩
      exact Option.some.inj ((ht.read i).symm.trans hwas)

/-- A startup that fails leaves a servo newly powered exactly if it has failed at a later one,
    which did not acknowledge that it is on. -/
theorem failedStartup_leaves_iff (answer : BusHistory → ∀ c : BusCommand, c.Response)
    (portHandler : Bool) :
    let result := (startup portHandler).run.run answer []
    result.2 = none →
      ∀ i, NewlyPowered result.1 i ↔ WasOff result.1 i ∧ ∃ j, i < j ∧ Refuses result.1 j := by
  intro result hnone
  have hends := ((startup_ends portHandler).sound answer trivial).2
  rw [hnone] at hends
  exact hends.newlyPowered

/-- All servos are off, and the second one never acknowledges that it is switched on. -/
def refusingBus : BusHistory → ∀ c : BusCommand, c.Response
  | h, .write1 id address value =>
    if id = 1 ∧ address = addrTorqueEnable then ⟨-3001, 0⟩
    else obligingBus h (.write1 id address value)
  | h, c => obligingBus h c

theorem startup_refusingBus : ((startup true).run.run refusingBus []).2 = none := by
  decide +kernel

theorem failedStartup_leaves_iff_refusingBus :
    let result := (startup true).run.run refusingBus []
    result.2 = none ∧ ∀ i, NewlyPowered result.1 i ↔
      WasOff result.1 i ∧ ∃ j, i < j ∧ Refuses result.1 j :=
  ⟨startup_refusingBus, failedStartup_leaves_iff refusingBus true startup_refusingBus⟩

/-- The first servo is left on. -/
theorem failedStartup_leavesNone_fails :
    ¬ ∀ (answer : BusHistory → ∀ c : BusCommand, c.Response) (portHandler : Bool),
      ((startup portHandler).run.run answer []).2 = none →
        ∀ i, ¬ NewlyPowered ((startup portHandler).run.run answer []).1 i := by
  intro hall
  refine hall refusingBus true startup_refusingBus 0 ⟨?_, ?_⟩
  · unfold WasOff
    decide +kernel
  · decide +kernel

end Px4ServoToDynamixel

end Hummingbird
