/-
  The torque safety of the startup.

  `Safe` says when a command may be sent: one that writes TORQUE_ENABLE only switches a servo on
  that was read as off, once all six servos are `Ready` and hold their positions, and one that
  writes OPERATING_MODE only selects position control on a servo that was read as off.
  `torque_safety`: whatever the bus answers, `initialSetting` sends every command where it is safe,
  and returns only if every servo that was off has acknowledged that it is on.
-/
import Hummingbird.Servo.Startup

namespace Hummingbird

open Dialogue BusHistory

namespace Px4ServoToDynamixel

/-- The id of a servo. -/
noncomputable def servoId (i : Fin 6) : UInt8 := (dxlServos i).id

theorem servoId_injective : Function.Injective servoId := by
  unfold Function.Injective
  decide

/-! ## What is safe -/

/-- The command writes the register. -/
def WritesRegister (register : UInt16) : BusCommand → Prop
  | .write1 _ address _ => address = register
  | .write2 _ address _ => address = register ∨ address + 1 = register
  | .txPacket => addrGoalPosition ≤ register ∧ register < addrGoalPosition + 4
  | _ => False

/-- The servo was found usable: without a hardware error and in position control, which it was
    read in or has acknowledged. -/
structure Checked (h : BusHistory) (i : Fin 6) (torqueEnabled : UInt8) : Prop where
  torque : byteRead h (servoId i) addrTorqueEnable = some torqueEnabled
  noHardwareError : byteRead h (servoId i) addrHardwareErrorStatus = some 0
  positionControl : byteRead h (servoId i) addrOperatingMode = some positionControlMode ∨
    Acked1 h (servoId i) addrOperatingMode positionControlMode

/-- The five gains of the servo are acknowledged. -/
structure Tuned (h : BusHistory) (i : Fin 6) : Prop where
  positionP : Acked2 h (servoId i) addrPositionPGain (dxlServos i).positionP
  positionI : Acked2 h (servoId i) addrPositionIGain (dxlServos i).positionI
  positionD : Acked2 h (servoId i) addrPositionDGain (dxlServos i).positionD
  velocityP : Acked2 h (servoId i) addrVelocityPGain (dxlServos i).velocityP
  velocityI : Acked2 h (servoId i) addrVelocityIGain (dxlServos i).velocityI

/-- Everything that is done with a servo before the goals are written. -/
structure Ready (h : BusHistory) (i : Fin 6) (torqueEnabled : UInt8) : Prop where
  pinged : Pinged h (servoId i)
  checked : Checked h i torqueEnabled
  watchdog : Acked1 h (servoId i) addrBusWatchdog 0
  tuned : Tuned h i

/-- The parameters of a sync write with these goals. -/
noncomputable def goalParams (goal : Fin 6 → UInt32) : List (UInt8 × (Fin 4 → UInt8)) :=
  List.ofFn fun i => (servoId i, goalData (goal i))

/-- A sync write has sent every servo the position that was read from it. -/
def Holds (h : BusHistory) : Prop := ∃ position : Fin 6 → UInt32,
  (∀ i, positionRead h (servoId i) = some (position i)) ∧ Sent h (goalParams position)

/-- The command is safe after what was said. -/
def Safe (h : BusHistory) (c : BusCommand) : Prop :=
  (WritesRegister addrTorqueEnable c → ∃ i, c = .write1 (servoId i) addrTorqueEnable torqueOn ∧
    byteRead h (servoId i) addrTorqueEnable = some torqueOff ∧
      (∀ j, ∃ torqueEnabled, Ready h j torqueEnabled) ∧ Holds h) ∧
  (WritesRegister addrOperatingMode c → ∃ i,
    c = .write1 (servoId i) addrOperatingMode positionControlMode ∧
      byteRead h (servoId i) addrTorqueEnable = some torqueOff)

/-- The command is safe, does not write TORQUE_ENABLE and sends no goals. -/
def Gentle (h : BusHistory) (c : BusCommand) : Prop :=
  Safe h c ∧ ¬ WritesRegister addrTorqueEnable c ∧ c ≠ .txPacket

/-- A command that neither reads nor writes what matters for safety. -/
structure Plain (c : BusCommand) : Prop where
  noRead : ∀ id address, c ≠ .read1 id address
  noTorque : ¬ WritesRegister addrTorqueEnable c
  noMode : ¬ WritesRegister addrOperatingMode c

/-- A plain command that reads no position either. -/
structure Quiet (c : BusCommand) : Prop extends Plain c where
  noPosition : ∀ n address, c ≠ .read4 n address

/-- A plain command that sends no goals. -/
structure Goalless (c : BusCommand) : Prop extends Plain c where
  noGoals : c ≠ .txPacket

theorem Plain.safe {c : BusCommand} (hc : Plain c) (h : BusHistory) : Safe h c :=
  ⟨fun hw => absurd hw hc.noTorque, fun hw => absurd hw hc.noMode⟩

theorem Goalless.gentle {c : BusCommand} (hc : Goalless c) (h : BusHistory) : Gentle h c :=
  ⟨hc.safe h, hc.noTorque, hc.noGoals⟩

/-! ## The lambdas -/

section Lambdas

variable {id : UInt8} {address : UInt16}

theorem ifOk_eq_some {α : Type} {status : BusStatus} {a b : α} (h : ifOk status a = some b) :
    status.Ok ∧ a = b := by
  unfold ifOk at h
  split at h
  · rename_i hok
    exact ⟨hok, Option.some.inj h⟩
  · cases h

theorem write1Byte_spec (value : UInt8) (h : BusHistory) :
    Attempts (fun _ c => c = .write1 id address value)
      (fun h' _ => Acked1 h' id address value) (write1Byte id address value) h := by
  apply attempts_retry_ask
  intro h r _ hr
  exact ⟨r, (ifOk_eq_some hr).1, List.mem_cons_self⟩

theorem write2Byte_spec (value : UInt16) (h : BusHistory) :
    Attempts (fun _ c => c = .write2 id address value)
      (fun h' _ => Acked2 h' id address value) (write2Byte id address value) h := by
  apply attempts_retry_ask
  intro h r _ hr
  exact ⟨r, (ifOk_eq_some hr).1, List.mem_cons_self⟩

theorem read1Byte_spec (h : BusHistory) :
    Attempts (fun _ c => c = .read1 id address)
      (fun h' a => byteRead h' id address = some a) (read1Byte id address) h := by
  apply attempts_retry_ask
  intro h r a hr
  obtain ⟨hok, rfl⟩ := ifOk_eq_some hr
  apply Past.latest_cons_of_some
  exact if_pos ⟨rfl, rfl, hok⟩

theorem read4Byte_spec (h : BusHistory) :
    Attempts (fun _ c => c = .read4 id addrPresentPosition)
      (fun h' a => positionRead h' id = some a) (read4Byte id addrPresentPosition) h := by
  apply attempts_retry_ask
  intro h r a hr
  obtain ⟨hok, rfl⟩ := ifOk_eq_some hr
  apply Past.latest_cons_of_some
  exact if_pos ⟨rfl, rfl, hok⟩

theorem pingServo_spec (i : Fin 6) (h : BusHistory) :
    Attempts (fun _ c => c = .ping (servoId i)) (fun h' _ => Pinged h' (servoId i))
      (pingServo i) h := by
  apply attempts_retry_ask
  intro h r _ hr
  exact ⟨r, (ifOk_eq_some hr).1, List.mem_cons_self⟩

end Lambdas

/-! ## What is kept -/

section Keep

variable {h : BusHistory} {c : BusCommand} {r : c.Response} {i : Fin 6} {torqueEnabled : UInt8}

theorem Checked.cons (hc : ∀ address, c ≠ .read1 (servoId i) address)
    (hs : Checked h i torqueEnabled) : Checked (⟨c, r⟩ :: h) i torqueEnabled where
  torque := (byteRead_cons (hc _)).trans hs.torque
  noHardwareError := (byteRead_cons (hc _)).trans hs.noHardwareError
  positionControl := hs.positionControl.imp (byteRead_cons (hc _)).trans Acked1.cons

theorem Tuned.cons (ht : Tuned h i) : Tuned (⟨c, r⟩ :: h) i where
  positionP := ht.positionP.cons
  positionI := ht.positionI.cons
  positionD := ht.positionD.cons
  velocityP := ht.velocityP.cons
  velocityI := ht.velocityI.cons

theorem Ready.cons (hc : ∀ id address, c ≠ .read1 id address) (hr : Ready h i torqueEnabled) :
    Ready (⟨c, r⟩ :: h) i torqueEnabled where
  pinged := hr.pinged.cons
  checked := hr.checked.cons (hc _)
  watchdog := hr.watchdog.cons
  tuned := hr.tuned.cons

end Keep

theorem goalless_ping (n : UInt8) : Goalless (.ping n) := ⟨⟨nofun, id, id⟩, nofun⟩

theorem goalless_read4 (n : UInt8) (address : UInt16) : Goalless (.read4 n address) :=
  ⟨⟨nofun, id, id⟩, nofun⟩

theorem goalless_write1 (n value : UInt8) {address : UInt16} (ht : address ≠ addrTorqueEnable)
    (hm : address ≠ addrOperatingMode) : Goalless (.write1 n address value) :=
  ⟨⟨nofun, ht, hm⟩, nofun⟩

/-! ## The checks of one servo -/

/-- The command is safe and reads nothing of another servo than `i`. -/
def Own (i : Fin 6) (h : BusHistory) (c : BusCommand) : Prop :=
  Safe h c ∧ ∀ j, j ≠ i → ∀ address, c ≠ .read1 (servoId j) address

/-- It does not write TORQUE_ENABLE and sends no goals either. -/
def OwnGentle (i : Fin 6) (h : BusHistory) (c : BusCommand) : Prop :=
  Own i h c ∧ ¬ WritesRegister addrTorqueEnable c ∧ c ≠ .txPacket

theorem read1Byte_own (i : Fin 6) {address : UInt16} {F : BusHistory → Prop} {h : BusHistory}
    (hF : F h) (hkeep : ∀ h r, F h → F (⟨.read1 (servoId i) address, r⟩ :: h)) :
    Attempts (OwnGentle i) (fun h' a => byteRead h' (servoId i) address = some a ∧ F h')
      (read1Byte (servoId i) address) h := by
  refine (read1Byte_spec h).conseq hF ?_ ?_ fun h a hF ha => ⟨ha, hF⟩
  · rintro h c r hF rfl
    exact hkeep h r hF
  · rintro h c - rfl
    refine ⟨⟨⟨False.elim, False.elim⟩, ?_⟩, id, nofun⟩
    intro j hj address' heq
    injection heq with hid
    exact hj (servoId_injective hid.symm)

theorem checkServo_spec (i : Fin 6) (h : BusHistory) :
    Attempts (OwnGentle i) (fun h' a => Checked h' i a) (checkServo i) h := by
  refine attempts_bind ((read1Byte_own i (F := fun _ => True) trivial fun _ _ _ => trivial).mono ?_)
  rintro h₁ torque ⟨htorque, -⟩
  refine attempts_bind ((read1Byte_own i
    (F := fun h => byteRead h (servoId i) addrTorqueEnable = some torque) htorque ?_).mono ?_)
  · intro h r hF
    exact (byteRead_cons (by simp [addrTorqueEnable, addrOperatingMode])).trans hF
  rintro h₂ mode ⟨hmode, htorque⟩
  refine attempts_bind ((read1Byte_own i
    (F := fun h => byteRead h (servoId i) addrOperatingMode = some mode ∧
      byteRead h (servoId i) addrTorqueEnable = some torque) ⟨hmode, htorque⟩ ?_).mono ?_)
  · rintro h r ⟨hmode, htorque⟩
    constructor
    · exact (byteRead_cons (by simp [addrHardwareErrorStatus, addrOperatingMode])).trans hmode
    · exact (byteRead_cons (by simp [addrHardwareErrorStatus, addrTorqueEnable])).trans htorque
  rintro h₃ hardware ⟨hhardware, hmode, htorque⟩
  split
  · exact attempts_failure
  rename_i hnoError
  rw [not_not.mp hnoError] at hhardware
  split
  · exact attempts_failure
  rename_i hrefuse
  split
  · -- the mode is only written to a servo whose torque is off
    rename_i hoff
    have hwrite : Attempts (OwnGentle i) (fun h' _ => Checked h' i torque)
        (write1Byte (servoId i) addrOperatingMode positionControlMode) h₃ := by
      refine (write1Byte_spec positionControlMode h₃).conseq
        (F := fun h => byteRead h (servoId i) addrTorqueEnable = some torque ∧
          byteRead h (servoId i) addrHardwareErrorStatus = some 0) ⟨htorque, hhardware⟩ ?_ ?_ ?_
      · rintro h c r hF rfl
        exact ⟨(byteRead_cons (by simp)).trans hF.1, (byteRead_cons (by simp)).trans hF.2⟩
      · rintro h c hF rfl
        have htorque : ¬ WritesRegister addrTorqueEnable
            (.write1 (servoId i) addrOperatingMode positionControlMode) := by
          intro hw
          have haddress : addrOperatingMode = addrTorqueEnable := hw
          exact absurd haddress (by decide)
        refine ⟨⟨⟨fun hw => absurd hw htorque, fun _ => ⟨i, rfl, ?_⟩⟩, fun _ _ _ => nofun⟩,
          htorque, nofun⟩
        rw [hF.1, hoff.1]
      · rintro h _ hF hacked
        exact ⟨hF.1, hF.2, Or.inr hacked⟩
    exact attempts_bind (hwrite.mono fun h' _ hc => attempts_pure.mpr hc)
  · rename_i hkeep
    refine attempts_pure.mpr ⟨htorque, hhardware, Or.inl ?_⟩
    have hcontrol : mode = positionControlMode := by
      by_contra hne
      by_cases hoff : torque = torqueOff
      · exact hkeep ⟨hoff, hne⟩
      · exact hrefuse ⟨hoff, hne⟩
    rw [← hcontrol]
    exact hmode

/-! ## Before the goals are written -/

/-- A program whose commands are goalless, followed by one that needs what it has reached and what
    was known before. -/
theorem attempts_goalless_bind {α β : Type} {own : BusHistory → BusCommand → Prop}
    {reached : BusHistory → α → Prop} {post : BusHistory → β → Prop} {p : OptionT Bus α}
    {f : α → OptionT Bus β} {F : BusHistory → Prop} {h : BusHistory}
    (hp : Attempts own reached p h) (hgoalless : ∀ h c, own h c → Goalless c) (hF : F h)
    (hkept : ∀ h c r, Goalless c → F h → F (⟨c, r⟩ :: h))
    (hf : ∀ h' a, F h' → reached h' a → Attempts Gentle post (f a) h') :
    Attempts Gentle post (p >>= f) h := by
  apply attempts_bind
  apply hp.conseq hF
  · intro h c r hF hc
    exact hkept h c r (hgoalless h c hc) hF
  · intro h c _ hc
    exact (hgoalless h c hc).gentle h
  · exact hf

theorem goalless_write2 (n : UInt8) (value : UInt16) {address : UInt16}
    (h : address ∈ [addrPositionPGain, addrPositionIGain, addrPositionDGain, addrVelocityPGain,
      addrVelocityIGain]) : Goalless (.write2 n address value) := by
  simp only [List.mem_cons, List.not_mem_nil, or_false] at h
  refine ⟨⟨nofun, ?_, ?_⟩, nofun⟩
  · show ¬ (address = addrTorqueEnable ∨ address + 1 = addrTorqueEnable)
    rcases h with rfl | rfl | rfl | rfl | rfl <;> decide
  · show ¬ (address = addrOperatingMode ∨ address + 1 = addrOperatingMode)
    rcases h with rfl | rfl | rfl | rfl | rfl <;> decide

/-- The gains are written one after the other. -/
theorem writeGains_spec (i : Fin 6) (h : BusHistory) :
    Attempts (fun _ c => Goalless c) (fun h' _ => Tuned h' i) (writeGains i) h := by
  have hwrite : ∀ (address value : UInt16), address ∈ [addrPositionPGain, addrPositionIGain,
      addrPositionDGain, addrVelocityPGain, addrVelocityIGain] →
      ∀ h, Attempts (fun _ c => Goalless c) (fun h' _ => Acked2 h' (servoId i) address value)
        (write2Byte (servoId i) address value) h := by
    intro address value haddress h
    refine (write2Byte_spec value h).conseq (F := fun _ => True) trivial
      (fun _ _ _ _ _ => trivial) ?_ fun _ _ _ ha => ha
    rintro h c - rfl
    exact goalless_write2 _ _ haddress
  have hall := attempts_seq (hwrite addrPositionPGain (dxlServos i).positionP (by simp))
    (attempts_seq (hwrite addrPositionIGain (dxlServos i).positionI (by simp))
      (attempts_seq (hwrite addrPositionDGain (dxlServos i).positionD (by simp))
        (attempts_seq (hwrite addrVelocityPGain (dxlServos i).velocityP (by simp))
          (hwrite addrVelocityIGain (dxlServos i).velocityI (by simp)) fun _ _ _ ha _ => ha.cons)
        fun _ _ _ ha _ => ha.cons)
      fun _ _ _ ha _ => ha.cons)
    (fun _ _ _ ha _ => ha.cons) h
  exact hall.mono fun _ _ ⟨hpp, hpi, hpd, hvp, hvi⟩ => ⟨hpp, hpi, hpd, hvp, hvi⟩

theorem says_openAtBaudRate {q : BusCommand → Prop} (hopen : q .openPort)
    (hbaud : q .setBaudRate) : Says q Bus.openAtBaudRate := by
  refine says_ask_bind hopen fun opened => ?_
  cases opened with
  | true => exact says_ask hbaud
  | false => exact says_pure _

theorem connectPort_spec (h : BusHistory) :
    Attempts (fun _ c => Goalless c) (fun _ _ => True) connectPort h := by
  apply attempts_retry
  intro h
  refine ensures_ask_bind.mpr ⟨⟨⟨nofun, id, id⟩, nofun⟩, fun _ => ?_⟩
  refine ensures_bind.mpr ((says_openAtBaudRate ⟨⟨nofun, id, id⟩, nofun⟩
    ⟨⟨nofun, id, id⟩, nofun⟩ _).mono fun h' opened _ => ?_)
  exact fun _ _ => trivial

theorem pingServos_spec (h : BusHistory) :
    Attempts (fun _ c => Goalless c) (fun h' _ => ∀ i, Pinged h' (servoId i)) (each pingServo)
      h := by
  refine attempts_each (Q := fun i h _ => Pinged h (servoId i)) pingServo_spec ?_ ?_ h
  · intro i j _ h c r _ _ hp
    exact hp.cons
  · rintro i h c rfl
    exact goalless_ping _

theorem checkServos_spec (h : BusHistory) :
    Attempts Gentle (fun h' v => ∀ i, Checked h' i (v i)) (each checkServo) h := by
  refine attempts_each (Q := fun i h a => Checked h i a) checkServo_spec ?_ ?_ h
  · intro i j hij h c r a hc hchecked
    exact hchecked.cons (hc.1.2 j hij)
  · intro i h c hc
    exact ⟨hc.1.1, hc.2⟩

theorem clearWatchdogs_spec (h : BusHistory) :
    Attempts (fun _ c => Goalless c) (fun h' _ => ∀ i, Acked1 h' (servoId i) addrBusWatchdog 0)
      (each fun i => write1Byte (servoId i) addrBusWatchdog 0) h := by
  refine attempts_each (Q := fun i h _ => Acked1 h (servoId i) addrBusWatchdog 0)
    (fun i => write1Byte_spec 0) ?_ ?_ h
  · intro i j _ h c r _ _ ha
    exact ha.cons
  · rintro i h c rfl
    exact goalless_write1 _ _ (by decide) (by decide)

theorem writeAllGains_spec (h : BusHistory) :
    Attempts (fun _ c => Goalless c) (fun h' _ => ∀ i, Tuned h' i) (each writeGains) h := by
  refine attempts_each (Q := fun i h _ => Tuned h i) writeGains_spec ?_ ?_ h
  · intro i j _ h c r _ _ ht
    exact ht.cons
  · intro i h c hc
    exact hc

theorem readPositions_spec (h : BusHistory) :
    Attempts (fun _ c => Goalless c) (fun h' v => ∀ i, positionRead h' (servoId i) = some (v i))
      (each fun i => read4Byte (servoId i) addrPresentPosition) h := by
  refine attempts_each (Q := fun i h a => positionRead h (servoId i) = some a)
    (fun i => read4Byte_spec) ?_ ?_ h
  · rintro i j hij h c r a rfl hp
    refine (positionRead_cons ?_).trans hp
    intro heq
    injection heq with hid
    exact hij (servoId_injective hid.symm)
  · rintro i h c rfl
    exact goalless_read4 _ _

/-- What is known once all servos are prepared. -/
structure Prepared (h : BusHistory) (torqueEnabled : Fin 6 → UInt8) (goal : Fin 6 → UInt32) :
    Prop where
  ready : ∀ i, Ready h i (torqueEnabled i)
  position : ∀ i, positionRead h (servoId i) = some (goal i)

/-- What is known of every servo once its watchdog is cleared. -/
structure Cleared (h : BusHistory) (torqueEnabled : Fin 6 → UInt8) : Prop where
  pinged : ∀ i, Pinged h (servoId i)
  checked : ∀ i, Checked h i (torqueEnabled i)
  watchdog : ∀ i, Acked1 h (servoId i) addrBusWatchdog 0

theorem prepare_spec (h : BusHistory) :
    Attempts Gentle (fun h' x => Prepared h' x.1 fun i => (x.2 i).toUInt32) prepare h := by
  have hask : ∀ {c : BusCommand} {post : BusHistory → c.Response → Prop} {h : BusHistory},
      Goalless c → (∀ h' a, post h' a) → Attempts Gentle post (OptionT.lift (ask c)) h := by
    intro c post h hc hpost
    exact attempts_lift.mpr (ensures_ask.mpr ⟨hc.gentle h, fun r => hpost _ r⟩)
  refine attempts_bind (hask ⟨⟨nofun, id, id⟩, nofun⟩ fun h port => ?_)
  refine attempts_bind (hask ⟨⟨nofun, id, id⟩, nofun⟩ fun h packet => ?_)
  split
  · exact attempts_failure
  refine attempts_goalless_bind (F := fun _ => True) (connectPort_spec h) (fun _ _ hc => hc) trivial
    (fun _ _ _ _ _ => trivial) fun h _ _ _ => ?_
  refine attempts_goalless_bind (F := fun _ => True) (pingServos_spec h) (fun _ _ hc => hc) trivial
    (fun _ _ _ _ _ => trivial) fun h _ _ hpinged => ?_
  -- the checks may write, so they are only gentle
  refine attempts_bind (((checkServos_spec h).keeping (F := fun h => ∀ i, Pinged h (servoId i))
    hpinged fun _ _ _ hp _ i => (hp i).cons).mono ?_)
  rintro h torqueEnabled ⟨hpinged, hchecked⟩
  refine attempts_goalless_bind
    (F := fun h => (∀ i, Pinged h (servoId i)) ∧ ∀ i, Checked h i (torqueEnabled i))
    (clearWatchdogs_spec h) (fun _ _ hc => hc) ⟨hpinged, hchecked⟩ ?_ ?_
  · rintro h c r hc ⟨hp, hs⟩
    exact ⟨fun i => (hp i).cons, fun i => (hs i).cons (hc.noRead _)⟩
  rintro h _ ⟨hpinged, hchecked⟩ hwatchdog
  refine attempts_goalless_bind (F := fun h => Cleared h torqueEnabled) (writeAllGains_spec h)
    (fun _ _ hc => hc) ⟨hpinged, hchecked, hwatchdog⟩ ?_ ?_
  · intro h c r hc hF
    exact ⟨fun i => (hF.pinged i).cons, fun i => (hF.checked i).cons (hc.noRead _),
      fun i => (hF.watchdog i).cons⟩
  intro h _ hcleared htuned
  have hready : ∀ i, Ready h i (torqueEnabled i) := fun i =>
    ⟨hcleared.pinged i, hcleared.checked i, hcleared.watchdog i, htuned i⟩
  refine attempts_goalless_bind (F := fun h => ∀ i, Ready h i (torqueEnabled i))
    (readPositions_spec h) (fun _ _ hc => hc) hready ?_ ?_
  · intro h c r hc hr i
    exact (hr i).cons hc.noRead
  intro h values hready hvalues
  exact attempts_pure.mpr ⟨hready, hvalues⟩

/-! ## Writing the goals -/

theorem Prepared.cons {h : BusHistory} {c : BusCommand} {r : c.Response}
    {torqueEnabled : Fin 6 → UInt8} {goal : Fin 6 → UInt32}
    (hbyte : ∀ id address, c ≠ .read1 id address)
    (hposition : ∀ id address, c ≠ .read4 id address) (hp : Prepared h torqueEnabled goal) :
    Prepared (⟨c, r⟩ :: h) torqueEnabled goal where
  ready i := (hp.ready i).cons hbyte
  position i := (positionRead_cons (hposition _ _)).trans (hp.position i)

/-- Every goal that is added is the next one. -/
theorem addGoals_spec (goal : Fin 6 → Int32) {h : BusHistory} (hempty : syncParams h = []) :
    Attempts (fun _ c => Quiet c)
      (fun h' _ => syncParams h' = goalParams fun i => (goal i).toUInt32) (addGoals goal) h := by
  have hlength : (goalParams fun i => (goal i).toUInt32).length = 6 := List.length_ofFn
  have hloop : Attempts (fun _ c => Quiet c)
      (fun h' _ => syncParams h' = (goalParams fun i => (goal i).toUInt32).take 6)
      (addGoals goal) h := by
    apply attempts_each_count
      (J := fun k h => syncParams h = (goalParams fun i => (goal i).toUInt32).take k) ?_ hempty
    intro i h hparams
    refine ensures_ask_bind.mpr ⟨⟨⟨nofun, id, id⟩, nofun⟩, fun added => ?_⟩
    cases added with
    | false => exact fun _ ha => nomatch ha
    | true =>
      intro _ _
      show syncParams h ++ [(servoId i, goalData (goal i).toUInt32)] = _
      have hlt : (i : ℕ) < (goalParams fun i => (goal i).toUInt32).length := by omega
      have hget : (goalParams fun i => (goal i).toUInt32)[(i : ℕ)] =
          (servoId i, goalData (goal i).toUInt32) := List.getElem_ofFn hlt
      rw [hparams, List.take_succ_eq_append_getElem hlt, hget]
  refine hloop.mono fun h' _ hparams => ?_
  rw [hparams, List.take_of_length_le hlength.le]

theorem quiet_txPacket : Quiet .txPacket where
  noRead := nofun
  noTorque := by
    rintro ⟨hle, -⟩
    exact absurd hle (by decide)
  noMode := by
    rintro ⟨hle, -⟩
    exact absurd hle (by decide)
  noPosition := nofun

theorem reopenPortAfterFailure_spec (s : PortRecovery) (h : BusHistory) :
    (reopenPortAfterFailure s).Ensures (fun _ c => Quiet c) (fun _ _ => True) h := by
  refine ensures_ask_bind.mpr ⟨⟨⟨nofun, id, id⟩, nofun⟩, fun now => ?_⟩
  split
  · trivial
  refine ensures_ask_bind.mpr ⟨⟨⟨nofun, id, id⟩, nofun⟩, fun _ => ?_⟩
  refine ensures_bind.mpr ((says_openAtBaudRate ⟨⟨nofun, id, id⟩, nofun⟩
    ⟨⟨nofun, id, id⟩, nofun⟩ _).mono fun h' opened _ => ?_)
  cases opened with
  | false => trivial
  | true =>
    have hloop : Attempts (fun _ c => Quiet c) (fun _ _ => True)
        (each fun i => OptionT.lift (Bus.write1 (servoId i) addrBusWatchdog 0)) h' := by
      refine attempts_each_count (J := fun _ _ => True) (fun i h _ => ?_) trivial
      refine attempts_lift.mpr (And.intro ?_ fun _ => trivial)
      exact ⟨(goalless_write1 _ _ (by decide) (by decide)).toPlain, nofun⟩
    exact ensures_bind.mpr (Ensures.mono hloop fun _ _ _ => trivial)

/-- If `write_goal` succeeds, it has sent the goals. -/
theorem writeGoal_spec (s : PortRecovery) (goal : Fin 6 → Int32) (h : BusHistory) :
    (writeGoal s goal).Ensures (fun _ c => Quiet c)
      (fun h' r => r.2 = true → Sent h' (goalParams fun i => (goal i).toUInt32)) h := by
  refine ensures_ask_bind.mpr ⟨⟨⟨nofun, id, id⟩, nofun⟩, fun _ => ?_⟩
  refine ensures_bind.mpr (Ensures.mono (addGoals_spec goal rfl) ?_)
  intro h' added hadded
  cases added with
  | none => exact And.intro ⟨⟨nofun, id, id⟩, nofun⟩ fun _ => nofun
  | some v =>
    have hparams := hadded v rfl
    refine ensures_ask_bind.mpr ⟨quiet_txPacket, fun result => ?_⟩
    refine ensures_ask_bind.mpr ⟨⟨⟨nofun, id, id⟩, nofun⟩, fun _ => ?_⟩
    split
    · exact ensures_bind.mpr ((reopenPortAfterFailure_spec s _).mono fun _ _ _ => nofun)
    · rename_i hresult
      intro _
      rw [not_not] at hresult
      refine ⟨h', ?_, hparams⟩
      rw [hresult]
      exact List.suffix_cons _ _

/-! ## Switching on -/

/-- Every servo that is off is switched on and acknowledges it. -/
theorem enableTorque_spec (torqueEnabled : Fin 6 → UInt8) (h : BusHistory) :
    Attempts
      (fun _ c => ∃ i, torqueEnabled i = torqueOff ∧
        c = .write1 (servoId i) addrTorqueEnable torqueOn)
      (fun h' _ => ∀ i, torqueEnabled i = torqueOff →
        Acked1 h' (servoId i) addrTorqueEnable torqueOn)
      (enableTorque torqueEnabled) h := by
  have hstep : ∀ i h, Attempts
      (fun _ c => torqueEnabled i = torqueOff ∧ c = .write1 (servoId i) addrTorqueEnable torqueOn)
      (fun h' _ => torqueEnabled i = torqueOff → Acked1 h' (servoId i) addrTorqueEnable torqueOn)
      (if torqueEnabled i = torqueOff then write1Byte (servoId i) addrTorqueEnable torqueOn
        else pure ()) h := by
    intro i h
    split
    · rename_i hoff
      refine (write1Byte_spec torqueOn h).conseq (F := fun _ => True) trivial
        (fun _ _ _ _ _ => trivial) ?_ fun _ _ _ ha _ => ha
      rintro h c - rfl
      exact ⟨hoff, rfl⟩
    · rename_i hon
      exact attempts_pure.mpr fun hoff => absurd hoff hon
  refine attempts_each (Q := fun i h _ => torqueEnabled i = torqueOff →
    Acked1 h (servoId i) addrTorqueEnable torqueOn) hstep ?_ ?_ h
  · intro i j _ h c r _ _ ha hoff
    exact (ha hoff).cons
  · rintro i h c hc
    exact ⟨i, hc⟩

/-- What is known when the torque is switched on. -/
structure Held (h : BusHistory) (torqueEnabled : Fin 6 → UInt8) (goal : Fin 6 → UInt32) :
    Prop extends Prepared h torqueEnabled goal where
  sent : Sent h (goalParams goal)

theorem holdAndEnable_spec {torqueEnabled : Fin 6 → UInt8} {initialPpr : Fin 6 → Int32}
    {h : BusHistory} (hp : Prepared h torqueEnabled fun i => (initialPpr i).toUInt32) :
    Attempts Safe
      (fun h' _ => ∀ i, byteRead h' (servoId i) addrTorqueEnable = some torqueOff →
        Acked1 h' (servoId i) addrTorqueEnable torqueOn)
      (holdAndEnable torqueEnabled initialPpr) h := by
  refine attempts_bind (attempts_lift.mpr ((writeGoal_spec _ initialPpr h).conseq
    (F := fun h => Prepared h torqueEnabled fun i => (initialPpr i).toUInt32) hp
    (fun _ _ _ hp hc => hp.cons hc.noRead hc.noPosition) (fun h _ _ hc => hc.toPlain.safe h) ?_))
  rintro h₁ ⟨s, held⟩ hp hsent
  cases held with
  | false => exact attempts_failure
  | true =>
    have hheld : Held h₁ torqueEnabled fun i => (initialPpr i).toUInt32 := ⟨hp, hsent rfl⟩
    refine attempts_bind ((enableTorque_spec torqueEnabled h₁).conseq
      (F := fun h => Held h torqueEnabled fun i => (initialPpr i).toUInt32) hheld ?_ ?_ ?_)
    · rintro h c r hF ⟨i, -, rfl⟩
      exact ⟨hF.toPrepared.cons nofun nofun, hF.sent.cons⟩
    · rintro h c hF ⟨i, hoff, rfl⟩
      refine ⟨fun _ => ⟨i, rfl, ?_, ?_, ?_⟩, ?_⟩
      · rw [(hF.ready i).checked.torque, hoff]
      · intro j
        exact ⟨torqueEnabled j, hF.ready j⟩
      · exact ⟨_, hF.position, hF.sent⟩
      · intro hw
        have haddress : addrTorqueEnable = addrOperatingMode := hw
        exact absurd haddress (by decide)
    · intro h _ hF hacked
      refine attempts_pure.mpr fun i hread => hacked i ?_
      rw [(hF.ready i).checked.torque] at hread
      exact Option.some.inj hread

/-- Whatever the bus answers, every command of the startup is safe, and if it returns, every servo
    that was read as off has acknowledged that its torque is on. -/
theorem torque_safety (answer : BusHistory → ∀ c : BusCommand, c.Response) :
    let result := initialSetting.run.run answer []
    (∀ later exchange before, result.1 = later ++ exchange :: before →
        Safe before exchange.command) ∧
      (result.2.isSome → ∀ i, byteRead result.1 (servoId i) addrTorqueEnable = some torqueOff →
        Acked1 result.1 (servoId i) addrTorqueEnable torqueOn) := by
  have hspec : Attempts Safe
      (fun h' _ => ∀ i, byteRead h' (servoId i) addrTorqueEnable = some torqueOff →
        Acked1 h' (servoId i) addrTorqueEnable torqueOn) initialSetting [] := by
    refine attempts_bind ((prepare_spec []).conseq (F := fun _ => True) trivial
      (fun _ _ _ _ _ => trivial) (fun _ _ _ hc => hc.1) ?_)
    rintro h ⟨torqueEnabled, initialPpr⟩ - hp
    exact attempts_bind ((holdAndEnable_spec hp).mono fun h' _ hacked => attempts_pure.mpr hacked)
  obtain ⟨hissued, hpost⟩ := Ensures.sound hspec answer trivial
  refine ⟨Past.always_iff_append.mp hissued, ?_⟩
  intro hsome
  obtain ⟨initialPpr, hresult⟩ := Option.isSome_iff_exists.mp hsome
  exact hpost initialPpr hresult

end Px4ServoToDynamixel

end Hummingbird
