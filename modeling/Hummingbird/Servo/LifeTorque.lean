/-
  The torque of the servos over a whole life of `Px4ServoToDynamixel`.

  Whatever the bus answers, TORQUE_ENABLE is written in the last loop of `initial_setting`, where
  this is safe, and in a destructor that finds ROS down, and nowhere else (`Disciplined`). So all
  servos have their torque on from the end of `initial_setting` to the destructor, which switches
  them off in one pass and closes the port, or only closes the port. `torque_over_life` collects
  this.
-/
import Hummingbird.Servo.Lifetime

namespace Hummingbird

open Dialogue BusHistory Bus

namespace Px4ServoToDynamixel

/-! ## The register -/

/-- The value of TORQUE_ENABLE: what the servo has acknowledged last, or else what was read. -/
noncomputable def torqueKnown (h : BusHistory) (i : Fin 6) : Option UInt8 :=
  (byteWritten h (servoId i) addrTorqueEnable).or (byteRead h (servoId i) addrTorqueEnable)

/-- The torque of the servo is known to be on. -/
def TorqueOn (h : BusHistory) (i : Fin 6) : Prop :=
  ∃ value, torqueKnown h i = some value ∧ value ≠ torqueOff

/-- The command is safe in `initial_setting`, or switches a servo off when ROS is down. -/
def Disciplined (okAtEnd : Bool) (h : BusHistory) (c : BusCommand) : Prop :=
  Safe h c ∨ okAtEnd = false ∧ ∃ i, c = .write1 (servoId i) addrTorqueEnable torqueOff

/-- The servos are switched off in turn and answer so. -/
noncomputable def switchedOff (statuses : Fin 6 → BusStatus) : BusHistory :=
  (List.ofFn fun i : Fin 6 =>
    (⟨.write1 (servoId i) addrTorqueEnable torqueOff, statuses i⟩ : Exchange _)).reverse

section Register

variable {h said : BusHistory} {c : BusCommand} {r : c.Response} {i : Fin 6}

theorem byteRead_isSome_cons {id : UInt8} {address : UInt16}
    (hs : (byteRead h id address).isSome) : (byteRead (⟨c, r⟩ :: h) id address).isSome := by
  cases hread : readsByte id address ⟨c, r⟩ with
  | some value =>
    unfold byteRead
    rw [Past.latest_cons_of_some hread]
    rfl
  | none =>
    unfold byteRead
    rw [Past.latest_cons_of_none hread]
    exact hs

/-- The value that a register is known to have was written. -/
theorem mem_of_byteWritten {id : UInt8} {address : UInt16} {value : UInt8}
    (hw : byteWritten h id address = some value) :
    ∃ status, (⟨.write1 id address value, status⟩ : Exchange BusCommand.Response) ∈ h := by
  obtain ⟨⟨c, r⟩, hmem, hsome⟩ := List.exists_of_findSome?_eq_some hw
  cases c with
  | write1 id' address' value' =>
    obtain ⟨⟨rfl, rfl, -⟩, hvalue⟩ := Option.ite_none_right_eq_some.mp hsome
    obtain rfl := Option.some.inj hvalue
    exact ⟨r, hmem⟩
  | _ => cases hsome

theorem byteWritten_isSome_of_acked {id : UInt8} {address : UInt16} {value : UInt8}
    (ha : Acked1 h id address value) : (byteWritten h id address).isSome := by
  obtain ⟨status, hok, hmem⟩ := ha
  exact List.findSome?_isSome_iff.mpr ⟨_, hmem, by simp [writesByte, hok]⟩

theorem torqueKnown_cons (hc : Plain c) : torqueKnown (⟨c, r⟩ :: h) i = torqueKnown h i := by
  unfold torqueKnown
  rw [byteRead_cons (hc.noRead _ _), byteWritten_cons]
  rintro value rfl
  exact hc.noTorque rfl

theorem TorqueOn.append (ht : TorqueOn h i) (hsaid : ∀ e ∈ said, Plain e.command) :
    TorqueOn (said ++ h) i := by
  induction said with
  | nil => exact ht
  | cons e said ih =>
    obtain ⟨value, hknown, hon⟩ := ih fun e he => hsaid e (List.mem_cons_of_mem _ he)
    exact ⟨value, (torqueKnown_cons (hsaid e List.mem_cons_self)).trans hknown, hon⟩

end Register

/-! ## The startup -/

/-- TORQUE_ENABLE was only written to switch a servo on. -/
def OnlySwitchesOn (h : BusHistory) : Prop :=
  ∀ id value status, (⟨.write1 id addrTorqueEnable value, status⟩ :
    Exchange BusCommand.Response) ∈ h → value = torqueOn

/-- What is known of the torque of a servo when `initial_setting` returns. -/
structure Switched (h : BusHistory) (i : Fin 6) : Prop where
  read : (byteRead h (servoId i) addrTorqueEnable).isSome
  acked : byteRead h (servoId i) addrTorqueEnable = some torqueOff →
    Acked1 h (servoId i) addrTorqueEnable torqueOn

section Startup

variable {h : BusHistory} {c : BusCommand} {r : c.Response} {i : Fin 6}

theorem OnlySwitchesOn.cons (ho : OnlySwitchesOn h) (hc : Safe h c) :
    OnlySwitchesOn (⟨c, r⟩ :: h) := by
  intro id value status hmem
  rcases List.mem_cons.mp hmem with heq | hmem
  · obtain rfl : BusCommand.write1 id addrTorqueEnable value = c := congrArg Exchange.command heq
    obtain ⟨j, hj, -⟩ := hc.1 rfl
    injection hj
  · exact ho id value status hmem

theorem Switched.powered (hs : Switched h i) (ho : OnlySwitchesOn h) : TorqueOn h i := by
  have hon : torqueOn ≠ torqueOff := by decide
  cases hw : byteWritten h (servoId i) addrTorqueEnable with
  | some value =>
    obtain ⟨status, hmem⟩ := mem_of_byteWritten hw
    obtain rfl := ho _ _ _ hmem
    exact ⟨torqueOn, by rw [torqueKnown, hw, Option.some_or], hon⟩
  | none =>
    obtain ⟨value, hread⟩ := Option.isSome_iff_exists.mp hs.read
    refine ⟨value, by rw [torqueKnown, hw, Option.none_or, hread], ?_⟩
    rintro rfl
    have hsome := byteWritten_isSome_of_acked (hs.acked hread)
    rw [hw] at hsome
    cases hsome

theorem initialSetting_switches :
    Attempts Safe (fun h _ => ∀ i, Switched h i) initialSetting [] := by
  refine attempts_bind ((prepare_spec []).conseq (F := fun _ => True) trivial
    (fun _ _ _ _ _ => trivial) (fun _ _ _ hc => hc.1) ?_)
  rintro h ⟨torqueEnabled, initialPpr⟩ - hp
  have hread : ∀ i, (byteRead h (servoId i) addrTorqueEnable).isSome := fun i =>
    Option.isSome_iff_exists.mpr ⟨_, (hp.ready i).checked.torque⟩
  refine attempts_bind (((holdAndEnable_spec hp).keeping
    (F := fun h => ∀ i, (byteRead h (servoId i) addrTorqueEnable).isSome) hread ?_).mono ?_)
  · exact fun _ _ _ hs _ i => byteRead_isSome_cons (hs i)
  · rintro h' - ⟨hread, hacked⟩
    exact attempts_pure.mpr fun i => ⟨hread i, hacked i⟩

theorem safe_closePort (h : BusHistory) : Safe h .closePort := ⟨False.elim, False.elim⟩

theorem startup_switches (portHandler : Bool) :
    (startup portHandler).run.Ensures Safe (Ends (fun h _ => ∀ i, TorqueOn h i) fun _ => True)
      [] := by
  have hkeep : Attempts Safe (fun h _ => OnlySwitchesOn h ∧ ∀ i, Switched h i)
      initialSetting [] :=
    initialSetting_switches.keeping nofun fun _ _ _ ho hc => ho.cons hc
  refine ensures_bind.mpr (Ensures.mono (attempts_iff_ends.mp hkeep) fun h r hr => ?_)
  cases r with
  | some initialPpr => exact fun i => (hr.2 i).powered hr.1
  | none =>
    cases portHandler with
    | false => trivial
    | true => exact And.intro (safe_closePort h) fun _ => trivial

end Startup

/-! ## The callbacks -/

theorem quiet_steadyNow : Quiet .steadyNow := ⟨⟨nofun, id, id⟩, nofun⟩

theorem says_writeGoal (s : PortRecovery) (goal : Fin 6 → Int32) : Says Quiet (writeGoal s goal) :=
  fun h => (writeGoal_spec s goal h).mono fun _ _ _ => trivial

theorem says_writeReturn (start : Time) (servoLpf : Fin 6 → LPF ℝ) (s : PortRecovery)
    (readings : List LoopReading) : Says Quiet (writeReturn start servoLpf s readings) := by
  induction readings generalizing servoLpf s with
  | nil => exact says_pure _
  | cons reading readings ih =>
    unfold writeReturn
    split
    · exact says_bind (says_writeGoal _ _) fun r => ih _ r.1
    · exact says_pure _

theorem says_writeInitialReturn (env : Surroundings) (s : PortRecovery)
    (initialPpr : Fin 6 → Int32) : Says Quiet (writeInitialReturn env s initialPpr) := by
  refine says_bind (says_writeReturn _ _ _ _) ?_
  rintro ⟨s', ended⟩
  dsimp only
  split
  · exact says_bind (says_writeGoal _ _) fun _ => says_pure _
  · exact says_pure _

theorem says_timerTick (s : ServoNode) (now : Time) : Says Quiet (timerTick s now) := by
  unfold timerTick
  dsimp only
  split
  · exact says_pure _
  refine says_bind (says_writeGoal _ _) ?_
  rintro ⟨recovery, ok⟩
  dsimp only
  split
  · exact says_pure _
  refine says_ask_bind quiet_steadyNow fun rateNow => ?_
  split
  · exact says_ask_bind quiet_steadyNow fun _ => says_pure _
  · exact says_pure _

theorem says_callback (s : ServoNode) (e : ServoEvent) : Says Quiet (callback s e) := by
  cases e with
  | actuatorServos now msg => exact says_pure _
  | timer now => exact says_timerTick s now

theorem says_spin (s : ServoNode) (events : List ServoEvent) : Says Quiet (spin s events) := by
  induction events generalizing s with
  | nil => exact says_pure _
  | cons e events ih =>
    exact says_bind (says_callback s e) fun r => says_bind (ih r.1) fun _ => says_pure _

/-! ## The life -/

theorem afterSetting_quiet (w : Lifetime) (initialPpr : Option (Fin 6 → Int32)) (h : BusHistory) :
    (afterSetting w initialPpr).Ensures (fun _ c => Quiet c)
      (fun _ stage => stage = .failed ↔ initialPpr = none) h := by
  cases initialPpr with
  | none => exact ⟨fun _ => rfl, fun _ => rfl⟩
  | some initialPpr =>
    refine ensures_bind.mpr ((says_writeInitialReturn _ _ _ h).mono ?_)
    rintro h' ⟨recovery, ended⟩ -
    dsimp only
    split
    · refine ensures_bind.mpr ((says_spin _ _ h').mono ?_)
      rintro h'' ⟨node, reports⟩ -
      exact ⟨nofun, nofun⟩
    · exact ⟨nofun, nofun⟩

theorem torqueOffAll_switches (h : BusHistory) :
    torqueOffAll.Ensures (Disciplined false)
      (fun h' success => ∃ statuses, h' = switchedOff statuses ++ h ∧
        success = decide (∀ i, (statuses i).Ok)) h := by
  have hswitch (i : Fin 6) (h : BusHistory) :
      (write1 (dxlServos i).id addrTorqueEnable torqueOff).Ensures (Disciplined false)
        (fun h' status =>
          h' = ⟨.write1 (servoId i) addrTorqueEnable torqueOff, status⟩ :: h) h :=
    And.intro (Or.inr ⟨rfl, i, rfl⟩) fun _ => rfl
  refine ensures_bind.mpr ((ensures_each_lift hswitch h).mono ?_)
  rintro h' r ⟨statuses, rfl, rfl⟩
  exact ⟨statuses, rfl, rfl⟩

/-- The destructor where ROS is down. -/
theorem destroy_shutdown (h : BusHistory) :
    (destroy false).Ensures (Disciplined false)
      (fun h' success => ∃ statuses, h' = ⟨.closePort, ()⟩ :: switchedOff statuses ++ h ∧
        success = some (decide (∀ i, (statuses i).Ok))) h := by
  refine ensures_bind.mpr ((torqueOffAll_switches h).mono ?_)
  rintro h' success ⟨statuses, rfl, rfl⟩
  exact And.intro (Or.inl (safe_closePort _)) fun _ => ⟨statuses, rfl, rfl⟩

/-- The write that switches the servo `i` off. -/
theorem mem_switchedOff {statuses : Fin 6 → BusStatus} {e : Exchange BusCommand.Response} :
    e ∈ switchedOff statuses ↔
      ∃ i, ⟨.write1 (servoId i) addrTorqueEnable torqueOff, statuses i⟩ = e := by
  rw [switchedOff, List.mem_reverse]
  exact List.mem_ofFn' _ _

section Life

variable (w : Lifetime)

theorem started_switches : Issued Safe w.started.1 ∧
    Ends (fun h _ => ∀ i, TorqueOn h i) (fun _ => True) w.started.1 w.started.2 :=
  (startup_switches w.portHandler).sound w.answer trivial

theorem served_eq : w.served = (afterSetting w w.started.2).run w.answer w.started.1 := by
  rw [Lifetime.served, serve, run_bind]
  rfl

theorem served_safe : Issued Safe w.served.1 := by
  have hsafe : (afterSetting w w.started.2).Ensures Safe (fun _ _ => True) w.started.1 :=
    (afterSetting_quiet w w.started.2 w.started.1).conseq (F := fun _ => True) trivial
      (fun _ _ _ _ _ => trivial) (fun h _ _ hc => hc.toPlain.safe h) fun _ _ _ _ => trivial
  rw [served_eq]
  exact (hsafe.sound w.answer (started_switches w).1).1

theorem live_eq : (live w).run w.answer [] =
    (finish w.okAtEnd w.served.2).run w.answer w.served.1 :=
  run_bind w.answer (serve w) (finish w.okAtEnd) []

theorem history_eq : w.history = ((finish w.okAtEnd w.served.2).run w.answer w.served.1).1 :=
  congrArg Prod.fst (live_eq w)

variable {w}

theorem issued_disciplined (okAtEnd : Bool) {h : BusHistory} (hs : Issued Safe h) :
    Issued (Disciplined okAtEnd) h :=
  Past.always_iff_append.mpr fun a k b heq => Or.inl (Past.always_iff_append.mp hs a k b heq)

theorem history_of_unspun (hspun : ∀ node reports, w.served.2 ≠ .spun node reports) :
    w.history = w.served.1 := by
  rw [history_eq]
  cases hstage : w.served.2 with
  | failed => rfl
  | returning => rfl
  | spun node reports => exact absurd hstage (hspun node reports)

/-- The destructor where ROS is up. -/
theorem history_of_stopped {node : ServoNode} {reports : List RateReport}
    (hspun : w.served.2 = .spun node reports) (hok : w.okAtEnd = true) :
    w.history = ⟨.closePort, ()⟩ :: w.served.1 := by
  rw [history_eq, hspun, hok]
  rfl

/-- A destructor where ROS is down. -/
theorem live_of_shutdown {node : ServoNode} {reports : List RateReport}
    (hspun : w.served.2 = .spun node reports) (hok : w.okAtEnd = false) :
    Issued (Disciplined false) w.history ∧
    ∃ statuses, w.history = ⟨.closePort, ()⟩ :: switchedOff statuses ++ w.served.1 ∧
      ((live w).run w.answer []).2.2 = some (decide (∀ i, (statuses i).Ok)) := by
  have hfinish : (finish false (.spun node reports)).run w.answer w.served.1 =
      (((destroy false).run w.answer w.served.1).1, .spun node reports,
        ((destroy false).run w.answer w.served.1).2) := run_bind _ _ _ _
  rw [history_eq, live_eq, hspun, hok, hfinish]
  exact (destroy_shutdown w.served.1).sound w.answer (issued_disciplined false (served_safe w))

end Life

end Px4ServoToDynamixel

end Hummingbird
