/-
  What a life of `Px4ServoToDynamixel` transmits.

  `goalsHanded` lists the goals of a run without the bus. `Transmits h₀ goals h` says that the
  history has grown from `h₀` to `h` while these goals were handed to `write_goal`: the packets
  that were sent in between carry some of the goals, in their order, and all of them unless the
  SDK has refused a parameter. Each program of a life transmits the goals that its counterpart in
  `JointRange` lists, so a life transmits `goalsHanded` (`life_transmits`).
-/
import Hummingbird.Servo.LifeTorque
import Hummingbird.Servo.WriteCall

namespace Hummingbird

open Dialogue BusHistory Bus

namespace Px4ServoToDynamixel

/-! ## Packets -/

/-- The parameters of every sync write that was transmitted, oldest first. -/
def packets : BusHistory → List (List (UInt8 × (Fin 4 → UInt8)))
  | [] => []
  | ⟨.txPacket, _⟩ :: h => packets h ++ [syncParams h]
  | _ :: h => packets h

/-- The SDK has refused a parameter. -/
def Refused (h : BusHistory) : Prop :=
  ∃ id data, (⟨.addParam id data, false⟩ : BusExchange) ∈ h

/-- These goals were handed to `write_goal` while the history has grown. -/
structure Transmits (h₀ : BusHistory) (goals : List GoalPpr) (h : BusHistory) : Prop where
  grows : h₀ <:+ h
  sends : ∃ new sent, packets h = packets h₀ ++ new ∧ List.Forall₂ Carries new sent ∧
    sent.Sublist goals ∧ (¬ Refused h → sent = goals)

section Packets

variable {a h h₀ h₁ h₂ : BusHistory} {goal : Fin 6 → Int32} {goals goals' : List GoalPpr}

theorem packets_append_of_ne (ha : ∀ e ∈ a, e.command ≠ .txPacket) :
    packets (a ++ h) = packets h := by
  induction a with
  | nil => rfl
  | cons e a ih =>
    obtain ⟨c, r⟩ := e
    have hrest := ih fun e he => ha e (List.mem_cons_of_mem _ he)
    cases c with
    | txPacket => exact absurd rfl (ha _ List.mem_cons_self)
    | _ => exact hrest

theorem packets_transmission (goal : Fin 6 → Int32) (result : ℤ) (h : BusHistory) :
    packets (transmission goal result ++ h) =
      packets h ++ [goalParams fun i => (goal i).toUInt32] := by
  have hadded : packets (goalsAdded goal 6 ++ h) = packets h :=
    packets_append_of_ne fun _ he => ne_txPacket_of_mem_goalsAdded he
  show packets (goalsAdded goal 6 ++ h) ++ [_] = _
  rw [hadded]
  rfl

theorem Refused.of_suffix (hr : Refused h₀) (hs : h₀ <:+ h) : Refused h := by
  obtain ⟨id, data, hmem⟩ := hr
  exact ⟨id, data, hs.subset hmem⟩

theorem asInt32_toInt {goal : GoalPpr} (hg : InJointRange goal) (i : Fin 6) :
    (asInt32 goal i).toInt = goal i := by
  obtain ⟨-, hmin, hmax, -⟩ := dxlServos_range i
  have hmem := hg i
  rw [hmin, hmax] at hmem
  exact Int32.toInt_ofInt_of_le (by linarith [hmem.1]) (by linarith [hmem.2])

/-! ## Growing histories -/

theorem Transmits.refl (h : BusHistory) : Transmits h [] h :=
  ⟨List.suffix_rfl, [], [], (List.append_nil _).symm, .nil, .slnil, fun _ => rfl⟩

theorem Transmits.trans (h₀₁ : Transmits h₀ goals h₁) (h₁₂ : Transmits h₁ goals' h₂) :
    Transmits h₀ (goals ++ goals') h₂ := by
  obtain ⟨hgrows, new, sent, hnew, hcarries, hsub, hall⟩ := h₀₁
  obtain ⟨hgrows', new', sent', hnew', hcarries', hsub', hall'⟩ := h₁₂
  refine ⟨hgrows.trans hgrows', new ++ new', sent ++ sent', ?_, ?_, hsub.append hsub', ?_⟩
  · rw [hnew', hnew, List.append_assoc]
  · exact List.rel_append hcarries hcarries'
  · intro hr
    rw [hall fun hr' => hr (hr'.of_suffix hgrows'), hall' hr]

/-- What is said without a transmission. -/
theorem Transmits.silent (ha : ∀ e ∈ a, e.command ≠ .txPacket) : Transmits h [] (a ++ h) :=
  ⟨List.suffix_append a h, [], [], (packets_append_of_ne ha).trans (List.append_nil _).symm, .nil,
    .slnil, fun _ => rfl⟩

/-- A packet, and what is said after it. -/
theorem Transmits.packet {goal' : GoalPpr} {result : ℤ} (hg : ∀ i, (goal i).toInt = goal' i)
    (ha : ∀ e ∈ a, e.command ≠ .txPacket) :
    Transmits h [goal'] (a ++ (transmission goal result ++ h)) := by
  refine ⟨?_, [goalParams fun i => (goal i).toUInt32], [goal'], ?_, ?_, .refl _, fun _ => rfl⟩
  · exact (List.suffix_append _ h).trans (List.suffix_append a _)
  · rw [packets_append_of_ne ha, packets_transmission]
  · refine .cons ?_ .nil
    rw [← funext hg]
    exact carries_goalParams goal

/-- A call that the SDK has refused a parameter. -/
theorem Transmits.of_refused {goal' : GoalPpr} (ha : ∀ e ∈ a, e.command ≠ .txPacket)
    (hr : Refused (a ++ h)) : Transmits h [goal'] (a ++ h) :=
  ⟨List.suffix_append a h, [], [], (packets_append_of_ne ha).trans (List.append_nil _).symm, .nil,
    List.nil_sublist _, fun hnot => absurd hr hnot⟩

end Packets

/-! ## The calls of `write_goal` -/

section Calls

variable {s s' : PortRecovery} {goal : Fin 6 → Int32} {goal' : GoalPpr} {said h : BusHistory}
  {ok : Bool}

theorem WriteBranch.transmits (hb : WriteBranch s goal said s' ok) (hne : said ≠ [])
    (hg : ∀ i, (goal i).toInt = goal' i) : Transmits h [goal'] (said ++ h) := by
  cases hb with
  | unset => exact absurd rfl hne
  | refused i data =>
    refine .of_refused ?_ ⟨servoId i, data, ?_⟩
    · intro e he
      rcases List.mem_cons.mp he with rfl | he
      · nofun
      rcases List.mem_cons.mp he with rfl | he
      · nofun
      · exact ne_txPacket_of_mem_goalsAdded he
    · simp
  | sent => exact .packet (a := []) hg nofun
  | throttled result now =>
    refine .packet (a := [⟨.steadyNow, now⟩]) hg fun e he => ?_
    rw [List.mem_singleton.mp he]
    nofun
  | reopened result now hr hd recovery hc =>
    have hpacket : Transmits h [goal'] ((recovery ++ [⟨.closePort, ()⟩, ⟨.steadyNow, now⟩]) ++
        (transmission goal result ++ h)) := by
      refine .packet hg fun e he => ?_
      rcases List.mem_append.mp he with he | he
      · exact (hc e he).ne_txPacket
      · simp only [List.mem_cons, List.not_mem_nil, or_false] at he
        rcases he with rfl | rfl <;> nofun
    simpa only [List.append_assoc, List.cons_append, List.nil_append] using hpacket

theorem WriteBranch.of_success (hb : WriteBranch s goal said s' true) :
    s' = { s with consecutiveWriteFailures := 0 } := by
  cases hb
  rfl

/-- The SDK is told to drop the parameters before anything else. -/
theorem writeGoal_speaks (s : PortRecovery) (goal : Fin 6 → Int32) (h : BusHistory) :
    (writeGoal s goal).Ensures (fun _ _ => True) (fun h' _ => h' ≠ h) h := by
  refine ensures_ask_bind.mpr ⟨trivial, fun _ => ?_⟩
  refine Ensures.said (q := fun _ => True) (P := fun _ _ => True) (ensures_true _ _) ?_
  intro said _ _ _ heq
  have hlength := congrArg List.length heq
  rw [List.length_append, List.length_cons] at hlength
  omega

/-- Every call transmits its goal, and one that succeeds only resets the failure counter. -/
theorem writeGoal_transmits (hg : ∀ i, (goal i).toInt = goal' i) (h : BusHistory) :
    (writeGoal s goal).Ensures (fun _ _ => True)
      (fun h' r => Transmits h [goal'] h' ∧
        (r.2 = true → r.1 = { s with consecutiveWriteFailures := 0 })) h := by
  refine ((writeGoal_branch s goal h).and (writeGoal_speaks s goal h)).conseq
    (F := fun _ => True) trivial (fun _ _ _ _ _ => trivial) (fun _ _ _ _ => trivial) ?_
  rintro h' ⟨s', ok⟩ - ⟨⟨said, rfl, hb⟩, hspeaks⟩
  refine ⟨hb.transmits ?_ hg, ?_⟩
  · rintro rfl
    exact hspeaks rfl
  · rintro rfl
    exact hb.of_success

end Calls

/-! ## The programs -/

section Programs

variable {h : BusHistory}

theorem writeReturn_transmits (start : Time) (servoLpf : Fin 6 → LPF ℝ) (s : PortRecovery)
    (readings : List LoopReading) (h : BusHistory) :
    (writeReturn start servoLpf s readings).Ensures (fun _ _ => True)
      (fun h' r => Transmits h (returnLoop start servoLpf readings).1 h' ∧
        r.2 = (returnLoop start servoLpf readings).2) h := by
  induction readings generalizing servoLpf s h with
  | nil => exact ⟨.refl h, rfl⟩
  | cons reading readings ih =>
    unfold writeReturn returnLoop
    split
    · refine ensures_bind.mpr ((writeGoal_transmits (asInt32_toInt (inJointRange_toPpr _)) h).mono
        ?_)
      rintro h₁ r ⟨hfirst, -⟩
      refine (ih _ r.1 h₁).mono ?_
      rintro h₂ r' ⟨hrest, hended⟩
      exact ⟨hfirst.trans hrest, hended⟩
    · exact ⟨.refl h, rfl⟩

theorem writeInitialReturn_transmits (env : Surroundings) (s : PortRecovery)
    (initialPpr : Fin 6 → Int32) (h : BusHistory) :
    (writeInitialReturn env s initialPpr).Ensures (fun _ _ => True)
      (fun h' r => Transmits h (initialReturnToZero env initialPpr).1 h' ∧
        r.2 = (initialReturnToZero env initialPpr).2) h := by
  refine ensures_bind.mpr ((writeReturn_transmits _ _ _ _ h).mono ?_)
  rintro h₁ ⟨s', ended⟩ ⟨hloop, rfl⟩
  unfold initialReturnToZero
  dsimp only at hloop ⊢
  split
  · rename_i hup
    refine ensures_bind.mpr ((writeGoal_transmits (asInt32_toInt inJointRange_zeroPpr) h₁).mono ?_)
    rintro h₂ r ⟨hlast, -⟩
    exact ⟨hloop.trans hlast, rfl⟩
  · rename_i hup
    rw [List.append_nil]
    exact ⟨hloop, rfl⟩

/-- The goals that the timer of a bridge writes on these events. -/
noncomputable def bridgeGoals (s : Px4ServoToDynamixel) (events : List ServoEvent) :
    List GoalPpr :=
  (dxlBridge.trace s events []).reverse.filterMap Machine.Step.out

theorem timerTick_transmits {s : ServoNode} {now : Time}
    (hs : InJointRange s.bridge.latestGoalPpr) (h : BusHistory) :
    (timerTick s now).Ensures (fun _ _ => True)
      (fun h' r => Transmits h (s.bridge.timeoutCallback now).2.toList h' ∧
        r.1.bridge = (s.bridge.timeoutCallback now).1) h := by
  have hgoal : ∀ goal, (s.bridge.timeoutCallback now).2 = some goal → InJointRange goal := by
    intro goal hout
    rw [handle_out (s := s.bridge) (e := .timer now) hout]
    exact handle_inJointRange (.timer now) hs
  unfold timerTick
  rcases hout : s.bridge.timeoutCallback now with ⟨bridge, _ | goal⟩
  · exact ⟨.refl h, rfl⟩
  rw [hout] at hgoal
  dsimp only
  refine ensures_bind.mpr ((writeGoal_transmits (asInt32_toInt (hgoal goal rfl)) h).mono ?_)
  rintro h' ⟨recovery, ok⟩ ⟨hcall, -⟩
  -- the readings for the log of the rate send nothing
  have hclock : ∀ times : List Time, Transmits h [goal]
      ((times.map fun t => (⟨.steadyNow, t⟩ : BusExchange)) ++ h') := by
    intro times
    rw [← List.append_nil [goal]]
    refine hcall.trans (.silent fun e he => ?_)
    obtain ⟨t, -, rfl⟩ := List.mem_map.mp he
    nofun
  dsimp only
  split
  · exact ⟨hcall, rfl⟩
  refine ensures_ask_bind.mpr ⟨trivial, fun rateNow => ?_⟩
  split
  · exact ensures_ask_bind.mpr ⟨trivial, fun logged => ⟨hclock [logged, rateNow], rfl⟩⟩
  · exact ⟨hclock [rateNow], rfl⟩

theorem callback_transmits {s : ServoNode} (hs : InJointRange s.bridge.latestGoalPpr)
    (e : ServoEvent) (h : BusHistory) :
    (callback s e).Ensures (fun _ _ => True)
      (fun h' r => Transmits h (s.bridge.handle e).2.toList h' ∧
        r.1.bridge = (s.bridge.handle e).1) h := by
  cases e with
  | actuatorServos now msg => exact ⟨.refl h, rfl⟩
  | timer now => exact timerTick_transmits hs h

theorem spin_transmits {s : ServoNode} (hs : InJointRange s.bridge.latestGoalPpr)
    (events : List ServoEvent) (h : BusHistory) :
    (spin s events).Ensures (fun _ _ => True)
      (fun h' _ => Transmits h (bridgeGoals s.bridge events) h') h := by
  induction events generalizing s h with
  | nil => exact .refl h
  | cons e events ih =>
    rw [bridgeGoals, Machine.outputs_cons]
    refine ensures_bind.mpr ((callback_transmits hs e h).mono ?_)
    rintro h₁ r ⟨hfirst, hbridge⟩
    have hr : InJointRange r.1.bridge.latestGoalPpr := by
      rw [hbridge]
      exact handle_inJointRange e hs
    refine ensures_bind.mpr ((ih hr h₁).mono fun h₂ r' hrest => ?_)
    rw [hbridge] at hrest
    exact hfirst.trans hrest

theorem afterStartup_inJointRange (ready : Time) :
    InJointRange (afterStartup ready).latestGoalPpr := by
  intro i
  obtain ⟨-, hmin, hmax, -⟩ := dxlServos_range i
  rw [hmin, hmax]
  exact ⟨le_rfl, by norm_num [afterStartup]⟩

/-- The goals after `initial_setting`. -/
noncomputable def goalsAfterSetting (env : Surroundings) (initialPpr : Fin 6 → Int32) :
    List GoalPpr :=
  (initialReturnToZero env initialPpr).1 ++
    if (initialReturnToZero env initialPpr).2 then spinGoals env else []

theorem afterSetting_transmits (w : Lifetime) (initialPpr : Fin 6 → Int32) (h : BusHistory) :
    (afterSetting w (some initialPpr)).Ensures (fun _ _ => True)
      (fun h' _ => Transmits h (goalsAfterSetting w.toSurroundings initialPpr) h') h := by
  refine ensures_bind.mpr ((writeInitialReturn_transmits _ _ _ h).mono ?_)
  rintro h₁ ⟨recovery, ended⟩ ⟨hreturn, rfl⟩
  unfold goalsAfterSetting
  dsimp only
  split
  · refine ensures_bind.mpr
      ((spin_transmits (afterStartup_inJointRange w.ready) w.events h₁).mono ?_)
    intro h₂ r hspin
    exact hreturn.trans hspin
  · rw [List.append_nil]
    exact hreturn

end Programs

/-! ## The startup -/

section Startup

variable {h : BusHistory}

/-- A program without a sync write transmits no goals. -/
theorem transmits_of_goalless {α : Type} {p : Bus α} {own : BusHistory → BusCommand → Prop}
    {post : BusHistory → α → Prop} (hp : p.Ensures own post h)
    (hown : ∀ h c, own h c → c ≠ .txPacket) :
    p.Ensures (fun _ _ => True) (fun h' _ => Transmits h [] h') h := by
  have hgoalless : p.Ensures (fun _ c => c ≠ .txPacket) (fun _ _ => True) h :=
    hp.conseq (F := fun _ => True) trivial (fun _ _ _ _ _ => trivial)
      (fun h c _ hc => hown h c hc) fun _ _ _ _ => trivial
  exact hgoalless.said fun _ _ hsaid _ => .silent hsaid

theorem prepare_transmits (h : BusHistory) :
    prepare.run.Ensures (fun _ _ => True) (fun h' _ => Transmits h [] h') h :=
  transmits_of_goalless (prepare_spec h) fun _ _ hc => hc.2.2

theorem enableTorque_transmits (torqueEnabled : Fin 6 → UInt8) (h : BusHistory) :
    (enableTorque torqueEnabled).run.Ensures (fun _ _ => True)
      (fun h' _ => Transmits h [] h') h := by
  refine transmits_of_goalless (enableTorque_spec torqueEnabled h) ?_
  rintro h c ⟨i, -, rfl⟩
  nofun

/-- The hold is the only goal of `initial_setting`. -/
theorem holdAndEnable_transmits (torqueEnabled : Fin 6 → UInt8) (initialPpr : Fin 6 → Int32)
    (h : BusHistory) :
    (holdAndEnable torqueEnabled initialPpr).run.Ensures (fun _ _ => True)
      (fun h' _ => Transmits h [fun i => (initialPpr i).toInt] h') h := by
  refine ensures_bind.mpr (ensures_bind.mpr ((writeGoal_transmits (fun i => rfl) h).mono ?_))
  rintro h₁ ⟨s, held⟩ ⟨hhold, -⟩
  cases held with
  | false => exact hhold
  | true =>
    refine ensures_bind.mpr ((enableTorque_transmits torqueEnabled h₁).mono ?_)
    intro h₂ r hsilent
    have hboth := hhold.trans hsilent
    rw [List.append_nil] at hboth
    cases r with
    | none => exact hboth
    | some _ => exact hboth

/-- The members of the port recovery after a hold that succeeds, with which the constructor goes
    on. -/
theorem writeGoal_initial (initialPpr : Fin 6 → Int32) (h : BusHistory) :
    (writeGoal PortRecovery.initial initialPpr).Ensures (fun _ _ => True)
      (fun _ r => r.2 = true → r.1 = PortRecovery.initial) h :=
  (writeGoal_transmits (fun _ => rfl) h).mono fun _ _ hr hok => hr.2 hok

end Startup

/-! ## The life -/

section Life

theorem run_initialSetting_of_failed {answer : BusHistory → ∀ c : BusCommand, c.Response}
    {h : BusHistory} (hrun : prepare.run.run answer [] = (h, none)) :
    initialSetting.run.run answer [] = (h, none) := by
  have hbind : initialSetting.run.run answer [] = _ := run_bind answer prepare.run _ []
  rw [hbind, hrun]
  rfl

theorem run_initialSetting_of_prepared {answer : BusHistory → ∀ c : BusCommand, c.Response}
    {h : BusHistory} {torqueEnabled : Fin 6 → UInt8} {initialPpr : Fin 6 → Int32}
    (hrun : prepare.run.run answer [] = (h, some (torqueEnabled, initialPpr))) :
    initialSetting.run.run answer [] =
      (((holdAndEnable torqueEnabled initialPpr).run.run answer h).1,
        ((holdAndEnable torqueEnabled initialPpr).run.run answer h).2.map fun _ => initialPpr) := by
  have hbind : initialSetting.run.run answer [] = _ := run_bind answer prepare.run _ []
  rw [hbind, hrun]
  have hhold : Dialogue.run answer ((do
      holdAndEnable torqueEnabled initialPpr
      pure initialPpr : OptionT Bus (Fin 6 → Int32))).run h = _ :=
    run_bind answer (holdAndEnable torqueEnabled initialPpr).run _ h
  refine hhold.trans ?_
  cases ((holdAndEnable torqueEnabled initialPpr).run.run answer h).2 <;> rfl

/-- What every run of a program transmits. -/
theorem run_transmits {α : Type} {p : Bus α} {goals : List GoalPpr} {h : BusHistory}
    (hp : p.Ensures (fun _ _ => True) (fun h' _ => Transmits h goals h') h)
    (answer : BusHistory → ∀ c : BusCommand, c.Response) :
    Transmits h goals (p.run answer h).1 :=
  (hp.sound answer (Past.always_iff_append.mpr fun _ _ _ _ => trivial)).2

/-- The constructor closes the port if `initial_setting` fails. -/
theorem started_silent (w : Lifetime) :
    Transmits (initialSetting.run.run w.answer []).1 [] w.started.1 ∧
      w.started.2 = (initialSetting.run.run w.answer []).2 := by
  have hbind : w.started = _ := run_bind w.answer initialSetting.run _ []
  rw [hbind]
  rcases initialSetting.run.run w.answer [] with ⟨h, _ | initialPpr⟩
  · cases w.portHandler with
    | false => exact ⟨.refl h, rfl⟩
    | true =>
      refine ⟨Transmits.silent (a := [⟨.closePort, ()⟩]) fun e he => ?_, rfl⟩
      rw [List.mem_singleton.mp he]
      nofun
  · exact ⟨.refl h, rfl⟩

theorem goalsAfterHold_eq {env : Surroundings} {h : BusHistory} {torqueEnabled : Fin 6 → UInt8}
    {initialPpr : Fin 6 → Int32} :
    goalsAfterHold env h torqueEnabled initialPpr =
      match ((holdAndEnable torqueEnabled initialPpr).run.run env.answer h).2 with
      | none => []
      | some _ => goalsAfterSetting env initialPpr := rfl

theorem served_transmits (w : Lifetime) :
    Transmits [] (goalsHanded w.toSurroundings) w.served.1 := by
  obtain ⟨hclose, hresult⟩ := started_silent w
  rw [served_eq, hresult]
  have hprepare : Transmits [] [] (prepare.run.run w.answer []).1 :=
    run_transmits (prepare_transmits []) w.answer
  rcases hrun : prepare.run.run w.answer [] with ⟨h, _ | ⟨torqueEnabled, initialPpr⟩⟩
  · rw [hrun] at hprepare
    rw [run_initialSetting_of_failed hrun] at hclose ⊢
    have hgoals : goalsHanded w.toSurroundings = [] := by
      unfold goalsHanded
      rw [hrun]
    rw [hgoals]
    exact hprepare.trans hclose
  rw [hrun] at hprepare
  rw [run_initialSetting_of_prepared hrun] at hclose ⊢
  rw [goalsHanded_of_prepared hrun, goalsAfterHold_eq]
  have hhold : Transmits h [fun i => (initialPpr i).toInt]
      ((holdAndEnable torqueEnabled initialPpr).run.run w.answer h).1 :=
    run_transmits (holdAndEnable_transmits torqueEnabled initialPpr h) w.answer
  have hstarted := (hprepare.trans hhold).trans hclose
  cases ((holdAndEnable torqueEnabled initialPpr).run.run w.answer h).2 with
  | none => exact hstarted
  | some _ =>
    exact hstarted.trans (run_transmits (afterSetting_transmits w initialPpr _) w.answer)

/-- Nothing is sent by a destructor. -/
theorem history_transmits (w : Lifetime) : Transmits w.served.1 [] w.history := by
  cases hstage : w.served.2 with
  | spun node reports =>
    cases hok : w.okAtEnd with
    | false =>
      obtain ⟨-, statuses, hhistory, -⟩ := live_of_shutdown hstage hok
      rw [hhistory]
      refine .silent fun e he => ?_
      rcases List.mem_cons.mp he with rfl | he
      · nofun
      · obtain ⟨i, rfl⟩ := mem_switchedOff.mp he
        nofun
    | true =>
      rw [history_of_stopped hstage hok]
      refine .silent (a := [⟨.closePort, ()⟩]) fun e he => ?_
      rw [List.mem_singleton.mp he]
      nofun
  | _ =>
    rw [history_of_unspun (by simp [hstage])]
    exact .refl _

/-- Whatever the bus answers, the packets of a life carry the goals of the run, in their order, and
    leave none out unless the SDK has refused a parameter. -/
theorem life_transmits (w : Lifetime) :
    ∃ sent, List.Forall₂ Carries (packets w.history) sent ∧
      sent.Sublist (goalsHanded w.toSurroundings) ∧
      (¬ Refused w.history → sent = goalsHanded w.toSurroundings) := by
  have hlife : Transmits [] (goalsHanded w.toSurroundings ++ []) w.history :=
    (served_transmits w).trans (history_transmits w)
  rw [List.append_nil] at hlife
  obtain ⟨-, new, sent, hnew, hcarries, hsub, hall⟩ := hlife
  refine ⟨sent, ?_, hsub, hall⟩
  rw [hnew]
  exact hcarries

end Life

end Px4ServoToDynamixel

end Hummingbird
