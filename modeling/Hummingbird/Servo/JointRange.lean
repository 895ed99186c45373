/-
  The goals of a whole run of `Px4ServoToDynamixel`, from its construction on.

  `goalsHanded` lists what a run hands to `write_goal`: the hold of `initial_setting`, the startup
  return and what the timer writes. All but the hold come from `to_ppr` or are zero counts, so they
  are in the joint range. The hold is what the servos have reported, which nothing bounds, and
  `jointRange_iff` says that the run stays in the joint range exactly when those positions do.
-/
import Hummingbird.Servo.Dynamixel
import Hummingbird.Servo.TorqueSafety

namespace Hummingbird

open Dialogue BusHistory

/-- The goal of every servo is between its limits. -/
def InJointRange (goal : GoalPpr) : Prop :=
  ∀ i, goal i ∈ Set.Icc (dxlServos i).minPpr (dxlServos i).maxPpr

namespace Px4ServoToDynamixel

/-- The readings of one check of the loop of `initial_return_to_zero`: `rclcpp::ok` and the
    steady clock. -/
structure LoopReading where
  ok : Bool
  now : Time

/-- What a run of the node meets. -/
structure Surroundings where
  answer : BusHistory → ∀ c : BusCommand, c.Response
  returnStart : Time
  readings : List LoopReading
  okAfterReturn : Bool
  ready : Time
  events : List ServoEvent

noncomputable section

/-! ## `initial_return_to_zero` -/

/-- `initial_rad`. -/
def initialRad (servo : ServoConfig) (initialPpr : Int32) : ℝ :=
  servo.direction * ((initialPpr.toInt : ℝ) - servo.zeroPpr) / pprPerRad

/-- The loop, whose checks make these readings: the goals it writes, and whether it has ended.
    What `write_goal` returns is only logged. -/
def returnLoop (start : Time) : (Fin 6 → LPF ℝ) → List LoopReading → List GoalPpr × Bool
  | _, [] => ([], false)
  | servoLpf, reading :: readings =>
    if reading.ok ∧ secs (reading.now - start) < servoStartupReturnTimeSec then
      let servoLpf : Fin 6 → LPF ℝ := fun i => (servoLpf i).update 0
      let goalPpr : GoalPpr := fun i => toPpr (dxlServos i) (servoLpf i).y
      let (goals, ended) := returnLoop start servoLpf readings
      (goalPpr :: goals, ended)
    else ([], true)

/-- `initial_return_to_zero`. -/
def initialReturnToZero (env : Surroundings) (initialPpr : Fin 6 → Int32) :
    List GoalPpr × Bool :=
  let servoLpf : Fin 6 → LPF ℝ := fun i =>
    (LPF.ofTime (servoStartupReturnTimeSec : ℝ)).reset (initialRad (dxlServos i) (initialPpr i))
  let (goals, ended) := returnLoop env.returnStart servoLpf env.readings
  (goals ++ if ended ∧ env.okAfterReturn then [fun i => (dxlServos i).zeroPpr] else [], ended)

/-! ## The run -/

/-- The goals that the timer writes, once the node is ready. -/
def spinGoals (env : Surroundings) : List GoalPpr :=
  (dxlBridge.trace (afterStartup env.ready) env.events []).reverse.filterMap Machine.Step.out

/-- The goals after the hold, which is written after `h` was said. -/
def goalsAfterHold (env : Surroundings) (h : BusHistory) (torqueEnabled : Fin 6 → UInt8)
    (initialPpr : Fin 6 → Int32) : List GoalPpr :=
  match ((holdAndEnable torqueEnabled initialPpr).run.run env.answer h).2 with
  | none => []
  | some _ =>
    let (goals, ended) := initialReturnToZero env initialPpr
    goals ++ if ended then spinGoals env else []

/-- Every goal that is handed to `write_goal`, oldest first. -/
def goalsHanded (env : Surroundings) : List GoalPpr :=
  match prepare.run.run env.answer [] with
  | (_, none) => []
  | (h, some (torqueEnabled, initialPpr)) =>
    (fun i => (initialPpr i).toInt) :: goalsAfterHold env h torqueEnabled initialPpr

end

/-! ## The goals after the hold -/

theorem inJointRange_toPpr (rad : Fin 6 → ℝ) :
    InJointRange fun i => toPpr (dxlServos i) (rad i) :=
  fun i => toPpr_mem_Icc i (rad i)

theorem inJointRange_zeroPpr : InJointRange fun i => (dxlServos i).zeroPpr := by
  have hzero := inJointRange_toPpr fun _ => 0
  simp only [toPpr_zero] at hzero
  exact hzero

theorem returnLoop_inJointRange (start : Time) (readings : List LoopReading)
    (servoLpf : Fin 6 → LPF ℝ) : ∀ goal ∈ (returnLoop start servoLpf readings).1,
      InJointRange goal := by
  induction readings generalizing servoLpf with
  | nil => exact fun _ hgoal => absurd hgoal List.not_mem_nil
  | cons reading readings ih =>
    intro goal hgoal
    unfold returnLoop at hgoal
    split at hgoal
    · rcases List.mem_cons.mp hgoal with rfl | hgoal
      · exact inJointRange_toPpr _
      · exact ih _ goal hgoal
    · exact absurd hgoal List.not_mem_nil

theorem initialReturnToZero_inJointRange (env : Surroundings) (initialPpr : Fin 6 → Int32) :
    ∀ goal ∈ (initialReturnToZero env initialPpr).1, InJointRange goal := by
  intro goal hgoal
  rcases List.mem_append.mp hgoal with hgoal | hgoal
  · exact returnLoop_inJointRange _ _ _ goal hgoal
  · split at hgoal
    · rw [List.mem_singleton.mp hgoal]
      exact inJointRange_zeroPpr
    · exact absurd hgoal List.not_mem_nil

section Step

variable {s : Px4ServoToDynamixel}

theorem stepReturn_inJointRange (s : Px4ServoToDynamixel) (now : Time) :
    InJointRange (s.stepReturn now).latestGoalPpr := by
  rcases lt_or_ge (secs (now - s.returnStartSteady)) servoReturnTimeSec with hf | hf
  · rw [stepReturn_of_returning hf]
    exact inJointRange_toPpr _
  · rw [stepReturn_of_finished hf]
    exact inJointRange_zeroPpr

/-- Every handler keeps the goals in the joint range. -/
theorem handle_inJointRange (e : ServoEvent) (hs : InJointRange s.latestGoalPpr) :
    InJointRange (s.handle e).1.latestGoalPpr := by
  cases e with
  | actuatorServos now msg =>
    show InJointRange (s.ddsCallback now msg).latestGoalPpr
    by_cases hm : msg.Finite
    · rw [ddsCallback_of_valid hm]
      exact inJointRange_toPpr _
    · rw [ddsCallback_of_invalid hm]
      exact hs
  | timer now =>
    show InJointRange (s.timeoutCallback now).1.latestGoalPpr
    unfold timeoutCallback
    dsimp only
    split_ifs
    · exact hs
    · exact hs
    · exact stepReturn_inJointRange _ now
    · exact hs

/-- A handler writes the goals that it leaves. -/
theorem handle_out {e : ServoEvent} {goal : GoalPpr} (hout : (s.handle e).2 = some goal) :
    goal = (s.handle e).1.latestGoalPpr := by
  cases e with
  | actuatorServos now msg => exact nomatch hout
  | timer now =>
    have hout : (s.timeoutCallback now).2 = some goal := hout
    show goal = (s.timeoutCallback now).1.latestGoalPpr
    unfold timeoutCallback at hout ⊢
    dsimp only at hout ⊢
    split at hout
    · cases hout
    · rename_i hguard
      rw [if_neg hguard]
      exact (Option.some.inj hout).symm

end Step

theorem spinGoals_inJointRange (env : Surroundings) :
    ∀ goal ∈ spinGoals env, InJointRange goal := by
  intro goal hgoal
  obtain ⟨k, hk, hout⟩ := List.mem_filterMap.mp hgoal
  have hstart : InJointRange (afterStartup env.ready).latestGoalPpr := by
    intro i
    obtain ⟨-, hmin, hmax, -⟩ := dxlServos_range i
    rw [hmin, hmax]
    exact ⟨le_rfl, by norm_num [afterStartup]⟩
  obtain ⟨hpre, hrecord⟩ | hk := Machine.mem_trace
    (I := fun s : Px4ServoToDynamixel => InJointRange s.latestGoalPpr)
    (fun s e => handle_inJointRange e) hstart (List.mem_reverse.mp hk)
  · rw [hrecord] at hout
    rw [handle_out hout]
    exact handle_inJointRange _ hpre
  · exact absurd hk List.not_mem_nil

theorem goalsAfterHold_inJointRange (env : Surroundings) (h : BusHistory)
    (torqueEnabled : Fin 6 → UInt8) (initialPpr : Fin 6 → Int32) :
    ∀ goal ∈ goalsAfterHold env h torqueEnabled initialPpr, InJointRange goal := by
  intro goal hgoal
  unfold goalsAfterHold at hgoal
  split at hgoal
  · exact absurd hgoal List.not_mem_nil
  · rcases List.mem_append.mp hgoal with hgoal | hgoal
    · exact initialReturnToZero_inJointRange env initialPpr goal hgoal
    · split at hgoal
      · exact spinGoals_inJointRange env goal hgoal
      · exact absurd hgoal List.not_mem_nil

/-! ## The joint range of a run -/

/-- A startup that succeeds so far writes the hold. -/
theorem goalsHanded_of_prepared {env : Surroundings} {h : BusHistory}
    {torqueEnabled : Fin 6 → UInt8} {initialPpr : Fin 6 → Int32}
    (hrun : prepare.run.run env.answer [] = (h, some (torqueEnabled, initialPpr))) :
    goalsHanded env =
      (fun i => (initialPpr i).toInt) :: goalsAfterHold env h torqueEnabled initialPpr := by
  unfold goalsHanded
  rw [hrun]

/-- The position of the servo that its present-position register was read as is between its
    limits. -/
def PositionInRange (h : BusHistory) (i : Fin 6) : Prop :=
  ∀ value, positionRead h (servoId i) = some value →
    value.toInt32.toInt ∈ Set.Icc (dxlServos i).minPpr (dxlServos i).maxPpr

/-- The positions that `prepare` returns are those that it has read. -/
theorem positionRead_of_prepared {answer : BusHistory → ∀ c : BusCommand, c.Response}
    {h : BusHistory} {torqueEnabled : Fin 6 → UInt8} {initialPpr : Fin 6 → Int32}
    (hrun : prepare.run.run answer [] = (h, some (torqueEnabled, initialPpr))) (i : Fin 6) :
    positionRead h (servoId i) = some (initialPpr i).toUInt32 := by
  obtain ⟨-, hpost⟩ := Ensures.sound (prepare_spec []) answer trivial
  rw [hrun] at hpost
  exact (hpost _ rfl).position i

/-- A run hands every servo goals between its limits exactly when the startup fails before the
    hold or has read positions between the limits. -/
theorem jointRange_iff (env : Surroundings) :
    (∀ goal ∈ goalsHanded env, InJointRange goal) ↔
      ((prepare.run.run env.answer []).2.isSome →
        ∀ i, PositionInRange (prepare.run.run env.answer []).1 i) := by
  rcases hrun : prepare.run.run env.answer [] with ⟨h, _ | ⟨torqueEnabled, initialPpr⟩⟩
  · simp [goalsHanded, hrun]
  have hposition := positionRead_of_prepared hrun
  have hhold : InJointRange (fun i => (initialPpr i).toInt) ↔ ∀ i, PositionInRange h i := by
    refine forall_congr' fun i => ?_
    rw [PositionInRange, hposition i]
    simp
  simp only [goalsHanded_of_prepared hrun, List.forall_mem_cons, hhold, Option.isSome_some,
    forall_const]
  exact and_iff_left (goalsAfterHold_inJointRange env h torqueEnabled initialPpr)

/-! ## A servo past a full turn -/

/-- Everything succeeds, and the first servo has been turned by hand past a full turn. -/
def turnedBus : BusHistory → ∀ c : BusCommand, c.Response
  | h, .read4 id address =>
    if id = 0 then (⟨commSuccess, 0⟩, 5000) else obligingBus h (.read4 id address)
  | h, c => obligingBus h c

/-- The startup of the node on this bus; the node is shut down before the loop of
    `initial_return_to_zero` begins. -/
def turnedStartup : Surroundings where
  answer := turnedBus
  returnStart := 0
  readings := [⟨false, 0⟩]
  okAfterReturn := false
  ready := 0
  events := []

/-- The startup reads 5000 counts from the first servo. -/
theorem prepare_turnedBus :
    (prepare.run.run turnedBus []).2.map (fun x => x.2 0) = some 5000 := rfl

/-- The hold sends the servo past its limit. -/
theorem jointRange_turnedStartup : ¬ ∀ goal ∈ goalsHanded turnedStartup, InJointRange goal := by
  intro hall
  obtain ⟨⟨torqueEnabled, initialPpr⟩, hsome, hfirst⟩ := Option.map_eq_some_iff.mp prepare_turnedBus
  have hrun : prepare.run.run turnedStartup.answer [] =
      ((prepare.run.run turnedBus []).1, some (torqueEnabled, initialPpr)) := Prod.ext rfl hsome
  rw [goalsHanded_of_prepared hrun] at hall
  have hle : (initialPpr 0).toInt ≤ 4095 := (hall _ List.mem_cons_self 0).2
  have hfirst : initialPpr 0 = 5000 := hfirst
  rw [hfirst] at hle
  exact absurd hle (by decide)

end Px4ServoToDynamixel

end Hummingbird
