/-
  The return to zero at the startup of `Px4ServoToDynamixel`.

  `initial_return_to_zero` turns the measured counts into angles, moves them towards zero by one
  filter update per iteration, and rounds them back. A filter update stays between zero and
  where it started, so the exact count of every iteration lies between the zero count and the
  measured one (`exactPpr_startupLpf`): the cast of `to_ppr` has nothing to cut off and the
  goals follow each other towards zero (`startupReturn`).

  The last goal is the zero count only if ROS is still up after the loop.
-/
import Hummingbird.Servo.JointRange

namespace Hummingbird

namespace Px4ServoToDynamixel

open Approach

noncomputable section

/-- The filters of the loop after `k` iterations. -/
def startupLpf (initialPpr : Fin 6 → Int32) (k : ℕ) (j : Fin 6) : LPF ℝ :=
  (fun f => f.update 0)^[k]
    ((LPF.ofTime (servoStartupReturnTimeSec : ℝ)).reset (initialRad (dxlServos j) (initialPpr j)))

/-- The goals of the iteration `k`, counted from 1. -/
def startupGoal (initialPpr : Fin 6 → Int32) (k : ℕ) : GoalPpr :=
  fun j => toPpr (dxlServos j) (startupLpf initialPpr k j).y

/-- The present positions, clamped to the limits of the servos. -/
def clampedPpr (initialPpr : Fin 6 → Int32) : GoalPpr :=
  fun j => clamp (initialPpr j).toInt (dxlServos j).minPpr (dxlServos j).maxPpr

end

/-- What `initial_return_to_zero` writes from these positions. -/
structure ReturnsToZero (env : Surroundings) (initialPpr : Fin 6 → Int32) : Prop where
  start : ∀ j, toPpr (dxlServos j) (initialRad (dxlServos j) (initialPpr j)) =
    clampedPpr initialPpr j
  goals : ∃ n, (initialReturnToZero env initialPpr).1 =
    ((List.range n).map fun k => startupGoal initialPpr (k + 1)) ++
      if (initialReturnToZero env initialPpr).2 ∧ env.okAfterReturn then
        [fun j => (dxlServos j).zeroPpr] else []
  noOverflow : ∀ k j, lround ((dxlServos j).zeroPpr +
    (dxlServos j).direction * (startupLpf initialPpr k j).y * pprPerRad) ∈
      Set.Ico (-2 ^ 31) (2 ^ 31)
  towards : (clampedPpr initialPpr :: (initialReturnToZero env initialPpr).1).Pairwise
    fun goal goal' => ∀ j, goal' j ∈ Set.uIcc (dxlServos j).zeroPpr (goal j)
  range : ∀ goal ∈ (initialReturnToZero env initialPpr).1, InJointRange goal
  ends : (∃ reading ∈ env.readings, reading.ok = false ∨
    servoStartupReturnTimeSec ≤ secs (reading.now - env.returnStart)) →
      (initialReturnToZero env initialPpr).2 = true
  last : (initialReturnToZero env initialPpr).2 = true → env.okAfterReturn = true →
    (initialReturnToZero env initialPpr).1.getLast? = some fun j => (dxlServos j).zeroPpr

/-! ## The angles -/

/-- The measured counts come back exactly. -/
theorem exactPpr_initialRad (j : Fin 6) (p : Int32) :
    exactPpr (dxlServos j) (initialRad (dxlServos j) p) = p.toInt := by
  obtain ⟨-, -, -, hdir, -⟩ := dxlServos_range j
  have hsq : ((dxlServos j).direction : ℝ) * (dxlServos j).direction = 1 := by
    rcases hdir with hdir | hdir <;> rw [hdir] <;> norm_num
  have hppr : pprPerRad ≠ 0 := pprPerRad_pos.ne'
  unfold exactPpr initialRad
  field_simp
  linear_combination ((p.toInt : ℝ) - (dxlServos j).zeroPpr) * hsq

/-- A fraction of the angle leaves the same fraction of the counts. -/
theorem exactPpr_mul (servo : ServoConfig) (c rad : ℝ) :
    exactPpr servo (c * rad) = servo.zeroPpr + c * (exactPpr servo rad - servo.zeroPpr) := by
  unfold exactPpr
  ring

theorem startupLpf_succ_eq (initialPpr : Fin 6 → Int32) (k : ℕ) (j : Fin 6) :
    startupLpf initialPpr (k + 1) j = (startupLpf initialPpr k j).update 0 := by
  rw [startupLpf, startupLpf, Function.iterate_succ_apply']

theorem startupLpf_y (initialPpr : Fin 6 → Int32) (k : ℕ) (j : Fin 6) :
    (startupLpf initialPpr k j).y = (approach (LPF.gain servoStartupReturnTimeSec) 0)^[k]
      (initialRad (dxlServos j) (initialPpr j)) :=
  LPF.iterate_update rfl 0 k

/-- Later iterations leave the angle between zero and where it was. -/
theorem startupLpf_of_le (initialPpr : Fin 6 → Int32) {k k' : ℕ} (hk : k ≤ k') (j : Fin 6) :
    (startupLpf initialPpr k' j).y ∈ Set.uIcc 0 (startupLpf initialPpr k j).y := by
  rw [startupLpf_y, startupLpf_y]
  exact iterate_approach_mem_uIcc (LPF.gain_pos _).le (LPF.gain_le_one _) 0 _ hk

/-- The exact count of every iteration is between the zero count and the measured one. -/
theorem exactPpr_startupLpf (initialPpr : Fin 6 → Int32) (k : ℕ) (j : Fin 6) :
    exactPpr (dxlServos j) (startupLpf initialPpr k j).y ∈
      Set.uIcc ((dxlServos j).zeroPpr : ℝ) (initialPpr j).toInt := by
  have hmem : (startupLpf initialPpr k j).y ∈
      Set.uIcc 0 (initialRad (dxlServos j) (initialPpr j)) :=
    startupLpf_of_le initialPpr (Nat.zero_le k) j
  rw [← exactPpr_zero, ← exactPpr_initialRad]
  rcases exactPpr_monotone_or_antitone j with hf | hf
  · exact hf.mapsTo_uIcc hmem
  · exact hf.mapsTo_uIcc hmem

theorem noOverflow_startupLpf (initialPpr : Fin 6 → Int32) (k : ℕ) (j : Fin 6) :
    lround (exactPpr (dxlServos j) (startupLpf initialPpr k j).y) ∈
      Set.Ico (-2 ^ 31) (2 ^ 31) := by
  have hmem := lround_mono.mapsTo_uIcc (exactPpr_startupLpf initialPpr k j)
  rw [lround_intCast, lround_intCast] at hmem
  obtain ⟨hzero, -⟩ := dxlServos_range j
  have hzeroMem : (dxlServos j).zeroPpr ∈ Set.Ico (-2 ^ 31 : ℤ) (2 ^ 31) := by
    rw [hzero]
    norm_num
  have hpMem : (initialPpr j).toInt ∈ Set.Ico (-2 ^ 31 : ℤ) (2 ^ 31) :=
    ⟨(initialPpr j).le_toInt, (initialPpr j).toInt_lt⟩
  exact Set.ordConnected_Ico.uIcc_subset hzeroMem hpMem hmem

theorem startupGoal_eq_counts (initialPpr : Fin 6 → Int32) (k : ℕ) (j : Fin 6) :
    startupGoal initialPpr k j = counts (dxlServos j) (startupLpf initialPpr k j).y :=
  toPpr_eq_counts_of_mem (noOverflow_startupLpf initialPpr k j)

theorem startupGoal_of_le (initialPpr : Fin 6 → Int32) {k k' : ℕ} (hk : k ≤ k') (j : Fin 6) :
    startupGoal initialPpr k' j ∈ Set.uIcc (dxlServos j).zeroPpr (startupGoal initialPpr k j) := by
  rw [startupGoal_eq_counts, startupGoal_eq_counts]
  exact counts_mem_uIcc j (startupLpf_of_le initialPpr hk j)

theorem startupGoal_zero (initialPpr : Fin 6 → Int32) :
    startupGoal initialPpr 0 = clampedPpr initialPpr := by
  funext j
  rw [startupGoal_eq_counts]
  show clamp (lround (exactPpr (dxlServos j) (initialRad (dxlServos j) (initialPpr j)))) _ _ = _
  rw [exactPpr_initialRad, lround_intCast, clampedPpr]

/-! ## The loop -/

theorem returnLoop_cons (start : Time) (servoLpf : Fin 6 → LPF ℝ) (reading : LoopReading)
    (readings : List LoopReading) :
    returnLoop start servoLpf (reading :: readings) =
      if reading.ok ∧ secs (reading.now - start) < servoStartupReturnTimeSec then
        ((fun j => toPpr (dxlServos j) ((servoLpf j).update 0).y) ::
            (returnLoop start (fun j => (servoLpf j).update 0) readings).1,
          (returnLoop start (fun j => (servoLpf j).update 0) readings).2)
      else ([], true) := rfl

/-- The loop writes the goals of some number of iterations. -/
theorem returnLoop_goals (start : Time) (initialPpr : Fin 6 → Int32) (k : ℕ)
    (readings : List LoopReading) :
    ∃ n, (returnLoop start (startupLpf initialPpr k) readings).1 =
      (List.range n).map fun i => startupGoal initialPpr (k + i + 1) := by
  induction readings generalizing k with
  | nil => exact ⟨0, rfl⟩
  | cons reading readings ih =>
    unfold returnLoop
    split
    · obtain ⟨n, hn⟩ := ih (k + 1)
      refine ⟨n + 1, ?_⟩
      simp only [← startupLpf_succ_eq]
      rw [hn, List.range_succ_eq_map, List.map_cons, List.map_map]
      refine congrArg (List.cons _) (List.map_congr_left fun i _ => ?_)
      exact congrArg (fun m => startupGoal initialPpr (m + 1)) (Nat.add_right_comm k 1 i)
    · exact ⟨0, rfl⟩

/-- A check that finds ROS down or the time over ends the loop. -/
theorem returnLoop_ends (start : Time) (servoLpf : Fin 6 → LPF ℝ) {readings : List LoopReading}
    (h : ∃ reading ∈ readings, reading.ok = false ∨
      servoStartupReturnTimeSec ≤ secs (reading.now - start)) :
    (returnLoop start servoLpf readings).2 = true := by
  induction readings generalizing servoLpf with
  | nil => simp at h
  | cons reading readings ih =>
    unfold returnLoop
    split
    · rename_i hgo
      obtain ⟨r, hmem, hr⟩ := h
      rcases List.mem_cons.mp hmem with rfl | hmem
      · rcases hr with hr | hr
        · exact absurd (hr.symm.trans hgo.1) Bool.false_ne_true
        · exact absurd hr (not_le.mpr hgo.2)
      · exact ih _ ⟨r, hmem, hr⟩
    · rfl

theorem initialReturnToZero_eq (env : Surroundings) (initialPpr : Fin 6 → Int32) :
    initialReturnToZero env initialPpr =
      ((returnLoop env.returnStart (startupLpf initialPpr 0) env.readings).1 ++
          (if (returnLoop env.returnStart (startupLpf initialPpr 0) env.readings).2 ∧
            env.okAfterReturn then [fun j => (dxlServos j).zeroPpr] else []),
        (returnLoop env.returnStart (startupLpf initialPpr 0) env.readings).2) := rfl

/-- Whatever positions are read and however often the loop runs. -/
theorem startupReturn (env : Surroundings) (initialPpr : Fin 6 → Int32) :
    ReturnsToZero env initialPpr := by
  obtain ⟨n, hn⟩ := returnLoop_goals env.returnStart initialPpr 0 env.readings
  have hgoals : (initialReturnToZero env initialPpr).1 =
      ((List.range n).map fun k => startupGoal initialPpr (k + 1)) ++
        if (initialReturnToZero env initialPpr).2 ∧ env.okAfterReturn then
          [fun j => (dxlServos j).zeroPpr] else [] := by
    simp only [Nat.zero_add] at hn
    rw [initialReturnToZero_eq, hn]
  refine {
    start := fun j => congrFun (startupGoal_zero initialPpr) j
    goals := ⟨n, hgoals⟩
    noOverflow := noOverflow_startupLpf initialPpr
    towards := ?_
    range := initialReturnToZero_inJointRange env initialPpr
    ends := returnLoop_ends env.returnStart _
    last := ?_ }
  · have hall : clampedPpr initialPpr ::
        (List.range n).map (fun k => startupGoal initialPpr (k + 1)) =
          (List.range (n + 1)).map (startupGoal initialPpr) := by
      rw [List.range_succ_eq_map, List.map_cons, List.map_map, startupGoal_zero]
      rfl
    rw [hgoals, ← List.cons_append, hall]
    refine List.pairwise_append.mpr ⟨?_, ?_, ?_⟩
    · exact List.pairwise_map.mpr
        (List.pairwise_lt_range.imp fun hlt j => startupGoal_of_le initialPpr hlt.le j)
    · split
      · exact List.pairwise_singleton _ _
      · exact .nil
    · intro goal _ goal' hgoal' j
      split at hgoal'
      · rw [List.mem_singleton.mp hgoal']
        exact Set.left_mem_uIcc
      · exact absurd hgoal' List.not_mem_nil
  · intro hended hok
    rw [hgoals, if_pos ⟨hended, hok⟩, List.getLast?_append]
    rfl

/-! ## A shutdown during the return -/

/-- ROS is shut down after one iteration. -/
noncomputable def interruptedReturn : Surroundings :=
  { turnedStartup with readings := [⟨true, 0⟩, ⟨false, 2500000⟩] }

/-- The positions that are read on this bus. -/
def turnedPpr : Fin 6 → Int32 := fun j => if j = 0 then 5000 else 2048

theorem goals_interruptedReturn :
    (initialReturnToZero interruptedReturn turnedPpr).1 = [startupGoal turnedPpr 1] ∧
      (initialReturnToZero interruptedReturn turnedPpr).2 = true := by
  have hgo : (true = true) ∧ secs ((0 : Time) - 0) < servoStartupReturnTimeSec :=
    ⟨rfl, by decide +kernel⟩
  have hloop : returnLoop 0 (startupLpf turnedPpr 0) [⟨true, 0⟩, ⟨false, 2500000⟩] =
      ([startupGoal turnedPpr 1], true) := by
    rw [returnLoop_cons, if_pos hgo, returnLoop_cons, if_neg fun h => Bool.false_ne_true h.1]
    simp only [← startupLpf_succ_eq]
    rfl
  have hdown : ¬ (true = true ∧ interruptedReturn.okAfterReturn = true) :=
    fun h => Bool.false_ne_true h.2
  rw [initialReturnToZero_eq, show returnLoop interruptedReturn.returnStart
    (startupLpf turnedPpr 0) interruptedReturn.readings = _ from hloop, if_neg hdown]
  exact ⟨rfl, rfl⟩

/-- One iteration leaves the first servo more than a count from zero. -/
theorem startupGoal_one_turnedPpr : 2049 ≤ startupGoal turnedPpr 1 0 := by
  have hT : (0 : ℝ) < servoStartupReturnTimeSec := by norm_num [servoStartupReturnTimeSec]
  have hleft : 0.01 ≤ 1 - LPF.gain servoStartupReturnTimeSec := by
    rw [← LPF.one_sub_gain_pow (n := 800) hT (by norm_num [servoStartupReturnTimeSec, rateHz])]
    exact pow_le_of_le_one (LPF.one_sub_gain_pos hT).le (LPF.one_sub_gain_lt_one _).le
      (by norm_num)
  have hy : (startupLpf turnedPpr 1 0).y =
      (1 - LPF.gain servoStartupReturnTimeSec) * initialRad (dxlServos 0) 5000 := by
    rw [startupLpf_y, Function.iterate_one, approach, mul_zero, zero_add]
    rfl
  have hexact : (2049 : ℤ) ≤ exactPpr (dxlServos 0) (startupLpf turnedPpr 1 0).y := by
    have hmeasured : exactPpr (dxlServos 0) (initialRad (dxlServos 0) 5000) = 5000 :=
      exactPpr_initialRad 0 5000
    have hscale := exactPpr_mul (dxlServos 0) (1 - LPF.gain servoStartupReturnTimeSec)
      (initialRad (dxlServos 0) 5000)
    rw [hy, hscale, hmeasured, show (dxlServos 0).zeroPpr = 2048 from rfl]
    push_cast
    linarith
  have hround := lround_mono hexact
  rw [lround_intCast] at hround
  rw [startupGoal_eq_counts]
  exact clamp_mono (by decide : (0 : ℤ) ≤ 4095) hround

theorem startupReturn_last_fails :
    ¬ ∀ (env : Surroundings) (initialPpr : Fin 6 → Int32),
      (initialReturnToZero env initialPpr).2 = true →
        (initialReturnToZero env initialPpr).1.getLast? =
          some fun j => (dxlServos j).zeroPpr := by
  intro hall
  obtain ⟨hgoals, hended⟩ := goals_interruptedReturn
  have hlast := hall interruptedReturn turnedPpr hended
  rw [hgoals] at hlast
  have hle := startupGoal_one_turnedPpr
  rw [congrFun (Option.some.inj hlast : startupGoal turnedPpr 1 = _) 0] at hle
  exact absurd hle (by decide)

end Px4ServoToDynamixel

end Hummingbird
