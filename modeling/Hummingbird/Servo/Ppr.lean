/-
  Angles as encoder counts: `Px4ServoToDynamixel::to_ppr`.

  `lround` rounds half away from zero, `toInt32` is the cast from `long`, `clamp` is
  `std::clamp`. On the angles a servo can be sent to, the cast changes nothing
  (`toPpr_eq_counts`), so `toPpr` is monotone or antitone there, by the servo's direction, and
  an angle between 0 and another one gives a count between the zero count and the other's
  (`toPpr_mem_uIcc`).
-/
import Mathlib.Algebra.Order.Floor.Ring
import Mathlib.Algebra.Order.Round
import Mathlib.Order.Interval.Set.UnorderedInterval
import Hummingbird.Library.Approach
import Hummingbird.Params

namespace Hummingbird

/-- `std::clamp`. -/
def clamp {K : Type*} [LT K] [DecidableLT K] (v lo hi : K) : K :=
  if v < lo then lo else if hi < v then hi else v

section Clamp

variable {K : Type*} [LinearOrder K]

theorem clamp_eq {lo hi : K} (h : lo ≤ hi) (v : K) : clamp v lo hi = max lo (min v hi) := by
  unfold clamp
  split
  · rename_i hlt
    rw [min_eq_left (hlt.le.trans h), max_eq_left hlt.le]
  · rename_i hge
    split
    · rename_i hlt
      rw [min_eq_right hlt.le, max_eq_right h]
    · rename_i hle
      rw [min_eq_left (not_lt.mp hle), max_eq_right (not_lt.mp hge)]

theorem clamp_mono {lo hi : K} (h : lo ≤ hi) : Monotone fun v => clamp v lo hi := by
  intro u v huv
  simp only [clamp_eq h]
  exact max_le_max le_rfl (min_le_min huv le_rfl)

theorem clamp_mem {lo hi : K} (h : lo ≤ hi) (v : K) : clamp v lo hi ∈ Set.Icc lo hi := by
  rw [clamp_eq h]
  exact ⟨le_max_left _ _, max_le h (min_le_right _ _)⟩

end Clamp

noncomputable section

/-- `std::lround`: to the nearest integer, halves away from zero. -/
def lround (x : ℝ) : ℤ := if 0 ≤ x then ⌊x + 1 / 2⌋ else ⌈x - 1 / 2⌉

/-- The cast of a `long` to `int32_t`. -/
def toInt32 (n : ℤ) : ℤ := n.bmod (2 ^ 32)

/-- `Px4ServoToDynamixel::to_ppr`. -/
def toPpr (servo : ServoConfig) (rad : ℝ) : ℤ :=
  clamp (toInt32 (lround (servo.zeroPpr + servo.direction * rad * pprPerRad)))
    servo.minPpr servo.maxPpr

end

/-! ## Rounding -/

theorem lround_mono : Monotone lround := by
  intro x y hxy
  unfold lround
  split <;> split
  · exact Int.floor_le_floor (by linarith)
  · rename_i hx hy
    exact absurd (hx.trans hxy) hy
  · rename_i hx hy
    have hceil : ⌈x - 1 / 2⌉ ≤ 0 := Int.ceil_le.mpr (by push_cast; linarith)
    have hfloor : 0 ≤ ⌊y + 1 / 2⌋ := Int.le_floor.mpr (by push_cast; linarith)
    exact hceil.trans hfloor
  · exact Int.ceil_le_ceil (by linarith)

theorem lround_intCast (n : ℤ) : lround n = n := by
  unfold lround
  split
  · rw [Int.floor_eq_iff]
    constructor <;> linarith
  · rw [Int.ceil_eq_iff]
    constructor <;> linarith

/-- Rounding a real between two integers stays between them. -/
theorem lround_mem_Icc {a b : ℤ} {x : ℝ} (ha : a ≤ x) (hb : x ≤ b) : lround x ∈ Set.Icc a b := by
  constructor
  · calc a = lround a := (lround_intCast a).symm
      _ ≤ lround x := lround_mono ha
  · calc lround x ≤ lround b := lround_mono hb
      _ = b := lround_intCast b

theorem toInt32_of_mem {n : ℤ} (hlo : -2147483648 ≤ n) (hhi : n < 2147483648) :
    toInt32 n = n := by
  unfold toInt32
  exact Int.bmod_eq_of_le (by omega) (by omega)

/-! ## The servos of the table -/

/-- `to_ppr` without the cast. -/
noncomputable def counts (servo : ServoConfig) (rad : ℝ) : ℤ :=
  clamp (lround (servo.zeroPpr + servo.direction * rad * pprPerRad)) servo.minPpr servo.maxPpr

/-- The count of an angle that `to_ppr` rounds. -/
noncomputable def exactPpr (servo : ServoConfig) (rad : ℝ) : ℝ :=
  servo.zeroPpr + servo.direction * rad * pprPerRad

/-- The angle comes from a control value: at most half a turn. -/
def InRange (rad : ℝ) : Prop := |rad| ≤ Real.pi

theorem dxlServos_range (j : Fin 6) :
    (dxlServos j).zeroPpr = 2048 ∧ (dxlServos j).minPpr = 0 ∧ (dxlServos j).maxPpr = 4095 ∧
      ((dxlServos j).direction = 1 ∨ (dxlServos j).direction = -1) ∧
      0 ≤ (dxlServos j).angleLimitRad ∧ (dxlServos j).angleLimitRad ≤ Real.pi := by
  have hpi : 0 ≤ Real.pi := Real.pi_pos.le
  have hbeta : 0 ≤ betaLimitRad ∧ betaLimitRad ≤ Real.pi := ⟨hpi, le_rfl⟩
  have halpha : 0 ≤ alphaLimitRad ∧ alphaLimitRad ≤ Real.pi := by
    unfold alphaLimitRad
    constructor <;> linarith
  fin_cases j
  · exact ⟨rfl, rfl, rfl, Or.inl rfl, hbeta⟩
  · exact ⟨rfl, rfl, rfl, Or.inr rfl, hbeta⟩
  · exact ⟨rfl, rfl, rfl, Or.inl rfl, halpha⟩
  · exact ⟨rfl, rfl, rfl, Or.inl rfl, halpha⟩
  · exact ⟨rfl, rfl, rfl, Or.inl rfl, halpha⟩
  · exact ⟨rfl, rfl, rfl, Or.inl rfl, halpha⟩

/-- Whatever the angle is, the count is between the limits of the servo. -/
theorem toPpr_mem_Icc (j : Fin 6) (rad : ℝ) :
    toPpr (dxlServos j) rad ∈ Set.Icc (dxlServos j).minPpr (dxlServos j).maxPpr := by
  obtain ⟨-, hmin, hmax, -⟩ := dxlServos_range j
  apply clamp_mem
  rw [hmin, hmax]
  norm_num

/-- Half a turn in counts. -/
theorem pi_mul_pprPerRad : Real.pi * pprPerRad = 2048 := by
  unfold pprPerRad
  field_simp
  norm_num

theorem abs_mul_pprPerRad_le {rad : ℝ} (h : InRange rad) : |rad * pprPerRad| ≤ 2048 := by
  rw [abs_mul, abs_of_pos pprPerRad_pos, ← pi_mul_pprPerRad]
  exact mul_le_mul_of_nonneg_right h pprPerRad_pos.le

/-- Where the rounded count fits, the cast of `to_ppr` changes nothing. -/
theorem toPpr_eq_counts_of_mem {servo : ServoConfig} {rad : ℝ}
    (h : lround (exactPpr servo rad) ∈ Set.Ico (-2 ^ 31) (2 ^ 31)) :
    toPpr servo rad = counts servo rad :=
  congrArg (fun n => clamp n servo.minPpr servo.maxPpr) (toInt32_of_mem h.1 h.2)

/-- The cast of `to_ppr` never wraps for an angle in range. -/
theorem toPpr_eq_counts (j : Fin 6) {rad : ℝ} (h : InRange rad) :
    toPpr (dxlServos j) rad = counts (dxlServos j) rad := by
  obtain ⟨hzero, -, -, hdir, -⟩ := dxlServos_range j
  have hle := abs_le.mp (abs_mul_pprPerRad_le h)
  have hmem : lround (exactPpr (dxlServos j) rad) ∈ Set.Icc (0 : ℤ) 4096 := by
    refine lround_mem_Icc ?_ ?_ <;> rw [exactPpr, hzero, mul_assoc]
    · rcases hdir with hdir | hdir <;> rw [hdir] <;> push_cast <;> linarith
    · rcases hdir with hdir | hdir <;> rw [hdir] <;> push_cast <;> linarith
  exact toPpr_eq_counts_of_mem ⟨by linarith [hmem.1], by linarith [hmem.2]⟩

theorem exactPpr_zero (servo : ServoConfig) : exactPpr servo 0 = servo.zeroPpr := by
  rw [exactPpr, mul_zero, zero_mul, add_zero]

theorem counts_zero (j : Fin 6) : counts (dxlServos j) 0 = (dxlServos j).zeroPpr := by
  obtain ⟨hzero, hmin, hmax, -⟩ := dxlServos_range j
  show clamp (lround (exactPpr (dxlServos j) 0)) _ _ = _
  rw [exactPpr_zero, lround_intCast, hzero, hmin, hmax]
  rfl

theorem toPpr_zero (j : Fin 6) : toPpr (dxlServos j) 0 = (dxlServos j).zeroPpr := by
  have h : InRange 0 := by
    rw [InRange, abs_zero]
    exact Real.pi_pos.le
  rw [toPpr_eq_counts j h, counts_zero]

theorem exactPpr_monotone_or_antitone (j : Fin 6) :
    Monotone (exactPpr (dxlServos j)) ∨ Antitone (exactPpr (dxlServos j)) := by
  obtain ⟨-, -, -, hdir, -⟩ := dxlServos_range j
  unfold exactPpr
  rcases hdir with hdir | hdir
  · refine Or.inl fun r r' hr => ?_
    have hmul := mul_le_mul_of_nonneg_right hr pprPerRad_pos.le
    rw [hdir]
    push_cast
    linarith
  · refine Or.inr fun r r' hr => ?_
    have hmul := mul_le_mul_of_nonneg_right hr pprPerRad_pos.le
    rw [hdir]
    push_cast
    linarith

/-- Counts follow the angle, in the servo's direction. -/
theorem counts_monotone_or_antitone (j : Fin 6) :
    Monotone (counts (dxlServos j)) ∨ Antitone (counts (dxlServos j)) := by
  obtain ⟨-, hmin, hmax, -⟩ := dxlServos_range j
  have hle : (dxlServos j).minPpr ≤ (dxlServos j).maxPpr := by
    rw [hmin, hmax]
    norm_num
  have hround : Monotone fun x : ℝ => clamp (lround x) (dxlServos j).minPpr (dxlServos j).maxPpr :=
    (clamp_mono hle).comp lround_mono
  exact (exactPpr_monotone_or_antitone j).imp hround.comp hround.comp_antitone

/-- An angle between 0 and `rad` gives a count between the zero count and the count of
    `rad`. -/
theorem counts_mem_uIcc (j : Fin 6) {rad rad' : ℝ} (hmem : rad' ∈ Set.uIcc 0 rad) :
    counts (dxlServos j) rad' ∈ Set.uIcc (dxlServos j).zeroPpr (counts (dxlServos j) rad) := by
  rw [← counts_zero j]
  rcases counts_monotone_or_antitone j with hf | hf
  · exact hf.mapsTo_uIcc hmem
  · exact hf.mapsTo_uIcc hmem

theorem InRange.of_mem_uIcc {rad rad' : ℝ} (h : InRange rad) (hmem : rad' ∈ Set.uIcc 0 rad) :
    InRange rad' :=
  (Approach.abs_le_of_mem_uIcc_zero hmem).trans h

theorem toPpr_mem_uIcc (j : Fin 6) {rad rad' : ℝ} (h : InRange rad)
    (hmem : rad' ∈ Set.uIcc 0 rad) :
    toPpr (dxlServos j) rad' ∈ Set.uIcc (dxlServos j).zeroPpr (toPpr (dxlServos j) rad) := by
  rw [toPpr_eq_counts j h, toPpr_eq_counts j (h.of_mem_uIcc hmem)]
  exact counts_mem_uIcc j hmem

end Hummingbird
