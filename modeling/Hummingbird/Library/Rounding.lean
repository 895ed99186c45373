/-
  Rounding to the numbers of a binary floating-point format.

  A format has significands of `precision` binary digits and exponents below `maxExponent`. The
  last place of a number is the power of two that its significand is counted in; `Format.round`
  takes the nearest multiple of it, of two that are equally near the even one. A number that
  rounds to `2 ^ maxExponent` or beyond overflows.
-/
import Mathlib.Algebra.Order.Field.Power
import Mathlib.Algebra.Order.Floor.Ring
import Mathlib.Data.Int.Log
import Mathlib.Tactic.FieldSimp
import Mathlib.Tactic.Linarith
import Mathlib.Tactic.Ring
import Hummingbird.Library.Numerals

namespace Rounding

variable {K : Type*} [Field K] [LinearOrder K] [IsStrictOrderedRing K] [FloorRing K]

/-! ## Integers -/

/-- The nearest integer, and the even one of two. -/
def toEven (x : K) : ℤ :=
  let floor := ⌊x⌋
  let rest := x - floor
  if rest < 1 / 2 then floor
  else if 1 / 2 < rest then floor + 1
  else if floor % 2 = 0 then floor
  else floor + 1

theorem toEven_intCast (n : ℤ) : toEven (n : K) = n := by
  unfold toEven
  dsimp only
  rw [Int.floor_intCast, sub_self]
  exact if_pos (by norm_num)

theorem toEven_add_half {n : ℤ} (h : n % 2 = 0) : toEven ((n : K) + 1 / 2) = n := by
  have hfloor : ⌊(n : K) + 1 / 2⌋ = n := by
    rw [Int.floor_intCast_add, Int.floor_eq_zero_iff.mpr, add_zero]
    constructor <;> norm_num
  unfold toEven
  dsimp only
  rw [hfloor, add_sub_cancel_left, if_neg (lt_irrefl _), if_neg (lt_irrefl _), if_pos h]

theorem abs_sub_toEven_le (x : K) : |x - toEven x| ≤ 1 / 2 := by
  have hlo := Int.floor_le x
  have hhi := Int.lt_floor_add_one x
  unfold toEven
  dsimp only
  split_ifs
  · rw [abs_le]
    constructor <;> linarith
  · push_cast
    rw [abs_le]
    constructor <;> linarith
  · rw [abs_le]
    constructor <;> linarith
  · push_cast
    rw [abs_le]
    constructor <;> linarith

/-! ## Formats -/

structure Format where
  precision : ℕ
  maxExponent : ℤ

namespace Format

/-- IEEE 754 binary32. -/
def single : Format := ⟨24, 128⟩

/-- IEEE 754 binary64. -/
def double : Format := ⟨53, 1024⟩

variable (f : Format)

/-- The exponent of the last place, which below the normal numbers is that of the smallest. -/
def lastExponent (x : K) : ℤ :=
  max (Int.log 2 |x| + 1 - f.precision) (3 - f.maxExponent - f.precision)

/-- The nearest number with the precision of the format. -/
def round (x : K) : K := toEven (x / 2 ^ f.lastExponent x) * 2 ^ f.lastExponent x

/-- The midpoint between the greatest number of the format and `2 ^ maxExponent`. -/
def overflowBound : K := 2 ^ f.maxExponent - 2 ^ (f.maxExponent - f.precision - 1)

/-- The number is too large for the format. -/
def Overflows (x : K) : Prop := f.overflowBound ≤ |x|

instance : DecidablePred (f.Overflows (K := K)) :=
  fun x => inferInstanceAs (Decidable (f.overflowBound ≤ |x|))

variable {f}

omit [IsStrictOrderedRing K] in
theorem lastExponent_of_log {x : K} {e : ℤ} (h : Int.log 2 |x| + 1 - f.precision = e)
    (hnormal : 3 - f.maxExponent - f.precision ≤ e) : f.lastExponent x = e := by
  unfold lastExponent
  rw [h, max_eq_left hnormal]

theorem lastExponent_of_bounds {x : K} {k : ℤ} (hlo : 2 ^ k ≤ |x|) (hhi : |x| < 2 ^ (k + 1))
    (hnormal : 2 ≤ f.maxExponent + k) : f.lastExponent x = k + 1 - f.precision := by
  have hpos : 0 < |x| := (zpow_pos two_pos k).trans_le hlo
  have hle : k ≤ Int.log 2 |x| :=
    (Int.zpow_le_iff_le_log one_lt_two hpos).mp (by exact_mod_cast hlo)
  have hlt : Int.log 2 |x| < k + 1 :=
    (Int.lt_zpow_iff_log_lt one_lt_two hpos).mp (by exact_mod_cast hhi)
  exact lastExponent_of_log (by omega) (by omega)

/-- A multiple of its last place is its own rounding. -/
theorem round_of_eq {x : K} {e n : ℤ} (he : f.lastExponent x = e) (hx : x = n * 2 ^ e) :
    f.round x = x := by
  have hpos : (2 : K) ^ e ≠ 0 := zpow_ne_zero _ two_ne_zero
  have hquotient : x / 2 ^ e = n := by rw [hx, mul_div_cancel_right₀ _ hpos]
  unfold round
  rw [he, hquotient, toEven_intCast, ← hx]

/-- Halfway between two multiples of the last place. -/
theorem round_of_eq_half {x : K} {e n : ℤ} (he : f.lastExponent x = e) (hn : n % 2 = 0)
    (hx : x = (n + 1 / 2) * 2 ^ e) : f.round x = n * 2 ^ e := by
  have hpos : (2 : K) ^ e ≠ 0 := zpow_ne_zero _ two_ne_zero
  have hquotient : x / 2 ^ e = n + 1 / 2 := by rw [hx, mul_div_cancel_right₀ _ hpos]
  unfold round
  rw [he, hquotient, toEven_add_half hn]

theorem round_intCast (hformat : 3 ≤ f.maxExponent + f.precision) {n : ℤ}
    (hn : |n| < 2 ^ f.precision) : f.round (n : K) = n := by
  rcases eq_or_ne n 0 with rfl | hne
  · refine round_of_eq (n := 0) rfl ?_
    rw [Int.cast_zero, zero_mul]
  · have hpos : (0 : K) < |(n : K)| := abs_pos.mpr (Int.cast_ne_zero.mpr hne)
    have hlt : Int.log 2 |(n : K)| < f.precision :=
      (Int.lt_zpow_iff_log_lt one_lt_two hpos).mp (by exact_mod_cast hn)
    have hlast : f.lastExponent (n : K) ≤ 0 := max_le (by omega) (by omega)
    -- the places down to the last one are whole
    obtain ⟨k, hk⟩ := Int.eq_ofNat_of_zero_le (neg_nonneg.mpr hlast)
    refine round_of_eq (e := -(k : ℤ)) (n := n * 2 ^ k) (by omega) ?_
    rw [zpow_neg, zpow_natCast]
    push_cast
    rw [mul_inv_cancel_right₀ (pow_ne_zero k two_ne_zero)]

omit [FloorRing K] in
theorem le_overflowBound : (2 : K) ^ (f.maxExponent - 1) ≤ f.overflowBound := by
  have hmid : (2 : K) ^ (f.maxExponent - f.precision - 1) ≤ 2 ^ (f.maxExponent - 1) :=
    zpow_le_zpow_right₀ one_le_two (by omega)
  have hdouble : (2 : K) ^ f.maxExponent = 2 ^ (f.maxExponent - 1) + 2 ^ (f.maxExponent - 1) := by
    rw [← two_mul, ← zpow_one_add₀ two_ne_zero, add_sub_cancel]
  unfold overflowBound
  linarith

omit [FloorRing K] in
theorem not_overflows {x : K} {k : ℤ} (hk : k < f.maxExponent) (h : |x| < 2 ^ k) :
    ¬ f.Overflows x := by
  refine not_le.mpr (h.trans_le (le_trans ?_ le_overflowBound))
  exact zpow_le_zpow_right₀ one_le_two (Int.le_sub_one_of_lt hk)

omit [FloorRing K] in
/-- What is too large for a format is too large for one with fewer exponents. -/
theorem Overflows.of_lt {f g : Format} (hfg : f.maxExponent < g.maxExponent) {x : K}
    (hx : g.Overflows x) : f.Overflows x := by
  have hf : (f.overflowBound : K) ≤ 2 ^ f.maxExponent :=
    sub_le_self _ (zpow_nonneg zero_le_two _)
  have hg : (2 : K) ^ f.maxExponent ≤ 2 ^ (g.maxExponent - 1) :=
    zpow_le_zpow_right₀ one_le_two (Int.le_sub_one_of_lt hfg)
  exact (hf.trans (hg.trans le_overflowBound)).trans hx

omit [IsStrictOrderedRing K] [FloorRing K] in
@[simp] theorem overflows_neg {x : K} : f.Overflows (-x) ↔ f.Overflows x := by
  unfold Overflows
  rw [abs_neg]

omit [FloorRing K] in
theorem overflows_of_le {x : K} (h : 2 ^ f.maxExponent ≤ |x|) : f.Overflows x :=
  (sub_le_self _ (zpow_nonneg zero_le_two _)).trans h

end Format

end Rounding
