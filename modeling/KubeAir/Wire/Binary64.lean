import Mathlib.Data.Int.Log
import Mathlib.Data.Rat.Floor
import Mathlib.Tactic.Linarith
import Mathlib.Tactic.NormNum
import Mathlib.Tactic.Positivity
import Mathlib.Tactic.Ring
import Mathlib.Tactic.FieldSimp

/-! # Rounding to doubles

The nearest number with a significand of 53 bits, ties to even. The exponent is not bounded:
the numbers are to be of a size that a double can have.
-/
namespace KubeAir.Wire.Binary64
variable {x : ℚ} {n : ℤ}

/-- The nearest integer, the even one of two. -/
def roundEven (x : ℚ) : ℤ :=
  if x - ⌊x⌋ < 1 / 2 then ⌊x⌋
  else if 1 / 2 < x - ⌊x⌋ then ⌊x⌋ + 1
  else ⌊x⌋ + ⌊x⌋ % 2

/-- The exponent of the last place. -/
def place (x : ℚ) : ℤ := Int.log 2 |x| - 52

def toF64 (x : ℚ) : ℚ := roundEven (x / 2 ^ place x) * 2 ^ place x

theorem roundEven_intCast (n : ℤ) : roundEven n = n := by
  unfold roundEven
  rw [Int.floor_intCast,sub_self,if_pos (by norm_num)]

theorem roundEven_nonneg (h : 0 ≤ x) : 0 ≤ roundEven x := by
  have hfloor : 0 ≤ ⌊x⌋ := Int.floor_nonneg.mpr h
  unfold roundEven
  split_ifs <;> omega

theorem roundEven_le (h : x ≤ n) : roundEven x ≤ n := by
  have hfloor : ⌊x⌋ ≤ n := by exact_mod_cast (Int.floor_le x).trans h
  unfold roundEven
  rcases hfloor.lt_or_eq with hlt | rfl
  · split_ifs <;> omega
  · -- an integer is its own floor
    have hzero : x - ⌊x⌋ ≤ 0 := sub_nonpos.mpr h
    rw [if_pos (lt_of_le_of_lt hzero (by norm_num))]

theorem roundEven_error (x : ℚ) : |(roundEven x : ℚ) - x| ≤ 1 / 2 := by
  have hle := Int.floor_le x
  have hlt := Int.lt_floor_add_one x
  unfold roundEven
  split_ifs with hdown hup
  · rw [abs_le]
    constructor <;> linarith
  · push_cast
    rw [abs_le]
    constructor <;> linarith
  · have hmod : ⌊x⌋ % 2 = 0 ∨ ⌊x⌋ % 2 = 1 := Int.emod_two_eq_zero_or_one ⌊x⌋
    rcases hmod with hmod | hmod <;> rw [hmod] <;> push_cast <;> rw [abs_le] <;> constructor <;> linarith

theorem toF64_nonneg (h : 0 ≤ x) : 0 ≤ toF64 x := by
  have hpos : (0 : ℚ) < 2 ^ place x := zpow_pos two_pos _
  exact mul_nonneg (Int.cast_nonneg (roundEven_nonneg (div_nonneg h hpos.le))) hpos.le

/-- The error is at most half a unit in the last place. -/
theorem toF64_error (x : ℚ) : |toF64 x - x| ≤ 2 ^ place x / 2 := by
  have hpos : (0 : ℚ) < 2 ^ place x := zpow_pos two_pos _
  have herr := roundEven_error (x / 2 ^ place x)
  have hfactor : toF64 x - x = ((roundEven (x / 2 ^ place x) : ℚ) - x / 2 ^ place x) * 2 ^ place x := by
    unfold toF64
    rw [sub_mul,div_mul_cancel₀ x hpos.ne']
  rw [hfactor,abs_mul,abs_of_pos hpos]
  calc |(roundEven (x / 2 ^ place x) : ℚ) - x / 2 ^ place x| * 2 ^ place x ≤ 1 / 2 * 2 ^ place x :=
        mul_le_mul_of_nonneg_right herr hpos.le
    _ = 2 ^ place x / 2 := by ring

/-- A multiple of the last place is not changed. -/
theorem toF64_of_multiple (h : x = n * 2 ^ place x) : toF64 x = x := by
  have hpos : (0 : ℚ) < 2 ^ place x := zpow_pos two_pos _
  have hquot : x / 2 ^ place x = n := by
    rw [div_eq_iff hpos.ne']
    exact h
  unfold toF64
  rw [hquot,roundEven_intCast]
  exact h.symm

theorem place_lt {k : ℤ} (hx : x ≠ 0) (h : |x| < 2 ^ (k + 53)) : place x ≤ k := by
  have hpos : 0 < |x| := abs_pos.mpr hx
  have hlog : (2 : ℚ) ^ Int.log 2 |x| ≤ |x| := by exact_mod_cast Int.zpow_log_le_self (R := ℚ) one_lt_two hpos
  have hlt : (2 : ℚ) ^ Int.log 2 |x| < 2 ^ (k + 53) := lt_of_le_of_lt hlog h
  have := (zpow_lt_zpow_iff_right₀ (show (1 : ℚ) < 2 by norm_num)).mp hlt
  unfold place
  omega

/-- Rounding does not go beyond a multiple of the last place. -/
theorem toF64_le {y : ℚ} (h : x ≤ y) (hy : y = n * 2 ^ place x) : toF64 x ≤ y := by
  have hpos : (0 : ℚ) < 2 ^ place x := zpow_pos two_pos _
  have hquot : x / 2 ^ place x ≤ n := by
    rw [div_le_iff₀ hpos,← hy]
    exact h
  rw [hy]
  exact mul_le_mul_of_nonneg_right (Int.cast_le.mpr (roundEven_le hquot)) hpos.le

theorem toF64_le_one (h : x ≤ 1) : toF64 x ≤ 1 := by
  rcases le_or_gt x 0 with hneg | hpos
  · exact (toF64_le (n := 0) hneg (by simp)).trans zero_le_one
  · have hplace : place x ≤ -52 := by
      refine place_lt hpos.ne' ?_
      rw [abs_of_pos hpos]
      exact lt_of_le_of_lt h (by norm_num)
    obtain ⟨j,hj⟩ := Int.eq_ofNat_of_zero_le (show 0 ≤ -place x by omega)
    have hp : place x = -(j : ℤ) := by omega
    refine toF64_le (n := 2 ^ j) h ?_
    rw [hp,zpow_neg,zpow_natCast]
    push_cast
    exact (mul_inv_cancel₀ (pow_ne_zero j two_ne_zero)).symm

/-- Multiples of a power of two with 53 bits are doubles. -/
theorem toF64_of_lt {k : ℤ} (hx : x = n * 2 ^ k) (h : |x| < 2 ^ (k + 53)) : toF64 x = x := by
  by_cases hzero : x = 0
  · exact toF64_of_multiple (n := 0) (by simp [hzero])
  · obtain ⟨j,hj⟩ := Int.eq_ofNat_of_zero_le (sub_nonneg.mpr (place_lt hzero h))
    have hk : k = (j : ℤ) + place x := by omega
    refine toF64_of_multiple (n := n * 2 ^ j) ?_
    calc x = n * 2 ^ k := hx
      _ = n * (2 ^ (j : ℤ) * 2 ^ place x) := by rw [← zpow_add₀ two_ne_zero,← hk]
      _ = ((n * 2 ^ j : ℤ) : ℚ) * 2 ^ place x := by
        rw [zpow_natCast,← mul_assoc]
        push_cast
        rfl

/-- Integers of 53 bits are doubles. -/
theorem toF64_intCast (h : |n| < 2 ^ 53) : toF64 n = n := by
  refine toF64_of_lt (n := n) (k := 0) (by simp) ?_
  rw [zero_add]
  exact_mod_cast h

theorem toF64_natCast {k : ℕ} (h : k < 2 ^ 53) : toF64 k = k := by
  have hint : |(k : ℤ)| < 2 ^ 53 := by
    rw [abs_of_nonneg (Int.natCast_nonneg k)]
    exact_mod_cast h
  exact_mod_cast toF64_intCast hint

theorem toF64_half : toF64 (1 / 2) = 1 / 2 := toF64_of_lt (n := 1) (k := -1) (by norm_num) (by norm_num)

theorem toF64_error_of_lt {k : ℤ} (h : |x| < 2 ^ (k + 53)) : |toF64 x - x| ≤ 2 ^ k / 2 := by
  by_cases hx : x = 0
  · rw [hx,toF64_of_multiple (n := 0) (by simp),sub_zero,abs_zero]
    exact (div_pos (zpow_pos two_pos k) two_pos).le
  · have hplace := zpow_le_zpow_right₀ (show (1 : ℚ) ≤ 2 by norm_num) (place_lt hx h)
    exact (toF64_error x).trans (div_le_div_of_nonneg_right hplace zero_le_two)

/-- A number that is closer to a fraction than the denominator tells apart has its ceiling. -/
theorem ceil_eq_of_close {n d : ℤ} {y : ℚ} (hd : 0 < d) (hwhole : d ∣ n → y = n / d)
    (hclose : |y - n / d| < 1 / d) : ⌈y⌉ = ⌈(n : ℚ) / d⌉ := by
  have hdq : (0 : ℚ) < d := Int.cast_pos.mpr hd
  by_cases hn : d ∣ n
  · rw [hwhole hn]
  · rw [Int.ceil_eq_iff]
    have hle := Int.le_ceil ((n : ℚ) / d)
    have hlt := Int.ceil_lt_add_one ((n : ℚ) / d)
    generalize ⌈(n : ℚ) / d⌉ = c at hle hlt
    have hupper : n ≤ c * d := by exact_mod_cast (div_le_iff₀ hdq).mp hle
    have hlower : (c - 1) * d < n := by exact_mod_cast (lt_div_iff₀ hdq).mp (sub_lt_iff_lt_add.mpr hlt)
    have hne : n ≠ c * d := fun h => hn ⟨c,by rw [h,mul_comm]⟩
    have hup : (n : ℚ) / d ≤ c - 1 / d := by
      rw [div_le_iff₀ hdq,sub_mul,div_mul_cancel₀ _ hdq.ne']
      exact_mod_cast (show n ≤ c * d - 1 by omega)
    have hlow : ((c : ℚ) - 1) + 1 / d ≤ (n : ℚ) / d := by
      rw [le_div_iff₀ hdq,add_mul,div_mul_cancel₀ _ hdq.ne']
      exact_mod_cast (show (c - 1) * d + 1 ≤ n by omega)
    obtain ⟨hleft,hright⟩ := abs_lt.mp hclose
    constructor <;> linarith

end KubeAir.Wire.Binary64
