import Mathlib.Data.Int.Log
import Mathlib.Data.Rat.Floor
import Mathlib.Tactic

/-! Finite `double` values as rationals, with rounding to 53 significant bits. The exponent
range is not bounded here: infinities, NaN, signed zero and subnormal numbers are left out. -/
namespace V2IHub.Foundation.Binary64

/-- Nearest integer, ties to even. -/
def roundEven (q : ℚ) : ℤ :=
  let low := ⌊q⌋
  let part := q - low
  if part < 1 / 2 then low
  else if 1 / 2 < part then low + 1
  else if low % 2 = 0 then low else low + 1

@[simp] theorem roundEven_intCast (n : ℤ) : roundEven n = n := by simp [roundEven]

/-- The exponent of the last of 53 bits of a nonzero number. -/
def ulpExponent (q : ℚ) : ℤ := Int.log 2 |q| - 52

/-- Round to nearest, ties to even. -/
def round (q : ℚ) : ℚ :=
  if q = 0 then 0 else roundEven (q / 2 ^ ulpExponent q) * 2 ^ ulpExponent q

def add (a b : ℚ) : ℚ := round (a + b)

def mul (a b : ℚ) : ℚ := round (a * b)

/-- The conversion `(int64_t)`: truncation. Out of range C leaves the result open; this is
the answer of the usual hardware instruction. -/
def toInt64 (q : ℚ) : ℤ :=
  let t := if 0 ≤ q then ⌊q⌋ else ⌈q⌉
  if -2 ^ 63 ≤ t ∧ t < 2 ^ 63 then t else -2 ^ 63

/-- The conversion `(int)`, likewise. -/
def toInt32 (q : ℚ) : ℤ :=
  let t := if 0 ≤ q then ⌊q⌋ else ⌈q⌉
  if -2 ^ 31 ≤ t ∧ t < 2 ^ 31 then t else -2 ^ 31

theorem floor_le_roundEven (q : ℚ) : ⌊q⌋ ≤ roundEven q := by
  simp only [roundEven]
  split_ifs <;> omega

/-- Rounding loses less than the last bit. -/
theorem lt_round_add {q : ℚ} (hq : 0 < q) : q < round q + 2 ^ ulpExponent q := by
  have hunit : (0 : ℚ) < 2 ^ ulpExponent q := by positivity
  have hfloor : (⌊q / 2 ^ ulpExponent q⌋ : ℚ) ≤ roundEven (q / 2 ^ ulpExponent q) := by
    exact_mod_cast floor_le_roundEven _
  have hlt : q / 2 ^ ulpExponent q < roundEven (q / 2 ^ ulpExponent q) + 1 := by
    linarith [Int.lt_floor_add_one (q / 2 ^ ulpExponent q)]
  rw [round, if_neg hq.ne', ← add_one_mul]
  exact (div_lt_iff₀ hunit).mp hlt

theorem half_lt_round {q : ℚ} (hq : 0 < q) : q / 2 < round q := by
  have hlog : (2 : ℚ) ^ Int.log 2 q ≤ q := by
    have h := Int.zpow_log_le_self (b := 2) (by norm_num) hq
    exact_mod_cast h
  have hunit : (2 : ℚ) ^ ulpExponent q = 2 ^ Int.log 2 q / 2 ^ 52 := by
    rw [ulpExponent, abs_of_pos hq, zpow_sub₀ (by norm_num)]
    norm_cast
  have hlt := lt_round_add hq
  rw [hunit] at hlt
  linarith

theorem ulpExponent_dyadic_le {n : ℤ} (k : ℕ) (h0 : n ≠ 0) (hn : |n| < 2 ^ 53) :
    ulpExponent (n / 2 ^ k) ≤ -(k : ℤ) := by
  have hq : (n : ℚ) ≠ 0 := by exact_mod_cast h0
  have hpos : (0 : ℚ) < |(n : ℚ) / 2 ^ k| := by positivity
  have hlt : |(n : ℚ) / 2 ^ k| < ((2 : ℕ) : ℚ) ^ (53 - k : ℤ) := by
    have habs : |(n : ℚ)| < 2 ^ 53 := by exact_mod_cast hn
    rw [abs_div, abs_of_pos (by positivity : (0 : ℚ) < 2 ^ k), Nat.cast_two,
      zpow_sub₀ (by norm_num), zpow_natCast]
    exact div_lt_div_of_pos_right (by exact_mod_cast habs) (by positivity)
  have hlog := (Int.lt_zpow_iff_log_lt (by norm_num) hpos).mp hlt
  unfold ulpExponent
  omega

/-- Dyadic fractions with a numerator of at most 53 bits are represented exactly. -/
theorem round_dyadic {n : ℤ} (k : ℕ) (hn : |n| < 2 ^ 53) :
    round ((n : ℚ) / 2 ^ k) = n / 2 ^ k := by
  by_cases h0 : n = 0
  · simp [round, h0]
  obtain ⟨j, hj⟩ := Int.eq_ofNat_of_zero_le
    (show 0 ≤ -ulpExponent ((n : ℚ) / 2 ^ k) - k from by
      have := ulpExponent_dyadic_le k h0 hn
      omega)
  have he : ulpExponent ((n : ℚ) / 2 ^ k) = -((j + k : ℕ) : ℤ) := by push_cast; omega
  have hq : (n : ℚ) / 2 ^ k / 2 ^ (-((j + k : ℕ) : ℤ)) = ((n * 2 ^ j : ℤ) : ℚ) := by
    rw [zpow_neg, zpow_natCast, div_inv_eq_mul, pow_add]
    push_cast
    field_simp
  have hne : (n : ℚ) / 2 ^ k ≠ 0 := by
    have : (n : ℚ) ≠ 0 := by exact_mod_cast h0
    positivity
  rw [round, if_neg hne, he, hq, roundEven_intCast, zpow_neg, zpow_natCast, pow_add]
  push_cast
  field_simp

/-- Integers of at most 53 bits are represented exactly. -/
theorem round_intCast {n : ℤ} (hn : |n| < 2 ^ 53) : round n = n := by
  simpa using round_dyadic 0 hn

theorem round_natCast {n : ℕ} (hn : n < 2 ^ 53) : round n = n := by
  have h := round_intCast (n := n) (by rw [Nat.abs_cast]; exact_mod_cast hn)
  simpa using h

theorem toInt64_intCast {n : ℤ} (hn : |n| < 2 ^ 53) : toInt64 n = n := by
  have habs := abs_lt.mp hn
  have hrange : -2 ^ 63 ≤ n ∧ n < 2 ^ 63 := by constructor <;> linarith [habs.1, habs.2]
  simp only [toInt64, Int.floor_intCast, Int.ceil_intCast, ite_self]
  rw [if_pos hrange]

theorem abs_roundEven_sub_le (q : ℚ) : |(roundEven q : ℚ) - q| ≤ 1 / 2 := by
  have hle := Int.floor_le q
  have hlt := Int.lt_floor_add_one q
  rw [abs_le]
  simp only [roundEven]
  split_ifs <;> push_cast <;> constructor <;> linarith

theorem roundEven_eq_of_lt {q : ℚ} {n : ℤ} (h : |q - n| < 1 / 2) : roundEven q = n := by
  have hnear := abs_le.mp (abs_roundEven_sub_le q)
  have hlt := abs_lt.mp h
  have hlow : ((n - 1 : ℤ) : ℚ) < roundEven q := by push_cast; linarith [hnear.1, hlt.1]
  have hhigh : (roundEven q : ℚ) < ((n + 1 : ℤ) : ℚ) := by push_cast; linarith [hnear.2, hlt.2]
  have hlow' : n - 1 < roundEven q := by exact_mod_cast hlow
  have hhigh' : roundEven q < n + 1 := by exact_mod_cast hhigh
  omega

/-- A tie goes to the even neighbour. -/
theorem roundEven_eq_of_even {q : ℚ} {n : ℤ} (hn : Even n) (h : |q - n| ≤ 1 / 2) :
    roundEven q = n := by
  rcases h.lt_or_eq with hlt | htie
  · exact roundEven_eq_of_lt hlt
  obtain ⟨j, rfl⟩ := hn
  rcases eq_or_eq_neg_of_abs_eq htie with habove | hbelow
  · have hq : q = ((j + j : ℤ) : ℚ) + 1 / 2 := by linarith
    have hfloor : ⌊q⌋ = j + j := by
      rw [Int.floor_eq_iff, hq]
      constructor <;> linarith
    simp only [roundEven, hfloor]
    rw [if_neg (by rw [hq]; linarith), if_neg (by rw [hq]; linarith), if_pos (by omega)]
  · have hq : q = ((j + j : ℤ) : ℚ) - 1 / 2 := by linarith
    have hfloor : ⌊q⌋ = j + j - 1 := by
      rw [Int.floor_eq_iff, hq]
      push_cast
      constructor <;> linarith
    simp only [roundEven, hfloor]
    rw [if_neg (by rw [hq]; push_cast; linarith), if_neg (by rw [hq]; push_cast; linarith),
      if_neg (by omega)]
    omega

theorem le_abs_roundEven {q : ℚ} {n : ℕ} (h : (n : ℚ) ≤ |q|) : (n : ℤ) ≤ |roundEven q| := by
  have habs : |q| - 1 / 2 ≤ |(roundEven q : ℚ)| := by
    have := abs_sub_abs_le_abs_sub q (roundEven q)
    rw [abs_sub_comm] at this
    linarith [abs_roundEven_sub_le q]
  have hlt : ((n - 1 : ℤ) : ℚ) < |(roundEven q : ℚ)| := by push_cast; linarith
  have hlt' : (n : ℤ) - 1 < |roundEven q| := by exact_mod_cast hlt
  omega

theorem abs_roundEven_le {q : ℚ} {n : ℕ} (h : |q| ≤ n) : |roundEven q| ≤ (n : ℤ) := by
  have habs : |(roundEven q : ℚ)| ≤ |q| + 1 / 2 := by
    have := abs_sub_abs_le_abs_sub (roundEven q : ℚ) q
    linarith [abs_roundEven_sub_le q]
  have hlt : |(roundEven q : ℚ)| < ((n + 1 : ℤ) : ℚ) := by push_cast; linarith
  have hlt' : |roundEven q| < (n : ℤ) + 1 := by exact_mod_cast hlt
  omega

/-- The significand has 53 bits. -/
theorem abs_div_ulp_bounds {q : ℚ} (hq : q ≠ 0) :
    2 ^ 52 ≤ |q| / 2 ^ ulpExponent q ∧ |q| / 2 ^ ulpExponent q < 2 ^ 53 := by
  have hpos : 0 < |q| := abs_pos.mpr hq
  have hunit : (0 : ℚ) < 2 ^ ulpExponent q := by positivity
  have hlow := Int.zpow_log_le_self (b := 2) (by norm_num) hpos
  have hhigh := Int.lt_zpow_succ_log_self (b := 2) (by norm_num) |q|
  have hlog : Int.log 2 |q| = ulpExponent q + 52 := by
    unfold ulpExponent
    omega
  rw [hlog, Nat.cast_two, zpow_add₀ (by norm_num)] at hlow
  rw [hlog, Nat.cast_two, add_assoc, zpow_add₀ (by norm_num)] at hhigh
  norm_num at hlow hhigh
  rw [le_div_iff₀ hunit, div_lt_iff₀ hunit]
  constructor <;> linarith

theorem ulpExponent_eq {q : ℚ} {x : ℤ} (hq : q ≠ 0) (hlow : 2 ^ 52 ≤ |q| / 2 ^ x)
    (hhigh : |q| / 2 ^ x < 2 ^ 53) : ulpExponent q = x := by
  have hpos : 0 < |q| := abs_pos.mpr hq
  have hunit : (0 : ℚ) < 2 ^ x := by positivity
  rw [le_div_iff₀ hunit] at hlow
  rw [div_lt_iff₀ hunit] at hhigh
  have hge : x + 52 ≤ Int.log 2 |q| := by
    rw [← Int.zpow_le_iff_le_log (by norm_num) hpos, Nat.cast_two, zpow_add₀ (by norm_num)]
    norm_num
    linarith
  have hlt : Int.log 2 |q| < x + 53 := by
    rw [← Int.lt_zpow_iff_log_lt (by norm_num) hpos, Nat.cast_two, zpow_add₀ (by norm_num)]
    norm_num
    linarith
  unfold ulpExponent
  omega

/-- The significand of a rounded number, which may have been carried to the next power. -/
theorem significand_bounds {q : ℚ} (hq : q ≠ 0) :
    2 ^ 52 ≤ |(roundEven (q / 2 ^ ulpExponent q) : ℚ)| ∧
      |(roundEven (q / 2 ^ ulpExponent q) : ℚ)| ≤ 2 ^ 53 := by
  obtain ⟨hlow, hhigh⟩ := abs_div_ulp_bounds hq
  have hunit : (0 : ℚ) < 2 ^ ulpExponent q := by positivity
  have hdiv : |q / 2 ^ ulpExponent q| = |q| / 2 ^ ulpExponent q := by
    rw [abs_div, abs_of_pos hunit]
  have hge : ((2 ^ 52 : ℕ) : ℤ) ≤ |roundEven (q / 2 ^ ulpExponent q)| :=
    le_abs_roundEven (by rw [hdiv]; exact_mod_cast hlow)
  have hle : |roundEven (q / 2 ^ ulpExponent q)| ≤ ((2 ^ 53 : ℕ) : ℤ) :=
    abs_roundEven_le (by rw [hdiv]; push_cast; exact hhigh.le)
  exact ⟨by exact_mod_cast hge, by exact_mod_cast hle⟩

section Tenths
variable {m k : ℤ} {x : ℤ} {d : ℕ} {t : ℚ}

theorem abs_tenfold (m x : ℤ) : |(m : ℚ) * 2 ^ x * 10| = 10 * |(m : ℚ)| * 2 ^ x := by
  rw [abs_mul, abs_mul, abs_of_pos (by positivity : (0 : ℚ) < 2 ^ x),
    abs_of_pos (by norm_num : (0 : ℚ) < 10)]
  ring

/-- Ten times a significand of 53 bits that needs three more bits: the error is below a tie, or
it is a tie that goes to the even `k`. -/
theorem round_tenfold_short (hlow : 2 ^ 52 ≤ |(m : ℚ)|) (hshort : 10 * |(m : ℚ)| < 2 ^ 56)
    (hnear : |(m : ℚ) - t| ≤ 1 / 2) (hx : x + d = -4) (hk : (k : ℚ) * 2 ^ d = 10 * t / 16) :
    round (m * 2 ^ x * 10) = k := by
  have hm0 : (m : ℚ) ≠ 0 := by
    intro h
    rw [h] at hlow
    norm_num at hlow
  have hv : (m : ℚ) * 2 ^ x * 10 ≠ 0 := by positivity
  have hulp : ulpExponent (m * 2 ^ x * 10) = x + 3 := by
    apply ulpExponent_eq hv <;> rw [abs_tenfold, zpow_add₀ (by norm_num)]
    all_goals
      field_simp
      norm_num
      linarith
  have hquot : (m : ℚ) * 2 ^ x * 10 / 2 ^ (x + 3) = 5 * m / 4 := by
    rw [zpow_add₀ (by norm_num)]
    field_simp
    norm_num
  have heven : Even (k * 2 ^ (d + 1)) := ⟨k * 2 ^ d, by ring⟩
  have hN : ((k * 2 ^ (d + 1) : ℤ) : ℚ) = 5 / 4 * t := by
    push_cast
    rw [pow_succ, ← mul_assoc, hk]
    ring
  have hlt : |((5 * m - 4 * (k * 2 ^ (d + 1)) : ℤ) : ℚ)| < 3 := by
    have hsub : ((5 * m - 4 * (k * 2 ^ (d + 1)) : ℤ) : ℚ) = 5 * (m - t) := by
      rw [Int.cast_sub, Int.cast_mul 4, hN]
      push_cast
      ring
    rw [hsub, abs_mul, abs_of_pos (by norm_num : (0 : ℚ) < 5)]
    linarith
  -- the difference is a number of quarters, so it is two of them at most
  have hle : |5 * m - 4 * (k * 2 ^ (d + 1))| ≤ 2 := Int.lt_add_one_iff.mp (by exact_mod_cast hlt)
  have hle' : |((5 * m - 4 * (k * 2 ^ (d + 1)) : ℤ) : ℚ)| ≤ 2 := by exact_mod_cast hle
  have hclose : |(5 * m / 4 : ℚ) - (k * 2 ^ (d + 1) : ℤ)| ≤ 1 / 2 := by
    have hquarter : (5 * m / 4 : ℚ) - (k * 2 ^ (d + 1) : ℤ) =
        ((5 * m - 4 * (k * 2 ^ (d + 1)) : ℤ) : ℚ) / 4 := by
      push_cast
      ring
    rw [hquarter, abs_div, abs_of_pos (by norm_num : (0 : ℚ) < 4)]
    linarith
  rw [round, if_neg hv, hulp, hquot, roundEven_eq_of_even heven hclose, Int.cast_mul, mul_assoc,
    Int.cast_pow, Int.cast_ofNat, ← zpow_natCast, ← zpow_add₀ (by norm_num),
    show ((d + 1 : ℕ) : ℤ) + (x + 3) = 0 by push_cast; omega, zpow_zero, mul_one]

/-- With four more bits the error is below a tie. -/
theorem round_tenfold_long (hlong : 2 ^ 56 ≤ 10 * |(m : ℚ)|) (hhigh : |(m : ℚ)| ≤ 2 ^ 53)
    (hnear : |(m : ℚ) - t| ≤ 1 / 2) (hx : x + d = -4) (hk : (k : ℚ) * 2 ^ d = 10 * t / 16) :
    round (m * 2 ^ x * 10) = k := by
  have hm0 : (m : ℚ) ≠ 0 := by
    intro h
    rw [h] at hlong
    norm_num at hlong
  have hv : (m : ℚ) * 2 ^ x * 10 ≠ 0 := by positivity
  have hulp : ulpExponent (m * 2 ^ x * 10) = x + 4 := by
    apply ulpExponent_eq hv <;> rw [abs_tenfold, zpow_add₀ (by norm_num)]
    all_goals
      field_simp
      norm_num
      linarith
  have hquot : (m : ℚ) * 2 ^ x * 10 / 2 ^ (x + 4) = 5 * m / 8 := by
    rw [zpow_add₀ (by norm_num)]
    field_simp
    norm_num
  have hclose : |(5 * m / 8 : ℚ) - (k * 2 ^ d : ℤ)| < 1 / 2 := by
    have hsub : (5 * m / 8 : ℚ) - (k * 2 ^ d : ℤ) = 5 / 8 * (m - t) := by
      push_cast
      rw [hk]
      ring
    rw [hsub, abs_mul, abs_of_pos (by norm_num : (0 : ℚ) < 5 / 8)]
    linarith
  rw [round, if_neg hv, hulp, hquot, roundEven_eq_of_lt hclose, Int.cast_mul, mul_assoc,
    Int.cast_pow, Int.cast_ofNat, ← zpow_natCast, ← zpow_add₀ (by norm_num),
    show (d : ℤ) + (x + 4) = 0 by omega, zpow_zero, mul_one]

/-- The last bit of a number of tenths below `2 ^ 52` is worth less than an eighth. -/
theorem ulpExponent_tenth_lt (hk : |k| < 2 ^ 52) (h0 : (k : ℚ) / 10 ≠ 0) :
    ulpExponent ((k : ℚ) / 10) < -3 := by
  obtain ⟨hlow, -⟩ := abs_div_ulp_bounds h0
  have habs : |(k : ℚ) / 10| < 2 ^ 52 / 10 := by
    have hk' : |(k : ℚ)| < 2 ^ 52 := by exact_mod_cast hk
    rw [abs_div, abs_of_pos (by norm_num : (0 : ℚ) < 10)]
    linarith
  rw [le_div_iff₀ (by positivity)] at hlow
  have hpow : (2 : ℚ) ^ ulpExponent ((k : ℚ) / 10) < 2 ^ (-3 : ℤ) := by
    norm_num
    linarith
  exact (zpow_lt_zpow_iff_right₀ (by norm_num)).mp hpow

/-- The `double` of a number of tenths gives that number back when it is multiplied by ten. -/
theorem mul_round_tenth (hk : |k| < 2 ^ 52) : mul (round (k / 10)) 10 = k := by
  by_cases h0 : k = 0
  · simp [h0, round, mul]
  set q : ℚ := k / 10 with hqdef
  have hq : q ≠ 0 := by
    have : (k : ℚ) ≠ 0 := by exact_mod_cast h0
    positivity
  obtain ⟨hlow, hhigh⟩ := significand_bounds hq
  have hnear := abs_roundEven_sub_le (q / 2 ^ ulpExponent q)
  have hulp : ulpExponent q < -3 := ulpExponent_tenth_lt hk hq
  obtain ⟨d, hd⟩ := Int.eq_ofNat_of_zero_le (show 0 ≤ -ulpExponent q - 4 by omega)
  have hx : ulpExponent q + d = -4 := by omega
  have hexact : (k : ℚ) * 2 ^ d = 10 * (q / 2 ^ ulpExponent q) / 16 := by
    have hxd : (2 : ℚ) ^ ulpExponent q * 2 ^ d = 1 / 16 := by
      rw [← zpow_natCast, ← zpow_add₀ (by norm_num), hx]
      norm_num
    have hkx : (k : ℚ) = 10 * (q / 2 ^ ulpExponent q) * 2 ^ ulpExponent q := by
      rw [hqdef]
      field_simp
    rw [hkx, mul_assoc, hxd]
    ring
  rw [mul, show round q = roundEven (q / 2 ^ ulpExponent q) * 2 ^ ulpExponent q from if_neg hq]
  rcases lt_or_ge (10 * |(roundEven (q / 2 ^ ulpExponent q) : ℚ)|) (2 ^ 56) with hshort | hlong
  · exact round_tenfold_short hlow hshort hnear hx hexact
  · exact round_tenfold_long hlong hhigh hnear hx hexact

end Tenths
theorem abs_round_sub_le (q : ℚ) : |round q - q| ≤ |q| / 2 ^ 53 := by
  by_cases hq : q = 0
  · simp [round, hq]
  have hunit : (0 : ℚ) < 2 ^ ulpExponent q := by positivity
  have hlow := (abs_div_ulp_bounds hq).1
  have hnear := abs_roundEven_sub_le (q / 2 ^ ulpExponent q)
  have hscale : round q - q =
      (roundEven (q / 2 ^ ulpExponent q) - q / 2 ^ ulpExponent q) * 2 ^ ulpExponent q := by
    rw [round, if_neg hq, sub_mul, div_mul_cancel₀ _ hunit.ne']
  rw [le_div_iff₀ hunit] at hlow
  rw [hscale, abs_mul, abs_of_pos hunit]
  have hhalf := mul_le_mul_of_nonneg_right hnear hunit.le
  linarith

/-- The integer part of a number that is not negative. -/
theorem toInt64_of_le {q : ℚ} {n : ℕ} (hn : n < 2 ^ 53) (hle : (n : ℚ) ≤ q) (hlt : q < n + 1) :
    toInt64 q = n := by
  have hq : 0 ≤ q := (Nat.cast_nonneg n).trans hle
  have hfloor : ⌊q⌋ = n := by
    rw [Int.floor_eq_iff, Int.cast_natCast]
    exact ⟨hle, hlt⟩
  have hrange : -2 ^ 63 ≤ (n : ℤ) ∧ (n : ℤ) < 2 ^ 63 := by omega
  simp only [toInt64, if_pos hq, hfloor]
  rw [if_pos hrange]

section Sums

/-- A multiple of a fifth is never a tie, and a tie beside it goes the same way. -/
theorem roundEven_fifths {X N B : ℤ} {d : ℕ} (hX : Even X) (hN : |5 * N - X| ≤ 2)
    (hB : |5 * B - 2 ^ d * X| ≤ 2) : roundEven ((B : ℚ) / 2 ^ d) = N := by
  cases d with
  | zero =>
    rw [pow_zero, one_mul] at hB
    have heq : B = N := by
      rw [abs_le] at hN hB
      omega
    rw [pow_zero, div_one, heq, roundEven_intCast]
  | succ d =>
    obtain ⟨D, rfl⟩ : ∃ D, B = 2 ^ (d + 1) * N + D := ⟨B - 2 ^ (d + 1) * N, by ring⟩
    obtain ⟨e, rfl⟩ : ∃ e, X = 5 * N - e := ⟨5 * N - X, by ring⟩
    have hdiff : (((2 ^ (d + 1) * N + D : ℤ) : ℚ) / 2 ^ (d + 1) - N) = D / 2 ^ (d + 1) := by
      push_cast
      field_simp
      ring
    have hpow : (1 : ℤ) ≤ 2 ^ d := one_le_pow₀ (by norm_num)
    have hb : 5 * (2 ^ (d + 1) * N + D) - 2 ^ (d + 1) * (5 * N - e) = 5 * D + 2 * (2 ^ d * e) := by
      ring
    rw [hb] at hB
    rw [show 5 * N - (5 * N - e) = e by ring] at hN
    have habs : |(D : ℚ) / 2 ^ (d + 1)| = |(D : ℚ)| / (2 * 2 ^ d) := by
      rw [abs_div, abs_of_pos (by positivity : (0 : ℚ) < 2 ^ (d + 1)), pow_succ']
    have hpos : (0 : ℚ) < 2 * 2 ^ d := by positivity
    by_cases htie : |e| = 2
    · -- `N` is even, since five times it differs from an even number by two
      have heven : Even N := by
        rcases eq_or_eq_neg_of_abs_eq htie with rfl | rfl <;> grind
      have hle : |D| ≤ 2 ^ d := by
        rw [abs_le] at hB ⊢
        rcases eq_or_eq_neg_of_abs_eq htie with rfl | rfl <;> omega
      apply roundEven_eq_of_even heven
      rw [hdiff, habs, div_le_iff₀ hpos]
      have hle' : |(D : ℚ)| ≤ 2 ^ d := by exact_mod_cast hle
      linarith
    · have hlt : |D| < 2 ^ d := by
        have he : e = -1 ∨ e = 0 ∨ e = 1 := by grind
        rw [abs_le] at hB
        rw [abs_lt]
        rcases he with rfl | rfl | rfl <;> omega
      apply roundEven_eq_of_lt
      rw [hdiff, habs, div_lt_iff₀ hpos]
      have hlt' : |(D : ℚ)| < 2 ^ d := by exact_mod_cast hlt
      linarith

variable {n k : ℕ}

theorem roundEven_tenth (K : ℤ) (q : ℕ) :
    |5 * roundEven ((K : ℚ) / 10 / 2 ^ (-((q + 1 : ℕ) : ℤ))) - 2 ^ q * K| ≤ 2 := by
  have hnear := abs_roundEven_sub_le ((K : ℚ) / 10 / 2 ^ (-((q + 1 : ℕ) : ℤ)))
  set A := roundEven ((K : ℚ) / 10 / 2 ^ (-((q + 1 : ℕ) : ℤ))) with hA
  have hscale : ((5 * A - 2 ^ q * K : ℤ) : ℚ) =
      5 * (A - (K : ℚ) / 10 / 2 ^ (-((q + 1 : ℕ) : ℤ))) := by
    rw [zpow_neg, zpow_natCast, div_inv_eq_mul, pow_succ]
    push_cast
    ring
  have hlt : |((5 * A - 2 ^ q * K : ℤ) : ℚ)| < 3 := by
    rw [hscale, abs_mul, abs_of_pos (by norm_num : (0 : ℚ) < 5)]
    linarith
  exact Int.lt_add_one_iff.mp (by exact_mod_cast hlt)

theorem ulpExponent_mono {a b : ℚ} (ha : 0 < a) (h : a ≤ b) : ulpExponent a ≤ ulpExponent b := by
  have hlog := Int.log_mono_right (b := 2) ha h
  unfold ulpExponent
  rw [abs_of_pos ha, abs_of_pos (ha.trans_le h)]
  omega

/-- A multiple of a tenth that is close to a significand of 53 bits has 53 bits, too. -/
theorem tenth_bounds {K B : ℤ} {p d : ℕ} (hp3 : 3 ≤ p) (hp51 : p ≤ 51)
    (hlow : (2 : ℚ) ^ 52 ≤ (K : ℚ) / 10 / 2 ^ (-((p + 1 : ℕ) : ℤ)))
    (hhigh : (K : ℚ) / 10 / 2 ^ (-((p + 1 : ℕ) : ℤ)) < 2 ^ 53)
    (hB : |5 * B - 2 ^ d * (2 ^ p * K)| ≤ 2) : 2 ^ 52 * 2 ^ d ≤ B ∧ B < 2 ^ 53 * 2 ^ d := by
  have hscale : (K : ℚ) / 10 / 2 ^ (-((p + 1 : ℕ) : ℤ)) = ((2 ^ p * K : ℤ) : ℚ) / 5 := by
    rw [zpow_neg, zpow_natCast, div_inv_eq_mul, pow_succ]
    push_cast
    ring
  rw [hscale, le_div_iff₀ (by norm_num)] at hlow
  rw [hscale, div_lt_iff₀ (by norm_num)] at hhigh
  have hlow' : (2 : ℤ) ^ 52 * 5 ≤ 2 ^ p * K := by exact_mod_cast hlow
  have hhigh' : 2 ^ p * K < (2 : ℤ) ^ 53 * 5 := by exact_mod_cast hhigh
  have hd : (1 : ℤ) ≤ 2 ^ d := one_le_pow₀ (by norm_num)
  -- the bound is a multiple of the power as well, so it is missed by that power at least
  obtain ⟨c, hc⟩ : ∃ c : ℕ, 53 = p + c := ⟨53 - p, by omega⟩
  have hgap : 2 ^ p * K ≤ (2 : ℤ) ^ 53 * 5 - 2 ^ p := by
    rw [hc, pow_add, mul_assoc] at hhigh' ⊢
    have hlt : K < 2 ^ c * 5 := lt_of_mul_lt_mul_left hhigh' (by positivity)
    have hmul := mul_le_mul_of_nonneg_left (Int.le_sub_one_of_lt hlt)
      (by positivity : (0 : ℤ) ≤ 2 ^ p)
    linarith
  have hpow : (2 : ℤ) ^ 3 ≤ 2 ^ p := pow_le_pow_right₀ (by norm_num) hp3
  have hlowd := mul_le_mul_of_nonneg_left hlow' (by positivity : (0 : ℤ) ≤ 2 ^ d)
  have hhighd := mul_le_mul_of_nonneg_left hgap (by positivity : (0 : ℤ) ≤ 2 ^ d)
  have hgapd := mul_le_mul_of_nonneg_left hpow (by positivity : (0 : ℤ) ≤ 2 ^ d)
  rw [abs_le] at hB
  constructor <;> linarith

/-- A whole number added to a rounded number of tenths: the second rounding gives what rounding
the exact sum gives. -/
theorem round_add_round_tenth (hn : 0 < n) (hk : 0 < k) (hK : 10 * n + k < 2 ^ 52) :
    round (n + round (k / 10)) = round (((10 * n + k : ℕ) : ℚ) / 10) := by
  have hk0 : (0 : ℚ) < (k : ℤ) / 10 := by positivity
  have hK0 : (0 : ℚ) < ((10 * n + k : ℕ) : ℤ) / 10 := by positivity
  have hle : ((k : ℤ) : ℚ) / 10 ≤ ((10 * n + k : ℕ) : ℤ) / 10 := by
    push_cast
    linarith [(Nat.cast_nonneg n : (0 : ℚ) ≤ n)]
  have hone : (1 : ℚ) ≤ ((10 * n + k : ℕ) : ℤ) / 10 := by
    have : (1 : ℚ) ≤ n := by exact_mod_cast hn
    push_cast
    linarith [(Nat.cast_nonneg k : (0 : ℚ) ≤ k)]
  have hmono := ulpExponent_mono hk0 hle
  have hlow := ulpExponent_mono one_pos hone
  have hone' : ulpExponent 1 = -52 := by simp [ulpExponent]
  have hhigh := ulpExponent_tenth_lt (k := ((10 * n + k : ℕ) : ℤ))
    (by rw [Nat.abs_cast]; exact_mod_cast hK) hK0.ne'
  obtain ⟨p, hp⟩ := Int.eq_ofNat_of_zero_le
    (show 0 ≤ -ulpExponent (((10 * n + k : ℕ) : ℤ) / 10) - 1 by omega)
  obtain ⟨d, hd⟩ := Int.eq_ofNat_of_zero_le (show 0 ≤
    ulpExponent (((10 * n + k : ℕ) : ℤ) / 10) - ulpExponent (((k : ℤ) : ℚ) / 10) by omega)
  have hxK : ulpExponent (((10 * n + k : ℕ) : ℤ) / 10) = -((p + 1 : ℕ) : ℤ) := by omega
  have hxk : ulpExponent (((k : ℤ) : ℚ) / 10) = -((p + d + 1 : ℕ) : ℤ) := by omega
  have hp3 : 3 ≤ p := by omega
  have hp51 : p ≤ 51 := by omega
  set A := roundEven (((k : ℤ) : ℚ) / 10 / 2 ^ (-((p + d + 1 : ℕ) : ℤ))) with hA
  set N := roundEven ((((10 * n + k : ℕ) : ℤ) : ℚ) / 10 / 2 ^ (-((p + 1 : ℕ) : ℤ))) with hN
  have hAclose : |5 * A - 2 ^ (p + d) * (k : ℤ)| ≤ 2 := roundEven_tenth k (p + d)
  have hNclose : |5 * N - 2 ^ p * ((10 * n + k : ℕ) : ℤ)| ≤ 2 := roundEven_tenth _ p
  set B : ℤ := n * 2 ^ (p + d + 1) + A with hB
  have hBclose : |5 * B - 2 ^ d * (2 ^ p * ((10 * n + k : ℕ) : ℤ))| ≤ 2 := by
    have heq : 5 * B - 2 ^ d * (2 ^ p * ((10 * n + k : ℕ) : ℤ)) =
        5 * A - 2 ^ (p + d) * (k : ℤ) := by
      rw [hB]
      push_cast
      ring
    rw [heq]
    exact hAclose
  have hsum : (n : ℚ) + round (k / 10) = B / 2 ^ (p + d + 1) := by
    have hround : round ((k : ℚ) / 10) = A * 2 ^ (-((p + d + 1 : ℕ) : ℤ)) := by
      rw [hA, ← hxk, Int.cast_natCast, round, if_neg (by positivity)]
    rw [hround, hB, zpow_neg, zpow_natCast]
    push_cast
    field_simp
  have hquot : (B : ℚ) / 2 ^ (p + d + 1) / 2 ^ (-((p + 1 : ℕ) : ℤ)) = B / 2 ^ d := by
    rw [zpow_neg, zpow_natCast]
    field_simp
    ring
  have hbounds := abs_div_ulp_bounds hK0.ne'
  rw [hxK, abs_of_pos hK0] at hbounds
  obtain ⟨hBlow, hBhigh⟩ := tenth_bounds hp3 hp51 hbounds.1 hbounds.2 hBclose
  have hBpos : (0 : ℚ) < B := by
    have : (0 : ℤ) < B := lt_of_lt_of_le (by positivity) hBlow
    exact_mod_cast this
  have hne : (B : ℚ) / 2 ^ (p + d + 1) ≠ 0 := by positivity
  have hulp : ulpExponent ((B : ℚ) / 2 ^ (p + d + 1)) = -((p + 1 : ℕ) : ℤ) := by
    apply ulpExponent_eq hne <;> rw [abs_of_pos (by positivity), hquot]
    · rw [le_div_iff₀ (by positivity)]
      exact_mod_cast hBlow
    · rw [div_lt_iff₀ (by positivity)]
      exact_mod_cast hBhigh
  have hKne : (((10 * n + k : ℕ) : ℤ) : ℚ) / 10 ≠ 0 := hK0.ne'
  have heven : Even (2 ^ p * ((10 * n + k : ℕ) : ℤ)) :=
    (even_two.pow_of_ne_zero (by omega)).mul_right _
  rw [hsum, round, if_neg hne, hulp, hquot, roundEven_fifths heven hNclose hBclose,
    ← Int.cast_natCast (10 * n + k), round, if_neg hKne, hxK]

theorem round_round (q : ℚ) : round (round q) = round q := by
  by_cases hq : q = 0
  · simp [round, hq]
  obtain ⟨hlow, hhigh⟩ := significand_bounds hq
  have hunit : (0 : ℚ) < 2 ^ ulpExponent q := by positivity
  set m := roundEven (q / 2 ^ ulpExponent q) with hm
  have hround : round q = m * 2 ^ ulpExponent q := if_neg hq
  have hm0 : (m : ℚ) ≠ 0 := by
    intro h
    rw [h] at hlow
    norm_num at hlow
  have hne : (m : ℚ) * 2 ^ ulpExponent q ≠ 0 := by positivity
  rw [hround, round, if_neg hne]
  rcases hhigh.lt_or_eq with hlt | hcarry
  · have hulp : ulpExponent (m * 2 ^ ulpExponent q) = ulpExponent q := by
      apply ulpExponent_eq hne <;>
        rw [abs_mul, abs_of_pos hunit, mul_div_cancel_right₀ _ hunit.ne'] <;> assumption
    rw [hulp, mul_div_cancel_right₀ _ hunit.ne', roundEven_intCast]
  · have hhalf : |(m : ℚ) * 2 ^ ulpExponent q| / 2 ^ (ulpExponent q + 1) = 2 ^ 52 := by
      rw [abs_mul, abs_of_pos hunit, hcarry, zpow_add₀ (by norm_num), zpow_one]
      field_simp
    have hulp : ulpExponent (m * 2 ^ ulpExponent q) = ulpExponent q + 1 :=
      ulpExponent_eq hne hhalf.ge (hhalf.trans_lt (by norm_num))
    have hmhalf : (m : ℚ) * 2 ^ ulpExponent q / 2 ^ (ulpExponent q + 1) = m / 2 := by
      rw [zpow_add₀ (by norm_num), zpow_one]
      field_simp
    have hint : ∃ j : ℤ, (m : ℚ) / 2 = j := by
      rcases eq_or_eq_neg_of_abs_eq hcarry with h | h
      · exact ⟨2 ^ 52, by rw [h]; norm_num⟩
      · exact ⟨-2 ^ 52, by rw [h]; norm_num⟩
    obtain ⟨j, hj⟩ := hint
    rw [hulp, hmhalf, hj, roundEven_intCast, ← hj, zpow_add₀ (by norm_num), zpow_one]
    field_simp

/-- The same for any whole number. -/
theorem add_round_tenth (n k : ℕ) (hK : 10 * n + k < 2 ^ 52) :
    add n (round (k / 10)) = round (((10 * n + k : ℕ) : ℚ) / 10) := by
  rw [add]
  rcases Nat.eq_zero_or_pos n with rfl | hn
  · simp [round_round]
  rcases Nat.eq_zero_or_pos k with rfl | hk
  · simp [round]
  · exact round_add_round_tenth hn hk hK

end Sums
end V2IHub.Foundation.Binary64
