import V2IHub.Foundation.Binary64

/-! `getAdjustedTime`: the tenths of a second since the last hour, some time from now. Instants
are nanoseconds since the epoch. -/
namespace V2IHub.Utils
open Foundation Binary64

def MILLISECOND : ℕ := 1000000
def SECOND : ℕ := 1000 * MILLISECOND
def MINUTE : ℕ := 60 * SECOND
def HOUR : ℕ := 60 * MINUTE

/-- What the minutes, seconds and milliseconds give as doubles. -/
def tenths (m s ms : ℕ) : ℤ :=
  let fractionSeconds := add s (Binary64.round (ms / 1000))
  let retTimeD := mul (add (m * 60 : ℕ) fractionSeconds) 10
  toInt64 retTimeD

/-- The function of `Clock` and of `Ntcip1202`; `tp -= d` leaves the remainder. -/
def adjustedTime (now offset_tenthofSec : ℕ) : ℤ :=
  let offset_ms := offset_tenthofSec * 100
  let tp := (now + offset_ms * MILLISECOND) % (24 * HOUR)
  let tp := tp % HOUR
  let m := tp / MINUTE
  let tp := tp % MINUTE
  let s := tp / SECOND
  let tp := tp % SECOND
  let ms := tp / MILLISECOND
  tenths m s ms

/-- The tenths of a second since the epoch. -/
def epochTenths (now : ℕ) : ℕ := now / (100 * MILLISECOND)

section Tenths
variable {m s ms : ℕ}

/-- A whole number of tenths comes through the roundings as it is. -/
theorem tenths_of_tenth {j : ℕ} (hm : m < 60) (hs : s < 60) (hj : j < 10) :
    tenths m s (100 * j) = 600 * m + 10 * s + j := by
  have hms : (((100 * j : ℕ) : ℚ) / 1000) = j / 10 := by
    push_cast
    ring
  have hsum : 10 * (m * 60) + (10 * s + j) = 600 * m + 10 * s + j := by ring
  have hlt : 600 * m + 10 * s + j < 2 ^ 52 := by omega
  have habs : |((600 * m + 10 * s + j : ℕ) : ℤ)| < 2 ^ 52 := by
    rw [Nat.abs_cast]
    exact_mod_cast hlt
  have hexact := mul_round_tenth habs
  rw [Int.cast_natCast] at hexact
  rw [tenths, hms, add_round_tenth s j (by omega), add_round_tenth (m * 60) (10 * s + j) (by omega),
    hsum, hexact, ← Int.cast_natCast, toInt64_intCast (habs.trans (by norm_num))]
  push_cast
  ring

/-- Between two tenths the roundings are too small to reach the next one. -/
theorem tenths_between {j r : ℕ} (hm : m < 60) (hs : s < 60) (hj : j < 10) (hr : 0 < r)
    (hr' : r < 100) : tenths m s (100 * j + r) = 600 * m + 10 * s + j := by
  have hm' : (m : ℚ) ≤ 59 := by exact_mod_cast Nat.le_of_lt_succ hm
  have hs' : (s : ℚ) ≤ 59 := by exact_mod_cast Nat.le_of_lt_succ hs
  have hj' : (j : ℚ) ≤ 9 := by exact_mod_cast Nat.le_of_lt_succ hj
  have hrlow : (1 : ℚ) ≤ r := by exact_mod_cast hr
  have hrhigh : (r : ℚ) ≤ 99 := by exact_mod_cast Nat.le_of_lt_succ hr'
  have hm0 : (0 : ℚ) ≤ m := Nat.cast_nonneg m
  have hs0 : (0 : ℚ) ≤ s := Nat.cast_nonneg s
  have hj0 : (0 : ℚ) ≤ j := Nat.cast_nonneg j
  set q : ℚ := ((100 * j + r : ℕ) : ℚ) / 1000 with hq
  have hqval : q = j / 10 + r / 1000 := by
    rw [hq]
    push_cast
    ring
  set f := Binary64.round q with hf
  set g := Binary64.round (s + f) with hg
  set h := Binary64.round ((m * 60 : ℕ) + g) with hh
  set t := Binary64.round (h * 10) with ht
  have hferr : |f - q| ≤ 1 / 2 ^ 50 :=
    (abs_round_sub_le q).trans (by rw [abs_of_nonneg (by linarith), hqval]; linarith)
  rw [abs_le] at hferr
  have hgerr : |g - (s + f)| ≤ 1 / 2 ^ 46 :=
    (abs_round_sub_le _).trans (by rw [abs_of_nonneg (by linarith)]; linarith)
  rw [abs_le] at hgerr
  have hherr : |h - ((m * 60 : ℕ) + g)| ≤ 1 / 2 ^ 40 := by
    refine (abs_round_sub_le _).trans ?_
    push_cast
    rw [abs_of_nonneg (by linarith)]
    linarith
  rw [abs_le] at hherr
  push_cast at hherr
  have hterr : |t - h * 10| ≤ 1 / 2 ^ 36 :=
    (abs_round_sub_le _).trans (by rw [abs_of_nonneg (by linarith)]; linarith)
  rw [abs_le] at hterr
  have hresult := toInt64_of_le (q := t) (n := 600 * m + 10 * s + j) (by omega)
    (by push_cast; linarith) (by push_cast; linarith)
  rw [tenths, add, add, mul, ← hf, ← hg, ← hh, ← ht, hresult]
  push_cast
  ring

theorem tenths_eq (hm : m < 60) (hs : s < 60) (hms : ms < 1000) :
    tenths m s ms = 600 * m + 10 * s + ms / 100 := by
  obtain ⟨j, r, hr, rfl⟩ : ∃ j r, r < 100 ∧ ms = 100 * j + r :=
    ⟨ms / 100, ms % 100, Nat.mod_lt _ (by norm_num), (Nat.div_add_mod _ _).symm⟩
  have hj : (100 * j + r) / 100 = j := by omega
  rcases Nat.eq_zero_or_pos r with rfl | hpos
  · rw [add_zero, tenths_of_tenth hm hs (by omega)]
    omega
  · rw [tenths_between hm hs (by omega) hpos hr]
    omega

end Tenths

/-- The tenths of now and of the offset, without the hours. -/
theorem adjustedTime_eq (now offset_tenthofSec : ℕ) :
    adjustedTime now offset_tenthofSec = ((epochTenths now + offset_tenthofSec) % 36000 : ℕ) := by
  unfold adjustedTime epochTenths
  simp only [HOUR, MINUTE, SECOND, MILLISECOND, Nat.reduceMul]
  rw [tenths_eq (by omega) (by omega) (by omega)]
  omega

end V2IHub.Utils
