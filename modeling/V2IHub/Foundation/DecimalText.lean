import Mathlib.Data.Nat.Digits.Lemmas
import V2IHub.Foundation.Binary64
import V2IHub.Foundation.Bytes

/-! Decimal text: what the number conversions of `printf` write, and scanning it again. -/
namespace V2IHub.Foundation.DecimalText

def MINUS : UInt8 := 45
def PLUS : UInt8 := 43
def POINT : UInt8 := 46
def ZERO : UInt8 := 48
def LOWER_E : UInt8 := 101
def UPPER_E : UInt8 := 69

def isDigit (b : UInt8) : Bool := 48 ≤ b && b ≤ 57

def digitVal (b : UInt8) : ℕ := b.toNat - 48

def digitByte (d : ℕ) : UInt8 := UInt8.ofNat (48 + d)

/-- The digits of `n` without leading zeros. -/
def decimal (n : ℕ) : Bytes :=
  if n = 0 then [ZERO] else (Nat.digits 10 n).reverse.map digitByte

/-- The last `width` digits of `n`, with leading zeros. -/
def padded : ℕ → ℕ → Bytes
  | 0, _ => []
  | width + 1, n => padded width (n / 10) ++ [digitByte (n % 10)]

def signText (negative : Bool) : Bytes := if negative then [MINUS] else []

/-- `%lld` -/
def formatInt (z : ℤ) : Bytes := signText (z < 0) ++ decimal z.natAbs

/-- `%.0f` -/
def formatWhole (q : ℚ) : Bytes := signText (q < 0) ++ decimal (Binary64.roundEven |q|).natAbs

/-- `%f` -/
def formatFixed (q : ℚ) : Bytes :=
  let m := (Binary64.roundEven (|q| * 10 ^ 6)).natAbs
  signText (q < 0) ++ decimal (m / 10 ^ 6) ++ POINT :: padded 6 m

def exponentText (e : ℤ) : Bytes :=
  LOWER_E :: (if e < 0 then MINUS else PLUS) ::
    (if e.natAbs < 100 then padded 2 e.natAbs else decimal e.natAbs)

/-- `%e` -/
def formatExponent (q : ℚ) : Bytes :=
  if q = 0 then decimal 0 ++ POINT :: padded 6 0 ++ exponentText 0 else
  let e := Int.log 10 |q|
  let m := (Binary64.roundEven (|q| / 10 ^ (e - 6))).natAbs
  -- rounding up to the next power of ten moves the point
  let (m, e) := if m = 10 ^ 7 then (10 ^ 6, e + 1) else (m, e)
  signText (q < 0) ++ decimal (m / 10 ^ 6) ++ POINT :: padded 6 m ++ exponentText e

theorem isDigit_digitByte {d : ℕ} (h : d < 10) : isDigit (digitByte d) = true := by
  interval_cases d <;> decide

theorem digitVal_digitByte {d : ℕ} (h : d < 10) : digitVal (digitByte d) = d := by
  interval_cases d <;> decide

theorem decimal_isDigit (n : ℕ) : ∀ b ∈ decimal n, isDigit b = true := by
  intro b hb
  unfold decimal at hb
  split at hb
  · rw [List.mem_singleton.mp hb]
    decide
  · obtain ⟨d, hd, rfl⟩ := List.mem_map.mp hb
    exact isDigit_digitByte (Nat.digits_lt_base (by norm_num) (List.mem_reverse.mp hd))

theorem decimal_ne_nil (n : ℕ) : decimal n ≠ [] := by
  unfold decimal
  split
  · simp
  · next h => simpa [Nat.digits_eq_nil_iff_eq_zero] using h

theorem padded_isDigit (width n : ℕ) : ∀ b ∈ padded width n, isDigit b = true := by
  induction width generalizing n with
  | zero => simp [padded]
  | succ width ih =>
    intro b hb
    rcases List.mem_append.mp hb with hb | hb
    · exact ih _ b hb
    · rw [List.mem_singleton.mp hb]
      exact isDigit_digitByte (Nat.mod_lt _ (by norm_num))

/-- A positive number does not start with a zero. -/
theorem decimal_head {n : ℕ} (h : n ≠ 0) :
    ∃ d ds, decimal n = digitByte d :: ds ∧ 0 < d ∧ d < 10 := by
  have hne := Nat.digits_ne_nil_iff_ne_zero (b := 10) |>.mpr h
  have hlast := Nat.getLast_digit_ne_zero 10 h
  have hlt := Nat.digits_lt_base (b := 10) (m := n) (by norm_num) (List.getLast_mem hne)
  have hsplit := List.dropLast_concat_getLast hne
  refine ⟨(Nat.digits 10 n).getLast hne, ((Nat.digits 10 n).dropLast.reverse).map digitByte, ?_,
    Nat.pos_of_ne_zero hlast, hlt⟩
  rw [decimal, if_neg h]
  conv_lhs => rw [← hsplit]
  simp

/-- Reading the digits most significant first gives the number back. -/
theorem decimal_value (n : ℕ) :
    (decimal n).foldl (fun acc b => acc * 10 + digitVal b) 0 = n := by
  unfold decimal
  split
  · next h => rw [h]; decide
  · rw [List.foldl_map, List.foldl_reverse]
    have hval : ∀ ds : List ℕ, (∀ d ∈ ds, d < 10) →
        ds.foldr (fun d acc => acc * 10 + digitVal (digitByte d)) 0 = Nat.ofDigits 10 ds := by
      intro ds hds
      induction ds with
      | nil => rfl
      | cons d ds ih =>
        rw [List.foldr_cons, ih fun x hx => hds x (by simp [hx]),
          digitVal_digitByte (hds d (by simp)), Nat.ofDigits_cons]
        ring
    rw [hval _ fun d hd => Nat.digits_lt_base (by norm_num) hd, Nat.ofDigits_digits]

end V2IHub.Foundation.DecimalText
