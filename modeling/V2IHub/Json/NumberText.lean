import V2IHub.Json.Parse

/-! Numbers on the wire: the parser reads exactly the text the printer writes, and the
integers of a message header come back unchanged. -/
namespace V2IHub.Json
open Foundation DecimalText

/-- The shape of every number the printer writes. -/
structure NumberText where
  negative : Bool
  whole : Bytes
  fraction : Option Bytes
  exponent : Option (Bool × Bytes)
  whole_ne : whole ≠ []
  whole_digits : ∀ b ∈ whole, isDigit b = true
  fraction_digits : ∀ ds ∈ fraction, ∀ b ∈ ds, isDigit b = true
  exponent_digits : ∀ e ∈ exponent, ∀ b ∈ e.2, isDigit b = true

namespace NumberText

def fractionText (t : NumberText) : Bytes := t.fraction.elim [] (POINT :: ·)

def exponentPart (t : NumberText) : Bytes :=
  t.exponent.elim [] fun e => LOWER_E :: (if e.1 then MINUS else PLUS) :: e.2

def text (t : NumberText) : Bytes :=
  signText t.negative ++ (t.whole ++ (t.fractionText ++ t.exponentPart))

def wholeValue (t : NumberText) : ℚ := (scanDigits 0 (t.whole.dropWhile (· = ZERO))).1

/-- All digits before the exponent as one number, and the scale the point gives it. -/
def mantissa (t : NumberText) : ℚ × ℤ :=
  match t.fraction with
  | none => (t.wholeValue, 0)
  | some ds => ((scanDigits t.wholeValue ds).1, -((scanDigits t.wholeValue ds).2.1 : ℤ))

def subscale (t : NumberText) : ℤ :=
  match t.exponent with
  | none => 0
  | some (true, ds) => -(scanExponent 0 ds).1
  | some (false, ds) => (scanExponent 0 ds).1

def double (t : NumberText) : ℚ :=
  Binary64.mul (Binary64.mul (if t.negative then -1 else 1) t.mantissa.1)
    (Binary64.round (10 ^ (t.mantissa.2 + t.subscale)))

def value (t : NumberText) : CJson := .number (Binary64.toInt64 t.double) t.double

end NumberText

/-- What follows a number in a printed tree never continues it. -/
def EndsNumber (rest : Bytes) : Prop :=
  ∀ b ∈ rest.head?, isDigit b = false ∧ b ≠ POINT ∧ b ≠ LOWER_E ∧ b ≠ UPPER_E

theorem endsNumber_cons {b : UInt8} {rest : Bytes}
    (h : isDigit b = false ∧ b ≠ POINT ∧ b ≠ LOWER_E ∧ b ≠ UPPER_E) : EndsNumber (b :: rest) := by
  simpa [EndsNumber] using h

def NoDigit (rest : Bytes) : Prop := ∀ b ∈ rest.head?, isDigit b = false

theorem EndsNumber.noDigit {rest : Bytes} (h : EndsNumber rest) : NoDigit rest :=
  fun b hb => (h b hb).1

theorem noDigit_cons {b : UInt8} {rest : Bytes} (h : isDigit b = false) : NoDigit (b :: rest) := by
  simpa [NoDigit] using h

theorem scanDigits_append {ds rest : Bytes} (n : ℚ) (hd : ∀ b ∈ ds, isDigit b = true)
    (hr : NoDigit rest) :
    scanDigits n (ds ++ rest) = ((scanDigits n ds).1, (scanDigits n ds).2.1, rest) := by
  induction ds generalizing n with
  | nil =>
    cases rest with
    | nil => rfl
    | cons b rest => simp [scanDigits, hr b (by simp)]
  | cons d ds ih =>
    have hrest := ih (Binary64.add (Binary64.mul n 10) (digitVal d)) fun b hb => hd b (by simp [hb])
    simp [scanDigits, hd d (by simp), hrest]

theorem scanExponent_append {ds rest : Bytes} (n : ℤ) (hd : ∀ b ∈ ds, isDigit b = true)
    (hr : NoDigit rest) : scanExponent n (ds ++ rest) = ((scanExponent n ds).1, rest) := by
  induction ds generalizing n with
  | nil =>
    cases rest with
    | nil => rfl
    | cons b rest => simp [scanExponent, hr b (by simp)]
  | cons d ds ih =>
    have hrest := ih (n * 10 + digitVal d) fun b hb => hd b (by simp [hb])
    simp [scanExponent, hd d (by simp), hrest]

theorem isDigit_ne_minus {b : UInt8} (h : isDigit b = true) : b ≠ MINUS := by
  rintro rfl
  revert h
  decide

theorem scanSign_text (t : NumberText) (rest : Bytes) :
    scanSign (signText t.negative ++ (t.whole ++ rest)) =
      (if t.negative then -1 else 1, t.whole ++ rest) := by
  obtain ⟨b, ds, hw⟩ := List.exists_cons_of_ne_nil t.whole_ne
  have hb : b ≠ MINUS := isDigit_ne_minus (t.whole_digits b (by simp [hw]))
  cases t.negative with
  | true => simp [signText, scanSign]
  | false => simp [signText, scanSign, hw, hb]

theorem scanInteger_text (t : NumberText) {rest : Bytes} (hr : NoDigit rest) :
    scanInteger (t.whole ++ rest) = (t.wholeValue, rest) := by
  have hskip : (t.whole ++ rest).dropWhile (· = ZERO) = t.whole.dropWhile (· = ZERO) ++ rest := by
    rw [List.dropWhile_append]
    split
    · next hnil =>
      rw [List.isEmpty_iff.mp hnil, List.nil_append]
      cases rest with
      | nil => rfl
      | cons b rest =>
        have hb : b ≠ ZERO := by
          rintro rfl
          simpa [isDigit, ZERO] using hr ZERO (by simp)
        simp [hb]
    · rfl
  have hd : ∀ b ∈ t.whole.dropWhile (· = ZERO), isDigit b = true :=
    fun b hb => t.whole_digits b ((List.dropWhile_suffix _).subset hb)
  simp only [scanInteger, hskip, scanDigits_append 0 hd hr]
  rfl

theorem exponentPart_noDigit (t : NumberText) {rest : Bytes} (hr : EndsNumber rest) :
    NoDigit (t.exponentPart ++ rest) ∧ (t.exponentPart ++ rest).head? ≠ some POINT := by
  unfold NumberText.exponentPart
  cases t.exponent with
  | none =>
    refine ⟨by simpa using hr.noDigit, fun hp => ?_⟩
    exact (hr POINT (by simpa using hp)).2.1 rfl
  | some e => exact ⟨noDigit_cons (by decide), by simp [LOWER_E, POINT]⟩

theorem scanFraction_text (t : NumberText) {rest : Bytes} (hr : EndsNumber rest) :
    scanFraction t.wholeValue (t.fractionText ++ (t.exponentPart ++ rest)) =
      (t.mantissa.1, t.mantissa.2, t.exponentPart ++ rest) := by
  obtain ⟨hnd, hnp⟩ := exponentPart_noDigit t hr
  unfold NumberText.fractionText NumberText.mantissa
  cases hf : t.fraction with
  | none =>
    cases he : t.exponentPart ++ rest with
    | nil => simp [scanFraction]
    | cons b tail =>
      rw [he] at hnp
      have hb : b ≠ POINT := by simpa using hnp
      simp [scanFraction, hb]
  | some ds =>
    simp [scanFraction, scanDigits_append _ (t.fraction_digits ds (by simp [hf])) hnd]

theorem scanExponentPart_text (t : NumberText) {rest : Bytes} (hr : EndsNumber rest) :
    scanExponentPart (t.exponentPart ++ rest) = (t.subscale, rest) := by
  unfold NumberText.exponentPart NumberText.subscale
  cases he : t.exponent with
  | none =>
    cases rest with
    | nil => rfl
    | cons b rest =>
      obtain ⟨-, -, hl, hu⟩ := hr b (by simp)
      simp [scanExponentPart, hl, hu]
  | some e =>
    obtain ⟨neg, ds⟩ := e
    have hscan := scanExponent_append 0 (t.exponent_digits (neg, ds) (by simp [he])) hr.noDigit
    have hpm : PLUS ≠ MINUS ∧ MINUS ≠ PLUS := by decide
    cases neg with
    | true => simp [scanExponentPart, hpm.2, hscan]
    | false => simp [scanExponentPart, hscan]

/-- The parser stops where the printed number ends. -/
theorem parseNumber_text (t : NumberText) {rest : Bytes} (hr : EndsNumber rest) :
    parseNumber (t.text ++ rest) = (t.value, rest) := by
  have hshape : t.text ++ rest =
      signText t.negative ++ (t.whole ++ (t.fractionText ++ (t.exponentPart ++ rest))) := by
    simp [NumberText.text]
  have hnd : NoDigit (t.fractionText ++ (t.exponentPart ++ rest)) := by
    unfold NumberText.fractionText
    cases t.fraction with
    | none => simpa using (exponentPart_noDigit t hr).1
    | some ds => exact noDigit_cons (by decide)
  simp only [parseNumber, hshape, scanSign_text, scanInteger_text t hnd, scanFraction_text t hr,
    scanExponentPart_text t hr]
  rfl

/-- The text of an integer. -/
def integerText (negative : Bool) (n : ℕ) : NumberText where
  negative := negative
  whole := decimal n
  fraction := none
  exponent := none
  whole_ne := decimal_ne_nil n
  whole_digits := decimal_isDigit n
  fraction_digits := by simp
  exponent_digits := by simp

theorem integerText_text (negative : Bool) (n : ℕ) :
    (integerText negative n).text = signText negative ++ decimal n := by
  simp [NumberText.text, NumberText.fractionText, NumberText.exponentPart, integerText]

def fixedText (negative : Bool) (n m : ℕ) : NumberText where
  negative := negative
  whole := decimal n
  fraction := some (padded 6 m)
  exponent := none
  whole_ne := decimal_ne_nil n
  whole_digits := decimal_isDigit n
  fraction_digits := by simpa using padded_isDigit 6 m
  exponent_digits := by simp

theorem fixedText_text (negative : Bool) (n m : ℕ) :
    (fixedText negative n m).text = signText negative ++ decimal n ++ POINT :: padded 6 m := by
  simp [NumberText.text, NumberText.fractionText, NumberText.exponentPart, fixedText]

theorem exponentDigits_isDigit (n : ℕ) :
    ∀ b ∈ (if n < 100 then padded 2 n else decimal n), isDigit b = true := by
  split
  · exact padded_isDigit 2 n
  · exact decimal_isDigit n

def scientificText (negative : Bool) (n m : ℕ) (e : ℤ) : NumberText where
  negative := negative
  whole := decimal n
  fraction := some (padded 6 m)
  exponent := some (e < 0, if e.natAbs < 100 then padded 2 e.natAbs else decimal e.natAbs)
  whole_ne := decimal_ne_nil n
  whole_digits := decimal_isDigit n
  fraction_digits := by simpa using padded_isDigit 6 m
  exponent_digits := by simpa using exponentDigits_isDigit e.natAbs

theorem scientificText_text (negative : Bool) (n m : ℕ) (e : ℤ) :
    (scientificText negative n m e).text =
      signText negative ++ decimal n ++ POINT :: padded 6 m ++ exponentText e := by
  simp [NumberText.text, NumberText.fractionText, NumberText.exponentPart, scientificText,
    exponentText]

theorem printNumber_text (valueint : ℤ) (d : ℚ) :
    ∃ t : NumberText, printNumber valueint d = t.text := by
  unfold printNumber
  split
  · exact ⟨integerText (valueint < 0) valueint.natAbs, by simp [integerText_text, formatInt]⟩
  split
  · exact ⟨integerText (d < 0) _, by rw [integerText_text]; rfl⟩
  split
  · unfold formatExponent
    split
    · exact ⟨scientificText false 0 0 0, by rw [scientificText_text]; rfl⟩
    · exact ⟨scientificText (d < 0) _ _ _, by rw [scientificText_text]⟩
  · exact ⟨fixedText (d < 0) _ _, by rw [fixedText_text]; rfl⟩

/-- Reading a digit string whose value has at most 53 bits involves no rounding. -/
theorem scanDigits_exact {ds : Bytes} (acc : ℕ) (hd : ∀ b ∈ ds, isDigit b = true)
    (hb : ds.foldl (fun acc b => acc * 10 + digitVal b) acc < 2 ^ 53) :
    (scanDigits acc ds).1 = (ds.foldl (fun acc b => acc * 10 + digitVal b) acc : ℕ) := by
  have grows : ∀ (ds : Bytes) (acc : ℕ),
      acc ≤ ds.foldl (fun acc b => acc * 10 + digitVal b) acc := by
    intro ds
    induction ds with
    | nil => exact fun acc => le_rfl
    | cons b ds ih =>
      intro acc
      have h := ih (acc * 10 + digitVal b)
      rw [List.foldl_cons]
      omega
  induction ds generalizing acc with
  | nil => rfl
  | cons b ds ih =>
    rw [List.foldl_cons] at hb ⊢
    have hle := grows ds (acc * 10 + digitVal b)
    have hmul : Binary64.mul acc 10 = ((acc * 10 : ℕ) : ℚ) := by
      rw [Binary64.mul, ← Binary64.round_natCast (n := acc * 10) (by omega)]
      push_cast
      rfl
    have hadd : Binary64.add (Binary64.mul acc 10) (digitVal b) =
        ((acc * 10 + digitVal b : ℕ) : ℚ) := by
      rw [hmul, Binary64.add, ← Binary64.round_natCast (n := acc * 10 + digitVal b) (by omega)]
      push_cast
      rfl
    simp only [scanDigits, hd b (by simp), if_true, hadd]
    exact ih _ (fun x hx => hd x (by simp [hx])) hb

theorem integerText_wholeValue (negative : Bool) {n : ℕ} (hn : n < 2 ^ 53) :
    (integerText negative n).wholeValue = n := by
  have hscan : (scanDigits ((0 : ℕ) : ℚ) (decimal n)).1 = n := by
    have h := scanDigits_exact 0 (decimal_isDigit n) (by rwa [decimal_value])
    rwa [decimal_value] at h
  unfold NumberText.wholeValue integerText
  by_cases h0 : n = 0
  · subst h0
    simp [decimal, scanDigits]
  · obtain ⟨d, ds, hdec, hd0, hd⟩ := decimal_head h0
    have hne : digitByte d ≠ ZERO := by
      intro he
      have hv := congrArg digitVal he
      rw [digitVal_digitByte hd] at hv
      have hz : digitVal ZERO = 0 := by decide
      omega
    have hkeep : (decimal n).dropWhile (· = ZERO) = decimal n := by
      rw [hdec]
      simp [hne]
    rw [hkeep]
    simpa using hscan

/-- The integers of at most 53 bits, as the parser reads them. -/
theorem integerText_value {z : ℤ} (hz : |z| < 2 ^ 53) :
    (integerText (z < 0) z.natAbs).value = .number z z := by
  have hnat : z.natAbs < 2 ^ 53 := by
    rw [Int.abs_eq_natAbs] at hz
    exact_mod_cast hz
  have hwhole := integerText_wholeValue (z < 0) hnat
  have hsigned : Binary64.mul (if (integerText (z < 0) z.natAbs).negative then -1 else 1)
      ((z.natAbs : ℕ) : ℚ) = z := by
    have hval : (if (integerText (z < 0) z.natAbs).negative then -1 else 1) *
        ((z.natAbs : ℕ) : ℚ) = (z : ℚ) := by
      by_cases hneg : z < 0
      · have habs : ((z.natAbs : ℕ) : ℚ) = -(z : ℚ) := by
          rw [Nat.cast_natAbs, abs_of_neg hneg, Int.cast_neg]
        simp [integerText, hneg, habs]
      · have habs : ((z.natAbs : ℕ) : ℚ) = (z : ℚ) := by
          rw [Nat.cast_natAbs, abs_of_nonneg (not_lt.mp hneg)]
        simp [integerText, hneg, habs]
    rw [Binary64.mul, hval, Binary64.round_intCast hz]
  have hone : Binary64.round (10 ^ (0 : ℤ)) = 1 := by
    simpa using Binary64.round_intCast (n := 1) (by norm_num)
  have hdouble : (integerText (z < 0) z.natAbs).double = z := by
    have hm : (integerText (z < 0) z.natAbs).mantissa = (((z.natAbs : ℕ) : ℚ), 0) := by
      simp only [NumberText.mantissa, ← hwhole]
      rfl
    have hs : (integerText (z < 0) z.natAbs).subscale = 0 := rfl
    rw [NumberText.double, hm, hs, hsigned]
    simp only [add_zero, hone, Binary64.mul, mul_one]
    exact Binary64.round_intCast hz
  rw [NumberText.value, hdouble, Binary64.toInt64_intCast hz]

theorem formatInt_text (z : ℤ) : formatInt z = (integerText (z < 0) z.natAbs).text := by
  rw [integerText_text, formatInt]

theorem formatWhole_intCast (z : ℤ) : formatWhole z = formatInt z := by
  have habs : |(z : ℚ)| = ((|z| : ℤ) : ℚ) := by push_cast; rfl
  have hsign : ((z : ℚ) < 0) ↔ z < 0 := by exact_mod_cast Iff.rfl
  rw [formatWhole, formatInt, habs, Binary64.roundEven_intCast, Int.natAbs_abs]
  simp [hsign]

/-- `cJSON_CreateNumber` rounds `num + 0.5` down, so that a negative integer gets a
`valueint` one too high; it is then printed from its `valuedouble`. -/
theorem createNumber_valueint {z : ℤ} (hz : |z| < 2 ^ 51) :
    Binary64.toInt64 (Binary64.add z (1 / 2)) = if 0 ≤ z then z else z + 1 := by
  have habs := abs_lt.mp hz
  have hhalf : Binary64.add z (1 / 2) = ((2 * z + 1 : ℤ) : ℚ) / 2 ^ 1 := by
    rw [← Binary64.round_dyadic 1 (by rw [abs_lt]; constructor <;> omega), Binary64.add]
    congr 1
    push_cast
    ring
  rw [hhalf, Binary64.toInt64]
  by_cases h0 : 0 ≤ z
  · have hq : (0 : ℚ) ≤ z := by exact_mod_cast h0
    have hfloor : ⌊((2 * z + 1 : ℤ) : ℚ) / 2 ^ 1⌋ = z := by
      rw [Int.floor_eq_iff]
      push_cast
      constructor <;> linarith
    have hnn : (0 : ℚ) ≤ ((2 * z + 1 : ℤ) : ℚ) / 2 ^ 1 := by push_cast; linarith
    simp only [hnn, hfloor, h0, if_true]
    rw [if_pos (by constructor <;> omega)]
  · have hq : (z : ℚ) ≤ -1 := by exact_mod_cast (by omega : z ≤ -1)
    have hceil : ⌈((2 * z + 1 : ℤ) : ℚ) / 2 ^ 1⌉ = z + 1 := by
      rw [Int.ceil_eq_iff]
      push_cast
      constructor <;> linarith
    have hneg : ¬ (0 : ℚ) ≤ ((2 * z + 1 : ℤ) : ℚ) / 2 ^ 1 := by push_cast; linarith
    simp only [hneg, hceil, h0, if_false]
    rw [if_pos (by constructor <;> omega)]

/-- A created integer of at most 53 bits is printed with all its digits. -/
theorem printNumber_createNumber {z : ℤ} (hz : |z| < 2 ^ 53) :
    printNumber (Binary64.toInt64 (Binary64.add z (1 / 2))) z = formatInt z := by
  have hzero : Binary64.add z (-z) = 0 := by simp [Binary64.add, Binary64.round]
  unfold printNumber
  split
  · next h =>
    obtain ⟨heps, hmax, hmin⟩ := h
    have hmax' : z ≤ 2 ^ 31 - 1 := by unfold INT_MAX at hmax; exact_mod_cast hmax
    have hmin' : -2 ^ 31 ≤ z := by unfold INT_MIN at hmin; exact_mod_cast hmin
    have hvalue := createNumber_valueint (z := z) (by rw [abs_lt]; constructor <;> omega)
    rw [hvalue] at heps ⊢
    by_cases h0 : 0 ≤ z
    · rw [if_pos h0]
    · rw [if_neg h0, Binary64.round_intCast (by rw [abs_lt]; constructor <;> omega)] at heps
      have hone : Binary64.add ((z + 1 : ℤ) : ℚ) (-z) = 1 := by
        have hr := Binary64.round_intCast (n := 1) (by norm_num)
        rw [Binary64.add]
        push_cast at hr ⊢
        rw [show (z : ℚ) + 1 + -z = 1 by ring]
        exact hr
      rw [hone] at heps
      unfold DBL_EPSILON at heps
      norm_num at heps
  · have hbig : |(z : ℚ)| < Binary64.round (10 ^ 60) := by
      have hlt : |(z : ℚ)| < 2 ^ 53 := by exact_mod_cast hz
      have hround := Binary64.half_lt_round (q := 10 ^ 60) (by norm_num)
      exact hlt.trans (lt_trans (by norm_num) hround)
    have hfloor : |Binary64.add (⌊(z : ℚ)⌋ : ℚ) (-(z : ℚ))| ≤ DBL_EPSILON := by
      rw [Int.floor_intCast, hzero]
      norm_num [DBL_EPSILON]
    rw [if_pos ⟨hfloor, hbig⟩, formatWhole_intCast]

end V2IHub.Json
