import V2IHub.Rtcm.Rtcm2
import V2IHub.Rtcm.Rtcm3

/-! The types of RTCM attributes, signed or not, and what becomes of their values in the words. -/
namespace V2IHub.Rtcm
open Foundation

/-- `traits<Size, T>` of one of the types `int1` to `int39` and `uint1` to `uint39`. -/
structure RtcmType where
  signed : Bool
  size : ℕ
  size_pos : 0 < size
  size_le : size ≤ 39
deriving DecidableEq

namespace RtcmType
variable (t : RtcmType)

/-- The width of `data_type`. -/
def dataBits : ℕ := if t.size ≤ 16 then 16 else if t.size ≤ 32 then 32 else 64

/-- A conversion to `data_type`. -/
def toData (value : ℤ) : ℤ :=
  if t.signed then value.bmod (2 ^ t.dataBits) else value % 2 ^ t.dataBits

def bitmask : ℤ := t.toData (2 ^ t.size - 1)

/-- `addSign`; `~value + 1` is `-value`. -/
def addSign (value : ℤ) : ℤ :=
  if t.signed then
    if value < 0 then t.toData (value % 2 ^ t.size)
    else if value / 2 ^ (t.size - 1) ≠ 0 then t.toData (-(-value % 2 ^ t.size))
    else value
  else value

/-- A conversion to `uintmax_t`. -/
def toUintmax (value : ℤ) : ℕ := (value % 2 ^ 64).toNat

/-- The part of `assignFrom` for one attribute; `value` is shifted already. -/
def assign (value : ℕ) : ℤ := t.addSign (t.toData (value &&& toUintmax t.bitmask : ℕ))

/-- The values of the type. -/
def InRange (value : ℤ) : Prop :=
  if t.signed then -2 ^ (t.size - 1) ≤ value ∧ value < 2 ^ (t.size - 1)
  else 0 ≤ value ∧ value < 2 ^ t.size

instance (value : ℤ) : Decidable (t.InRange value) :=
  inferInstanceAs (Decidable (if t.signed = true then _ ∧ _ else _ ∧ _))

end RtcmType

/-- An attribute with a value of its type. -/
structure RtcmAttr where
  type : RtcmType
  value : ℤ
  inRange : type.InRange value

namespace RtcmAttr
variable (a : RtcmAttr)

/-- What `extractFrom` shifts into the words, with its size. -/
def toField : ℕ × ℕ := (a.type.size, RtcmType.toUintmax (a.type.addSign a.value))

/-- The value fills its `data_type` and is negative, so that its sign is extended. -/
def Spills : Prop := a.type.signed = true ∧ a.type.size = a.type.dataBits ∧ a.value < 0

instance : Decidable a.Spills := inferInstanceAs (Decidable (_ ∧ _))

/-- The value has no zero bit. -/
def AllOnes : Prop := a.value = if a.type.signed then -1 else 2 ^ a.type.size - 1

instance : Decidable a.AllOnes := inferInstanceAs (Decidable (_ = _))

/-- The bits of the value. -/
def raw : ℕ := (a.value % 2 ^ a.type.size).toNat

end RtcmAttr

/-- `assignFrom` -/
def assignTypes (value : ℕ) : ℕ → List RtcmType → List ℤ
  | _, [] => []
  | bitCount, t :: types =>
    let bitCount := bitCount - t.size
    t.assign (value >>> bitCount) :: assignTypes value bitCount types

/-- `assignData` for any types; `none` is a `TmxException`. -/
def WordFormat.assignAttrs (f : WordFormat) (data : List ℕ) (types : List RtcmType) :
    Option (List ℤ × List ℕ) :=
  let sizes := types.map RtcmType.size
  let numWords := f.countWords sizes
  if data.length < numWords then none
  else
    let value := (data.take numWords).foldl (fun value word => combineWord f.wordBits 64 word value) 0
    some (assignTypes value sizes.sum types, data.drop numWords)

namespace RtcmType
variable {t : RtcmType} {value : ℤ}

/-- The powers of two around a type. -/
theorem powers (t : RtcmType) : (2 : ℤ) ^ t.size = 2 * 2 ^ (t.size - 1) ∧
    (t.size = t.dataBits ∨ 2 * (2 : ℤ) ^ t.size ≤ 2 ^ t.dataBits) ∧
    (2 : ℤ) ^ t.dataBits ≤ 2 ^ 64 ∧ (0 : ℤ) < 2 ^ (t.size - 1) := by
  obtain ⟨n, hn⟩ : ∃ n, t.size = n + 1 := ⟨t.size - 1, by have := t.size_pos; omega⟩
  have hle := t.size_le
  refine ⟨?_, ?_, ?_, by positivity⟩
  · rw [hn, pow_succ, Nat.add_sub_cancel]
    ring
  · by_cases h : t.size = t.dataBits
    · exact .inl h
    · right
      have hlt : t.size + 1 ≤ t.dataBits := by
        simp only [dataBits] at h ⊢
        split_ifs at h ⊢ <;> omega
      calc 2 * (2 : ℤ) ^ t.size = 2 ^ (t.size + 1) := by ring
        _ ≤ 2 ^ t.dataBits := pow_le_pow_right₀ (by decide) hlt
  · apply pow_le_pow_right₀ (by decide)
    simp only [dataBits]
    split_ifs <;> omega

theorem toData_eq_self (hsigned : t.signed = true) (hlow : -2 ^ t.dataBits ≤ value * 2)
    (hhigh : value * 2 < 2 ^ t.dataBits) : t.toData value = value := by
  rw [toData, if_pos hsigned]
  apply Int.bmod_eq_of_le_mul_two
  · exact_mod_cast hlow
  · exact_mod_cast hhigh

/-- The value with these bits. -/
def ofRaw (t : RtcmType) (bits : ℕ) : ℤ :=
  if t.signed = true ∧ (2 : ℤ) ^ (t.size - 1) ≤ bits then bits - 2 ^ t.size else bits

theorem full_size (h : t.size = t.dataBits) : t.size = 16 ∨ t.size = 32 := by
  have hle := t.size_le
  simp only [dataBits] at h
  split_ifs at h <;> omega

theorem bitmask_eq (h : t.signed = true → t.size ≠ t.dataBits) : t.bitmask = 2 ^ t.size - 1 := by
  obtain ⟨hhalf, hstore, hmax, hpos⟩ := t.powers
  cases hsigned : t.signed with
  | true =>
    have hstore := hstore.resolve_left (h hsigned)
    exact toData_eq_self hsigned (by omega) (by omega)
  | false =>
    have hle : (2 : ℤ) ^ t.size ≤ 2 ^ t.dataBits := by
      rcases hstore with hfull | hless
      · rw [hfull]
      · omega
    rw [bitmask, toData, hsigned]
    exact Int.emod_eq_of_lt (by omega) (by omega)

theorem and_bitmask (h : t.signed = true → t.size ≠ t.dataBits) (value : ℕ) :
    value &&& toUintmax t.bitmask = value % 2 ^ t.size := by
  obtain ⟨hhalf, hstore, hmax, hpos⟩ := t.powers
  have hle : (2 : ℤ) ^ t.size ≤ 2 ^ 64 := pow_le_pow_right₀ (by decide) (by have := t.size_le; omega)
  have hmask : toUintmax t.bitmask = 2 ^ t.size - 1 := by
    rw [bitmask_eq h, toUintmax, Int.emod_eq_of_lt (by omega) (by omega)]
    have hcast : ((2 ^ t.size - 1 : ℕ) : ℤ) = 2 ^ t.size - 1 := by
      rw [Nat.cast_sub Nat.one_le_two_pow]
      simp
    rw [← hcast, Int.toNat_natCast]
  rw [hmask, Nat.and_two_pow_sub_one_eq_mod]

theorem addSign_full (hsigned : t.signed = true) (h : t.size = t.dataBits) (value : ℤ) :
    t.addSign (value.bmod (2 ^ t.size)) = value.bmod (2 ^ t.size) := by
  obtain ⟨hhalf, -, -, hpos⟩ := t.powers
  have hlow := Int.le_bmod (x := value) (m := 2 ^ t.size) (by positivity)
  have hhigh := Int.bmod_lt (x := value) (m := 2 ^ t.size) (by positivity)
  push_cast at hlow hhigh
  rw [addSign, if_pos hsigned]
  split_ifs with hneg hbig
  · rw [toData, if_pos hsigned, ← h]
    exact_mod_cast (Int.emod_bmod (Int.bmod value (2 ^ t.size)) (2 ^ t.size)).trans Int.bmod_bmod
  · exact absurd (Int.ediv_eq_zero_of_lt (by omega) (by omega)) hbig
  · rfl

/-- The mask of a signed type that fills its `data_type` is `-1`, which masks nothing. -/
theorem toData_and_full (hsigned : t.signed = true) (h : t.size = t.dataBits) (value : ℕ) :
    t.toData (value &&& toUintmax t.bitmask : ℕ) = (value : ℤ).bmod (2 ^ t.size) := by
  have hmask : toUintmax t.bitmask = 2 ^ 64 - 1 := by
    rw [bitmask, toData, if_pos hsigned, ← h]
    rcases full_size h with hsize | hsize <;> rw [hsize] <;> decide
  have hdvd : (2 : ℤ) ^ t.size ∣ 18446744073709551616 := by
    have hle := t.size_le
    exact (pow_dvd_pow 2 (by omega : t.size ≤ 64)).trans (by norm_num)
  rw [hmask, Nat.and_two_pow_sub_one_eq_mod, toData, if_pos hsigned, ← h, ← Int.emod_bmod]
  push_cast
  rw [Int.emod_emod_of_dvd _ hdvd]
  exact_mod_cast Int.emod_bmod (value : ℤ) (2 ^ t.size)

theorem assign_eq (t : RtcmType) (value : ℕ) : t.assign value = t.ofRaw (value % 2 ^ t.size) := by
  obtain ⟨hhalf, hstore, hmax, hpos⟩ := t.powers
  have hlt : ((value % 2 ^ t.size : ℕ) : ℤ) < 2 ^ t.size := by
    exact_mod_cast Nat.mod_lt value (by positivity)
  by_cases hfull : t.signed = true ∧ t.size = t.dataBits
  · have hbits : ((value % 2 ^ t.size : ℕ) : ℤ) = (value : ℤ) % 2 ^ t.size := by
      push_cast
      rfl
    rw [assign, toData_and_full hfull.1 hfull.2, addSign_full hfull.1 hfull.2, ofRaw,
      Int.bmod_eq_emod]
    push_cast
    simp only [hfull.1, true_and]
    split_ifs <;> omega
  · have hless : t.signed = true → t.size ≠ t.dataBits := fun hs hf => hfull ⟨hs, hf⟩
    rw [assign, and_bitmask hless]
    generalize value % 2 ^ t.size = bits at hlt
    cases hsigned : t.signed with
    | true =>
      have hstore := hstore.resolve_left (hless hsigned)
      rw [toData_eq_self hsigned (by omega) (by omega), addSign, ofRaw, if_pos hsigned,
        if_neg (by omega)]
      simp only [hsigned, true_and]
      by_cases hbig : (2 : ℤ) ^ (t.size - 1) ≤ bits
      · have hdiv : (bits : ℤ) / 2 ^ (t.size - 1) ≠ 0 := by
          have hone : 1 ≤ (bits : ℤ) / 2 ^ (t.size - 1) :=
            (Int.le_ediv_iff_mul_le hpos).mpr (by omega)
          omega
        have hneg : -(bits : ℤ) % 2 ^ t.size = 2 ^ t.size - bits := by
          rw [← Int.add_emod_right, Int.emod_eq_of_lt (by omega) (by omega)]
          ring
        rw [if_pos hdiv, if_pos hbig, hneg, toData_eq_self hsigned (by omega) (by omega)]
        ring
      · have hdiv : (bits : ℤ) / 2 ^ (t.size - 1) = 0 := Int.ediv_eq_zero_of_lt (by omega) (by omega)
        rw [if_neg (not_not.mpr hdiv), if_neg hbig]
    | false =>
      have hle : (2 : ℤ) ^ t.size ≤ 2 ^ t.dataBits := by
        rcases hstore with hfull | hless
        · rw [hfull]
        · omega
      have hdata : t.toData (bits : ℤ) = bits := by
        rw [toData, hsigned]
        exact Int.emod_eq_of_lt (by omega) (by omega)
      rw [hdata, addSign, ofRaw, hsigned]
      simp

end RtcmType

namespace RtcmAttr

/-- What the range says of the bits. -/
theorem emod_cases (a : RtcmAttr) :
    (a.type.signed = true ∧ a.value < 0 ∧ -2 ^ (a.type.size - 1) ≤ a.value ∧
        a.value % 2 ^ a.type.size = a.value + 2 ^ a.type.size) ∨
      (0 ≤ a.value ∧ a.value % 2 ^ a.type.size = a.value ∧ a.value < 2 ^ a.type.size ∧
        (a.type.signed = true → a.value < 2 ^ (a.type.size - 1))) := by
  obtain ⟨hhalf, -, -, hpos⟩ := a.type.powers
  have hrange := a.inRange
  rw [RtcmType.InRange] at hrange
  split_ifs at hrange with hsigned
  · by_cases hneg : a.value < 0
    · refine .inl ⟨hsigned, hneg, hrange.1, ?_⟩
      rw [← Int.add_emod_right, Int.emod_eq_of_lt (by omega) (by omega)]
    · exact .inr ⟨by omega, Int.emod_eq_of_lt (by omega) (by omega), by omega, fun _ => hrange.2⟩
  · exact .inr ⟨hrange.1, Int.emod_eq_of_lt hrange.1 hrange.2, hrange.2,
      fun h => absurd h hsigned⟩

theorem raw_cast (a : RtcmAttr) : (a.raw : ℤ) = a.value % 2 ^ a.type.size :=
  Int.toNat_of_nonneg (Int.emod_nonneg _ (by positivity))

theorem ofRaw_raw (a : RtcmAttr) : a.type.ofRaw a.raw = a.value := by
  obtain ⟨hhalf, -, -, hpos⟩ := a.type.powers
  rw [RtcmType.ofRaw, raw_cast]
  rcases a.emod_cases with ⟨hsigned, hneg, hlow, hmod⟩ | ⟨hpos', hmod, hlt, hhigh⟩
  · rw [hmod, if_pos ⟨hsigned, by omega⟩]
    ring
  · rw [hmod, if_neg]
    rintro ⟨hsigned, hbig⟩
    have hless := hhigh hsigned
    omega

theorem raw_lt (a : RtcmAttr) : a.raw < 2 ^ a.type.size := by
  have h := Int.emod_lt_of_pos a.value (b := 2 ^ a.type.size) (by positivity)
  rw [← raw_cast] at h
  exact_mod_cast h

/-- A negative value that fills its type comes with ones in front of it. -/
theorem toField_eq (a : RtcmAttr) :
    a.toField = (a.type.size, a.raw + if a.Spills then 2 ^ 64 - 2 ^ a.type.size else 0) := by
  obtain ⟨hhalf, hstore, hmax, hpos⟩ := a.type.powers
  have hle : (2 : ℤ) ^ a.type.size ≤ 2 ^ 64 :=
    pow_le_pow_right₀ (by decide) (by have := a.type.size_le; omega)
  have huint : ∀ value : ℤ, (RtcmType.toUintmax value : ℤ) = value % 2 ^ 64 := by
    intro value
    exact Int.toNat_of_nonneg (Int.emod_nonneg _ (by positivity))
  refine Prod.ext rfl (Int.natCast_inj.mp ?_)
  simp only [toField]
  rw [huint, Nat.cast_add, raw_cast]
  rcases a.emod_cases with ⟨hsigned, hneg, hlow, hmod⟩ | ⟨hpos', hmod, hlt, hhigh⟩
  · have hadd : a.type.addSign a.value = a.type.toData (a.value + 2 ^ a.type.size) := by
      rw [RtcmType.addSign, if_pos hsigned, if_pos hneg, hmod]
    by_cases hfull : a.type.size = a.type.dataBits
    · have hsign : a.type.toData (a.value + 2 ^ a.type.size) = a.value := by
        rw [RtcmType.toData, if_pos hsigned, ← hfull]
        have hbmod : (a.value + 2 ^ a.type.size).bmod (2 ^ a.type.size) =
            a.value.bmod (2 ^ a.type.size) := by
          have h := Int.add_bmod_right a.value (2 ^ a.type.size)
          push_cast at h
          exact h
        rw [hbmod]
        apply Int.bmod_eq_of_le_mul_two
        · push_cast
          omega
        · push_cast
          omega
      have hspills : a.Spills := ⟨hsigned, hfull, hneg⟩
      have hones : ((2 ^ 64 - 2 ^ a.type.size : ℕ) : ℤ) = 2 ^ 64 - 2 ^ a.type.size := by
        rw [Nat.cast_sub (by exact_mod_cast hle)]
        push_cast
        rfl
      have hwrap : a.value % 2 ^ 64 = a.value + 2 ^ 64 := by
        rw [← Int.add_emod_right, Int.emod_eq_of_lt (by omega) (by omega)]
      rw [hadd, hsign, if_pos hspills, hones, hmod, hwrap]
      ring
    · have hspills : ¬ a.Spills := fun h => hfull h.2.1
      have hless := hstore.resolve_left hfull
      rw [hadd, RtcmType.toData_eq_self hsigned (by omega) (by omega), if_neg hspills, hmod,
        Int.emod_eq_of_lt (by omega) (by omega)]
      simp
  · have hspills : ¬ a.Spills := fun h => by
      have hneg := h.2.2
      omega
    have hsame : a.type.addSign a.value = a.value := by
      rw [RtcmType.addSign]
      split_ifs with hsigned hneg hdiv
      · omega
      · exact absurd (Int.ediv_eq_zero_of_lt hpos' (hhigh hsigned)) hdiv
      · rfl
      · rfl
    rw [hsame, if_neg hspills, hmod, Int.emod_eq_of_lt hpos' (by omega)]
    simp

end RtcmAttr

section Packed

theorem extractFrom_or (value bitCount : ℕ) (attrs : List (ℕ × ℕ)) :
    extractFrom value bitCount attrs = value ||| extractFrom 0 bitCount attrs := by
  induction attrs generalizing value bitCount with
  | nil => simp [extractFrom]
  | cons attr attrs ih =>
    rw [extractFrom, extractFrom, ih, ih (0 ||| _), Nat.zero_or, Nat.or_assoc]

theorem or_low (high high' : ℕ) {s low : ℕ} (h : low < 2 ^ s) :
    2 ^ s * high ||| (2 ^ s * high' + low) = 2 ^ s * (high ||| high') + low := by
  apply Nat.eq_of_testBit_eq
  intro i
  have hzero := Nat.testBit_two_pow_mul_add high (Nat.two_pow_pos s) i
  rw [Nat.add_zero] at hzero
  rw [Nat.testBit_or, hzero, Nat.testBit_two_pow_mul_add _ h, Nat.testBit_two_pow_mul_add _ h]
  split_ifs
  · simp
  · rw [Nat.testBit_or]

theorem or_allOnes {k value : ℕ} (h : value < 2 ^ k) : value ||| (2 ^ k - 1) = 2 ^ k - 1 := by
  apply Nat.eq_of_testBit_eq
  intro i
  rw [Nat.testBit_or, Nat.testBit_two_pow_sub_one]
  by_cases hi : i < k
  · simp [hi]
  · simp [hi, Nat.testBit_lt_two_pow (h.trans_le (Nat.pow_le_pow_right (by decide)
      (Nat.le_of_not_lt hi)))]

/-- The fields that are in the words: all ones in front of a value that spills. -/
def sentFields : List RtcmAttr → List (ℕ × ℕ)
  | [] => []
  | a :: attrs =>
    (a.type.size, if ∃ b ∈ attrs, b.Spills then 2 ^ a.type.size - 1 else a.raw) :: sentFields attrs

theorem sentFields_sizes (attrs : List RtcmAttr) :
    (sentFields attrs).map Prod.fst = attrs.map fun a => a.type.size := by
  induction attrs with
  | nil => rfl
  | cons a attrs ih => rw [sentFields, List.map_cons, List.map_cons, ih]

theorem sentFields_fit (attrs : List RtcmAttr) : FieldsFit (sentFields attrs) := by
  induction attrs with
  | nil => exact fun _ hmem => absurd hmem List.not_mem_nil
  | cons a attrs ih =>
    refine List.forall_mem_cons.mpr ⟨?_, ih⟩
    have hpos := Nat.two_pow_pos a.type.size
    have hraw := a.raw_lt
    simp only
    split_ifs
    · omega
    · exact hraw

/-- The words so far have ones in front of them or nothing, and so they have behind another field. -/
theorem or_field {n s j low raw : ℕ} (hlow : low < 2 ^ s) (hraw : raw < 2 ^ n) (spills later : Prop)
    [Decidable spills] [Decidable later] :
    (raw + if spills then 2 ^ (s + n + j) - 2 ^ n else 0) <<< s % 2 ^ (s + n + j) |||
        ((if later then 2 ^ (s + n + j) - 2 ^ s else 0) + low) =
      (if spills ∨ later then 2 ^ (s + n + j) - 2 ^ (n + s) else 0) +
        ((if later then 2 ^ n - 1 else raw) * 2 ^ s + low) := by
  have hsplit : 2 ^ (s + n + j) = 2 ^ s * 2 ^ (n + j) := by ring
  have hones : 2 ^ (s + n + j) - 2 ^ s = 2 ^ s * (2 ^ (n + j) - 1) := by
    rw [hsplit, Nat.mul_sub, Nat.mul_one]
  have hfront : 2 ^ (s + n + j) - 2 ^ (n + s) = 2 ^ s * (2 ^ (n + j) - 2 ^ n) := by
    rw [hsplit, Nat.mul_sub, ← pow_add 2 s n, Nat.add_comm n s]
  have hle : 2 ^ n ≤ 2 ^ (n + j) := Nat.pow_le_pow_right (by decide) (Nat.le_add_right n j)
  have hshift : (raw + if spills then 2 ^ (s + n + j) - 2 ^ n else 0) <<< s % 2 ^ (s + n + j) =
      2 ^ s * (raw + if spills then 2 ^ (n + j) - 2 ^ n else 0) := by
    have hlt : raw + (if spills then 2 ^ (n + j) - 2 ^ n else 0) < 2 ^ (n + j) := by
      split_ifs <;> omega
    have hmul := Nat.mul_lt_mul_of_pos_left hlt (Nat.two_pow_pos s)
    rw [Nat.shiftLeft_eq, hsplit]
    by_cases h : spills
    · rw [if_pos h, if_pos h] at *
      have hwrap : (raw + (2 ^ s * 2 ^ (n + j) - 2 ^ n)) * 2 ^ s =
          2 ^ s * (raw + (2 ^ (n + j) - 2 ^ n)) + 2 ^ s * 2 ^ (n + j) * (2 ^ s - 1) := by
        have hone := Nat.two_pow_pos s
        have hbig : 2 ^ n ≤ 2 ^ s * 2 ^ (n + j) := hle.trans (Nat.le_mul_of_pos_left _ hone)
        zify [hle, hbig, hone]
        ring
      rw [hwrap, Nat.add_mul_mod_self_left, Nat.mod_eq_of_lt hmul]
    · rw [if_neg h, if_neg h] at *
      rw [Nat.add_zero, Nat.mul_comm, Nat.mod_eq_of_lt]
      exact hmul
  have hall : raw + (if spills then 2 ^ (n + j) - 2 ^ n else 0) < 2 ^ (n + j) := by
    split_ifs <;> omega
  rw [hshift, hones, hfront]
  by_cases hlater : later
  · have hsum : 2 ^ (n + j) - 1 = (2 ^ (n + j) - 2 ^ n) + (2 ^ n - 1) := by
      have hone := Nat.two_pow_pos n
      omega
    rw [if_pos hlater, if_pos (Or.inr hlater), if_pos hlater, or_low _ _ hlow, or_allOnes hall, hsum]
    ring
  · have hzero := or_low (raw + if spills then 2 ^ (n + j) - 2 ^ n else 0) 0 hlow
    rw [Nat.mul_zero, Nat.or_zero] at hzero
    rw [if_neg hlater, if_neg hlater, hzero]
    by_cases h : spills
    · rw [if_pos h, if_pos (Or.inl h)]
      ring
    · rw [if_neg h, if_neg (not_or.mpr ⟨h, hlater⟩)]
      ring

/-- What `extractFrom` collects. -/
theorem extractFrom_attrs (attrs : List RtcmAttr)
    (hwidth : (attrs.map fun a => a.type.size).sum ≤ 64) :
    extractFrom 0 (attrs.map fun a => a.type.size).sum (attrs.map RtcmAttr.toField) =
      (if ∃ b ∈ attrs, b.Spills then
        2 ^ 64 - 2 ^ (attrs.map fun a => a.type.size).sum else 0) + packFields (sentFields attrs) := by
  induction attrs with
  | nil => simp [extractFrom, sentFields, packFields]
  | cons a attrs ih =>
    simp only [List.map_cons, List.sum_cons] at hwidth ⊢
    have hlow := packFields_lt (sentFields_fit attrs)
    rw [sentFields_sizes] at hlow
    have hfirst := a.toField_eq
    rw [hfirst, extractFrom, Nat.add_sub_cancel_left, Nat.zero_or, extractFrom_or,
      ih (by omega), sentFields, packFields, sentFields_sizes]
    generalize packFields (sentFields attrs) = low at hlow
    generalize (attrs.map fun a => a.type.size).sum = s at hwidth hlow
    obtain ⟨j, hj⟩ : ∃ j, 64 = s + a.type.size + j := ⟨64 - (s + a.type.size), by omega⟩
    have hspills : (∃ b ∈ a :: attrs, b.Spills) ↔ a.Spills ∨ ∃ b ∈ attrs, b.Spills := by
      simp
    rw [hj, or_field hlow a.raw_lt]
    simp only [hspills]

end Packed

section RoundTrip

theorem assignTypes_eq (value : ℕ) (types : List RtcmType) :
    assignTypes value (types.map RtcmType.size).sum types =
      List.zipWith RtcmType.ofRaw types (unpackFields (types.map RtcmType.size) value) := by
  induction types with
  | nil => rfl
  | cons t types ih =>
    rw [List.map_cons, List.sum_cons, assignTypes, unpackFields, List.zipWith_cons_cons,
      Nat.add_sub_cancel_left, ih, RtcmType.assign_eq, Nat.shiftRight_eq_div_pow]

theorem ofRaw_allOnes (a : RtcmAttr) : a.type.ofRaw (2 ^ a.type.size - 1) = a.value ↔ a.AllOnes := by
  obtain ⟨hhalf, -, -, hpos⟩ := a.type.powers
  have hcast : ((2 ^ a.type.size - 1 : ℕ) : ℤ) = 2 ^ a.type.size - 1 := by
    rw [Nat.cast_sub Nat.one_le_two_pow]
    simp
  rw [RtcmType.ofRaw, RtcmAttr.AllOnes, hcast]
  cases a.type.signed with
  | true =>
    rw [if_pos ⟨rfl, by omega⟩, if_pos rfl]
    constructor <;> intro h <;> omega
  | false =>
    simp only [Bool.false_eq_true, false_and, if_false]
    exact eq_comm

/-- The values that the words give, against those that were put in. -/
theorem zipWith_sentFields (attrs : List RtcmAttr) :
    List.zipWith RtcmType.ofRaw (attrs.map RtcmAttr.type) ((sentFields attrs).map Prod.snd) =
        attrs.map RtcmAttr.value ↔
      attrs.Pairwise fun a b => b.Spills → a.AllOnes := by
  induction attrs with
  | nil => simp
  | cons a attrs ih =>
    rw [sentFields, List.map_cons, List.map_cons, List.map_cons, List.zipWith_cons_cons,
      List.cons.injEq, ih, List.pairwise_cons]
    apply and_congr_left'
    by_cases h : ∃ b ∈ attrs, b.Spills
    · obtain ⟨b, hb, hspills⟩ := h
      rw [if_pos ⟨b, hb, hspills⟩, ofRaw_allOnes]
      exact ⟨fun hones _ _ _ => hones, fun hall => hall b hb hspills⟩
    · rw [if_neg h, a.ofRaw_raw]
      exact ⟨fun _ b hb hspills => absurd ⟨b, hb, hspills⟩ h, fun _ => rfl⟩

section Format
variable {f : WordFormat} {attrs : List RtcmAttr}
  (hwidth : (attrs.map fun a => a.type.size).sum ≤ 64)
include hwidth

/-- The ones in front of the words are cut off. -/
theorem extractWords_attrs : f.extractWords (attrs.map RtcmAttr.toField) =
    unpackFields (List.replicate (f.countWords (attrs.map fun a => a.type.size)) f.wordBits)
      (packFields (sentFields attrs)) := by
  have hsizes : (attrs.map RtcmAttr.toField).map Prod.fst = attrs.map fun a => a.type.size := by
    rw [List.map_map]
    rfl
  have htotal : (List.replicate (f.countWords (attrs.map fun a => a.type.size)) f.wordBits).sum ≤
      (attrs.map fun a => a.type.size).sum := by
    rw [List.sum_replicate, smul_eq_mul, WordFormat.countWords]
    exact Nat.div_mul_le_self _ _
  have hfront : ∃ front, (if ∃ b ∈ attrs, b.Spills then
      2 ^ 64 - 2 ^ (attrs.map fun a => a.type.size).sum else 0) =
      front * 2 ^ (attrs.map fun a => a.type.size).sum := by
    split_ifs
    · refine ⟨2 ^ (64 - (attrs.map fun a => a.type.size).sum) - 1, ?_⟩
      rw [Nat.sub_mul, ← pow_add, Nat.one_mul, Nat.sub_add_cancel hwidth]
    · exact ⟨0, (Nat.zero_mul _).symm⟩
  obtain ⟨front, hfront⟩ := hfront
  rw [WordFormat.extractWords]
  simp only [hsizes]
  rw [map_splitWord, extractFrom_attrs attrs hwidth, hfront, unpackFields_add_mul _ _ _ htotal]

variable (hwords : f.wordBits ∣ (attrs.map fun a => a.type.size).sum)
include hwords

theorem assignAttrs_sentFields (hreads : f.Reads) :
    f.assignAttrs
        (f.loadData [] (f.extractData (attrs.map RtcmAttr.toField))
          (f.countWords (attrs.map fun a => a.type.size)))
        (attrs.map RtcmAttr.type) =
      some (List.zipWith RtcmType.ofRaw (attrs.map RtcmAttr.type)
        ((sentFields attrs).map Prod.snd), []) := by
  let n := f.countWords (attrs.map fun a => a.type.size)
  let words := unpackFields (List.replicate n f.wordBits) (packFields (sentFields attrs))
  have hlen : words.length = n := by simp [words]
  have htotal : n * f.wordBits = (attrs.map fun a => a.type.size).sum :=
    Nat.div_mul_cancel hwords
  have hlt : ∀ word ∈ words, word < 2 ^ f.wordBits := unpackFields_replicate_lt
  have hload : f.loadData [] (f.extractData (attrs.map RtcmAttr.toField)) n = words := by
    have h := WordFormat.loadData_writeWord hreads [] hlt []
    rw [hlen, List.append_nil] at h
    rw [WordFormat.extractData, extractWords_attrs hwidth]
    exact h
  have hsizes : (attrs.map RtcmAttr.type).map RtcmType.size = attrs.map fun a => a.type.size := by
    rw [List.map_map]
    rfl
  have hpack : packWords f.wordBits words = packFields (sentFields attrs) := by
    have hfit := packFields_lt (sentFields_fit attrs)
    rw [sentFields_sizes, ← htotal] at hfit
    rw [packWords_unpackFields, Nat.mod_eq_of_lt hfit]
  have hunpack := unpackFields_packFields (sentFields_fit attrs)
  rw [sentFields_sizes, ← hsizes] at hunpack
  rw [WordFormat.assignAttrs]
  simp only [hsizes]
  rw [hload, if_neg (by rw [hlen]; exact Nat.lt_irrefl _), List.take_of_length_le hlen.le,
    List.drop_of_length_le hlen.le, foldl_combineWord hlt (by rw [hlen, htotal]; exact hwidth),
    hpack, ← hsizes, assignTypes_eq, hunpack]

/-- Values that are put into words and read from these come back exactly if only ones stand in front
of each negative value that fills its type. -/
theorem assignAttrs_extractData_iff (hf : f ∈ [rtcm3Format, rtcm2Format]) :
    f.assignAttrs
        (f.loadData [] (f.extractData (attrs.map RtcmAttr.toField))
          (f.countWords (attrs.map fun a => a.type.size)))
        (attrs.map RtcmAttr.type) = some (attrs.map RtcmAttr.value, []) ↔
      attrs.Pairwise fun a b => b.Spills → a.AllOnes := by
  have hreads : f.Reads := by
    rcases List.mem_pair.mp hf with rfl | rfl
    · exact rtcm3_reads
    · exact rtcm2_reads
  rw [assignAttrs_sentFields hwidth hwords hreads, Option.some.injEq, Prod.mk.injEq,
    zipWith_sentFields]
  exact and_iff_left rfl

end Format

theorem byte_pos : 0 < 8 := by decide

theorem byte_le : 8 ≤ 39 := by decide

def uint8 : RtcmType := ⟨false, 8, byte_pos, byte_le⟩
def int8 : RtcmType := ⟨true, 8, byte_pos, byte_le⟩
def int16 : RtcmType := ⟨true, 16, by decide, by decide⟩

theorem assignAttrs_uint8_int8 :
    rtcm3Format.assignAttrs
        (rtcm3Format.loadData []
          (rtcm3Format.extractData ([⟨uint8, 5, by decide⟩, ⟨int8, -3, by decide⟩].map
            RtcmAttr.toField)) (rtcm3Format.countWords [8, 8])) [uint8, int8] =
      some ([5, -3], []) :=
  (@assignAttrs_extractData_iff rtcm3Format [⟨uint8, 5, by decide⟩, ⟨int8, -3, by decide⟩]
    (by decide) (by decide) List.mem_cons_self).mpr (by decide)

/-- A negative `int16` sets all bits of the field in front of it. -/
theorem assignAttrs_uint8_int16 :
    ¬ ∀ f ∈ [rtcm3Format, rtcm2Format], ∀ attrs : List RtcmAttr,
      f.wordBits ∣ (attrs.map fun a => a.type.size).sum →
      (attrs.map fun a => a.type.size).sum ≤ 64 →
      f.assignAttrs
          (f.loadData [] (f.extractData (attrs.map RtcmAttr.toField))
            (f.countWords (attrs.map fun a => a.type.size)))
          (attrs.map RtcmAttr.type) = some (attrs.map RtcmAttr.value, []) := by
  intro hclaim
  have h := hclaim rtcm3Format List.mem_cons_self
    [⟨uint8, 5, by decide⟩, ⟨int16, -1, by decide⟩] (by decide) (by decide)
  exact absurd h (by decide +kernel)

end RoundTrip
end V2IHub.Rtcm
