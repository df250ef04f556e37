import Mathlib.Algebra.Polynomial.Div
import Mathlib.Algebra.Polynomial.OfFn
import Mathlib.Data.ZMod.Basic
import V2IHub.Foundation.Crc

/-! Cyclic redundancy checks as remainders of polynomials over the field with two elements. -/
namespace V2IHub.Foundation
open Polynomial

/-- One bit of the message, the shift register of the check. -/
def crcBit {w : ℕ} (poly c : BitVec w) (bit : Bool) : BitVec w :=
  if c.msb ^^ bit then c <<< 1 ^^^ poly else c <<< 1

def crcBits {w : ℕ} (poly : BitVec w) (bits : List Bool) : BitVec w := bits.foldl (crcBit poly) 0

/-- The bits of a byte, the most significant one first. -/
def byteBits (byte : UInt8) : List Bool := (List.range 8).map fun i => byte.toBitVec.getMsbD i

section Register
variable {w : ℕ} {poly : BitVec w}

theorem crcBit_eq (c : BitVec w) (bit : Bool) :
    crcBit poly c bit = crcShift poly c ^^^ (if bit then poly else 0) := by
  rw [crcBit, crcShift]
  cases c.msb <;> cases bit <;> simp [BitVec.xor_assoc]

/-- What was in the register before moves on by itself. -/
theorem foldl_crcBit_xor (poly : BitVec w) (bits : List Bool) (a b : BitVec w) :
    bits.foldl (crcBit poly) (a ^^^ b) =
      crcShifts poly bits.length a ^^^ bits.foldl (crcBit poly) b := by
  induction bits generalizing a b with
  | nil => rfl
  | cons bit bits ih =>
    have hstep : crcBit poly (a ^^^ b) bit = crcShift poly a ^^^ crcBit poly b bit := by
      rw [crcBit_eq, crcShift_xor, crcBit_eq, BitVec.xor_assoc]
    have hshift : ∀ (n : ℕ) (c : BitVec w),
        crcShifts poly n (crcShift poly c) = crcShifts poly (n + 1) c := by
      intro n c
      induction n with
      | zero => rfl
      | succ n ihn => rw [crcShifts, ihn, ← crcShifts]
    rw [List.foldl_cons, List.foldl_cons, hstep, ih, List.length_cons, hshift]

end Register

/-- The bit of a polynomial. -/
def bitCoeff (bit : Bool) : ZMod 2 := if bit then 1 else 0

/-- The polynomial of a register. -/
noncomputable def toPoly {w : ℕ} (c : BitVec w) : (ZMod 2)[X] :=
  ofFn w fun i => bitCoeff (c.getLsbD i)

/-- The polynomial of a message, whose first bit is the leading coefficient. -/
noncomputable def bitsPoly (bits : List Bool) : (ZMod 2)[X] :=
  bits.foldl (fun M bit => X * M + C (bitCoeff bit)) 0

noncomputable def generator {w : ℕ} (poly : BitVec w) : (ZMod 2)[X] := X ^ w + toPoly poly

section Polynomial
variable {w : ℕ} {poly : BitVec w}

theorem bitCoeff_xor (a b : Bool) : bitCoeff (a ^^ b) = bitCoeff a + bitCoeff b := by
  cases a <;> cases b <;> decide

theorem coeff_toPoly (c : BitVec w) (i : ℕ) : (toPoly c).coeff i = bitCoeff (c.getLsbD i) := by
  by_cases hi : i < w
  · rw [toPoly, ofFn_coeff_eq_val_of_lt _ hi]
  · rw [toPoly, ofFn_coeff_eq_zero_of_ge _ (Nat.le_of_not_lt hi),
      BitVec.getLsbD_of_ge _ _ (Nat.le_of_not_lt hi)]
    rfl

theorem degree_toPoly_lt (c : BitVec w) : (toPoly c).degree < w := ofFn_degree_lt _

theorem toPoly_xor (a b : BitVec w) : toPoly (a ^^^ b) = toPoly a + toPoly b := by
  ext i
  rw [coeff_add, coeff_toPoly, coeff_toPoly, coeff_toPoly, BitVec.getLsbD_xor, bitCoeff_xor]

/-- A shift is a multiplication, but for the leading bit. -/
theorem X_mul_toPoly (c : BitVec w) :
    X * toPoly c = toPoly (c <<< 1) + C (bitCoeff c.msb) * X ^ w := by
  ext i
  rw [coeff_add, coeff_toPoly, coeff_C_mul, coeff_X_pow, BitVec.getLsbD_shiftLeft]
  cases i with
  | zero =>
    rw [coeff_X_mul_zero]
    cases w with
    | zero => simp [BitVec.msb_of_zero_length, bitCoeff]
    | succ w => simp [bitCoeff]
  | succ i =>
    rw [coeff_X_mul, coeff_toPoly]
    rcases Nat.lt_trichotomy (i + 1) w with hlt | rfl | hgt
    · simp [hlt, hlt.ne, bitCoeff]
    · simp [BitVec.msb_eq_getLsbD_last, bitCoeff]
    · have hge : w ≤ i := by omega
      simp [BitVec.getLsbD_of_ge c i hge, hgt.not_gt, hgt.ne', bitCoeff]

theorem generator_monic (poly : BitVec w) : (generator poly).Monic :=
  monic_X_pow_add (degree_toPoly_lt poly)

theorem degree_generator (poly : BitVec w) : (generator poly).degree = w := by
  rw [generator, degree_add_eq_left_of_degree_lt, degree_X_pow]
  rw [degree_X_pow]
  exact degree_toPoly_lt poly

/-- The generator with its leading bit. -/
theorem toPoly_cons (poly : BitVec w) : toPoly (BitVec.cons true poly) = generator poly := by
  ext i
  rw [generator, coeff_add, coeff_toPoly, coeff_toPoly, coeff_X_pow, BitVec.getLsbD_cons]
  by_cases hi : i = w
  · simp [hi, bitCoeff]
  · simp [hi]

/-- A bit of the message changes the remainder by a multiple of the generator. -/
theorem toPoly_crcBit (poly c : BitVec w) (bit : Bool) :
    X * toPoly c + C (bitCoeff bit) * X ^ w =
      toPoly (crcBit poly c bit) + generator poly * C (bitCoeff (c.msb ^^ bit)) := by
  have htwice : toPoly poly + toPoly poly = 0 := CharTwo.add_self_eq_zero _
  rw [X_mul_toPoly, add_assoc, ← add_mul, ← C_add, ← bitCoeff_xor, crcBit, generator]
  cases c.msb ^^ bit with
  | false => simp [bitCoeff]
  | true =>
    simp only [bitCoeff, if_true, C_1, one_mul, mul_one, toPoly_xor]
    linear_combination -htwice

theorem bitsPoly_append_singleton (bits : List Bool) (bit : Bool) :
    bitsPoly (bits ++ [bit]) = X * bitsPoly bits + C (bitCoeff bit) := by
  rw [bitsPoly, List.foldl_append]
  rfl

theorem toPoly_zero : toPoly (0 : BitVec w) = 0 := by
  ext i
  rw [coeff_toPoly, coeff_zero]
  simp [bitCoeff]

/-- The register holds the remainder of the message. -/
theorem exists_mul_generator (poly : BitVec w) (bits : List Bool) : ∃ q,
    toPoly (crcBits poly bits) + generator poly * q = X ^ w * bitsPoly bits := by
  induction bits using List.reverseRecOn with
  | nil =>
    refine ⟨0, ?_⟩
    rw [crcBits, List.foldl_nil, toPoly_zero, bitsPoly, List.foldl_nil]
    ring
  | append_singleton bits bit ih =>
    obtain ⟨q, hq⟩ := ih
    have hstep := toPoly_crcBit poly (crcBits poly bits) bit
    have hregister : crcBits poly (bits ++ [bit]) = crcBit poly (crcBits poly bits) bit := by
      rw [crcBits, List.foldl_append]
      rfl
    refine ⟨X * q + C (bitCoeff ((crcBits poly bits).msb ^^ bit)), ?_⟩
    rw [hregister, bitsPoly_append_singleton]
    linear_combination X * hq - hstep

theorem toPoly_crcBits (poly : BitVec w) (bits : List Bool) :
    toPoly (crcBits poly bits) = (X ^ w * bitsPoly bits) %ₘ generator poly := by
  obtain ⟨q, hq⟩ := exists_mul_generator poly bits
  have hdegree : (toPoly (crcBits poly bits)).degree < (generator poly).degree := by
    rw [degree_generator]
    exact degree_toPoly_lt _
  exact (div_modByMonic_unique q _ (generator_monic poly) ⟨hq, hdegree⟩).2.symm

end Polynomial
end V2IHub.Foundation
