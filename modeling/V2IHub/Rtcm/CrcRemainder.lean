import V2IHub.Foundation.CrcPolynomial
import V2IHub.Rtcm.Rtcm3

/-! The check sum of RTCM 3 frames as the remainder of a polynomial. -/
namespace V2IHub.Rtcm
open Foundation Polynomial

/-- The bits of a byte, one after another. -/
theorem crcByte_bits (c : BitVec 24) (byte : UInt8) :
    crcByte crcPoly c byte = (byteBits byte).foldl (crcBit crcPoly) c := by
  have hall : ∀ n < 256, crcShifts crcPoly 8 (topByte 24 (UInt8.ofNat n).toBitVec) =
      (byteBits (UInt8.ofNat n)).foldl (crcBit crcPoly) 0 := by decide +kernel
  have hbyte := hall byte.toNat byte.toNat_lt
  rw [UInt8.ofNat_toNat] at hbyte
  have hsplit := foldl_crcBit_xor crcPoly (byteBits byte) c 0
  have hzero : c ^^^ 0 = c := BitVec.xor_zero
  rw [hzero] at hsplit
  rw [crcByte, crcShifts_xor, hbyte, hsplit]
  rfl

theorem crcOf_bits (data : Bytes) :
    crcOf crcPoly data = crcBits crcPoly (data.flatMap byteBits) := by
  have hfold : ∀ c, data.foldl (crcByte crcPoly) c =
      (data.flatMap byteBits).foldl (crcBit crcPoly) c := by
    induction data with
    | nil => exact fun _ => rfl
    | cons byte data ih =>
      intro c
      rw [List.foldl_cons, List.flatMap_cons, List.foldl_append, ih, crcByte_bits]
  exact hfold 0

/-- The leading byte of the remainder takes itself away. -/
theorem crcByte_top {w : ℕ} {poly : BitVec w} (hw : 8 ≤ w) (c : BitVec w) {byte : UInt8}
    (h : byte.toBitVec = (c >>> (w - 8)).setWidth 8) : crcByte poly c byte = c <<< 8 := by
  have hzero : crcShifts poly 8 (0#w) = 0#w := by
    rw [← BitVec.xor_self (x := 0#w), crcShifts_xor, BitVec.xor_self, BitVec.xor_self]
  have htop : topByte w 0#8 = 0#w := by simp [topByte]
  rw [crcByte_eq hw, h, BitVec.xor_self, htop, hzero, BitVec.xor_zero]

theorem crcOf_append_crc (data : Bytes) :
    crcOf crcPoly (data ++ bigEndian 3 (crcOf crcPoly data).toNat) = 0 := by
  have hfold : crcOf crcPoly (data ++ bigEndian 3 (crcOf crcPoly data).toNat) =
      (bigEndian 3 (crcOf crcPoly data).toNat).foldl (crcByte crcPoly) (crcOf crcPoly data) :=
    List.foldl_append
  rw [hfold, Frame3.bigEndian_three]
  generalize crcOf crcPoly data = c
  have hfirst : (UInt8.ofNat (c.toNat / 65536 % 256)).toBitVec = (c >>> 16).setWidth 8 := by
    apply BitVec.eq_of_toNat_eq
    simp [Nat.shiftRight_eq_div_pow]
  have hmiddle : (UInt8.ofNat (c.toNat / 256 % 256)).toBitVec =
      ((c <<< 8) >>> 16).setWidth 8 := by
    apply BitVec.eq_of_toNat_eq
    simp [Nat.shiftRight_eq_div_pow, Nat.shiftLeft_eq]
    omega
  have hlast : (UInt8.ofNat (c.toNat % 256)).toBitVec =
      ((c <<< 8 <<< 8) >>> 16).setWidth 8 := by
    apply BitVec.eq_of_toNat_eq
    simp [Nat.shiftRight_eq_div_pow, Nat.shiftLeft_eq]
    omega
  have hgone : c <<< 8 <<< 8 <<< 8 = 0 := by
    rw [← BitVec.shiftLeft_add, ← BitVec.shiftLeft_add]
    exact BitVec.shiftLeft_eq_zero le_rfl
  rw [List.foldl_cons, List.foldl_cons, List.foldl_cons, List.foldl_nil,
    crcByte_top (by decide) c hfirst, crcByte_top (by decide) _ hmiddle,
    crcByte_top (by decide) _ hlast, hgone]

/-- The table-driven check sum is the bit-by-bit remainder, and a message with its check sum behind
it has the check sum zero. -/
theorem crc24qHash_remainder (data : Bytes) :
    crc24qHash data data.length = (crcBits crcPoly (data.flatMap byteBits)).toNat ∧
      toPoly (BitVec.ofNat 24 (crc24qHash data data.length)) =
        (X ^ 24 * bitsPoly (data.flatMap byteBits)) %ₘ toPoly (0x1864CFB : BitVec 25) ∧
      crc24qHash (data ++ bigEndian 3 (crc24qHash data data.length)) (data.length + 3) = 0 := by
  have hhash : crc24qHash data data.length = (crcOf crcPoly data).toNat := by
    rw [crc24qHash_eq, List.take_length]
  have hgenerator : toPoly (0x1864CFB : BitVec 25) = generator crcPoly := toPoly_cons crcPoly
  refine ⟨?_, ?_, ?_⟩
  · rw [hhash, crcOf_bits]
  · rw [hhash, BitVec.ofNat_toNat, BitVec.setWidth_eq, crcOf_bits, hgenerator, toPoly_crcBits]
  · have hlen : (data ++ bigEndian 3 (crcOf crcPoly data).toNat).length = data.length + 3 := by
      rw [List.length_append, bigEndian_length]
    rw [hhash, crc24qHash_eq, ← hlen, List.take_length, crcOf_append_crc]
    rfl

end V2IHub.Rtcm
