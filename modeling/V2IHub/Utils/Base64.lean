import V2IHub.Foundation.Bytes

/-! `Base64`, and that decoding gives back what was encoded. -/
namespace V2IHub.Utils.Base64
open V2IHub.Foundation

def base64Chars : Bytes :=
  cstr "ABCDEFGHIJKLMNOPQRSTUVWXYZabcdefghijklmnopqrstuvwxyz0123456789+/"

def isBase64 (c : UInt8) : Bool :=
  48 ≤ c ∧ c ≤ 57 ∨ 65 ≤ c ∧ c ≤ 90 ∨ 97 ≤ c ∧ c ≤ 122 ∨ c = 43 ∨ c = 47

def base64Char (index : UInt8) : UInt8 := base64Chars.getD index.toNat 0

/-- `base64_chars.find(c)` stored in an `unsigned char`. -/
def findChar (c : UInt8) : UInt8 :=
  match base64Chars.findIdx? (· = c) with
  | some index => UInt8.ofNat index
  | none => 255

def sextet0 (b0 : UInt8) : UInt8 := (b0 &&& 0xfc) >>> 2

def sextet1 (b0 b1 : UInt8) : UInt8 := ((b0 &&& 0x03) <<< 4) + ((b1 &&& 0xf0) >>> 4)

def sextet2 (b1 b2 : UInt8) : UInt8 := ((b1 &&& 0x0f) <<< 2) + ((b2 &&& 0xc0) >>> 6)

def sextet3 (b2 : UInt8) : UInt8 := b2 &&& 0x3f

/-- Three bytes at a time; a group that is cut off is filled with zeros and padded. -/
def encode : Bytes → Bytes
  | b0 :: b1 :: b2 :: bytes =>
    base64Char (sextet0 b0) :: base64Char (sextet1 b0 b1) :: base64Char (sextet2 b1 b2) ::
      base64Char (sextet3 b2) :: encode bytes
  | [b0, b1] =>
    [base64Char (sextet0 b0), base64Char (sextet1 b0 b1), base64Char (sextet2 b1 0), 61]
  | [b0] => [base64Char (sextet0 b0), base64Char (sextet1 b0 0), 61, 61]
  | [] => []

def octet0 (s0 s1 : UInt8) : UInt8 := (s0 <<< 2) + ((s1 &&& 0x30) >>> 4)

def octet1 (s1 s2 : UInt8) : UInt8 := ((s1 &&& 0xf) <<< 4) + ((s2 &&& 0x3c) >>> 2)

def octet2 (s2 s3 : UInt8) : UInt8 := ((s2 &&& 0x3) <<< 6) + s3

/-- Four characters at a time; of a group that is cut off only whole bytes remain. -/
def decodeGroups : Bytes → Bytes
  | c0 :: c1 :: c2 :: c3 :: chars =>
    octet0 (findChar c0) (findChar c1) :: octet1 (findChar c1) (findChar c2) ::
      octet2 (findChar c2) (findChar c3) :: decodeGroups chars
  | [c0, c1, c2] => [octet0 (findChar c0) (findChar c1), octet1 (findChar c1) (findChar c2)]
  | [c0, c1] => [octet0 (findChar c0) (findChar c1)]
  | _ => []

/-- The loop stops at the first padding or foreign character. -/
def isPayload (c : UInt8) : Bool := c ≠ 61 ∧ isBase64 c

def decode (encoded : Bytes) : Bytes := decodeGroups (encoded.takeWhile isPayload)

theorem sextet_char : ∀ n < 64, findChar (base64Char (UInt8.ofNat n)) = UInt8.ofNat n ∧
    isPayload (base64Char (UInt8.ofNat n)) = true := by
  decide +kernel

theorem findChar_base64Char {s : UInt8} (h : s.toNat < 64) : findChar (base64Char s) = s := by
  simpa using (sextet_char s.toNat h).1

theorem isPayload_base64Char {s : UInt8} (h : s.toNat < 64) :
    isPayload (base64Char s) = true := by
  simpa using (sextet_char s.toNat h).2

section Bits

theorem byte_parts : ∀ n < 256,
    ((UInt8.ofNat n &&& 0xfc) >>> 2).toNat = n / 4 ∧
    ((UInt8.ofNat n &&& 0x03) <<< 4).toNat = n % 4 * 16 ∧
    ((UInt8.ofNat n &&& 0xf0) >>> 4).toNat = n / 16 ∧
    ((UInt8.ofNat n &&& 0x0f) <<< 2).toNat = n % 16 * 4 ∧
    ((UInt8.ofNat n &&& 0xc0) >>> 6).toNat = n / 64 ∧
    (UInt8.ofNat n &&& 0x3f).toNat = n % 64 := by
  decide +kernel

theorem sextet_parts : ∀ n < 64,
    (UInt8.ofNat n <<< 2).toNat = n * 4 ∧
    ((UInt8.ofNat n &&& 0x30) >>> 4).toNat = n / 16 ∧
    ((UInt8.ofNat n &&& 0xf) <<< 4).toNat = n % 16 * 16 ∧
    ((UInt8.ofNat n &&& 0x3c) >>> 2).toNat = n / 4 ∧
    ((UInt8.ofNat n &&& 0x3) <<< 6).toNat = n % 4 * 64 := by
  decide +kernel

variable (b0 b1 b2 : UInt8)

theorem toNat_sextet0 : (sextet0 b0).toNat = b0.toNat / 4 := by
  simpa [sextet0] using (byte_parts b0.toNat b0.toNat_lt).1

theorem toNat_sextet1 : (sextet1 b0 b1).toNat = b0.toNat % 4 * 16 + b1.toNat / 16 := by
  have h0 := (byte_parts b0.toNat b0.toNat_lt).2.1
  have h1 := (byte_parts b1.toNat b1.toNat_lt).2.2.1
  have hb := b1.toNat_lt
  rw [UInt8.ofNat_toNat] at h0 h1
  unfold sextet1
  rw [UInt8.toNat_add, h0, h1]
  omega

theorem toNat_sextet2 : (sextet2 b1 b2).toNat = b1.toNat % 16 * 4 + b2.toNat / 64 := by
  have h1 := (byte_parts b1.toNat b1.toNat_lt).2.2.2.1
  have h2 := (byte_parts b2.toNat b2.toNat_lt).2.2.2.2.1
  have hb := b2.toNat_lt
  rw [UInt8.ofNat_toNat] at h1 h2
  unfold sextet2
  rw [UInt8.toNat_add, h1, h2]
  omega

theorem toNat_sextet3 : (sextet3 b2).toNat = b2.toNat % 64 := by
  simpa [sextet3] using (byte_parts b2.toNat b2.toNat_lt).2.2.2.2.2

theorem sextet0_lt : (sextet0 b0).toNat < 64 := by
  have hb := b0.toNat_lt
  rw [toNat_sextet0]
  omega

theorem sextet1_lt : (sextet1 b0 b1).toNat < 64 := by
  have hb := b1.toNat_lt
  rw [toNat_sextet1]
  omega

theorem sextet2_lt : (sextet2 b1 b2).toNat < 64 := by
  have hb := b2.toNat_lt
  rw [toNat_sextet2]
  omega

theorem sextet3_lt : (sextet3 b2).toNat < 64 := by
  rw [toNat_sextet3]
  omega

variable {s0 s1 s2 s3 : UInt8}

theorem toNat_octet0 (h0 : s0.toNat < 64) (h1 : s1.toNat < 64) :
    (octet0 s0 s1).toNat = s0.toNat * 4 + s1.toNat / 16 := by
  have hs0 := (sextet_parts s0.toNat h0).1
  have hs1 := (sextet_parts s1.toNat h1).2.1
  rw [UInt8.ofNat_toNat] at hs0 hs1
  unfold octet0
  rw [UInt8.toNat_add, hs0, hs1]
  omega

theorem toNat_octet1 (h1 : s1.toNat < 64) (h2 : s2.toNat < 64) :
    (octet1 s1 s2).toNat = s1.toNat % 16 * 16 + s2.toNat / 4 := by
  have hs1 := (sextet_parts s1.toNat h1).2.2.1
  have hs2 := (sextet_parts s2.toNat h2).2.2.2.1
  rw [UInt8.ofNat_toNat] at hs1 hs2
  unfold octet1
  rw [UInt8.toNat_add, hs1, hs2]
  omega

theorem toNat_octet2 (h2 : s2.toNat < 64) (h3 : s3.toNat < 64) :
    (octet2 s2 s3).toNat = s2.toNat % 4 * 64 + s3.toNat := by
  have hs2 := (sextet_parts s2.toNat h2).2.2.2.2
  rw [UInt8.ofNat_toNat] at hs2
  unfold octet2
  rw [UInt8.toNat_add, hs2]
  omega

theorem octet0_sextets : octet0 (sextet0 b0) (sextet1 b0 b1) = b0 := by
  apply UInt8.toNat_inj.mp
  rw [toNat_octet0 (sextet0_lt b0) (sextet1_lt b0 b1), toNat_sextet0, toNat_sextet1]
  have hb := b1.toNat_lt
  omega

theorem octet1_sextets : octet1 (sextet1 b0 b1) (sextet2 b1 b2) = b1 := by
  apply UInt8.toNat_inj.mp
  rw [toNat_octet1 (sextet1_lt b0 b1) (sextet2_lt b1 b2), toNat_sextet1, toNat_sextet2]
  have hb1 := b1.toNat_lt
  have hb2 := b2.toNat_lt
  omega

theorem octet2_sextets : octet2 (sextet2 b1 b2) (sextet3 b2) = b2 := by
  apply UInt8.toNat_inj.mp
  rw [toNat_octet2 (sextet2_lt b1 b2) (sextet3_lt b2), toNat_sextet2, toNat_sextet3]
  have hb := b2.toNat_lt
  omega

end Bits

theorem decode_encode (bytes : Bytes) : decode (encode bytes) = bytes := by
  fun_induction encode bytes with
  | case1 b0 b1 b2 bytes ih =>
    unfold decode at ih ⊢
    rw [List.takeWhile_cons_of_pos (isPayload_base64Char (sextet0_lt b0)),
      List.takeWhile_cons_of_pos (isPayload_base64Char (sextet1_lt b0 b1)),
      List.takeWhile_cons_of_pos (isPayload_base64Char (sextet2_lt b1 b2)),
      List.takeWhile_cons_of_pos (isPayload_base64Char (sextet3_lt b2))]
    unfold decodeGroups
    rw [ih, findChar_base64Char (sextet0_lt b0), findChar_base64Char (sextet1_lt b0 b1),
      findChar_base64Char (sextet2_lt b1 b2), findChar_base64Char (sextet3_lt b2),
      octet0_sextets, octet1_sextets, octet2_sextets]
  | case2 b0 b1 =>
    unfold decode
    rw [List.takeWhile_cons_of_pos (isPayload_base64Char (sextet0_lt b0)),
      List.takeWhile_cons_of_pos (isPayload_base64Char (sextet1_lt b0 b1)),
      List.takeWhile_cons_of_pos (isPayload_base64Char (sextet2_lt b1 0)),
      List.takeWhile_cons_of_neg (by simp [isPayload])]
    unfold decodeGroups
    rw [findChar_base64Char (sextet0_lt b0), findChar_base64Char (sextet1_lt b0 b1),
      findChar_base64Char (sextet2_lt b1 0), octet0_sextets, octet1_sextets]
  | case3 b0 =>
    unfold decode
    rw [List.takeWhile_cons_of_pos (isPayload_base64Char (sextet0_lt b0)),
      List.takeWhile_cons_of_pos (isPayload_base64Char (sextet1_lt b0 0)),
      List.takeWhile_cons_of_neg (by simp [isPayload])]
    unfold decodeGroups
    rw [findChar_base64Char (sextet0_lt b0), findChar_base64Char (sextet1_lt b0 0),
      octet0_sextets]
  | case4 => rfl

end V2IHub.Utils.Base64
