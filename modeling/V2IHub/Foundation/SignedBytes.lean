import V2IHub.Foundation.Bytes

/-! The bytes of integers in two's complement. -/
namespace V2IHub.Foundation

/-- `(unsigned char) v` -/
def lowByte (v : ℤ) : UInt8 := UInt8.ofNat (v % 256).toNat

/-- `(signed char) b` -/
def signedByte (b : UInt8) : ℤ := if b.toNat < 128 then b.toNat else b.toNat - 256

/-- The two low bytes, the high one first. -/
def wordBytes (v : ℤ) : Bytes := [lowByte (v / 256), lowByte v]

/-- The four low bytes, the highest one first. -/
def dwordBytes (v : ℤ) : Bytes :=
  [lowByte (v / 256 ^ 3), lowByte (v / 256 ^ 2), lowByte (v / 256), lowByte v]

section
variable {v : ℤ}

@[simp] theorem wordBytes_length (v : ℤ) : (wordBytes v).length = 2 := rfl

theorem lowByte_toNat (v : ℤ) : ((lowByte v).toNat : ℤ) = v % 256 := by
  have hlt : (v % 256).toNat < 256 := by omega
  simp only [lowByte, UInt8.toNat_ofNat']
  omega

theorem lowByte_toNat_of_nat (n : ℕ) : (lowByte n).toNat = n % 256 := by
  have h := lowByte_toNat n
  omega

theorem signedByte_lowByte (h : -128 ≤ v) (h' : v < 128) : signedByte (lowByte v) = v := by
  have hv := lowByte_toNat v
  simp only [signedByte]
  split <;> omega

theorem word_joined (h : -32768 ≤ v) (h' : v < 32768) :
    signedByte (lowByte (v / 256)) * 256 + (lowByte v).toNat = v := by
  have hlow := lowByte_toNat v
  have hhigh : signedByte (lowByte (v / 256)) = v / 256 :=
    signedByte_lowByte (by omega) (by omega)
  omega

theorem dword_joined (h : -2147483648 ≤ v) (h' : v < 2147483648) :
    signedByte (lowByte (v / 256 ^ 3)) * 256 ^ 3 + (lowByte (v / 256 ^ 2)).toNat * 256 ^ 2 +
      (lowByte (v / 256)).toNat * 256 + (lowByte v).toNat = v := by
  have h0 := lowByte_toNat v
  have h1 := lowByte_toNat (v / 256)
  have h2 := lowByte_toNat (v / 256 ^ 2)
  have h3 : signedByte (lowByte (v / 256 ^ 3)) = v / 256 ^ 3 :=
    signedByte_lowByte (by omega) (by omega)
  omega

end
end V2IHub.Foundation
