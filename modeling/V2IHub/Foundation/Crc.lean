import V2IHub.Foundation.Bytes

/-! Cyclic redundancy checks: the remainder of a message by a polynomial, bit by bit, and a table
for whole bytes. -/
namespace V2IHub.Foundation
variable {w : ℕ} (poly : BitVec w)

/-- One shift of the remainder; `poly` is the polynomial without its leading bit. -/
def crcShift (c : BitVec w) : BitVec w := if c.msb then c <<< 1 ^^^ poly else c <<< 1

def crcShifts : ℕ → BitVec w → BitVec w
  | 0, c => c
  | n + 1, c => crcShift poly (crcShifts n c)

/-- A byte at the top of the remainder. -/
def topByte (w : ℕ) (byte : BitVec 8) : BitVec w := byte.setWidth w <<< (w - 8)

def crcByte (c : BitVec w) (byte : UInt8) : BitVec w :=
  crcShifts poly 8 (c ^^^ topByte w byte.toBitVec)

def crcOf (bytes : Bytes) : BitVec w := bytes.foldl (crcByte poly) 0

section Linear
variable {poly}

theorem crcShift_xor (a b : BitVec w) :
    crcShift poly (a ^^^ b) = crcShift poly a ^^^ crcShift poly b := by
  simp only [crcShift, BitVec.msb_xor, BitVec.shiftLeft_xor_distrib]
  cases a.msb <;> cases b.msb
  · simp
  · simp [BitVec.xor_assoc]
  · simp only [Bool.xor_false, if_true, Bool.false_eq_true, if_false]
    ac_rfl
  · simp only [Bool.xor_self, Bool.false_eq_true, if_false, if_true]
    have hcancel : a <<< 1 ^^^ poly ^^^ (b <<< 1 ^^^ poly) =
        a <<< 1 ^^^ b <<< 1 ^^^ (poly ^^^ poly) := by ac_rfl
    rw [hcancel, BitVec.xor_self, BitVec.xor_zero]

theorem crcShifts_xor (n : ℕ) (a b : BitVec w) :
    crcShifts poly n (a ^^^ b) = crcShifts poly n a ^^^ crcShifts poly n b := by
  induction n with
  | zero => rfl
  | succ n ih => rw [crcShifts, ih, crcShift_xor, crcShifts, crcShifts]

/-- A remainder whose top bits are clear only moves up. -/
theorem crcShifts_of_clear {c : BitVec w} {n : ℕ} (h : ∀ i < n, c.getMsbD i = false) :
    crcShifts poly n c = c <<< n := by
  induction n with
  | zero => simp [crcShifts]
  | succ n ih =>
    have hmsb : (c <<< n).msb = false := by
      have hn := h n (by omega)
      simpa [BitVec.msb, BitVec.getMsbD_shiftLeft] using hn
    rw [crcShifts, ih fun i hi => h i (by omega), crcShift, hmsb]
    simp [BitVec.shiftLeft_add]

/-- If the polynomial has a constant term, the remainder does not vanish by a shift. -/
theorem eq_zero_of_crcShift (hpoly : poly.getLsbD 0 = true) {c : BitVec w}
    (h : crcShift poly c = 0) : c = 0 := by
  have hw : 0 < w := BitVec.lt_of_getLsbD hpoly
  rw [BitVec.getLsbD_eq_getElem hw] at hpoly
  rw [crcShift] at h
  split_ifs at h with hmsb
  · have hbit := congrArg (BitVec.getLsbD · 0) h
    simp [hpoly, hw] at hbit
  · apply BitVec.eq_of_getLsbD_eq
    intro i hi
    by_cases hlast : i + 1 < w
    · have hbit := congrArg (BitVec.getLsbD · (i + 1)) h
      rw [BitVec.getLsbD_eq_getElem hi]
      simpa [hlast] using hbit
    · rw [BitVec.msb_eq_getLsbD_last, Bool.not_eq_true] at hmsb
      have hi : i = w - 1 := by omega
      rw [hi, hmsb]
      simp

theorem eq_zero_of_crcShifts (hpoly : poly.getLsbD 0 = true) {c : BitVec w} {n : ℕ}
    (h : crcShifts poly n c = 0) : c = 0 := by
  induction n with
  | zero => exact h
  | succ n ih => exact ih (eq_zero_of_crcShift hpoly h)

theorem topByte_xor (w : ℕ) (a b : BitVec 8) :
    topByte w (a ^^^ b) = topByte w a ^^^ topByte w b := by
  rw [topByte, BitVec.setWidth_xor, BitVec.shiftLeft_xor_distrib, topByte, topByte]

/-- The top byte of a remainder, put back where it was. -/
theorem topByte_getLsbD (c : BitVec w) {i : ℕ} (hi : i < w) :
    (topByte w ((c >>> (w - 8)).setWidth 8)).getLsbD i =
      (decide (w - 8 ≤ i) && c.getLsbD i) := by
  by_cases h : w - 8 ≤ i
  · have hbyte : i - (w - 8) < 8 := by omega
    have hpos : i - (w - 8) < w := by omega
    have hsum : w - 8 + (i - (w - 8)) = i := by omega
    simp [topByte, hi, h, hbyte, hpos, hsum]
  · simp [topByte, h, hi, Nat.lt_of_not_le h]

/-- A byte at a time: what the top byte leaves is added to the rest of the remainder. -/
theorem crcByte_eq (hw : 8 ≤ w) (c : BitVec w) (byte : UInt8) :
    crcByte poly c byte = c <<< 8 ^^^
      crcShifts poly 8 (topByte w ((c >>> (w - 8)).setWidth 8 ^^^ byte.toBitVec)) := by
  let top : BitVec w := topByte w ((c >>> (w - 8)).setWidth 8)
  have hlow : ∀ i < 8, (c ^^^ top).getMsbD i = false := by
    intro i hi
    have hpos : w - 1 - i < w := by omega
    have hge : w - 8 ≤ w - 1 - i := by omega
    rw [BitVec.getMsbD_eq_getLsbD, BitVec.getLsbD_xor, topByte_getLsbD c hpos]
    simp [hge]
  have hshift : (c ^^^ top) <<< 8 = c <<< 8 := by
    apply BitVec.eq_of_getLsbD_eq
    intro i hi
    by_cases h : i < 8
    · simp [h]
    · have hpos : i - 8 < w := by omega
      have hlt : ¬ w - 8 ≤ i - 8 := by omega
      rw [BitVec.getLsbD_shiftLeft, BitVec.getLsbD_shiftLeft, BitVec.getLsbD_xor,
        topByte_getLsbD c hpos]
      simp [hlt]
  have htop : c ^^^ topByte w byte.toBitVec =
      c ^^^ top ^^^ topByte w ((c >>> (w - 8)).setWidth 8 ^^^ byte.toBitVec) := by
    rw [topByte_xor]
    have hcancel : c ^^^ top ^^^ (top ^^^ topByte w byte.toBitVec) =
        c ^^^ topByte w byte.toBitVec ^^^ (top ^^^ top) := by ac_rfl
    rw [hcancel, BitVec.xor_self, BitVec.xor_zero]
  rw [crcByte, htop, crcShifts_xor, crcShifts_of_clear hlow, hshift]

theorem crcOf_append (bytes bytes' : Bytes) :
    crcOf poly (bytes ++ bytes') = bytes'.foldl (crcByte poly) (crcOf poly bytes) := by
  rw [crcOf, List.foldl_append, crcOf]

/-- The top byte of the remainder takes itself out. -/
theorem crcByte_topByte (hw : 8 ≤ w) (c : BitVec w) :
    crcByte poly c (.ofBitVec ((c >>> (w - 8)).setWidth 8)) = c <<< 8 := by
  have hzero : crcShifts poly 8 (topByte w (0 : BitVec 8)) = 0 := by
    have hclear : ∀ i < 8, (topByte w (0 : BitVec 8)).getMsbD i = false := by
      intro i _
      simp [topByte]
    rw [crcShifts_of_clear hclear]
    simp [topByte]
  rw [crcByte_eq hw, UInt8.toBitVec_ofBitVec, BitVec.xor_self, ← BitVec.ofNat_eq_ofNat, hzero]
  exact BitVec.xor_zero

end Linear
end V2IHub.Foundation
