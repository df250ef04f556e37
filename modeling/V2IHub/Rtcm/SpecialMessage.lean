import V2IHub.Rtcm.MessageTypes

/-! The text of the RTCM 2 special message, from its setter to the decoder of another message. -/
namespace V2IHub.Rtcm
open Foundation

namespace Rtcm2Message

/-- `Validate` -/
def validate (m : Rtcm2Message) : Rtcm2Message :=
  let parity1 := addParity m.getHeader1 0 % 2 ^ 6
  let m := { m.refresh with
    header := { m.header with parity1 := parity1 }
    storage_version := m.storage_version + 1 }
  let parity2 := addParity m.getHeader2 m.header.parity1 % 2 ^ 6
  { m.refresh with
    header := { m.header with parity2 := parity2 }
    storage_version := m.storage_version + 1 }

end Rtcm2Message

namespace GpsSpecialMessage

/-- A `char` in an `int`, which is signed. -/
def charInt (c : UInt8) : BitVec 32 := c.toBitVec.signExtend 32

/-- The characters of a word, shifted as an `int` each. -/
def packChars (a b c : UInt8) : BitVec 32 :=
  charInt a <<< 22 ||| charInt b <<< 14 ||| charInt c <<< 6

/-- The words of a text; characters that are missing are zero. -/
def messageWords : ℕ → Bytes → List ℕ
  | _, [] => []
  | prevWord, [a] => [addParity (packChars a 0 0).toNat prevWord]
  | prevWord, [a, b] => [addParity (packChars a b 0).toNat prevWord]
  | prevWord, a :: b :: c :: message =>
    let word := addParity (packChars a b c).toNat prevWord
    word :: messageWords word message

/-- `assignMessage` -/
def assignMessage (m : Rtcm2Message) (message : Bytes) : Rtcm2Message :=
  let numberDataWords := message.length / 3 + if message.length % 3 = 0 then 0 else 1
  let m := { m with
    data := []
    header := { m.header with numberDataWords := numberDataWords % 2 ^ 16 }
    storage_version := m.storage_version + 1 }
  let m := m.validate
  let prevWord := m.getHeader2
  { m.refresh with data := messageWords prevWord message }

def setSpecialMessage (m : GpsSpecialMessage) (message : Bytes) : GpsSpecialMessage :=
  let base := assignMessage m.base message
  ⟨{ base with storage_version := base.storage_version + 1 }, message⟩

/-- What a character leaves in those before it in its word. -/
def spill (c : UInt8) : UInt8 := if 128 ≤ c then 0xFF else 0

/-- The text as it is in the words. -/
def spilled : Bytes → Bytes
  | [] => []
  | [a] => [a]
  | [a, b] => [a ||| spill b, b]
  | a :: b :: c :: message => (a ||| spill b ||| spill c) :: (b ||| spill c) :: c :: spilled message

/-- In each word, a character that is not below 128 comes behind bytes 255 only. -/
def KeepsText : Bytes → Prop
  | [] | [_] => True
  | [a, b] => 128 ≤ b → a = 0xFF
  | a :: b :: c :: message =>
    (128 ≤ b → a = 0xFF) ∧ (128 ≤ c → a = 0xFF ∧ b = 0xFF) ∧ KeepsText message

section Words

theorem charInt_getLsbD (c : UInt8) {n j : ℕ} (hj : j < 32) :
    (charInt c <<< n).getLsbD j =
      if j < n then false else if j < n + 8 then c.toBitVec.getLsbD (j - n)
      else decide (128 ≤ c) := by
  have hmsb : c.toBitVec.msb = decide (128 ≤ c) := by
    rw [BitVec.msb_eq_decide]
    rfl
  have hlt : j - n < 32 := by omega
  rw [BitVec.getLsbD_shiftLeft, charInt, BitVec.getLsbD_signExtend, hmsb]
  by_cases hn : j < n
  · simp [hn]
  · by_cases h8 : j < n + 8
    · have hlow : j - n < 8 := by omega
      simp [hj, hn, h8, hlow, hlt]
    · have hhigh : ¬ j - n < 8 := by omega
      simp [hj, hn, h8, hhigh, hlt]

theorem spill_getLsbD (c : UInt8) {i : ℕ} (hi : i < 8) :
    (spill c).toBitVec.getLsbD i = decide (128 ≤ c) := by
  rw [spill]
  split_ifs with h
  · have hall : ∀ i < 8, (0xFF : UInt8).toBitVec.getLsbD i = true := by decide
    rw [hall i hi, decide_eq_true h]
  · simp [h]

/-- The bits of a word behind its parity are those of its characters. -/
theorem addParity_testBit (word prevWord : ℕ) {j : ℕ} (hj : 6 ≤ j) (hlt : j < 30) :
    (addParity word prevWord).testBit j = word.testBit j := by
  have hcode := parityCode_lt word (getBit 29 prevWord) (getBit 30 prevWord)
  have hpow : 64 = 2 ^ 6 := by decide
  rw [addParity, hpow, Nat.mul_comm, Nat.testBit_two_pow_mul_add _ hcode, if_neg (by omega),
    Nat.testBit_div_two_pow, Nat.testBit_mod_two_pow]
  have hsum : j - 6 + 6 = j := by omega
  simp [hsum, hlt]

theorem addParity_lt (word prevWord : ℕ) : addParity word prevWord < 2 ^ 30 := by
  have hcode := parityCode_lt word (getBit 29 prevWord) (getBit 30 prevWord)
  rw [addParity]
  omega

theorem xorBits_addParity (word prevWord : ℕ) {ns : List ℕ} (h : ∀ n ∈ ns, 1 ≤ n ∧ n ≤ 24) :
    xorBits (addParity word prevWord) ns = xorBits word ns := by
  induction ns with
  | nil => rfl
  | cons n ns ih =>
    obtain ⟨hn, hns⟩ := List.forall_mem_cons.mp h
    rw [xorBits, xorBits, ih hns, getBit, getBit, addParity_testBit _ _ (by omega) (by omega)]

/-- The parity is of the bits in front of it. -/
theorem parityCode_addParity (word prevWord : ℕ) (D29 D30 : Bool) :
    parityCode (addParity word prevWord) D29 D30 = parityCode word D29 D30 := by
  have hbits : parityBits (addParity word prevWord) D29 D30 = parityBits word D29 D30 := by
    rw [parityBits, parityBits, xorBits_addParity _ _ (by decide), xorBits_addParity _ _ (by decide),
      xorBits_addParity _ _ (by decide), xorBits_addParity _ _ (by decide),
      xorBits_addParity _ _ (by decide), xorBits_addParity _ _ (by decide)]
  rw [parityCode, hbits, parityCode]

theorem checkParity_addParity (word prevWord : ℕ) :
    checkParity (addParity word prevWord) prevWord = true := by
  have hcode := parityCode_lt word (getBit 29 prevWord) (getBit 30 prevWord)
  rw [checkParity_iff (addParity_lt word prevWord), parityCode_addParity, addParity]
  omega

/-- The character at a position of a word. -/
theorem textByte_eq (word : BitVec 32) (prevWord : ℕ) {n : ℕ} (hn : n ≤ 16) {c : UInt8}
    (h : ∀ i < 8, word.getLsbD (6 + n + i) = c.toBitVec.getLsbD i) :
    UInt8.ofNat (addParity word.toNat prevWord >>> 6 >>> n % 256) = c := by
  apply UInt8.toNat_inj.mp
  have hpow : 256 = 2 ^ 8 := by decide
  rw [UInt8.toNat_ofNat', hpow, Nat.mod_mod]
  apply Nat.eq_of_testBit_eq
  intro i
  rw [Nat.testBit_mod_two_pow]
  by_cases hi : i < 8
  · have hbit := h i hi
    rw [← BitVec.testBit_toNat, ← BitVec.testBit_toNat, Nat.add_assoc] at hbit
    rw [Nat.testBit_shiftRight, Nat.testBit_shiftRight,
      addParity_testBit _ _ (by omega) (by omega), hbit]
    simp [hi]
  · have hc : c.toNat < 2 ^ i := c.toNat_lt.trans_le (Nat.pow_le_pow_right (by decide) (by omega))
    simp [hi, Nat.testBit_lt_two_pow hc]

theorem wordText_packChars (a b c : UInt8) (prevWord : ℕ) :
    wordText (addParity (packChars a b c).toNat prevWord) =
      (a ||| spill b ||| spill c) :: [b ||| spill c, c].filter (· ≠ 0) := by
  have hfirst := textByte_eq (packChars a b c) prevWord (n := 16) le_rfl
    (c := a ||| spill b ||| spill c) fun i hi => by
      rw [packChars, BitVec.getLsbD_or, BitVec.getLsbD_or, charInt_getLsbD a (by omega),
        charInt_getLsbD b (by omega), charInt_getLsbD c (by omega), if_neg (by omega),
        if_pos (by omega), if_neg (by omega), if_neg (by omega), if_neg (by omega),
        if_neg (by omega), UInt8.toBitVec_or, UInt8.toBitVec_or, BitVec.getLsbD_or,
        BitVec.getLsbD_or, spill_getLsbD b hi, spill_getLsbD c hi, Nat.add_sub_cancel_left]
  have hsecond := textByte_eq (packChars a b c) prevWord (n := 8) (by decide)
    (c := b ||| spill c) fun i hi => by
      rw [packChars, BitVec.getLsbD_or, BitVec.getLsbD_or, charInt_getLsbD a (by omega),
        charInt_getLsbD b (by omega), charInt_getLsbD c (by omega), if_pos (by omega),
        if_neg (by omega), if_pos (by omega), if_neg (by omega), if_neg (by omega),
        UInt8.toBitVec_or, BitVec.getLsbD_or, spill_getLsbD c hi, Nat.add_sub_cancel_left,
        Bool.false_or]
  have hthird := textByte_eq (packChars a b c) prevWord (n := 0) (by decide) (c := c)
    fun i hi => by
      rw [packChars, BitVec.getLsbD_or, BitVec.getLsbD_or, charInt_getLsbD a (by omega),
        charInt_getLsbD b (by omega), charInt_getLsbD c (by omega), if_pos (by omega),
        if_pos (by omega), if_neg (by omega), if_pos (by omega), Nat.add_sub_cancel_left,
        Bool.false_or, Bool.false_or]
  simp only [wordText, Nat.sub_zero, Nat.mul_one, Nat.reduceSub, Nat.reduceMul, hfirst, hsecond,
    hthird]

/-- The text that is read from the words. -/
theorem readText_messageWords {message : Bytes} (hne : ∀ c ∈ message, c ≠ 0)
    (prevWord : ℕ) : readText prevWord (messageWords prevWord message) = some (spilled message) := by
  fun_induction spilled message generalizing prevWord with
  | case1 => rfl
  | case2 a =>
    have hspill : spill 0 = 0 := rfl
    simp [messageWords, readText, checkParity_addParity, wordText_packChars, hspill]
  | case3 a b =>
    have hb : b ≠ 0 := hne b (by simp)
    have hspill : spill 0 = 0 := rfl
    simp [messageWords, readText, checkParity_addParity, wordText_packChars, hspill, hb]
  | case4 a b c message ih =>
    have hb : b ||| spill c ≠ 0 := fun hor => hne b (by simp) (UInt8.or_eq_zero_iff.mp hor).1
    have hc : c ≠ 0 := hne c (by simp)
    have hrest : ∀ x ∈ message, x ≠ 0 := fun x hx => hne x (by simp [hx])
    rw [messageWords, readText, checkParity_addParity, if_pos rfl, ih hrest, wordText_packChars]
    simp [hb, hc]

theorem messageWords_length (message : Bytes) (prevWord : ℕ) :
    (messageWords prevWord message).length =
      message.length / 3 + if message.length % 3 = 0 then 0 else 1 := by
  fun_induction messageWords prevWord message with
  | case1 => rfl
  | case2 => simp
  | case3 => simp
  | case4 prevWord a b c message word ih =>
    rw [List.length_cons, ih]
    simp only [List.length_cons]
    split_ifs <;> omega

theorem messageWords_lt (message : Bytes) (prevWord : ℕ) :
    ∀ word ∈ messageWords prevWord message, word < 2 ^ 30 := by
  fun_induction messageWords prevWord message with
  | case1 => exact fun _ hmem => absurd hmem List.not_mem_nil
  | case2 => exact List.forall_mem_singleton.mpr (addParity_lt _ _)
  | case3 => exact List.forall_mem_singleton.mpr (addParity_lt _ _)
  | case4 prevWord a b c message word ih =>
    exact List.forall_mem_cons.mpr ⟨addParity_lt _ _, ih⟩

theorem or_ones (a : UInt8) : a ||| 0xFF = 0xFF :=
  UInt8.toBitVec_inj.mp BitVec.or_allOnes

theorem or_spill_iff (a b : UInt8) : a ||| spill b = a ↔ (128 ≤ b → a = 0xFF) := by
  rw [spill]
  split_ifs with h
  · rw [or_ones]
    exact ⟨fun heq _ => heq.symm, fun himp => (himp h).symm⟩
  · simp [h]

/-- The text is kept exactly if no character changes those before it. -/
theorem spilled_eq_iff (message : Bytes) : spilled message = message ↔ KeepsText message := by
  fun_induction spilled message with
  | case1 => simp [KeepsText]
  | case2 a => simp [KeepsText]
  | case3 a b =>
    simp only [List.cons.injEq, and_true, KeepsText]
    exact or_spill_iff a b
  | case4 a b c message ih =>
    simp only [List.cons.injEq, true_and, KeepsText, ih]
    by_cases hc : 128 ≤ c
    · have hones : spill c = 0xFF := if_pos hc
      have himp : a = 0xFF → 128 ≤ b → a = 0xFF := fun h _ => h
      rw [hones, or_ones, or_ones, eq_comm (a := (0xFF : UInt8)), eq_comm (a := (0xFF : UInt8))]
      tauto
    · have hzero : spill c = 0 := if_neg hc
      rw [hzero, UInt8.or_zero, UInt8.or_zero, or_spill_iff]
      tauto

/-- Of the word before, the last two bits count. -/
theorem readText_mod (prevWord : ℕ) (words : List ℕ) :
    readText (prevWord % 64) words = readText prevWord words := by
  cases words with
  | nil => rfl
  | cons word words =>
    have hparity : checkParity word (prevWord % 64) = checkParity word prevWord := by
      rw [checkParity, checkParity, addParity, addParity, getBit_mod prevWord (.inl rfl),
        getBit_mod prevWord (.inr rfl)]
    rw [readText, readText, hparity]

end Words
section RoundTrip

/-- The header words of a special message. -/
def headerWord1 : ℕ := addParity (0x66 * 2 ^ 22 + frameID * 2 ^ 16) 0

def headerWord2 (n : ℕ) : ℕ := addParity (n * 2 ^ 9) headerWord1

/-- A new message with the number of its words. -/
def counted (n : ℕ) : Rtcm2Message :=
  { new.base with
    header := { new.base.header with numberDataWords := n }
    storage_version := new.base.storage_version + 1 }

theorem validate_counted : ∀ n < 32,
    (counted n).validate.header = .ofWords headerWord1 (headerWord2 n) ∧
    (counted n).validate.headerVersion ≠ (counted n).validate.storage_version ∧
    (counted n).validate.primerWord = 0 ∧ headerWord2 n / 2 ^ 9 % 2 ^ 5 = n := by
  decide +kernel

/-- The number of words of a text. -/
def countWords (message : Bytes) : ℕ :=
  message.length / 3 + if message.length % 3 = 0 then 0 else 1

/-- The frame that carries a text. -/
def textFrame (message : Bytes) (h : countWords message < 32) : Frame2 where
  D29 := false
  D30 := false
  word1 := headerWord1
  word2 := headerWord2 (countWords message)
  data := messageWords (headerWord2 (countWords message)) message
  word1_lt := addParity_lt _ _
  word2_lt := addParity_lt _ _
  data_lt := messageWords_lt _ _
  preamble_eq := by decide +kernel
  parity1 := by decide +kernel
  parity2 := (checkParity_iff (addParity_lt _ _) _).mp (checkParity_addParity _ _)
  length_eq := by rw [messageWords_length, (validate_counted _ h).2.2.2, countWords]

theorem getContents_setSpecialMessage {message : Bytes} (h : countWords message < 32) :
    (new.setSpecialMessage message).base.getContents = (textFrame message h).bytes := by
  obtain ⟨hheader, hversion, hprimer, -⟩ := validate_counted _ h
  have hcount : countWords message % 2 ^ 16 = countWords message := Nat.mod_eq_of_lt (by omega)
  have hrefresh := Rtcm2Message.refresh_eq (addParity_lt _ _) (addParity_lt _ _) hheader hversion
  have hword : (counted (countWords message)).validate.getHeader2 =
      headerWord2 (countWords message) := by
    rw [Rtcm2Message.getHeader2, hrefresh]
    rfl
  have hbase : (new.setSpecialMessage message).base =
      { (counted (countWords message)).validate.refresh with
        data := messageWords (headerWord2 (countWords message)) message
        storage_version := (counted (countWords message)).validate.refresh.storage_version + 1 } := by
    rw [← hword, counted, ← hcount, setSpecialMessage, assignMessage]
    rfl
  rw [hbase, hrefresh]
  refine (textFrame message h).getContents_of_header rfl ?_ ?_
  · exact hprimer
  · exact congrArg Rtcm2Message.rtcm2Hdr (Rtcm2Message.refresh_eq (addParity_lt _ _)
      (addParity_lt _ _) (by exact hheader) (Nat.ne_of_lt (Nat.lt_succ_self _)))

/-- The decoder of another message finds what the words hold. -/
theorem setContents_textFrame {message : Bytes} (h : countWords message < 32)
    (hne : ∀ c ∈ message, c ≠ 0) :
    (new.setContents (textFrame message h).bytes).base.isValid = true ∧
      (new.setContents (textFrame message h).bytes).specialMessage = spilled message := by
  have hfresh : Frame2.Fresh new.base := ⟨rfl, rfl, rfl, by decide⟩
  let base := new.base.setContents (textFrame message h).bytes
  have hdecoded := (textFrame message h).setContents_bytes hfresh
  have htext : readText base.header.parity2 base.data = some (spilled message) := by
    have hparity := (textFrame message h).header_fields.2
    simp only [base, hdecoded, Frame2.decoded, hparity]
    rw [readText_mod]
    exact readText_messageWords hne _
  have hset : new.setContents (textFrame message h).bytes =
      ⟨{ base with storage_version := base.storage_version + 1 }, spilled message⟩ := by
    simp only [base] at htext
    simp only [setContents, htext, base]
  rw [hset]
  refine ⟨?_, rfl⟩
  simp only [base, hdecoded]
  apply (textFrame message h).isValid_of_header rfl rfl rfl
  rw [Rtcm2Message.refresh_eq (textFrame message h).word1_lt (textFrame message h).word2_lt rfl
    (Nat.ne_of_lt (Nat.lt_succ_self _))]

/-- The text comes back exactly if no character changes those before it in its word. -/
theorem specialMessage_roundtrip_iff (message : Bytes) (hne : ∀ c ∈ message, c ≠ 0)
    (hpos : 1 ≤ message.length) (hlen : message.length ≤ 93) :
    ((new.setContents (new.setSpecialMessage message).base.getContents).base.isValid = true ∧
      (new.setContents (new.setSpecialMessage message).base.getContents).specialMessage = message) ↔
      KeepsText message := by
  have hcount : countWords message < 32 := by
    rw [countWords]
    split_ifs <;> omega
  obtain ⟨hvalid, htext⟩ := setContents_textFrame hcount hne
  rw [getContents_setSpecialMessage hcount, hvalid, htext, spilled_eq_iff]
  exact and_iff_right rfl

/-- `HELLO` is kept. -/
theorem specialMessage_roundtrip_hello :
    (new.setContents (new.setSpecialMessage [72, 69, 76, 76, 79]).base.getContents).base.isValid =
        true ∧
      (new.setContents (new.setSpecialMessage [72, 69, 76, 76, 79]).base.getContents).specialMessage =
        [72, 69, 76, 76, 79] :=
  (specialMessage_roundtrip_iff [72, 69, 76, 76, 79] (by simp) (by decide) (by decide)).mpr
    (by simp [KeepsText])

/-- A character from 128 on wipes out the one before it. -/
theorem specialMessage_wiped :
    (new.setContents (new.setSpecialMessage [0x41, 0xE9]).base.getContents).specialMessage =
      [0xFF, 0xE9] ∧
    ¬ ∀ message : Bytes, (∀ c ∈ message, c ≠ 0) → 1 ≤ message.length → message.length ≤ 93 →
      (new.setContents (new.setSpecialMessage message).base.getContents).base.isValid = true ∧
        (new.setContents (new.setSpecialMessage message).base.getContents).specialMessage =
          message := by
  have hwiped : (new.setContents
      (new.setSpecialMessage [0x41, 0xE9]).base.getContents).specialMessage = [0xFF, 0xE9] := by
    decide +kernel
  refine ⟨hwiped, fun hclaim => ?_⟩
  obtain ⟨-, hkept⟩ := hclaim [0x41, 0xE9] (by simp) (by decide) (by decide)
  rw [hwiped] at hkept
  exact absurd hkept (by decide)

end RoundTrip
end GpsSpecialMessage
end V2IHub.Rtcm
