import V2IHub.Rtcm.DataManager
import V2IHub.Rtcm.Parity

/-! RTCM 2 messages: the decoder and the encoder of their frames. -/
namespace V2IHub.Rtcm
open Foundation

def rtcm2Format : WordFormat := ⟨30, 6, 0x40, 32, by decide, by decide, by decide⟩

/-- The attributes of the two header words. -/
structure Rtcm2Header where
  preamble : ℕ
  frameID : ℕ
  stationID : ℕ
  parity1 : ℕ
  modifiedZCount : ℕ
  sequenceNumber : ℕ
  numberDataWords : ℕ
  stationHealth : ℕ
  parity2 : ℕ
deriving DecidableEq

namespace Rtcm2Header

def sizes : List ℕ := [8, 6, 10, 6, 13, 3, 5, 3, 6]

def values (h : Rtcm2Header) : List ℕ :=
  [h.preamble, h.frameID, h.stationID, h.parity1, h.modifiedZCount, h.sequenceNumber,
    h.numberDataWords, h.stationHealth, h.parity2]

def attrs (h : Rtcm2Header) : List (ℕ × ℕ) := sizes.zip h.values

/-- The attributes are set from the front of the list. -/
def assign (values : List ℕ) : Rtcm2Header where
  preamble := values.getD 0 0
  frameID := values.getD 1 0
  stationID := values.getD 2 0
  parity1 := values.getD 3 0
  modifiedZCount := values.getD 4 0
  sequenceNumber := values.getD 5 0
  numberDataWords := values.getD 6 0
  stationHealth := values.getD 7 0
  parity2 := values.getD 8 0

theorem values_assign : ∀ values : List ℕ, values.length = 9 → (assign values).values = values
  | [_, _, _, _, _, _, _, _, _], _ => rfl

/-- The attributes of two words. -/
def ofWords (word1 word2 : ℕ) : Rtcm2Header :=
  assign (unpackFields sizes (packWords 30 [word1, word2]))

end Rtcm2Header

/-- `rtcm2Hdr` are the header words as of the version `headerVersion` of the container. -/
structure Rtcm2Message where
  header : Rtcm2Header
  data : List ℕ
  bytes : Bytes
  valid : Bool
  storage_version : ℕ
  rtcm2Hdr : List ℕ
  headerVersion : ℕ
  primerWord : ℕ
deriving DecidableEq

namespace Rtcm2Message

def preambleValue : ℕ := 0x66

/-- The first byte of a frame, and its complement. -/
def startsFrame (byte : UInt8) : Bool := byte = 0x66 || byte = 0x59

def new : Rtcm2Message := ⟨⟨preambleValue, 0, 0, 0, 0, 0, 0, 0, 0⟩, [], [], true, 1, [], 1, 0⟩

def invalidate (m : Rtcm2Message) : Rtcm2Message := { m with valid := false }

/-- `get_Rtcm2Header` -/
def refresh (m : Rtcm2Message) : Rtcm2Message :=
  let m := if m.headerVersion ≠ m.storage_version then
      { m with
        rtcm2Hdr := rtcm2Format.extractWords m.header.attrs
        headerVersion := m.storage_version }
    else m
  { m with rtcm2Hdr := m.rtcm2Hdr ++ List.replicate (2 - m.rtcm2Hdr.length) 0 }

def getHeader1 (m : Rtcm2Message) : ℕ := m.refresh.rtcm2Hdr.getD 0 0
def getHeader2 (m : Rtcm2Message) : ℕ := m.refresh.rtcm2Hdr.getD 1 0

def isValid (m : Rtcm2Message) : Bool :=
  m.valid && (m.getHeader1 >>> (30 - 8) = m.header.preamble) &&
    (m.header.preamble = preambleValue) && checkParity m.getHeader1 m.primerWord &&
    checkParity m.getHeader2 m.header.parity1

def size (m : Rtcm2Message) : ℕ := rtcm2Format.wordSize * (2 + m.header.numberDataWords)

/-- The loop over the primer words, with the one that it leaves and the word if it was found. -/
def tryPrimer (tmp primerWord : ℕ) : List ℕ → ℕ × Option ℕ
  | [] => (primerWord, none)
  | p :: ps =>
    let tmp := if p ≠ 0 then tmp ^^^ dataBitmask else tmp
    if tmp >>> (30 - 8) = preambleValue && checkParity tmp p then (p, some tmp)
    else tryPrimer tmp p ps

/-- The first word is complemented if the previous one ends in 1, as far as it is known. -/
def primeFirst (m : Rtcm2Message) : Rtcm2Message :=
  let first := WordFormat.getData m.data 0
  if m.primerWord ≠ 0 then
    if m.primerWord.testBit 0 then { m with data := m.data.set 0 (first ^^^ dataBitmask) } else m
  else
    match tryPrimer first m.primerWord [0, 1, 2, 3] with
    | (p, none) => { m with primerWord := p }
    | (p, some tmp) => { m with primerWord := p, data := m.data.set 0 tmp }

def primeSecond (m : Rtcm2Message) : Rtcm2Message :=
  if (WordFormat.getData m.data 0).testBit 0 then
    { m with data := m.data.set 1 (WordFormat.getData m.data 1 ^^^ dataBitmask) }
  else m

/-- The header is read from the front of the buffer. -/
def readHeader (m : Rtcm2Message) : Except Rtcm2Message Rtcm2Message :=
  let m := { m with data := rtcm2Format.loadData m.data m.bytes 2 }
  let m := m.primeFirst.primeSecond
  match rtcm2Format.assignData m.data Rtcm2Header.sizes with
  | none => .error m
  | some (values, data) => .ok { m with
      header := .assign values
      data := data
      storage_version := m.storage_version + Rtcm2Header.sizes.length }

/-- The end of `set_contents`, behind the loop. -/
def loadMessage (m : Rtcm2Message) : Rtcm2Message :=
  let bytes := m.bytes.drop (2 * rtcm2Format.wordSize)
  let n := m.header.numberDataWords
  if bytes.length < rtcm2Format.wordSize * n then { m with bytes := bytes }.invalidate
  else
    let data := rtcm2Format.loadData m.data bytes n
    { m with bytes := bytes, data := chain m.header.parity2 (data.take n) ++ data.drop n }

/-- The loop of `set_contents` over the bytes where a frame may start. -/
def scan (m : Rtcm2Message) : Bytes → Rtcm2Message
  | [] => { m with bytes := [] }.invalidate
  | byte :: rest =>
    if !startsFrame byte then scan m rest
    else if (byte :: rest).length < 2 * rtcm2Format.wordSize then
      { m with bytes := byte :: rest }.invalidate
    else
      match readHeader { m with bytes := byte :: rest } with
      | .error m => m.invalidate
      | .ok m =>
        if m.isValid then m.refresh.loadMessage
        else scan { m.refresh with primerWord := 0 } rest

def setContents (m : Rtcm2Message) (input : Bytes) : Rtcm2Message := scan m input

def getContents (m : Rtcm2Message) : Bytes :=
  let hdr1 := m.getHeader1
  let hdr2 := m.getHeader2
  let hdr1 := if m.primerWord.testBit 0 then hdr1 ^^^ dataBitmask else hdr1
  let hdr2 := if hdr1.testBit 0 then hdr2 ^^^ dataBitmask else hdr2
  rtcm2Format.writeWord hdr1 ++ rtcm2Format.writeWord hdr2 ++
    (chain hdr2 m.data).flatMap rtcm2Format.writeWord

end Rtcm2Message

/-- Six bits on the wire: `01` and the bits from the last to the first. -/
def rolledByte (bits : ℕ) : UInt8 :=
  UInt8.ofNat (64 + packFields ((unpackFields [1, 1, 1, 1, 1, 1] bits).reverse.map fun b => (1, b)))

/-- The five bytes of a word. -/
def rolledWord (word : ℕ) : Bytes := (unpackFields [6, 6, 6, 6, 6] word).map rolledByte

/-- A frame: its words as they are before any complement, and the last two bits `D29` and `D30`
of the word that was sent before it. -/
structure Frame2 where
  D29 : Bool
  D30 : Bool
  word1 : ℕ
  word2 : ℕ
  data : List ℕ
  word1_lt : word1 < 2 ^ 30
  word2_lt : word2 < 2 ^ 30
  data_lt : ∀ word ∈ data, word < 2 ^ 30
  preamble_eq : word1 / 2 ^ 22 = Rtcm2Message.preambleValue
  parity1 : word1 % 64 = parityCode word1 D29 D30
  parity2 : word2 % 64 = parityCode word2 (getBit 29 word1) (getBit 30 word1)
  length_eq : data.length = word2 / 2 ^ 9 % 2 ^ 5

namespace Frame2

/-- The last word before the frame, as far as it matters. -/
def primer (F : Frame2) : ℕ := F.D29.toNat * 2 + F.D30.toNat

def words (F : Frame2) : List ℕ := F.word1 :: F.word2 :: F.data

def bytes (F : Frame2) : Bytes := (chain F.primer F.words).flatMap rolledWord

/-- The header attributes. -/
def header (F : Frame2) : Rtcm2Header := .ofWords F.word1 F.word2

/-- The message that a frame decodes to. -/
def decoded (F : Frame2) (bytes : Bytes) (version : ℕ) : Rtcm2Message where
  header := F.header
  data := F.data
  bytes := bytes
  valid := true
  storage_version := version
  rtcm2Hdr := [F.word1, F.word2]
  headerVersion := version
  primerWord := F.primer

end Frame2

section Wire

theorem rtcm2_reads : rtcm2Format.Reads := by
  have hall : ∀ byte < 64, rtcm2Format.readByte (rtcm2Format.wireByte byte) = byte := by decide
  exact hall

theorem rolledByte_eq {bits : ℕ} (h : bits < 64) : rolledByte bits = rtcm2Format.wireByte bits := by
  have hall : ∀ bits < 64, rolledByte bits = rtcm2Format.wireByte bits := by decide
  exact hall bits h

theorem rolledWord_eq (word : ℕ) : rolledWord word = rtcm2Format.writeWord word := by
  rw [WordFormat.writeWord_eq]
  apply List.map_congr_left
  intro bits hbits
  have hlt : bits < 2 ^ 6 := unpackFields_replicate_lt (n := 5) bits hbits
  exact rolledByte_eq hlt

theorem complement_shiftRight (word n : ℕ) :
    complement word >>> n = word >>> n ^^^ dataBitmask >>> n := by
  rw [complement, Nat.shiftRight_xor_distrib]

end Wire

section Header
variable {word1 word2 : ℕ} {m : Rtcm2Message}

theorem Rtcm2Header.ofWords_fields (h1 : word1 < 2 ^ 30) (h2 : word2 < 2 ^ 30) :
    (ofWords word1 word2).preamble = word1 / 2 ^ 22 ∧
      (ofWords word1 word2).parity1 = word1 % 64 ∧
      (ofWords word1 word2).numberDataWords = word2 / 2 ^ 9 % 2 ^ 5 ∧
      (ofWords word1 word2).parity2 = word2 % 64 := by
  simp only [ofWords, assign, sizes, unpackFields, packWords, packFields, List.map_cons,
    List.map_nil, List.sum_cons, List.sum_nil, List.getD_cons_zero, List.getD_cons_succ]
  norm_num at *
  omega

theorem extractWords_ofWords (h1 : word1 < 2 ^ 30) (h2 : word2 < 2 ^ 30) :
    rtcm2Format.extractWords (Rtcm2Header.ofWords word1 word2).attrs = [word1, word2] := by
  have hlt : ∀ word ∈ [word1, word2], word < 2 ^ rtcm2Format.wordBits :=
    List.forall_mem_cons.mpr ⟨h1, List.forall_mem_singleton.mpr h2⟩
  rw [Rtcm2Header.attrs, Rtcm2Header.ofWords,
    Rtcm2Header.values_assign _ (unpackFields_length _ _)]
  exact WordFormat.extractWords_unpackFields hlt rfl (by decide) (by decide)

theorem Rtcm2Message.refresh_eq (h1 : word1 < 2 ^ 30) (h2 : word2 < 2 ^ 30)
    (hheader : m.header = .ofWords word1 word2) (hversion : m.headerVersion ≠ m.storage_version) :
    m.refresh = { m with
      rtcm2Hdr := [word1, word2]
      headerVersion := m.storage_version } := by
  rw [Rtcm2Message.refresh, if_pos hversion, hheader, extractWords_ofWords h1 h2]
  rfl

theorem getBit_mod (word : ℕ) {n : ℕ} (hn : n = 29 ∨ n = 30) :
    getBit n (word % 64) = getBit n word := by
  have hpow : 64 = 2 ^ 6 := by decide
  have hlt : 30 - n < 6 := by omega
  rw [getBit, getBit, hpow, Nat.testBit_mod_two_pow]
  simp [hlt]

/-- What is checked of the header words. -/
theorem Rtcm2Message.isValid_iff (h1 : word1 < 2 ^ 30) (h2 : word2 < 2 ^ 30)
    (hvalid : m.valid = true) (hheader : m.header = .ofWords word1 word2)
    (hwords : m.refresh.rtcm2Hdr = [word1, word2]) :
    m.isValid = true ↔ word1 / 2 ^ 22 = preambleValue ∧
      word1 % 64 = parityCode word1 (getBit 29 m.primerWord) (getBit 30 m.primerWord) ∧
      word2 % 64 = parityCode word2 (getBit 29 word1) (getBit 30 word1) := by
  obtain ⟨hpreamble, hparity1, -, -⟩ := Rtcm2Header.ofWords_fields h1 h2
  have hsecond := checkParity_iff h2 (word1 % 64)
  rw [getBit_mod word1 (.inl rfl), getBit_mod word1 (.inr rfl)] at hsecond
  simp only [isValid, getHeader1, getHeader2, hwords, hvalid, hheader, hpreamble, hparity1,
    List.getD_cons_zero, List.getD_cons_succ, Nat.shiftRight_eq_div_pow, Bool.and_eq_true,
    decide_eq_true_eq, checkParity_iff h1, hsecond]
  tauto

end Header

namespace Rtcm2Message

/-- The word that the loop tries with a primer word. -/
def trial (wire p : ℕ) : ℕ := if p.testBit 0 then complement wire else wire

/-- The test that it makes. -/
def fitsPrimer (wire p : ℕ) : Bool :=
  trial wire p >>> (30 - 8) = preambleValue && checkParity (trial wire p) p

theorem tryPrimer_cons {wire q p : ℕ} (primerWord : ℕ) (ps : List ℕ)
    (h : (if p ≠ 0 then trial wire q ^^^ dataBitmask else trial wire q) = trial wire p) :
    tryPrimer (trial wire q) primerWord (p :: ps) =
      if fitsPrimer wire p then (p, some (trial wire p)) else tryPrimer (trial wire p) p ps := by
  rw [tryPrimer, h]
  rfl

theorem tryPrimer_unroll (wire : ℕ) :
    tryPrimer wire 0 [0, 1, 2, 3] =
      if fitsPrimer wire 0 then (0, some (trial wire 0))
      else if fitsPrimer wire 1 then (1, some (trial wire 1))
      else if fitsPrimer wire 2 then (2, some (trial wire 2))
      else if fitsPrimer wire 3 then (3, some (trial wire 3))
      else (3, none) := by
  have hstart : tryPrimer wire 0 [0, 1, 2, 3] = tryPrimer (trial wire 0) 0 [0, 1, 2, 3] := rfl
  have hback : (if (2 : ℕ) ≠ 0 then trial wire 1 ^^^ dataBitmask else trial wire 1) =
      trial wire 2 := complement_complement
  rw [hstart, tryPrimer_cons _ _ rfl, tryPrimer_cons _ _ rfl, tryPrimer_cons _ _ hback,
    tryPrimer_cons _ _ rfl]
  rfl

/-- The loop finds the primer word if there is one only. -/
theorem tryPrimer_eq {wire primer : ℕ} (hp : primer < 4)
    (hfits : ∀ p < 4, fitsPrimer wire p = decide (p = primer)) :
    tryPrimer wire 0 [0, 1, 2, 3] = (primer, some (trial wire primer)) := by
  rw [tryPrimer_unroll, hfits 0 (by decide), hfits 1 (by decide), hfits 2 (by decide),
    hfits 3 (by decide)]
  interval_cases primer <;> rfl

end Rtcm2Message

namespace Frame2
variable (F : Frame2)

/-- The first two words as they are sent. -/
def wire1 : ℕ := if F.primer.testBit 0 then complement F.word1 else F.word1
def wire2 : ℕ := if F.wire1.testBit 0 then complement F.word2 else F.word2

theorem primer_bits :
    F.primer < 4 ∧ getBit 29 F.primer = F.D29 ∧ getBit 30 F.primer = F.D30 ∧
      F.primer.testBit 0 = F.D30 := by
  rw [primer]
  cases F.D29 <;> cases F.D30 <;> decide

theorem wire1_testBit : F.wire1.testBit 0 = F.word1.testBit 0 := testBit_zero_ite _ _

theorem wire2_testBit : F.wire2.testBit 0 = F.word2.testBit 0 := testBit_zero_ite _ _

theorem trial_wire1 : Rtcm2Message.trial F.wire1 F.primer = F.word1 := by
  rw [Rtcm2Message.trial, wire1]
  split_ifs
  · exact complement_complement
  · rfl

theorem complement_wire2 :
    (if F.word1.testBit 0 then complement F.wire2 else F.wire2) = F.word2 := by
  rw [wire2, wire1_testBit]
  split_ifs
  · exact complement_complement
  · rfl

theorem wire1_lt : F.wire1 < 2 ^ 30 := by
  rw [wire1]
  split_ifs
  · exact complement_lt F.word1_lt
  · exact F.word1_lt

theorem checkParity_word1 : checkParity F.word1 F.primer = true := by
  obtain ⟨-, h29, h30, -⟩ := F.primer_bits
  rw [checkParity_iff F.word1_lt, h29, h30]
  exact F.parity1

/-- One primer word only gives a right parity. -/
theorem primer_unique {p : ℕ} (hp : p < 4)
    (h : checkParity (Rtcm2Message.trial F.wire1 p) p = true) : p = F.primer := by
  have hlt : Rtcm2Message.trial F.wire1 p < 2 ^ 30 := by
    rw [Rtcm2Message.trial]
    split_ifs
    · exact complement_lt F.wire1_lt
    · exact F.wire1_lt
  have hframe : Rtcm2Message.trial F.wire1 F.primer % 64 =
      parityCode (Rtcm2Message.trial F.wire1 F.primer) F.D29 F.D30 := by
    rw [trial_wire1]
    exact F.parity1
  rw [checkParity_iff hlt] at h
  obtain ⟨h29, h30⟩ := parity_unique (p.testBit 0) (F.primer.testBit 0) h hframe
  rw [primer, ← h29, ← h30]
  have hall : ∀ p < 4, p = (getBit 29 p).toNat * 2 + (getBit 30 p).toNat := by decide
  exact hall p hp

theorem fitsPrimer_iff {p : ℕ} (hp : p < 4) :
    Rtcm2Message.fitsPrimer F.wire1 p = decide (p = F.primer) := by
  rw [Rtcm2Message.fitsPrimer]
  by_cases h : p = F.primer
  · subst h
    have hpreamble : F.word1 >>> (30 - 8) = Rtcm2Message.preambleValue := by
      rw [Nat.shiftRight_eq_div_pow]
      exact F.preamble_eq
    simp [trial_wire1, hpreamble, F.checkParity_word1]
  · have hparity : checkParity (Rtcm2Message.trial F.wire1 p) p = false := by
      cases hc : checkParity (Rtcm2Message.trial F.wire1 p) p with
      | false => rfl
      | true => exact absurd (F.primer_unique hp hc) h
    simp [h, hparity]

theorem words_lt : ∀ word ∈ F.words, word < 2 ^ 30 :=
  List.forall_mem_cons.mpr ⟨F.word1_lt, List.forall_mem_cons.mpr ⟨F.word2_lt, F.data_lt⟩⟩

theorem chain_words : chain F.primer F.words = F.wire1 :: F.wire2 :: chain F.wire2 F.data := rfl

theorem bytes_eq : F.bytes = (chain F.primer F.words).flatMap rtcm2Format.writeWord := by
  rw [bytes]
  congr 1
  exact funext rolledWord_eq

theorem header_fields :
    F.header.numberDataWords = F.data.length ∧ F.header.parity2 = F.word2 % 64 := by
  obtain ⟨-, -, hnumber, hparity2⟩ := Rtcm2Header.ofWords_fields F.word1_lt F.word2_lt
  rw [← F.length_eq] at hnumber
  exact ⟨hnumber, hparity2⟩

section Decode
variable {m : Rtcm2Message} (rest : Bytes)

theorem header_words_lt : ∀ word ∈ [F.word1, F.word2], word < 2 ^ rtcm2Format.wordBits :=
  List.forall_mem_cons.mpr ⟨F.word1_lt, List.forall_mem_singleton.mpr F.word2_lt⟩

/-- A message that has decoded nothing yet. -/
structure Fresh (m : Rtcm2Message) : Prop where
  data : m.data = []
  primerWord : m.primerWord = 0
  valid : m.valid = true
  version : m.headerVersion ≤ m.storage_version

theorem loadData_header :
    rtcm2Format.loadData [] (F.bytes ++ rest) 2 = [F.wire1, F.wire2] := by
  have hlt : ∀ word ∈ chain F.primer F.words, word < 2 ^ 30 := chain_lt _ F.words_lt
  rw [chain_words] at hlt
  have hwords : ∀ word ∈ [F.wire1, F.wire2], word < 2 ^ rtcm2Format.wordBits := by
    intro word hword
    apply hlt
    simp only [List.mem_cons, List.not_mem_nil, or_false] at hword ⊢
    tauto
  have h := WordFormat.loadData_writeWord rtcm2_reads [] hwords
    ((chain F.wire2 F.data).flatMap rtcm2Format.writeWord ++ rest)
  rw [bytes_eq, chain_words]
  simpa using h

theorem primeFirst_eq (hdata : m.data = [F.wire1, F.wire2]) (hprimer : m.primerWord = 0) :
    m.primeFirst = { m with primerWord := F.primer, data := [F.word1, F.wire2] } := by
  have htry := Rtcm2Message.tryPrimer_eq F.primer_bits.1 fun p hp => F.fitsPrimer_iff hp
  rw [trial_wire1] at htry
  simp only [Rtcm2Message.primeFirst, hdata, hprimer, WordFormat.getData, List.getD_cons_zero, htry]
  rfl

theorem primeSecond_eq (hdata : m.data = [F.word1, F.wire2]) :
    m.primeSecond = { m with data := [F.word1, F.word2] } := by
  have hword := F.complement_wire2
  rw [Rtcm2Message.primeSecond, hdata]
  simp only [WordFormat.getData, List.getD_cons_zero, List.getD_cons_succ]
  split_ifs with h
  · rw [if_pos h, complement] at hword
    rw [hword]
    rfl
  · rw [if_neg h] at hword
    rw [← hword, ← hdata]

theorem readHeader_eq (hfresh : Fresh m) (hbytes : m.bytes = F.bytes ++ rest) :
    m.readHeader = .ok { m with
      header := F.header
      data := []
      storage_version := m.storage_version + 9
      primerWord := F.primer } := by
  have hload : rtcm2Format.loadData m.data m.bytes 2 = [F.wire1, F.wire2] := by
    rw [hfresh.data, hbytes]
    exact F.loadData_header rest
  have hprime : Rtcm2Message.primeSecond (Rtcm2Message.primeFirst
      { m with data := [F.wire1, F.wire2] }) =
      { m with primerWord := F.primer, data := [F.word1, F.word2] } := by
    rw [F.primeFirst_eq (m := { m with data := [F.wire1, F.wire2] }) rfl hfresh.primerWord]
    exact F.primeSecond_eq
      (m := { m with primerWord := F.primer, data := [F.word1, F.wire2] }) rfl
  have hassign : rtcm2Format.assignData [F.word1, F.word2] Rtcm2Header.sizes =
      some (unpackFields Rtcm2Header.sizes (packWords 30 [F.word1, F.word2]), []) :=
    WordFormat.assignData_eq F.header_words_lt rfl (by decide) (by decide)
  simp only [Rtcm2Message.readHeader, hload, hprime, hassign]
  rfl

/-- A message with the header words of the frame is valid. -/
theorem isValid_of_header (hvalid : m.valid = true) (hheader : m.header = F.header)
    (hprimer : m.primerWord = F.primer) (hwords : m.refresh.rtcm2Hdr = [F.word1, F.word2]) :
    m.isValid = true := by
  obtain ⟨-, h29, h30, -⟩ := F.primer_bits
  rw [Rtcm2Message.isValid_iff F.word1_lt F.word2_lt hvalid hheader hwords, hprimer, h29, h30]
  exact ⟨F.preamble_eq, F.parity1, F.parity2⟩

theorem bytes_length : F.bytes.length = 5 * (2 + F.data.length) := by
  rw [bytes_eq, WordFormat.flatMap_writeWord_length, chain_length]
  simp only [words, List.length_cons, WordFormat.wordSize, rtcm2Format]
  omega

theorem loadMessage_eq (hdata : m.data = []) (hheader : m.header = F.header)
    (hbytes : m.bytes = F.bytes ++ rest) :
    m.loadMessage = { m with
      data := F.data
      bytes := (chain F.wire2 F.data).flatMap rtcm2Format.writeWord ++ rest } := by
  obtain ⟨hnumber, hparity2⟩ := F.header_fields
  have hdrop : m.bytes.drop (2 * rtcm2Format.wordSize) =
      (chain F.wire2 F.data).flatMap rtcm2Format.writeWord ++ rest := by
    have hlen : (rtcm2Format.writeWord F.wire1 ++ rtcm2Format.writeWord F.wire2).length =
        2 * rtcm2Format.wordSize := by
      simp [Nat.two_mul]
    rw [hbytes, bytes_eq, chain_words, List.flatMap_cons, List.flatMap_cons, ← List.append_assoc,
      List.append_assoc, List.drop_left' hlen]
  have hload : rtcm2Format.loadData []
      ((chain F.wire2 F.data).flatMap rtcm2Format.writeWord ++ rest) F.data.length =
      chain F.wire2 F.data := by
    have h := WordFormat.loadData_writeWord rtcm2_reads [] (chain_lt F.wire2 F.data_lt) rest
    rw [chain_length] at h
    exact h
  have hchain : chain (F.word2 % 64) (chain F.wire2 F.data) = F.data := by
    have hlast : (F.word2 % 64).testBit 0 = F.wire2.testBit 0 := by
      have hpow : 64 = 2 ^ 6 := by decide
      rw [wire2_testBit, hpow, Nat.testBit_mod_two_pow]
      rfl
    rw [chain_congr hlast, chain_chain]
  have henough : ¬ ((chain F.wire2 F.data).flatMap rtcm2Format.writeWord ++ rest).length <
      rtcm2Format.wordSize * F.data.length := by
    rw [List.length_append, WordFormat.flatMap_writeWord_length, chain_length, Nat.mul_comm]
    omega
  have htake : (chain F.wire2 F.data).take F.data.length = chain F.wire2 F.data :=
    List.take_of_length_le (by simp)
  simp only [Rtcm2Message.loadMessage, hdrop, hdata, hheader, hnumber, hparity2, if_neg henough,
    hload, htake, hchain]
  simp

/-- The first byte on the wire. -/
theorem wire1_top : F.wire1 >>> 24 = 25 ∨ F.wire1 >>> 24 = 38 := by
  have hpre := F.preamble_eq
  have htop : F.word1 >>> 24 = 25 := by
    rw [Nat.shiftRight_eq_div_pow]
    simp only [Rtcm2Message.preambleValue] at hpre
    omega
  rw [wire1]
  split_ifs
  · right
    rw [complement_shiftRight, htop]
    decide
  · exact .inl htop

theorem startsFrame_head : ∃ byte tail, F.bytes ++ rest = byte :: tail ∧
    Rtcm2Message.startsFrame byte = true := by
  have hcons : ∃ tail, F.bytes ++ rest =
      rtcm2Format.wireByte (F.wire1 >>> 24 % 64) :: tail := by
    rw [bytes_eq, chain_words, List.flatMap_cons, List.append_assoc]
    exact ⟨_, rfl⟩
  obtain ⟨tail, htail⟩ := hcons
  refine ⟨_, tail, htail, ?_⟩
  rcases F.wire1_top with h | h <;> rw [h] <;> decide

theorem scan_garbage {garbage : Bytes} (hg : ∀ byte ∈ garbage, Rtcm2Message.startsFrame byte = false)
    (bytes : Bytes) : m.scan (garbage ++ bytes) = m.scan bytes := by
  induction garbage with
  | nil => rfl
  | cons byte garbage ih =>
    obtain ⟨hbyte, hgarbage⟩ := List.forall_mem_cons.mp hg
    rw [List.cons_append, Rtcm2Message.scan, hbyte]
    exact ih hgarbage

/-- Behind bytes that cannot start a frame, the decoder finds the frame at once. -/
theorem setContents_eq (hfresh : Fresh m) {garbage : Bytes}
    (hg : ∀ byte ∈ garbage, Rtcm2Message.startsFrame byte = false) :
    m.setContents (garbage ++ (F.bytes ++ rest)) =
      F.decoded ((chain F.wire2 F.data).flatMap rtcm2Format.writeWord ++ rest)
        (m.storage_version + 9) := by
  obtain ⟨byte, tail, hcons, hstarts⟩ := F.startsFrame_head rest
  have hlen : ¬ (byte :: tail).length < 2 * rtcm2Format.wordSize := by
    rw [← hcons, List.length_append, bytes_length]
    simp only [WordFormat.wordSize, rtcm2Format]
    omega
  have hversion := hfresh.version
  have hread := F.readHeader_eq rest (m := { m with bytes := byte :: tail })
    ⟨hfresh.data, hfresh.primerWord, hfresh.valid, hfresh.version⟩ hcons.symm
  let m₁ : Rtcm2Message := { m with
    bytes := byte :: tail
    header := F.header
    data := []
    storage_version := m.storage_version + 9
    primerWord := F.primer }
  have hrefresh : m₁.refresh = { m₁ with
      rtcm2Hdr := [F.word1, F.word2]
      headerVersion := m.storage_version + 9 } := by
    apply Rtcm2Message.refresh_eq F.word1_lt F.word2_lt rfl
    simp only [m₁]
    omega
  have hvalid : m₁.isValid = true :=
    F.isValid_of_header hfresh.valid rfl rfl (by rw [hrefresh])
  rw [Rtcm2Message.setContents, scan_garbage hg, hcons, Rtcm2Message.scan, hstarts]
  simp only [Bool.not_true, Bool.false_eq_true, if_false, if_neg hlen, hread]
  change (if m₁.isValid = true then m₁.refresh.loadMessage else _) = _
  rw [if_pos hvalid, hrefresh, loadMessage_eq F rest rfl rfl hcons.symm]
  simp only [decoded, m₁, hfresh.valid]

theorem setContents_bytes (hfresh : Fresh m) :
    m.setContents F.bytes = F.decoded ((chain F.wire2 F.data).flatMap rtcm2Format.writeWord)
      (m.storage_version + 9) := by
  have hnone : ∀ byte ∈ ([] : Bytes), Rtcm2Message.startsFrame byte = false := by simp
  simpa using F.setContents_eq [] hfresh hnone

end Decode

/-- A message with the words of the frame has its bytes. -/
theorem getContents_of_header {m : Rtcm2Message} (hdata : m.data = F.data)
    (hprimer : m.primerWord = F.primer) (hwords : m.refresh.rtcm2Hdr = [F.word1, F.word2]) :
    m.getContents = F.bytes := by
  have h1 : m.getHeader1 = F.word1 := by
    rw [Rtcm2Message.getHeader1, hwords]
    rfl
  have h2 : m.getHeader2 = F.word2 := by
    rw [Rtcm2Message.getHeader2, hwords]
    rfl
  simp only [Rtcm2Message.getContents, h1, h2, hprimer, hdata]
  rw [bytes_eq, chain_words, List.flatMap_cons, List.flatMap_cons, List.append_assoc]
  rfl

section Decoded
variable (bytes : Bytes) (version : ℕ)

theorem refresh_decoded : (F.decoded bytes version).refresh.rtcm2Hdr = [F.word1, F.word2] := by
  simp [Rtcm2Message.refresh, decoded]

theorem isValid_decoded : (F.decoded bytes version).isValid = true :=
  F.isValid_of_header rfl rfl rfl (F.refresh_decoded bytes version)

theorem getContents_decoded : (F.decoded bytes version).getContents = F.bytes :=
  F.getContents_of_header rfl rfl (F.refresh_decoded bytes version)

theorem size_decoded : (F.decoded bytes version).size = F.bytes.length := by
  obtain ⟨hnumber, -⟩ := F.header_fields
  rw [bytes_length, Rtcm2Message.size]
  simp only [decoded, hnumber, WordFormat.wordSize, rtcm2Format]

end Decoded
end Frame2

/-- Every frame decodes into a valid message with its header, its data words and the one primer
word that fits, and the message encodes into the bytes of the frame. -/
theorem rtcm2_codec (F : Frame2) :
    (Rtcm2Message.new.setContents F.bytes).header = F.header ∧
      (Rtcm2Message.new.setContents F.bytes).data = F.data ∧
      (Rtcm2Message.new.setContents F.bytes).primerWord = F.primer ∧
      (∀ p ∈ [0, 1, 2, 3], checkParity (Rtcm2Message.trial F.wire1 p) p = true ↔ p = F.primer) ∧
      (Rtcm2Message.new.setContents F.bytes).isValid = true ∧
      (Rtcm2Message.new.setContents F.bytes).getContents = F.bytes := by
  have hnew : Frame2.Fresh Rtcm2Message.new := ⟨rfl, rfl, rfl, le_rfl⟩
  rw [F.setContents_bytes hnew]
  refine ⟨rfl, rfl, rfl, ?_, F.isValid_decoded _ _, F.getContents_decoded _ _⟩
  intro p hp
  have hlt : p < 4 := by
    simp only [List.mem_cons, List.not_mem_nil, or_false] at hp
    omega
  constructor
  · exact F.primer_unique hlt
  · rintro rfl
    rw [F.trial_wire1]
    exact F.checkParity_word1

end V2IHub.Rtcm
