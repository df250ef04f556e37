import V2IHub.Rtcm.Accepted

/-! What a call of `set_contents` keeps of what a message held before. -/
namespace V2IHub.Rtcm
open Foundation

namespace Rtcm2Message
variable {m : Rtcm2Message}

theorem primeFirst_spec (m : Rtcm2Message) : ∃ p data, data.length = m.data.length ∧
    (m.primerWord < 4 → p < 4) ∧ m.primeFirst = { m with primerWord := p, data := data } := by
  rw [primeFirst]
  split_ifs
  · exact ⟨m.primerWord, _, List.length_set, id, rfl⟩
  · exact ⟨m.primerWord, m.data, rfl, id, rfl⟩
  · obtain ⟨p, hp, htry | htry⟩ := tryPrimer_cases (WordFormat.getData m.data 0)
    · have hzero : m.primerWord = 0 := by omega
      rw [hzero, htry]
      exact ⟨p, m.data, rfl, fun _ => hp, rfl⟩
    · have hzero : m.primerWord = 0 := by omega
      rw [hzero, htry]
      exact ⟨p, _, List.length_set, fun _ => hp, rfl⟩

theorem primeSecond_spec (m : Rtcm2Message) : ∃ data, data.length = m.data.length ∧
    m.primeSecond = { m with data := data } := by
  rw [primeSecond]
  split_ifs
  · exact ⟨_, List.length_set, rfl⟩
  · exact ⟨m.data, rfl, rfl⟩

/-- A header is read by any message, and leaves it as many words as it had. -/
theorem readHeader_spec (m : Rtcm2Message) : ∃ header data p, data.length = m.data.length ∧
    (m.primerWord < 4 → p < 4) ∧ m.readHeader = .ok { m with
      header := header
      data := data
      storage_version := m.storage_version + 9
      primerWord := p } := by
  let loaded : Rtcm2Message := { m with data := rtcm2Format.loadData m.data m.bytes 2 }
  obtain ⟨p, first, hfirst, hp, hprime⟩ := primeFirst_spec loaded
  obtain ⟨second, hsecond, hprime'⟩ :=
    primeSecond_spec { loaded with primerWord := p, data := first }
  have hlen : second.length = m.data.length + 2 := by
    rw [hsecond, hfirst]
    simp [loaded, WordFormat.loadData]
  have hcount : rtcm2Format.countWords Rtcm2Header.sizes = 2 := by decide
  have hassign : ∃ values, rtcm2Format.assignData second Rtcm2Header.sizes =
      some (values, second.drop 2) := by
    rw [WordFormat.assignData, hcount]
    exact ⟨_, if_neg (by omega)⟩
  obtain ⟨values, hassign⟩ := hassign
  refine ⟨.assign values, second.drop 2, p, by rw [List.length_drop]; omega, hp, ?_⟩
  rw [readHeader]
  simp only [loaded] at hprime hprime'
  simp only [hprime, hprime', hassign]
  rfl

theorem refresh_eq_with (m : Rtcm2Message) : ∃ words, 2 ≤ words.length ∧
    m.refresh = { m with rtcm2Hdr := words, headerVersion := m.storage_version } := by
  rw [refresh]
  split_ifs with h
  · exact ⟨_, by simp only [List.length_append, List.length_replicate]; omega, rfl⟩
  · rw [not_not] at h
    refine ⟨_, ?_, by rw [← h]⟩
    simp only [List.length_append, List.length_replicate]
    omega

/-- What a try leaves as it was. -/
structure Keeps (m m' : Rtcm2Message) : Prop where
  valid : m'.valid = m.valid
  data : m'.data.length = m.data.length
  primer : m.primerWord < 4 → m'.primerWord < 4
  version : m.headerVersion ≤ m.storage_version → m'.headerVersion ≤ m'.storage_version

theorem scan_skip (m : Rtcm2Message) {byte : UInt8} (rest : Bytes)
    (hstarts : startsFrame byte = false) : m.scan (byte :: rest) = m.scan rest := by
  rw [scan, hstarts]
  rfl

theorem scan_short (m : Rtcm2Message) {byte : UInt8} {rest : Bytes}
    (hstarts : startsFrame byte = true)
    (hshort : (byte :: rest).length < 2 * rtcm2Format.wordSize) :
    m.scan (byte :: rest) = { m with bytes := byte :: rest }.invalidate := by
  rw [scan, hstarts, if_pos hshort]
  rfl

/-- A try at the front of the buffer: the message with the header, and the one that goes on. -/
theorem scan_try (m : Rtcm2Message) {byte : UInt8} {rest : Bytes} (hstarts : startsFrame byte = true)
    (hlen : 2 * rtcm2Format.wordSize ≤ (byte :: rest).length) :
    ∃ m₁ m₂ : Rtcm2Message, m₁.bytes = byte :: rest ∧ m.Keeps m₁ ∧ m.Keeps m₂ ∧
      m.scan (byte :: rest) = if m₁.isValid then m₁.refresh.loadMessage else m₂.scan rest := by
  obtain ⟨header, data, p, hdata, hp, hread⟩ := readHeader_spec { m with bytes := byte :: rest }
  obtain ⟨words, -, hrefresh⟩ := refresh_eq_with { m with
    bytes := byte :: rest
    header := header
    data := data
    storage_version := m.storage_version + 9
    primerWord := p }
  refine ⟨{ m with
    bytes := byte :: rest
    header := header
    data := data
    storage_version := m.storage_version + 9
    primerWord := p }, { m with
    bytes := byte :: rest
    header := header
    data := data
    storage_version := m.storage_version + 9
    rtcm2Hdr := words
    headerVersion := m.storage_version + 9
    primerWord := 0 }, rfl, ⟨rfl, hdata, hp, fun h => h.trans (Nat.le_add_right _ 9)⟩,
    ⟨rfl, hdata, fun _ => Nat.succ_pos 3, fun _ => le_rfl⟩, ?_⟩
  rw [scan, hstarts]
  simp only [Bool.not_true, Bool.false_eq_true, if_false, if_neg (Nat.not_lt.mpr hlen), hread,
    hrefresh]

/-- What was put into a valid message was in the input, and the words that it had before are still
in it. -/
structure Loaded (m : Rtcm2Message) (input : Bytes) (m' : Rtcm2Message) : Prop where
  valid : m.valid = true
  size : m'.size ≤ input.length
  data : m'.data.length = m.data.length + m'.header.numberDataWords
  preamble : m'.getHeader1 >>> (30 - 8) = preambleValue

/-- The header words are kept once they are as of the version of the container. -/
theorem getHeader1_of_words {words : List ℕ} (hlen : 2 ≤ words.length)
    (hwords : m.rtcm2Hdr = words) (hversion : m.headerVersion = m.storage_version) :
    m.getHeader1 = words.getD 0 0 := by
  have hzero : 2 - words.length = 0 := by omega
  rw [getHeader1, refresh, if_neg (not_not.mpr hversion), hwords]
  simp only [hzero, List.replicate_zero, List.append_nil]

theorem loadMessage_loaded (hheader : m.isValid = true)
    (hlen : 2 * rtcm2Format.wordSize ≤ m.bytes.length)
    (hvalid : m.refresh.loadMessage.valid = true) :
    Loaded m m.bytes m.refresh.loadMessage := by
  obtain ⟨words, hwords, hrefresh⟩ := refresh_eq_with m
  have hfirst : m.getHeader1 = words.getD 0 0 := by rw [getHeader1, hrefresh]
  simp only [isValid, Bool.and_eq_true, decide_eq_true_eq] at hheader
  obtain ⟨⟨⟨⟨hflag, hpreamble⟩, hvalue⟩, -⟩, -⟩ := hheader
  rw [hrefresh, loadMessage] at hvalid ⊢
  dsimp only at hvalid ⊢
  split_ifs at hvalid ⊢ with hfew
  · cases hvalid
  rw [List.length_drop] at hfew
  refine ⟨hflag, ?_, ?_, ?_⟩
  · rw [size, Nat.mul_add]
    dsimp only
    omega
  · simp only [List.length_append, chain_length, List.length_take, List.length_drop,
      WordFormat.loadData, List.length_map, List.length_range]
    omega
  · rw [getHeader1_of_words hwords rfl rfl, ← hfirst, hpreamble, hvalue]

theorem scan_loaded {bytes : Bytes} (hvalid : (m.scan bytes).valid = true) :
    Loaded m bytes (m.scan bytes) := by
  induction bytes generalizing m with
  | nil => cases hvalid
  | cons byte rest ih =>
    cases hstarts : startsFrame byte with
    | false =>
      rw [scan_skip m rest hstarts] at hvalid ⊢
      obtain ⟨hflag, hsize, hdata, hpreamble⟩ := ih hvalid
      exact ⟨hflag, hsize.trans (Nat.le_succ _), hdata, hpreamble⟩
    | true =>
      by_cases hshort : (byte :: rest).length < 2 * rtcm2Format.wordSize
      · rw [scan_short m hstarts hshort] at hvalid
        cases hvalid
      obtain ⟨m₁, m₂, hbytes, hkeeps₁, hkeeps₂, hscan⟩ := m.scan_try hstarts (Nat.le_of_not_lt hshort)
      rw [hscan] at hvalid ⊢
      split_ifs at hvalid ⊢ with hheader
      · obtain ⟨hflag, hsize, hdata, hpreamble⟩ := loadMessage_loaded hheader
          (by rw [hbytes]; exact Nat.le_of_not_lt hshort) hvalid
        exact ⟨hkeeps₁.valid ▸ hflag, hbytes ▸ hsize, hkeeps₁.data ▸ hdata, hpreamble⟩
      · obtain ⟨hflag, hsize, hdata, hpreamble⟩ := ih hvalid
        exact ⟨hkeeps₂.valid ▸ hflag, hsize.trans (Nat.le_succ _), hkeeps₂.data ▸ hdata, hpreamble⟩

/-- What holds of every object of the class. -/
structure Kept (m : Rtcm2Message) : Prop where
  primer : m.primerWord < 4
  version : m.headerVersion ≤ m.storage_version

theorem new_kept : Kept new := ⟨by decide, le_rfl⟩

theorem loadMessage_kept (h : m.Kept) : m.refresh.loadMessage.Kept := by
  obtain ⟨words, -, hrefresh⟩ := refresh_eq_with m
  rw [hrefresh, loadMessage]
  split_ifs
  · exact ⟨h.primer, le_rfl⟩
  · exact ⟨h.primer, le_rfl⟩

theorem scan_kept {bytes : Bytes} (h : m.Kept) : (m.scan bytes).Kept := by
  induction bytes generalizing m with
  | nil => exact ⟨h.primer, h.version⟩
  | cons byte rest ih =>
    cases hstarts : startsFrame byte with
    | false =>
      rw [scan_skip m rest hstarts]
      exact ih h
    | true =>
      by_cases hshort : (byte :: rest).length < 2 * rtcm2Format.wordSize
      · rw [scan_short m hstarts hshort]
        exact ⟨h.primer, h.version⟩
      obtain ⟨m₁, m₂, -, hkeeps₁, hkeeps₂, hscan⟩ := m.scan_try hstarts (Nat.le_of_not_lt hshort)
      rw [hscan]
      split_ifs
      · exact loadMessage_kept ⟨hkeeps₁.primer h.primer, hkeeps₁.version h.version⟩
      · exact ih ⟨hkeeps₂.primer h.primer, hkeeps₂.version h.version⟩

end Rtcm2Message

namespace Rtcm3Message
variable {m m' : Rtcm3Message}

theorem assignBytes_spec (m : Rtcm3Message) (bytes : Bytes) (sizes : List ℕ) :
    ∃ words data, data.length = m.data.length ∧ m.assignBytes bytes sizes =
      .ok (assignFrom words sizes.sum sizes, { m with data := data }) := by
  let loaded := rtcm3Format.loadData m.data bytes (rtcm3Format.countWords sizes)
  have hlen : loaded.length = m.data.length + rtcm3Format.countWords sizes := by
    simp [loaded, WordFormat.loadData]
  have henough : ¬ loaded.length < rtcm3Format.countWords sizes := by omega
  have hassign : ∃ words, rtcm3Format.assignData loaded sizes =
      some (assignFrom words sizes.sum sizes, loaded.drop (rtcm3Format.countWords sizes)) := by
    rw [WordFormat.assignData]
    exact ⟨_, if_neg henough⟩
  obtain ⟨words, hassign⟩ := hassign
  refine ⟨words, loaded.drop (rtcm3Format.countWords sizes), by rw [List.length_drop]; omega, ?_⟩
  simp only [loaded] at hassign
  simp only [assignBytes, loaded, hassign]

theorem assignHeader_spec (m : Rtcm3Message) : ∃ preamble reserved messageLength data,
    data.length = m.data.length ∧ m.assignHeader = .ok { m with
      preamble := preamble
      reserved := reserved
      messageLength := messageLength
      data := data } := by
  obtain ⟨words, data, hlen, hassign⟩ := m.assignBytes_spec m.bytes [8, 6, 10]
  rw [assignHeader, hassign]
  exact ⟨_, _, _, data, hlen, rfl⟩

theorem assignCrc_spec (m : Rtcm3Message) (crc : Bytes) : ∃ value data,
    data.length = m.data.length ∧ m.assignCrc crc = .ok { m with crc := value, data := data } := by
  obtain ⟨words, data, hlen, hassign⟩ := m.assignBytes_spec crc [24]
  rw [assignCrc, hassign]
  exact ⟨_, data, hlen, rfl⟩

/-- What is kept of a message that is valid in the end. -/
structure Filled (m m' : Rtcm3Message) : Prop where
  valid : m.valid = true
  data : m'.data.length + 3 = m.data.length + m'.messageLength
  crc : m'.messageLength = 0 → m'.crc ≠ 0

theorem crcOf_header_ne_zero (h l : UInt8) : crcOf crcPoly [preambleByte, h, l] ≠ 0 := by
  have hlow : ∀ n < 256, (crcOf crcPoly [preambleByte, UInt8.ofNat n]).setWidth 16 ≠ 0#16 := by
    decide +kernel
  intro hzero
  have hxor : crcOf crcPoly [preambleByte, h] ^^^ topByte 24 l.toBitVec = 0 :=
    eq_zero_of_crcShifts (n := 8) (by decide) hzero
  have htop : (topByte 24 l.toBitVec).setWidth 16 = 0#16 := by
    apply BitVec.eq_of_getLsbD_eq
    intro i hi
    simp [topByte, hi]
  have hclear := congrArg (BitVec.setWidth 16) hxor
  rw [BitVec.setWidth_xor, htop, BitVec.xor_zero] at hclear
  have hh := hlow h.toNat h.toNat_lt
  rw [UInt8.ofNat_toNat] at hh
  exact hh (hclear.trans (by simp))

/-- Behind a header without data, the check sum is that of the header. -/
theorem checkParity_header {h l : UInt8} {rest : Bytes}
    (hcheck : m.checkParity (preambleByte :: h :: l :: rest) = true) (hlen : m.messageLength = 0) :
    m.crc ≠ 0 := by
  have hsize : m.size = 6 := by
    rw [size, hlen]
    rfl
  rw [checkParity] at hcheck
  split_ifs at hcheck with hfew
  have hsum : m.getParity (preambleByte :: h :: l :: rest) =
      (crcOf crcPoly [preambleByte, h, l]).toNat := by
    rw [getParity, if_pos (Nat.le_of_not_lt hfew), hsize, crc24qHash_eq]
    rfl
  rw [decide_eq_true_eq, hsum] at hcheck
  intro hzero
  exact crcOf_header_ne_zero h l (BitVec.eq_of_toNat_eq (hcheck.symm.trans hzero))

theorem loadMessage_filled (hcrc : m.messageLength = 0 → m.crc ≠ 0)
    (hvalid : m.loadMessage.valid = true) : Filled m m.loadMessage := by
  let loaded := rtcm3Format.loadData m.data (m.bytes.drop headerBytes) m.messageLength
  have hlen : loaded.length = m.data.length + m.messageLength := by
    simp [loaded, WordFormat.loadData]
  by_cases hfew : loaded.length < 3
  · have hnone : rtcm3Format.assignData loaded [12, 12] = none := if_pos hfew
    have hmessage : m.loadMessage.valid = false := by
      simp only [loaded] at hnone
      simp only [loadMessage, hnone]
      rfl
    rw [hmessage] at hvalid
    cases hvalid
  · have hassign : ∃ number station, rtcm3Format.assignData loaded [12, 12] =
        some ([number, station], loaded.drop 3) := ⟨_, _, if_neg hfew⟩
    obtain ⟨number, station, hassign⟩ := hassign
    have hmessage : m.loadMessage = { m with
        bytes := m.bytes.drop headerBytes
        data := loaded.drop 3
        messageNumber := number
        referenceStationID := station } := by
      simp only [loaded] at hassign
      simp only [loadMessage, hassign, loaded]
    rw [hmessage] at hvalid ⊢
    refine ⟨hvalid, ?_, hcrc⟩
    simp only [List.length_drop]
    omega

theorem scan_filled {fuel : ℕ} (hscan : scan fuel m = some m') (hvalid : m'.valid = true) :
    Filled m m' := by
  induction fuel generalizing m with
  | zero => cases hscan
  | succ fuel ih =>
    rw [scan] at hscan
    dsimp only at hscan
    rcases dropWhile_cases m.bytes with hshort | ⟨h, l, rest, hbytes⟩
    · rw [if_pos hshort, Option.some.injEq] at hscan
      rw [← hscan] at hvalid
      cases hvalid
    rw [hbytes] at hscan
    have hlen : ¬ (preambleByte :: h :: l :: rest).length < headerBytes := by simp [headerBytes]
    obtain ⟨preamble, reserved, messageLength, data, hdata, hheader⟩ :=
      assignHeader_spec { m with bytes := preambleByte :: h :: l :: rest }
    rw [if_neg hlen, hheader] at hscan
    dsimp only at hscan
    split_ifs at hscan with hfew
    · rw [Option.some.injEq] at hscan
      rw [← hscan] at hvalid
      cases hvalid
    generalize ((preambleByte :: h :: l :: rest).drop (headerBytes + messageLength)).take crcBytes =
      crc at hscan
    obtain ⟨value, words, hwords, hassign⟩ := assignCrc_spec { m with
      bytes := preambleByte :: h :: l :: rest
      preamble := preamble
      reserved := reserved
      messageLength := messageLength
      data := data } crc
    have hkept : words.length = m.data.length := hwords.trans hdata
    rw [hassign] at hscan
    dsimp only at hscan
    split_ifs at hscan with hcheck
    · rw [Bool.and_eq_true] at hcheck
      rw [Option.some.injEq] at hscan
      rw [← hscan] at hvalid ⊢
      obtain ⟨hflag, hsame, hcrc⟩ := loadMessage_filled (checkParity_header hcheck.2) hvalid
      exact ⟨hflag, hsame.trans (congrArg (· + _) hkept), hcrc⟩
    · obtain ⟨hflag, hsame, hcrc⟩ := ih hscan
      exact ⟨hflag, hsame.trans (congrArg (· + _) hkept), hcrc⟩

end Rtcm3Message
end V2IHub.Rtcm
