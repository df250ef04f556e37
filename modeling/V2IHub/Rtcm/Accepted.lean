import V2IHub.Rtcm.DecoderPass
import V2IHub.Rtcm.Rtcm2

/-! What the decoders accept is a frame, for any bytes. -/
namespace V2IHub.Rtcm
open Foundation

section Rtcm3

namespace Rtcm3Message
variable {m m' : Rtcm3Message}

/-- A message that is too short for the two attributes is no message. -/
theorem loadMessage_short (hdata : m.data = []) (hlen : m.messageLength < attrBytes) :
    m.loadMessage.valid = false := by
  have hload : ∀ bytes, (rtcm3Format.loadData [] bytes m.messageLength).length < 3 := by
    intro bytes
    simpa [WordFormat.loadData, attrBytes] using hlen
  have hassign : ∀ bytes, rtcm3Format.assignData
      (rtcm3Format.loadData [] bytes m.messageLength) [12, 12] = none := by
    intro bytes
    rw [WordFormat.assignData]
    exact if_pos (hload bytes)
  simp only [loadMessage, hdata, hassign]
  rfl

/-- The header was read from the front of the buffer. -/
structure HeaderRead (m : Rtcm3Message) (h l : UInt8) (rest : Bytes) : Prop where
  data : m.data = []
  valid : m.valid = true
  preamble : m.preamble = preambleByte.toNat
  reserved : m.reserved = h.toNat / 4
  length : m.messageLength = h.toNat % 4 * 256 + l.toNat
  bytes : m.bytes = preambleByte :: h :: l :: rest

/-- A message with a right check sum is a frame. -/
theorem loadMessage_accepted {h l : UInt8} {rest : Bytes} (hread : HeaderRead m h l rest)
    (henough : m.messageLength + 3 ≤ rest.length)
    (hcrc : bigEndian 3 m.crc = (rest.drop m.messageLength).take 3)
    (hparity : m.checkParity m.bytes = true) (hload : m.loadMessage.valid = true) :
    ∃ (F : Frame3) (bytes : Bytes), m.loadMessage = F.decoded bytes := by
  by_cases hshort : m.messageLength < attrBytes
  · rw [loadMessage_short hread.data hshort] at hload
    exact absurd hload Bool.false_ne_true
  let F : Frame3 := {
    high := h
    low := l
    payload := rest.take m.messageLength
    length_eq := by
      rw [List.length_take, ← hread.length]
      omega
    length_ge := by
      simp only [attrBytes] at hshort
      rw [List.length_take]
      omega }
  have hpayload : m.messageLength = F.payload.length := by
    rw [F.length_eq, hread.length]
  have hbody : m.bytes = F.body ++ rest.drop m.messageLength := by
    rw [hread.bytes, Frame3.body, List.cons_append, List.cons_append, List.cons_append,
      List.take_append_drop]
  have htail : 3 ≤ (rest.drop m.messageLength).length := by
    rw [List.length_drop]
    omega
  have hsum : m.crc = F.crc := by
    have hget := F.getParity_eq hpayload _ htail
    rw [← hbody] at hget
    rw [checkParity] at hparity
    split_ifs at hparity
    rw [decide_eq_true_eq] at hparity
    rw [hparity, hget]
  have hframe : m.bytes = F.bytes ++ (rest.drop m.messageLength).drop 3 := by
    rw [hbody, Frame3.bytes, ← hsum, hcrc, List.append_assoc, List.take_append_drop]
  have heq := F.loadMessage_eq _ hread.data hpayload hframe
  rw [hread.preamble, hread.reserved, hread.valid, hsum, hpayload] at heq
  exact ⟨F, _, heq⟩

/-- A pass of the loop: the message is a frame at the front of the buffer, or there is another
pass. -/
theorem scan_pass {fuel : ℕ} (hdata : m.data = []) (hvalid : m.valid = true)
    (hscan : scan (fuel + 1) m = some m') (hvalid' : m'.valid = true) :
    (∃ (F : Frame3) (bytes : Bytes), m' = F.decoded bytes) ∨
      ∃ m₁ : Rtcm3Message, m₁.data = [] ∧ m₁.valid = true ∧ scan fuel m₁ = some m' := by
  rw [scan_succ fuel hdata] at hscan
  split_ifs at hscan with hshort hfew hintact
  · rw [Option.some.injEq] at hscan
    rw [← hscan] at hvalid'
    cases hvalid'
  · rw [Option.some.injEq] at hscan
    rw [← hscan] at hvalid'
    cases hvalid'
  · left
    rw [Option.some.injEq] at hscan
    rw [← hscan] at hvalid' ⊢
    obtain ⟨h, l, rest, hcons⟩ := (candidate_cases m.bytes).resolve_left hshort
    rw [Nat.not_lt] at hfew
    have hcheck := checkParity_tried (m := m) hfew
    have hlength := checkBytes_length hfew
    rw [hintact] at hcheck
    generalize candidate m.bytes = bytes at hcons hfew hcheck hlength hvalid' ⊢
    have hread : HeaderRead (m.tried bytes) h l rest := by
      refine ⟨hdata, hvalid, rfl, ?_, ?_, hcons⟩
      · rw [tried, headed, hcons]
        rfl
      · rw [tried, headed, hcons]
        rfl
    have hdrop : checkBytes bytes = (rest.drop (m.tried bytes).messageLength).take 3 := by
      have hlen : (m.tried bytes).messageLength = claimedLength bytes := rfl
      rw [checkBytes, checkStart, hlen, hcons]
      simp only [headerBytes, Nat.add_comm 3, List.drop_succ_cons]
      rfl
    apply loadMessage_accepted hread
    · rw [hcons] at hfew
      simp only [List.length_cons, frameEnd, checkStart, headerBytes, crcBytes] at hfew
      simp only [tried, headed, hcons]
      omega
    · rw [← hdrop]
      exact bigEndian_packWords hlength
    · exact hcheck
    · exact hvalid'
  · right
    refine ⟨_, ?_, ?_, hscan⟩
    · exact hdata
    · exact hvalid

/-- Whatever is decoded is a frame. -/
theorem scan_accepted (fuel : ℕ) (hdata : m.data = []) (hvalid : m.valid = true)
    (hscan : scan fuel m = some m') (hvalid' : m'.valid = true) :
    ∃ (F : Frame3) (bytes : Bytes), m' = F.decoded bytes := by
  induction fuel generalizing m with
  | zero => simp [scan] at hscan
  | succ fuel ih =>
    rcases scan_pass hdata hvalid hscan hvalid' with hframe | ⟨m₁, hdata₁, hvalid₁, hscan₁⟩
    · exact hframe
    · exact ih hdata₁ hvalid₁ hscan₁

theorem setContents_accepted {fuel : ℕ} {input : Bytes}
    (hset : setContents fuel new input = some m) (hvalid : m.isValid = true) :
    ∃ (F : Frame3) (bytes : Bytes), m = F.decoded bytes := by
  rw [isValid, Bool.and_eq_true] at hvalid
  exact scan_accepted fuel rfl rfl hset hvalid.1

end Rtcm3Message
end Rtcm3

section Rtcm2

theorem combineWord_mod (size width word value : ℕ) :
    combineWord size width (word % 2 ^ size) value = combineWord size width word value := by
  simp [combineWord]

/-- Any bytes read as a word of its size. -/
theorem WordFormat.readWord_lt (f : WordFormat) (bytes : Bytes) (pos : ℕ) :
    f.readWord bytes pos < 2 ^ f.wordBits := by
  let parts := ((bytes.drop pos).take f.wordSize).map fun byte => f.readByte byte % 2 ^ f.byteBits
  have hparts : ∀ part ∈ parts, part < 2 ^ f.byteBits := by
    intro part hpart
    obtain ⟨byte, -, rfl⟩ := List.mem_map.mp hpart
    exact Nat.mod_lt _ (by positivity)
  have hlen : parts.length * f.byteBits ≤ f.wordBits := by
    rw [← f.wordSize_mul]
    apply Nat.mul_le_mul_right
    simp [parts]
  have hfold : f.readWord bytes pos =
      parts.foldl (fun val part => combineWord f.byteBits f.dataBits part val) 0 := by
    rw [WordFormat.readWord, List.foldl_map]
    simp only [combineWord_mod]
  rw [hfold, foldl_combineWord hparts (hlen.trans f.fits)]
  exact (packWords_lt hparts).trans_le (Nat.pow_le_pow_right (by decide) hlen)

namespace Rtcm2Message
variable {m : Rtcm2Message} {word1 word2 : ℕ}

theorem loadData_lt (bytes : Bytes) (numWords : ℕ) :
    ∀ word ∈ rtcm2Format.loadData [] bytes numWords, word < 2 ^ 30 := by
  intro word hword
  rw [WordFormat.loadData, List.nil_append] at hword
  obtain ⟨i, -, rfl⟩ := List.mem_map.mp hword
  exact rtcm2Format.readWord_lt bytes _

theorem trial_lt {wire : ℕ} (hwire : wire < 2 ^ 30) (p : ℕ) : trial wire p < 2 ^ 30 := by
  rw [trial]
  split_ifs
  · exact complement_lt hwire
  · exact hwire

/-- The loop leaves one of the four primer words. -/
theorem tryPrimer_cases (wire : ℕ) : ∃ p < 4, tryPrimer wire 0 [0, 1, 2, 3] = (p, none) ∨
    tryPrimer wire 0 [0, 1, 2, 3] = (p, some (trial wire p)) := by
  rw [tryPrimer_unroll]
  split_ifs
  · exact ⟨0, by decide, .inr rfl⟩
  · exact ⟨1, by decide, .inr rfl⟩
  · exact ⟨2, by decide, .inr rfl⟩
  · exact ⟨3, by decide, .inr rfl⟩
  · exact ⟨3, by decide, .inl rfl⟩

theorem primeFirst_cases (hprimer : m.primerWord = 0) (hdata : m.data = [word1, word2])
    (h1 : word1 < 2 ^ 30) :
    ∃ p < 4, ∃ word < 2 ^ 30,
      m.primeFirst = { m with primerWord := p, data := [word, word2] } := by
  obtain ⟨p, hp, htry | htry⟩ := tryPrimer_cases word1
  · refine ⟨p, hp, word1, h1, ?_⟩
    simp only [primeFirst, hprimer, hdata, WordFormat.getData, List.getD_cons_zero, htry]
    rfl
  · refine ⟨p, hp, trial word1 p, trial_lt h1 p, ?_⟩
    simp only [primeFirst, hprimer, hdata, WordFormat.getData, List.getD_cons_zero, htry]
    rfl

theorem primeSecond_cases (hdata : m.data = [word1, word2]) (h2 : word2 < 2 ^ 30) :
    ∃ word < 2 ^ 30, m.primeSecond = { m with data := [word1, word] } := by
  rw [primeSecond, hdata]
  split_ifs
  · exact ⟨complement word2, complement_lt h2, rfl⟩
  · exact ⟨word2, h2, by rw [← hdata]⟩

/-- Any bytes read as two words with a header. -/
theorem readHeader_cases (hfresh : Frame2.Fresh m) :
    ∃ p < 4, ∃ word1 < 2 ^ 30, ∃ word2 < 2 ^ 30, m.readHeader = .ok { m with
      header := .ofWords word1 word2
      storage_version := m.storage_version + 9
      primerWord := p } := by
  obtain ⟨p, hp, word1, h1, hfirst⟩ := primeFirst_cases
    (m := { m with data := rtcm2Format.loadData m.data m.bytes 2 }) hfresh.primerWord
    (by rw [hfresh.data]; rfl) (rtcm2Format.readWord_lt m.bytes _)
  obtain ⟨word2, h2, hsecond⟩ := primeSecond_cases (m := { m with
    primerWord := p, data := [word1, rtcm2Format.readWord m.bytes (1 * rtcm2Format.wordSize)] }) rfl
    (rtcm2Format.readWord_lt m.bytes _)
  have hlt : ∀ word ∈ [word1, word2], word < 2 ^ rtcm2Format.wordBits :=
    List.forall_mem_cons.mpr ⟨h1, List.forall_mem_singleton.mpr h2⟩
  have hassign : rtcm2Format.assignData [word1, word2] Rtcm2Header.sizes =
      some (unpackFields Rtcm2Header.sizes (packWords 30 [word1, word2]), []) :=
    WordFormat.assignData_eq hlt rfl (by decide) (by decide)
  refine ⟨p, hp, word1, h1, word2, h2, ?_⟩
  simp only [readHeader, hfirst, hsecond, hassign]
  rw [hfresh.data]
  rfl

/-- The primer word is given by its two bits. -/
theorem primer_of_bits {p : ℕ} (hp : p < 4) :
    p = (getBit 29 p).toNat * 2 + (getBit 30 p).toNat := by
  have hall : ∀ p < 4, p = (getBit 29 p).toNat * 2 + (getBit 30 p).toNat := by decide
  exact hall p hp

/-- A right header was read. -/
structure HeaderRead (m : Rtcm2Message) (word1 word2 : ℕ) : Prop where
  word1_lt : word1 < 2 ^ 30
  word2_lt : word2 < 2 ^ 30
  header : m.header = .ofWords word1 word2
  words : m.rtcm2Hdr = [word1, word2]
  version : m.headerVersion = m.storage_version
  data : m.data = []
  valid : m.valid = true
  primer_lt : m.primerWord < 4
  preamble : word1 / 2 ^ 22 = preambleValue
  parity1 : word1 % 64 = parityCode word1 (getBit 29 m.primerWord) (getBit 30 m.primerWord)
  parity2 : word2 % 64 = parityCode word2 (getBit 29 word1) (getBit 30 word1)

/-- A message with a right header is a frame, if the data words are there. -/
theorem loadMessage_accepted (hread : HeaderRead m word1 word2)
    (hload : m.loadMessage.valid = true) :
    ∃ (F : Frame2) (bytes : Bytes) (version : ℕ), m.loadMessage = F.decoded bytes version := by
  obtain ⟨h1, h2, hheader, hwords, hversion, hdata, hflag, hp, hpreamble, hfirst, hsecond⟩ := hread
  obtain ⟨-, -, hnumber, hparity2⟩ := Rtcm2Header.ofWords_fields h1 h2
  let bytes := m.bytes.drop (2 * rtcm2Format.wordSize)
  let n := word2 / 2 ^ 9 % 2 ^ 5
  let words := rtcm2Format.loadData [] bytes n
  have hlen : words.length = n := by simp [words, WordFormat.loadData]
  let F : Frame2 := {
    D29 := getBit 29 m.primerWord
    D30 := getBit 30 m.primerWord
    word1 := word1
    word2 := word2
    data := chain (word2 % 64) words
    word1_lt := h1
    word2_lt := h2
    data_lt := chain_lt _ (loadData_lt bytes n)
    preamble_eq := hpreamble
    parity1 := hfirst
    parity2 := hsecond
    length_eq := by rw [chain_length, hlen] }
  have hprimer : m.primerWord = F.primer := primer_of_bits hp
  have hmessage : m.loadMessage = if bytes.length < rtcm2Format.wordSize * n then
      { m with bytes := bytes }.invalidate else { m with bytes := bytes, data := F.data } := by
    have htake : words.take n = words := List.take_of_length_le hlen.le
    have hdrop : words.drop n = [] := List.drop_of_length_le hlen.le
    rw [loadMessage, hheader, hnumber, hparity2, hdata]
    simp only [words, bytes, n] at htake hdrop
    simp only [htake, hdrop, List.append_nil]
    rfl
  rw [hmessage] at hload ⊢
  split_ifs at hload ⊢
  · simp [invalidate] at hload
  · refine ⟨F, bytes, m.storage_version, ?_⟩
    simp only [Frame2.decoded, hwords, hversion, hflag, ← hprimer]
    rw [hheader]
    rfl

/-- Whatever is decoded is a frame. -/
theorem scan_accepted (hfresh : Frame2.Fresh m) {bytes : Bytes} (hvalid : (m.scan bytes).valid = true) :
    ∃ (F : Frame2) (left : Bytes) (version : ℕ), m.scan bytes = F.decoded left version := by
  induction bytes generalizing m with
  | nil => simp [scan, invalidate] at hvalid
  | cons byte rest ih =>
    rw [scan] at hvalid ⊢
    split_ifs at hvalid ⊢ with hstarts hshort
    · exact ih hfresh hvalid
    · simp [invalidate] at hvalid
    · obtain ⟨p, hp, word1, h1, word2, h2, hread⟩ :=
        readHeader_cases (m := { m with bytes := byte :: rest })
          ⟨hfresh.data, hfresh.primerWord, hfresh.valid, hfresh.version⟩
      let m₁ : Rtcm2Message := { m with
        bytes := byte :: rest
        header := .ofWords word1 word2
        storage_version := m.storage_version + 9
        primerWord := p }
      have hversion := hfresh.version
      have hrefresh := refresh_eq (m := m₁) h1 h2 rfl (by simp only [m₁]; omega)
      simp only [hread] at hvalid ⊢
      change (if m₁.isValid = true then m₁.refresh.loadMessage
        else scan { m₁.refresh with primerWord := 0 } rest).valid = true at hvalid
      change ∃ F left version, (if m₁.isValid = true then m₁.refresh.loadMessage
        else scan { m₁.refresh with primerWord := 0 } rest) = Frame2.decoded F left version
      split_ifs at hvalid ⊢ with hheader
      · rw [isValid_iff (m := m₁) h1 h2 hfresh.valid rfl (by rw [hrefresh])] at hheader
        obtain ⟨hpreamble, hparity1, hparity2⟩ := hheader
        rw [hrefresh] at hvalid ⊢
        exact loadMessage_accepted ⟨h1, h2, rfl, rfl, rfl, hfresh.data, hfresh.valid, hp, hpreamble,
          hparity1, hparity2⟩ hvalid
      · apply ih _ hvalid
        rw [hrefresh]
        exact ⟨hfresh.data, rfl, hfresh.valid, le_rfl⟩

theorem setContents_accepted (hfresh : Frame2.Fresh m) {input : Bytes}
    (hvalid : (m.setContents input).isValid = true) :
    ∃ (F : Frame2) (bytes : Bytes) (version : ℕ),
      m.setContents input = F.decoded bytes version := by
  simp only [isValid, Bool.and_eq_true] at hvalid
  exact scan_accepted hfresh hvalid.1.1.1.1

end Rtcm2Message
end Rtcm2
end V2IHub.Rtcm
