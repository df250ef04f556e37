import V2IHub.Location.GpsdWorker

/-! The `NAV-PVT` messages of a u-blox receiver: how the plugin looks for them in the raw bytes, and
the quality of the signal that it takes from them. -/
namespace V2IHub.Location
open Foundation

section Parts
variable {α : Type*}

/-- The parts of length `n` that begin where the list fits, from left to right and without overlap;
so many elements are passed over first. -/
def parts (fits : List α → Bool) (n : ℕ) : ℕ → List α → List (List α)
  | _, [] => []
  | skip + 1, _ :: rest => parts fits n skip rest
  | 0, a :: rest =>
    if fits (a :: rest) then (a :: rest).take n :: parts fits n (n - 1) rest
    else parts fits n 0 rest

variable {fits : List α → Bool} {n : ℕ}

theorem parts_length (hfits : ∀ l, fits l = true → n ≤ l.length) (skip : ℕ) (l : List α) :
    ∀ part ∈ parts fits n skip l, part.length = n := by
  induction l generalizing skip with
  | nil => simp [parts]
  | cons a rest ih =>
    cases skip with
    | succ skip => exact ih skip
    | zero =>
      rw [parts]
      split_ifs with h
      · refine List.forall_mem_cons.mpr ⟨?_, ih _⟩
        rw [List.length_take, Nat.min_eq_left (hfits _ h)]
      · exact ih 0

/-- There is a part exactly if the list fits somewhere. -/
theorem parts_eq_nil_iff (l : List α) (hnil : fits [] = false) :
    parts fits n 0 l = [] ↔ ∀ i, fits (l.drop i) = false := by
  induction l with
  | nil => simp [parts, hnil]
  | cons a rest ih =>
    rw [parts]
    split_ifs with h
    · constructor
      · intro hnone
        cases hnone
      · intro hall
        have hfirst := hall 0
        rw [List.drop_zero, h] at hfirst
        cases hfirst
    · rw [ih]
      constructor
      · intro hall i
        cases i with
        | zero => exact Bool.eq_false_iff.mpr h
        | succ i => exact hall i
      · exact fun hall i => hall (i + 1)

end Parts

/-- A digit of `%02x`. -/
def hexDigit (n : ℕ) : UInt8 := UInt8.ofNat (if n < 10 then 48 + n else 87 + n)

def byteStreamEncode (bytes : Bytes) : Bytes :=
  bytes.flatMap fun byte => [hexDigit (byte.toNat / 16), hexDigit (byte.toNat % 16)]

def digitValue (c : UInt8) : Option ℕ :=
  if 48 ≤ c ∧ c ≤ 57 then some (c.toNat - 48)
  else if 65 ≤ c ∧ c ≤ 70 then some (c.toNat - 55)
  else if 97 ≤ c ∧ c ≤ 102 then some (c.toNat - 87)
  else none

/-- `strtoul` of two characters that are letters or digits. -/
def strtoul (c d : UInt8) : ℕ :=
  match digitValue c, digitValue d with
  | none, _ => 0
  | some high, none => high
  | some high, some low => high * 16 + low

def byteStreamDecode : Bytes → Bytes
  | [] => []
  | [c] => [UInt8.ofNat (strtoul c 48)]
  | c :: d :: text => UInt8.ofNat (strtoul c d) :: byteStreamDecode text

def isAlnum (c : UInt8) : Bool :=
  (48 ≤ c && c ≤ 57) || (65 ≤ c && c ≤ 90) || (97 ≤ c && c ≤ 122)

def ubxNAVPVTPattern : Bytes := cstr "b56201075c00"

def ubxNAVPVTBytes : Bytes := byteStreamDecode ubxNAVPVTPattern

def ubxNAVPVTLength : ℕ := (ubxNAVPVTBytes.getD (ubxNAVPVTBytes.length - 2) 0).toNat

/-- The text begins with a match of the expression: the pattern and so many characters. -/
def matchesExp (text : Bytes) : Bool :=
  let rest := text.drop ubxNAVPVTPattern.length
  ubxNAVPVTPattern.isPrefixOf text && decide (ubxNAVPVTLength ≤ rest.length) &&
    (rest.take ubxNAVPVTLength).all isAlnum

/-- The payloads of the messages that `decodeNAVPVT` sends. -/
def decodeNAVPVT (byteStr : Bytes) : List Bytes :=
  (parts matchesExp (ubxNAVPVTPattern.length + ubxNAVPVTLength) 0 byteStr).map byteStreamDecode

/-- The quality that `OnMessageReceived` broadcasts for the payload of such a message. -/
def onNavPvt (bytes : Bytes) : Option SignalQuality :=
  if 28 ≤ bytes.length then
    let b := bytes.getD 27 0
    if b &&& 0x40 = 0x04 then some .FloatRTK
    else if b &&& 0x80 = 0x08 then some .RealTimeKinematic
    else if b &&& 0x02 = 0x02 then some .DGPS
    else none
  else none

/-- The header with its whole payload of 92 bytes. -/
def isFrame (bytes : Bytes) : Bool :=
  [0xB5, 0x62, 0x01, 0x07, 0x5C, 0x00].isPrefixOf bytes && decide (98 ≤ bytes.length)

/-- The messages that are in the raw bytes. -/
def navPvtFrames (raw : Bytes) : List Bytes := parts isFrame 98 0 raw

/-- The quality that the flags of a message say. -/
def flagsQuality (bytes : Bytes) : Option SignalQuality :=
  let flags := (bytes.getD 27 0).toNat
  if flags / 64 = 1 then some .FloatRTK
  else if flags / 64 = 2 then some .RealTimeKinematic
  else if flags / 2 % 2 = 1 then some .DGPS
  else none

section Quality

/-- The two masks for the carrier solution never give what they are compared with. -/
theorem onNavPvt_eq_iff {bytes : Bytes} (hlen : 28 ≤ bytes.length) :
    onNavPvt bytes = flagsQuality bytes ↔
      (bytes.getD 27 0).toNat / 64 ≠ 1 ∧ (bytes.getD 27 0).toNat / 64 ≠ 2 := by
  have hall : ∀ n < 256, (UInt8.ofNat n &&& 0x40 ≠ 0x04 ∧ UInt8.ofNat n &&& 0x80 ≠ 0x08) ∧
      (UInt8.ofNat n &&& 0x02 = 0x02 ↔ n / 2 % 2 = 1) := by decide +kernel
  obtain ⟨⟨hfloat, hfixed⟩, hdiff⟩ := hall (bytes.getD 27 0).toNat (bytes.getD 27 0).toNat_lt
  rw [UInt8.ofNat_toNat] at hfloat hfixed hdiff
  rw [onNavPvt, if_pos hlen, flagsQuality]
  simp only [if_neg hfloat, if_neg hfixed, hdiff]
  split_ifs <;> simp_all

end Quality

section Hex

theorem hexDigit_alnum {n : ℕ} (h : n < 16) : isAlnum (hexDigit n) = true := by
  have hall : ∀ n < 16, isAlnum (hexDigit n) = true := by decide
  exact hall n h

theorem byteStreamEncode_alnum (bytes : Bytes) : ∀ c ∈ byteStreamEncode bytes, isAlnum c = true := by
  intro c hc
  obtain ⟨byte, -, hbyte⟩ := List.mem_flatMap.mp hc
  have hlt := byte.toNat_lt
  rcases List.mem_pair.mp hbyte with rfl | rfl
  · exact hexDigit_alnum (by omega)
  · exact hexDigit_alnum (by omega)

theorem byteStreamEncode_length (bytes : Bytes) :
    (byteStreamEncode bytes).length = 2 * bytes.length := by
  induction bytes with
  | nil => rfl
  | cons byte bytes ih =>
    rw [byteStreamEncode, List.flatMap_cons, List.length_append]
    simp only [byteStreamEncode] at ih
    rw [ih]
    simp only [List.length_cons, List.length_nil]
    omega

theorem byteStreamEncode_append (bytes bytes' : Bytes) :
    byteStreamEncode (bytes ++ bytes') = byteStreamEncode bytes ++ byteStreamEncode bytes' :=
  List.flatMap_append

theorem byteStreamEncode_drop (bytes : Bytes) (i : ℕ) :
    byteStreamEncode (bytes.drop i) = (byteStreamEncode bytes).drop (2 * i) := by
  induction i generalizing bytes with
  | zero => rfl
  | succ i ih =>
    cases bytes with
    | nil => simp [byteStreamEncode]
    | cons byte bytes =>
      rw [List.drop_succ_cons, ih]
      rfl

theorem byteStreamDecode_length (text : Bytes) :
    (byteStreamDecode text).length = (text.length + 1) / 2 := by
  fun_induction byteStreamDecode text with
  | case1 => rfl
  | case2 => simp
  | case3 c d text ih =>
    simp only [List.length_cons, ih]
    omega

end Hex

section Search

/-- In hexadecimal text, the expression fits where the pattern is and there are 92 more digits. -/
theorem matchesExp_iff (raw : Bytes) (i : ℕ) :
    matchesExp ((byteStreamEncode raw).drop i) = true ↔
      ubxNAVPVTPattern <+: (byteStreamEncode raw).drop i ∧ i + 104 ≤ 2 * raw.length := by
  have hlength : ubxNAVPVTLength = 92 := by decide
  have hpattern : ubxNAVPVTPattern.length = 12 := by decide
  have halnum : (((byteStreamEncode raw).drop i).drop 12).take 92 |>.all isAlnum := by
    rw [List.all_eq_true]
    intro c hc
    exact byteStreamEncode_alnum raw c
      (List.mem_of_mem_drop (List.mem_of_mem_drop (List.mem_of_mem_take hc)))
  rw [matchesExp, hlength, hpattern]
  simp only [halnum, Bool.and_true, Bool.and_eq_true, decide_eq_true_eq, List.isPrefixOf_iff_prefix,
    List.length_drop, byteStreamEncode_length]
  apply and_congr_right'
  omega

/-- Every message sent is the header and half of the payload. -/
theorem decodeNAVPVT_length (text : Bytes) : ∀ bytes ∈ decodeNAVPVT text, bytes.length = 52 := by
  have hpattern : ubxNAVPVTPattern.length = 12 := by decide
  have hlength : ubxNAVPVTLength = 92 := by decide
  have hfits : ∀ l, matchesExp l = true → 12 + 92 ≤ l.length := by
    intro l hl
    simp only [matchesExp, Bool.and_eq_true, decide_eq_true_eq, List.length_drop, hpattern,
      hlength] at hl
    omega
  intro bytes hbytes
  rw [decodeNAVPVT, hpattern, hlength] at hbytes
  obtain ⟨token, htoken, rfl⟩ := List.mem_map.mp hbytes
  rw [byteStreamDecode_length, parts_length hfits 0 text token htoken]

theorem navPvtFrames_length (raw : Bytes) : ∀ bytes ∈ navPvtFrames raw, bytes.length = 98 := by
  apply parts_length
  intro l hl
  simp only [isFrame, Bool.and_eq_true, decide_eq_true_eq] at hl
  exact hl.2

theorem exists_match_of_frame {raw : Bytes} (h : navPvtFrames raw ≠ []) :
    ∃ i, matchesExp ((byteStreamEncode raw).drop i) = true := by
  rw [navPvtFrames, ne_eq, parts_eq_nil_iff raw rfl, not_forall] at h
  obtain ⟨i, hi⟩ := h
  rw [Bool.not_eq_false, isFrame, Bool.and_eq_true, decide_eq_true_eq,
    List.isPrefixOf_iff_prefix] at hi
  obtain ⟨⟨rest, hrest⟩, hlen⟩ := hi
  refine ⟨2 * i, (matchesExp_iff raw _).mpr ⟨?_, ?_⟩⟩
  · rw [← byteStreamEncode_drop, ← hrest, byteStreamEncode_append]
    exact ⟨byteStreamEncode rest, rfl⟩
  · rw [List.length_drop] at hlen
    omega

/-- For any raw bytes, the messages sent are those in the bytes, each with the quality that its
flags say, exactly if nothing in the hexadecimal text looks like a message; and the quality of a
message is right exactly if its carrier solution is neither float nor fixed. -/
theorem decodeNAVPVT_iff (raw : Bytes) :
    ((decodeNAVPVT (byteStreamEncode raw) = navPvtFrames raw ∧
        ∀ bytes ∈ decodeNAVPVT (byteStreamEncode raw), onNavPvt bytes = flagsQuality bytes) ↔
      ∀ i, ubxNAVPVTPattern <+: (byteStreamEncode raw).drop i → 2 * raw.length < i + 104) ∧
    ∀ bytes : Bytes, 28 ≤ bytes.length → (onNavPvt bytes = flagsQuality bytes ↔
      (bytes.getD 27 0).toNat / 64 ≠ 1 ∧ (bytes.getD 27 0).toNat / 64 ≠ 2) := by
  refine ⟨?_, fun bytes hlen => onNavPvt_eq_iff hlen⟩
  have hnone : decodeNAVPVT (byteStreamEncode raw) = [] ↔
      ∀ i, ubxNAVPVTPattern <+: (byteStreamEncode raw).drop i → 2 * raw.length < i + 104 := by
    rw [decodeNAVPVT, List.map_eq_nil_iff, parts_eq_nil_iff _ rfl]
    apply forall_congr'
    intro i
    rw [← Bool.not_eq_true, matchesExp_iff, not_and, Nat.not_le]
  rw [← hnone]
  constructor
  · rintro ⟨hsame, -⟩
    rw [List.eq_nil_iff_forall_not_mem]
    intro bytes hbytes
    have hsent := decodeNAVPVT_length _ bytes hbytes
    have hframe := navPvtFrames_length raw bytes (hsame ▸ hbytes)
    omega
  · intro hempty
    rw [hempty]
    refine ⟨?_, fun bytes hbytes => absurd hbytes List.not_mem_nil⟩
    by_contra hframes
    obtain ⟨i, hi⟩ := exists_match_of_frame (Ne.symm hframes)
    have hall := (parts_eq_nil_iff _ rfl).mp (List.map_eq_nil_iff.mp hempty) i
    rw [hi] at hall
    cases hall

/-- A message with flags for a float solution: half of it is sent, without a quality. -/
def floatMessage : Bytes :=
  [0xB5, 0x62, 0x01, 0x07, 0x5C, 0x00] ++ List.replicate 21 0 ++ [0x41] ++ List.replicate 70 0

theorem decodeNAVPVT_floatMessage :
    navPvtFrames floatMessage = [floatMessage] ∧
      decodeNAVPVT (byteStreamEncode floatMessage) = [floatMessage.take 52] ∧
      flagsQuality floatMessage = some .FloatRTK ∧ onNavPvt (floatMessage.take 52) = none ∧
      ¬ ∀ raw : Bytes, decodeNAVPVT (byteStreamEncode raw) = navPvtFrames raw ∧
        ∀ bytes ∈ decodeNAVPVT (byteStreamEncode raw), onNavPvt bytes = flagsQuality bytes := by
  have hframes : navPvtFrames floatMessage = [floatMessage] := by decide +kernel
  have hsent : decodeNAVPVT (byteStreamEncode floatMessage) = [floatMessage.take 52] := by
    decide +kernel
  refine ⟨hframes, hsent, by decide, by decide, fun hclaim => ?_⟩
  have hsame := (hclaim floatMessage).1
  rw [hframes, hsent] at hsame
  exact absurd hsame (by decide)

end Search
end V2IHub.Location
