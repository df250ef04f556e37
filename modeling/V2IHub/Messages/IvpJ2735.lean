import V2IHub.Api.IvpError
import V2IHub.Messages.ByteStream

/-! Encoded J2735 messages as hexadecimal payloads: the two places that write the digits into a
buffer of the stack, and the reader. -/
namespace V2IHub.Messages.IvpJ2735
open Foundation Location Json Api

def IVPMSG_TYPE_J2735 : Bytes := cstr "J2735"
def IVP_ENCODING_ASN1_BER : Bytes := cstr "asn.1-ber/hexstring"

section MessageIds

def DSRCmsgID_reserved : UInt8 := 0
def DSRCmsgID_basicSafetyMessage : UInt8 := 2
def DSRCmsgID_basicSafetyMessageVerbose : UInt8 := 3
def DSRCmsgID_commonSafetyRequest : UInt8 := 4
def DSRCmsgID_emergencyVehicleAlert : UInt8 := 5
def DSRCmsgID_intersectionCollisionAlert : UInt8 := 6
def DSRCmsgID_mapData : UInt8 := 7
def DSRCmsgID_nmeaCorrections : UInt8 := 8
def DSRCmsgID_probeDataManagement : UInt8 := 9
def DSRCmsgID_probeVehicleData : UInt8 := 10
def DSRCmsgID_roadSideAlert : UInt8 := 11
def DSRCmsgID_rtcmCorrections : UInt8 := 12
def DSRCmsgID_signalPhaseAndTimingMessage : UInt8 := 13
def DSRCmsgID_signalRequestMessage : UInt8 := 14
def DSRCmsgID_signalStatusMessage : UInt8 := 15
def DSRCmsgID_travelerInformation : UInt8 := 16

def messageSubTypes : List (UInt8 × Bytes) := [
  (DSRCmsgID_basicSafetyMessage, cstr "BSM"),
  (DSRCmsgID_basicSafetyMessageVerbose, cstr "BSMV"),
  (DSRCmsgID_commonSafetyRequest, cstr "CSR"),
  (DSRCmsgID_emergencyVehicleAlert, cstr "EVA"),
  (DSRCmsgID_intersectionCollisionAlert, cstr "IC"),
  (DSRCmsgID_mapData, cstr "MAP"),
  (DSRCmsgID_nmeaCorrections, cstr "NMEA"),
  (DSRCmsgID_probeDataManagement, cstr "PDM"),
  (DSRCmsgID_probeVehicleData, cstr "PVD"),
  (DSRCmsgID_roadSideAlert, cstr "RSA"),
  (DSRCmsgID_rtcmCorrections, cstr "RTCM"),
  (DSRCmsgID_signalPhaseAndTimingMessage, cstr "SPAT"),
  (DSRCmsgID_signalRequestMessage, cstr "SRM"),
  (DSRCmsgID_signalStatusMessage, cstr "SSM"),
  (DSRCmsgID_travelerInformation, cstr "TIM")]

def getMessageSubTypeFromMsgId (msgId : UInt8) : Option Bytes := messageSubTypes.lookup msgId

/-- `getTypeDescriptorFromMsgId(msgId) != NULL`: the `switch` has the cases of the subtypes. -/
def hasTypeDescriptor (msgId : UInt8) : Bool := messageSubTypes.any fun e => e.1 = msgId

/-- The first of the values up to 255 with this subtype. -/
def getMsgIdFromMessageSubType (subtype : Bytes) : UInt8 :=
  (((List.range 256).map UInt8.ofNat).find? fun i =>
    getMessageSubTypeFromMsgId i = some subtype).getD DSRCmsgID_reserved

/-- The loop of `getMsgIdFromRaw`. Its index has 16 bits, so that so many rounds are all there
are before it is back where it was. -/
def findMarker (msg : Bytes) : ℕ → BitVec 16 → Option (BitVec 16)
  | 0, _ => none
  | fuel + 1, i =>
    if i.toNat + 1 < msg.length then
      if msg[i.toNat]? = some 128 ∧ msg[i.toNat + 1]? = some 1 then some i
      else findMarker msg fuel (i + 1)
    else some i

/-- Nothing when the loop does not end. -/
def getMsgIdFromRaw (msg : Bytes) : Option UInt8 :=
  (findMarker msg (2 ^ 16) 2).map fun i =>
    if i ≠ 0 ∧ i.toNat + 2 < msg.length then msg.getD (i.toNat + 2) 0 else DSRCmsgID_reserved

end MessageIds

section Buffer

/-- Nothing when a byte would be written outside of the memory. -/
def writeAt (mem : Bytes) (pos : ℕ) (bytes : Bytes) : Option Bytes :=
  if pos + bytes.length ≤ mem.length then
    some (mem.take pos ++ bytes ++ mem.drop (pos + bytes.length))
  else none

/-- `snprintf(&buf[i*2], 3, "%02x", byte)` -/
def printByte (buf : Bytes) (i : ℕ) (byte : UInt8) : Option Bytes :=
  writeAt buf (i * 2)
    [Location.hexDigit (byte.toNat / 16), Location.hexDigit (byte.toNat % 16), 0]

/-- So many rounds of a loop that prints one byte after the other, which may come from the
buffer itself. -/
def printBytes (read : Bytes → ℕ → Option UInt8) (buf : Bytes) : ℕ → Option Bytes
  | 0 => some buf
  | i + 1 => do
    let buf ← printBytes read buf i
    let byte ← read buf i
    printByte buf i byte

/-- The string that `cJSON_CreateString` copies; nothing when it runs out of the buffer. -/
def stringIn (buf : Bytes) : Option Bytes := if 0 ∈ buf then some (cstringAt buf) else none

end Buffer

/-- What `der_encode_to_buffer` leaves in the upper half of the buffer, and the number of bytes
that it reports; -1 is a failure. -/
structure Encoding where
  upper : Bytes
  encoded : ℤ
  length_upper : upper.length = 2000
  encoded_le : encoded ≤ 2000

/-- The message that both functions create. An identifier without a subtype fails an
assertion. -/
def payloadMessage (now : BitVec 64) (flags : BitVec 32) (msgId : UInt8) (text : Bytes) :
    Option IvpMessage :=
  (getMessageSubTypeFromMsgId msgId).map fun subtype =>
    .create now (some IVPMSG_TYPE_J2735) (some subtype) (some IVP_ENCODING_ASN1_BER) flags
      (some (.string text))

/-- `ivpJ2735_createMsg`; `lower` is what the first half of the buffer held. A result `none` is
an access outside of the buffer or a failed assertion, and `some none` is `NULL`. -/
def createMsg (now : BitVec 64) (lower : Bytes) (encResults : Encoding) (msgId : UInt8)
    (flags : BitVec 32) : Option (Option IvpMessage) :=
  if hasTypeDescriptor msgId then
    if encResults.encoded = 0 then some none
    else do
      let buf ← printBytes (fun buf i => buf[i + 2000]?) (lower ++ encResults.upper)
        encResults.encoded.toNat
      let text ← stringIn buf
      let results ← payloadMessage now flags msgId text
      some (some results)
  else none

/-- `ivpJ2735_createMsgFromEncoded`; `buf` is what the buffer held. -/
def createMsgFromEncoded (now : BitVec 64) (buf : Bytes) (msg : Bytes) (flags : BitVec 32) :
    Option (Option IvpMessage) := do
  let buf ← printBytes (fun _ i => msg[i]?) buf msg.length
  let text ← stringIn buf
  let msgId ← getMsgIdFromRaw msg
  if msgId ≠ DSRCmsgID_reserved then do
    let results ← payloadMessage now flags msgId text
    some (some results)
  else some none

structure EncodedMsg where
  msg : Bytes
  msgLength : ℕ
  msgId : UInt8
  deriving DecidableEq

/-- `sscanf` of this text with the format `%2hhx` into a byte that is 0. -/
def scanByte (text : Bytes) : UInt8 := UInt8.ofNat (strtoulBuf ((text.dropWhile isSpace).take 2))

/-- `ivpJ2735_getJ2735EncodedMsg` on a message of that type. -/
def getJ2735EncodedMsg (msg : IvpMessage) : Option (Option EncodedMsg) := do
  let subtype ← msg.subtype
  match msg.payload with
  | none => some none
  | some (.string valuestring) =>
    let msgId := getMsgIdFromMessageSubType subtype
    if msgId = DSRCmsgID_reserved then some none
    else do
      let payloadLength := valuestring.length / 2
      let bytes := (List.range payloadLength).map fun i => scanByte (valuestring.drop (2 * i))
      let raw ← getMsgIdFromRaw bytes
      if raw = msgId then some (some ⟨bytes, payloadLength, msgId⟩) else none
  | some _ => none

section Writing
variable {front back bytes : Bytes}

theorem writeAt_append (front back bytes : Bytes) (h : bytes.length ≤ back.length) :
    writeAt (front ++ back) front.length bytes =
      some (front ++ bytes ++ back.drop bytes.length) := by
  rw [writeAt, if_pos (by simpa using h), List.take_left, List.drop_append]
  simp

theorem writeAt_outside {mem : Bytes} {pos : ℕ} (h : mem.length < pos + bytes.length) :
    writeAt mem pos bytes = none := if_neg (not_le.mpr h)

/-- What stands behind the digits: at first the old byte, and from the first round on the
terminator. -/
def terminator (buf : Bytes) (n : ℕ) : Bytes := if n = 0 then buf.take 1 else [0]

/-- The buffer after so many rounds. -/
def printed (buf source : Bytes) (n : ℕ) : Bytes :=
  byteStreamEncode (source.take n) ++ (terminator buf n ++ buf.drop (2 * n + 1))

variable {buf source : Bytes} {read : Bytes → ℕ → Option UInt8}

theorem length_terminator {n : ℕ} (hlen : buf.length = 4000) : (terminator buf n).length = 1 := by
  unfold terminator
  split_ifs <;> simp [hlen]

theorem length_digits {n : ℕ} (hn : n ≤ source.length) :
    (byteStreamEncode (source.take n)).length = n * 2 := by
  rw [byteStreamEncode_length, List.length_take, min_eq_left hn, mul_comm]

theorem printed_zero (buf source : Bytes) : printed buf source 0 = buf := by
  rw [printed, terminator, if_pos rfl]
  simpa [byteStreamEncode] using List.take_append_drop 1 buf

theorem printByte_printed {n : ℕ} {byte : UInt8} (hlen : buf.length = 4000) (hn : n ≤ 1998)
    (hbyte : source[n]? = some byte) :
    printByte (printed buf source n) n byte = some (printed buf source (n + 1)) := by
  obtain ⟨hlt, hget⟩ := List.getElem?_eq_some_iff.mp hbyte
  have hback : (terminator buf n ++ buf.drop (2 * n + 1)).drop 3 = buf.drop (2 * (n + 1) + 1) := by
    rw [List.drop_append, length_terminator hlen, List.drop_eq_nil_of_le
      (by rw [length_terminator hlen]; omega), List.drop_drop, List.nil_append]
    congr 1
  have hdigits : byteStreamEncode (source.take (n + 1)) = byteStreamEncode (source.take n) ++
      [Location.hexDigit (byte.toNat / 16), Location.hexDigit (byte.toNat % 16)] := by
    rw [List.take_add_one, hbyte]
    simp [byteStreamEncode]
  have hwrite := writeAt_append (byteStreamEncode (source.take n))
    (terminator buf n ++ buf.drop (2 * n + 1))
    [Location.hexDigit (byte.toNat / 16), Location.hexDigit (byte.toNat % 16), 0]
    (by simp [length_terminator hlen, hlen]; omega)
  rw [length_digits hlt.le] at hwrite
  have hend : terminator buf (n + 1) = [0] := if_neg (Nat.succ_ne_zero n)
  rw [printByte, printed, hwrite, printed, hdigits, hend]
  simp only [List.length_cons, List.length_nil, hback]
  simp

theorem length_printed {n : ℕ} (hlen : buf.length = 4000) (hn : n ≤ source.length)
    (hn' : n ≤ 1999) : (printed buf source n).length = 4000 := by
  simp only [printed, List.length_append, length_digits hn, length_terminator hlen,
    List.length_drop, hlen]
  omega

/-- A loop that reads the bytes of `source`, although only the digits of the bytes before are
written, leaves the digits of all of them with a terminator in the buffer. -/
theorem printBytes_printed (read : Bytes → ℕ → Option UInt8) (hlen : buf.length = 4000)
    (hread : ∀ n < source.length, n ≤ 1999 → read (printed buf source n) n = source[n]?) {n : ℕ}
    (hn : n ≤ source.length) (hn' : n ≤ 1999) :
    printBytes read buf n = some (printed buf source n) := by
  induction n with
  | zero => rw [printBytes, printed_zero]
  | succ n ih =>
    have hbyte := List.getElem?_eq_getElem hn
    rw [printBytes, ih (by omega) (by omega)]
    simp only [Option.bind_eq_bind, Option.bind_some, hread n hn (by omega), hbyte]
    exact printByte_printed hlen (by omega) hbyte

/-- The digits of byte 1999 fill the buffer, and their terminator goes behind it. -/
theorem printBytes_outside (read : Bytes → ℕ → Option UInt8) (hlen : buf.length = 4000) (hsource : 2000 ≤ source.length)
    (hread : ∀ n < source.length, n ≤ 1999 → read (printed buf source n) n = source[n]?) {n : ℕ}
    (hn : 2000 ≤ n) : printBytes read buf n = none := by
  induction n, hn using Nat.le_induction with
  | base =>
    rw [printBytes, printBytes_printed read hlen hread (by omega) le_rfl]
    simp only [Option.bind_eq_bind, Option.bind_some, hread 1999 (by omega) le_rfl]
    rw [List.getElem?_eq_getElem (by omega), Option.bind_some]
    exact writeAt_outside (by rw [length_printed hlen (by omega) le_rfl]; simp)
  | succ n _ ih => rw [printBytes, ih, Option.bind_eq_bind, Option.bind_none]

theorem stringIn_printed (buf source : Bytes) {n : ℕ} (hpos : n ≠ 0) :
    stringIn (printed buf source n) = some (byteStreamEncode (source.take n)) := by
  have hzero : (0 : UInt8) ∉ byteStreamEncode (source.take n) := fun h =>
    absurd (byteStreamEncode_alnum _ 0 h) (by decide)
  rw [stringIn, printed, terminator, if_neg hpos, if_pos (by simp), List.singleton_append,
    cstringAt_eq hzero]

end Writing

section Subtypes
variable {msgId : UInt8}

theorem hasTypeDescriptor_iff :
    hasTypeDescriptor msgId = true ↔ (getMessageSubTypeFromMsgId msgId).isSome := by
  rw [hasTypeDescriptor, getMessageSubTypeFromMsgId, List.lookup_isSome_iff]
  simp only [List.any_eq_true, decide_eq_true_eq, beq_iff_eq, eq_comm (a := msgId)]

/-- No two identifiers have one subtype. -/
theorem getMsgIdFromMessageSubType_eq {subtype : Bytes}
    (h : getMessageSubTypeFromMsgId msgId = some subtype) :
    getMsgIdFromMessageSubType subtype = msgId ∧ msgId ≠ DSRCmsgID_reserved := by
  have hall : ∀ e ∈ messageSubTypes,
      getMsgIdFromMessageSubType e.2 = e.1 ∧ e.1 ≠ DSRCmsgID_reserved := by
    decide +kernel
  obtain ⟨before, after, htable, -⟩ := List.lookup_eq_some_iff.mp h
  exact hall (msgId, subtype) (by simp [htable])

end Subtypes

section InPlace
variable {now : BitVec 64} {lower : Bytes} {encResults : Encoding} {msgId : UInt8}
  {flags : BitVec 32}

theorem payloadMessage_eq (now : BitVec 64) (flags : BitVec 32) (hid : hasTypeDescriptor msgId = true) (text : Bytes) :
    ∃ msg, payloadMessage now flags msgId text = some msg ∧ msg.payload = some (.string text) := by
  obtain ⟨subtype, hsubtype⟩ := Option.isSome_iff_exists.mp (hasTypeDescriptor_iff.mp hid)
  exact ⟨_, by rw [payloadMessage, hsubtype, Option.map_some], rfl⟩

/-- The bytes that the loop expands: as many as it has rounds. -/
def Encoding.source (encResults : Encoding) : Bytes :=
  encResults.upper.take encResults.encoded.toNat

theorem length_source (encResults : Encoding) :
    encResults.source.length = encResults.encoded.toNat := by
  have hle := encResults.encoded_le
  rw [Encoding.source, List.length_take, encResults.length_upper]
  omega

/-- The digits written so far end before the byte that is read next. -/
theorem read_upper (hlower : lower.length = 2000) {n : ℕ} (hn : n < encResults.source.length)
    (hn' : n ≤ 1999) :
    (printed (lower ++ encResults.upper) encResults.source n)[n + 2000]? =
      encResults.source[n]? := by
  have hlen : (lower ++ encResults.upper).length = 4000 := by
    rw [List.length_append, hlower, encResults.length_upper]
  have hbefore : (byteStreamEncode (encResults.source.take n) ++
      terminator (lower ++ encResults.upper) n).length = 2 * n + 1 := by
    rw [List.length_append, length_digits hn.le, length_terminator hlen, mul_comm]
  rw [printed, ← List.append_assoc, List.getElem?_append_right (by omega), hbefore,
    List.getElem?_drop, Nat.add_sub_cancel' (by omega), List.getElem?_append_right (by omega),
    hlower, Nat.add_sub_cancel, Encoding.source,
    List.getElem?_take_of_lt (by rwa [length_source] at hn)]

/-- Without a byte to expand, the text is what stands in the buffer, and where it ends there is
a message. -/
theorem createMsg_of_failed (hid : hasTypeDescriptor msgId = true)
    (hfailed : encResults.encoded < 0) :
    createMsg now lower encResults msgId flags ≠ some none := by
  rw [createMsg, if_pos hid, if_neg hfailed.ne, Int.toNat_of_nonpos hfailed.le, printBytes]
  cases htext : stringIn (lower ++ encResults.upper) with
  | none => simp [htext]
  | some text =>
    obtain ⟨msg, hmsg, -⟩ := payloadMessage_eq now flags hid text
    simp [htext, hmsg]

theorem createMsg_of_fits (now : BitVec 64) (flags : BitVec 32) (hlower : lower.length = 2000) (hid : hasTypeDescriptor msgId = true)
    (hpos : 0 < encResults.encoded) (hfits : encResults.encoded ≤ 1999) :
    ∃ msg, createMsg now lower encResults msgId flags = some (some msg) ∧
      msg.payload = some (.string (byteStreamEncode encResults.source)) := by
  have hlen : (lower ++ encResults.upper).length = 4000 := by
    rw [List.length_append, hlower, encResults.length_upper]
  have hcount := length_source encResults
  have hloop := printBytes_printed (fun buf i => buf[i + 2000]?) hlen
    (fun n hn hn' => read_upper hlower hn hn') hcount.ge (by omega)
  have htext := stringIn_printed (lower ++ encResults.upper) encResults.source
    (n := encResults.encoded.toNat) (by omega)
  rw [List.take_of_length_le hcount.le] at htext
  obtain ⟨msg, hmsg, hpayload⟩ := payloadMessage_eq now flags hid
    (byteStreamEncode encResults.source)
  refine ⟨msg, ?_, hpayload⟩
  rw [createMsg, if_pos hid, if_neg hpos.ne', hloop]
  simp [htext, hmsg]

theorem createMsg_of_full (hlower : lower.length = 2000) (hid : hasTypeDescriptor msgId = true)
    (hfull : encResults.encoded = 2000) : createMsg now lower encResults msgId flags = none := by
  have hlen : (lower ++ encResults.upper).length = 4000 := by
    rw [List.length_append, hlower, encResults.length_upper]
  have hcount := length_source encResults
  have hloop := printBytes_outside (fun buf i => buf[i + 2000]?) hlen
    (show 2000 ≤ encResults.source.length by omega) (fun n hn hn' => read_upper hlower hn hn')
    (n := encResults.encoded.toNat) (by omega)
  rw [createMsg, if_pos hid, if_neg (by omega), hloop, Option.bind_eq_bind, Option.bind_none]

/-- A message in the lower half has the digits of the bytes in the upper half, for every length
but the full one. A failed encoding never gives `NULL`. -/
theorem createMsg_expands_iff (now : BitVec 64) (lower : Bytes) (encResults : Encoding)
    (msgId : UInt8) (flags : BitVec 32) (hlower : lower.length = 2000)
    (hid : hasTypeDescriptor msgId = true) :
    (∃ results, createMsg now lower encResults msgId flags = some results ∧
      (encResults.encoded < 0 → results = none) ∧
      (0 < encResults.encoded → ∃ msg, results = some msg ∧ msg.payload =
        some (.string (byteStreamEncode
          (encResults.upper.take encResults.encoded.toNat))))) ↔
      0 ≤ encResults.encoded ∧ encResults.encoded ≠ 2000 := by
  have hle := encResults.encoded_le
  constructor
  · rintro ⟨results, hcreate, hfailed, -⟩
    constructor
    · by_contra hneg
      rw [hfailed (not_le.mp hneg)] at hcreate
      exact createMsg_of_failed hid (not_le.mp hneg) hcreate
    · intro hfull
      rw [createMsg_of_full hlower hid hfull] at hcreate
      simp at hcreate
  · rintro ⟨hnonneg, hfull⟩
    rcases hnonneg.eq_or_lt with hzero | hpos
    · refine ⟨none, ?_, fun _ => rfl, fun hpos => absurd hzero hpos.ne⟩
      rw [createMsg, if_pos hid, if_pos hzero.symm]
    · obtain ⟨msg, hcreate, hpayload⟩ := createMsg_of_fits now flags hlower hid
        hpos (by omega)
      exact ⟨some msg, hcreate, fun hneg => absurd hpos hneg.not_gt,
        fun _ => ⟨msg, rfl, hpayload⟩⟩

/-- Three bytes of a message. -/
def sampleEncoding : Encoding where
  upper := [0x30, 0x81, 0x0a] ++ List.replicate 1997 0
  encoded := 3
  length_upper := by rw [List.length_append, List.length_replicate]; rfl
  encoded_le := by decide

theorem createMsg_expands_iff_sampleEncoding :
    ∃ results, createMsg 0 (List.replicate 2000 0) sampleEncoding DSRCmsgID_mapData 0 =
        some results ∧
      (sampleEncoding.encoded < 0 → results = none) ∧
      (0 < sampleEncoding.encoded → ∃ msg, results = some msg ∧ msg.payload =
        some (.string (byteStreamEncode
          (sampleEncoding.upper.take sampleEncoding.encoded.toNat)))) :=
  (createMsg_expands_iff 0 (List.replicate 2000 0) sampleEncoding DSRCmsgID_mapData 0
    List.length_replicate (by decide)).mpr (by decide)

/-- An encoder that fails at once, in a buffer of zeros. -/
def failedEncoding : Encoding where
  upper := List.replicate 2000 0
  encoded := -1
  length_upper := List.length_replicate
  encoded_le := by decide

theorem createMsg_failedEncoding :
    ∃ msg, createMsg 0 (List.replicate 2000 0) failedEncoding DSRCmsgID_mapData 0 =
      some (some msg) := by
  have hid : hasTypeDescriptor DSRCmsgID_mapData = true := by decide
  have hzero : (0 : UInt8) ∈ List.replicate 2000 0 ++ failedEncoding.upper :=
    List.mem_append_left _ (List.mem_replicate.mpr ⟨by decide, rfl⟩)
  have htext : stringIn (List.replicate 2000 0 ++ failedEncoding.upper) =
      some (cstringAt (List.replicate 2000 0 ++ failedEncoding.upper)) := if_pos hzero
  obtain ⟨msg, hmsg, -⟩ := payloadMessage_eq 0 0 hid
    (cstringAt (List.replicate 2000 0 ++ failedEncoding.upper))
  have hrounds : failedEncoding.encoded.toNat = 0 := by decide
  refine ⟨msg, ?_⟩
  rw [createMsg, if_pos hid, if_neg (by decide), hrounds, printBytes, Option.bind_eq_bind,
    Option.bind_some, htext, Option.bind_eq_bind, Option.bind_some, hmsg]
  rfl

end InPlace

section RoundTrip
variable {now : BitVec 64} {buf msg : Bytes} {flags : BitVec 32} {id : UInt8}

theorem findMarker_at_end {fuel : ℕ} {i : BitVec 16} (h : msg.length ≤ i.toNat + 1)
    (hfuel : 0 < fuel) : findMarker msg fuel i = some i := by
  obtain ⟨fuel, rfl⟩ := Nat.exists_eq_succ_of_ne_zero hfuel.ne'
  exact if_neg (not_lt.mpr h)

/-- A message with a known identifier has bytes. -/
theorem ne_nil_of_known (hid : getMsgIdFromRaw msg = some id)
    (hknown : (getMessageSubTypeFromMsgId id).isSome) : msg ≠ [] := by
  rintro rfl
  have hreserved : getMsgIdFromRaw [] = some DSRCmsgID_reserved := by
    rw [getMsgIdFromRaw, findMarker_at_end (Nat.zero_le _) (by norm_num)]
    rfl
  obtain rfl := Option.some.inj (hid.symm.trans hreserved)
  exact absurd hknown (by decide)

/-- Two digits are scanned as the byte that they were printed from. -/
theorem scanByte_digits (byte : UInt8) (rest : Bytes) :
    scanByte (byteStreamEncode (byte :: rest)) = byte := by
  have hlt := byte.toNat_lt
  have hhigh : byte.toNat / 16 < 16 := by omega
  have hspace : ¬ isSpace (Location.hexDigit (byte.toNat / 16)) = true := by
    have hall : ∀ n < 16, ¬ isSpace (Location.hexDigit n) = true := by decide
    exact hall _ hhigh
  have hpair := strtoulBuf_digits (digitValue_hexDigit hhigh)
    (digitValue_hexDigit (show byte.toNat % 16 < 16 by omega))
  rw [scanByte, byteStreamEncode, List.flatMap_cons, List.cons_append, List.cons_append,
    List.dropWhile_cons_of_neg hspace, List.take_succ_cons, List.take_succ_cons, List.take_zero,
    hpair, Nat.div_add_mod, UInt8.ofNat_toNat]

theorem scanBytes_digits (msg : Bytes) :
    ((List.range msg.length).map fun i => scanByte ((byteStreamEncode msg).drop (2 * i))) =
      msg := by
  refine List.ext_getElem (by simp) fun i hi hi' => ?_
  rw [List.getElem_map, List.getElem_range, ← byteStreamEncode_drop,
    List.drop_eq_getElem_cons hi', scanByte_digits]

/-- The reader takes a message with the digits of these bytes and the subtype of their
identifier. -/
theorem getJ2735EncodedMsg_digits {m : IvpMessage} (hid : getMsgIdFromRaw msg = some id)
    (hm : payloadMessage now flags id (byteStreamEncode msg) = some m) :
    getJ2735EncodedMsg m = some (some ⟨msg, msg.length, id⟩) := by
  obtain ⟨subtype, hsubtype, rfl⟩ := Option.map_eq_some_iff.mp hm
  obtain ⟨hback, hne⟩ := getMsgIdFromMessageSubType_eq hsubtype
  have hcount : (byteStreamEncode msg).length / 2 = msg.length := by
    rw [byteStreamEncode_length]
    omega
  simp only [getJ2735EncodedMsg, IvpMessage.create, Option.bind_eq_bind, Option.bind_some, hback,
    if_neg hne, hcount, scanBytes_digits, hid, if_true]

/-- An encoded message with a known identifier comes back as it was, if it has less than 2000
bytes. The digits of a longer one do not fit in the buffer. -/
theorem getJ2735EncodedMsg_createMsgFromEncoded_iff (now : BitVec 64) (buf msg : Bytes)
    (flags : BitVec 32) (id : UInt8) (hbuf : buf.length = 4000)
    (hid : getMsgIdFromRaw msg = some id) (hknown : (getMessageSubTypeFromMsgId id).isSome) :
    (∃ m, createMsgFromEncoded now buf msg flags = some (some m) ∧
      getJ2735EncodedMsg m = some (some ⟨msg, msg.length, id⟩)) ↔ msg.length ≤ 1999 := by
  have hread : ∀ n < msg.length, n ≤ 1999 →
      (fun (_ : Bytes) i => msg[i]?) (printed buf msg n) n = msg[n]? := fun _ _ _ => rfl
  constructor
  · rintro ⟨m, hcreate, -⟩
    by_contra hlong
    have hloop := printBytes_outside (fun _ i => msg[i]?) hbuf (by omega) hread
      (n := msg.length) (by omega)
    rw [createMsgFromEncoded, hloop, Option.bind_eq_bind, Option.bind_none] at hcreate
    simp at hcreate
  · intro hfits
    have hlen : msg.length ≠ 0 := by simpa using ne_nil_of_known hid hknown
    have hloop := printBytes_printed (fun _ i => msg[i]?) hbuf hread le_rfl hfits
    have htext := stringIn_printed buf msg hlen
    rw [List.take_length] at htext
    obtain ⟨subtype, hsubtype⟩ := Option.isSome_iff_exists.mp hknown
    have hne := (getMsgIdFromMessageSubType_eq hsubtype).2
    have hm : payloadMessage now flags id (byteStreamEncode msg) = some (.create now
        (some IVPMSG_TYPE_J2735) (some subtype) (some IVP_ENCODING_ASN1_BER) flags
        (some (.string (byteStreamEncode msg)))) := by
      rw [payloadMessage, hsubtype, Option.map_some]
    refine ⟨_, ?_, getJ2735EncodedMsg_digits hid hm⟩
    simp [createMsgFromEncoded, hloop, htext, hid, hne, hm]

/-- The identifier of a message whose header has two bytes, whatever follows. -/
theorem getMsgIdFromRaw_short_header (a b id : UInt8) (rest : Bytes) :
    getMsgIdFromRaw (a :: b :: 128 :: 1 :: id :: rest) = some id := by
  obtain ⟨fuel, hfuel⟩ : ∃ fuel, 2 ^ 16 = fuel + 1 := ⟨65535, rfl⟩
  have htwo : (2 : BitVec 16).toNat = 2 := rfl
  have hfound : findMarker (a :: b :: 128 :: 1 :: id :: rest) (2 ^ 16) 2 = some 2 := by
    rw [hfuel, findMarker, htwo, if_pos (by simp), if_pos ⟨rfl, rfl⟩]
  rw [getMsgIdFromRaw, hfound, Option.map_some, htwo, if_pos ⟨by decide, by simp⟩]
  rfl

/-- A map message with nothing behind its identifier. -/
def sampleEncoded : Bytes := [0x30, 0x05, 128, 1, 7]

theorem getJ2735EncodedMsg_createMsgFromEncoded_iff_sampleEncoded :
    ∃ m, createMsgFromEncoded 0 (List.replicate 4000 0) sampleEncoded 0 = some (some m) ∧
      getJ2735EncodedMsg m = some (some ⟨sampleEncoded, sampleEncoded.length, 7⟩) :=
  (getJ2735EncodedMsg_createMsgFromEncoded_iff 0 (List.replicate 4000 0) sampleEncoded 0 7
    List.length_replicate (getMsgIdFromRaw_short_header 0x30 0x05 7 []) (by decide)).mpr
    (by decide)

/-- With 2000 bytes the message is not created. -/
theorem createMsgFromEncoded_long :
    getMsgIdFromRaw (sampleEncoded ++ List.replicate 1995 0) = some 7 ∧
      createMsgFromEncoded 0 (List.replicate 4000 0) (sampleEncoded ++ List.replicate 1995 0) 0 =
        none := by
  have hlen : (sampleEncoded ++ List.replicate 1995 0).length = 2000 := by
    rw [List.length_append, List.length_replicate]
    rfl
  have hloop := printBytes_outside
    (fun _ i => (sampleEncoded ++ List.replicate 1995 0)[i]?)
    (@List.length_replicate _ 4000 0) hlen.ge (fun _ _ _ => rfl)
    (n := (sampleEncoded ++ List.replicate 1995 0).length) hlen.ge
  constructor
  · exact getMsgIdFromRaw_short_header 0x30 0x05 7 _
  · rw [createMsgFromEncoded, hloop, Option.bind_eq_bind, Option.bind_none]

end RoundTrip

end V2IHub.Messages.IvpJ2735
