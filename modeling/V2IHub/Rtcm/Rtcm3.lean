import V2IHub.Rtcm.Crc24q
import V2IHub.Rtcm.DataManager

/-! RTCM 3 messages: the decoder and the encoder of their frames. -/
namespace V2IHub.Rtcm
open Foundation

def rtcm3Format : WordFormat := ⟨8, 8, 0, 16, by decide, by decide, by decide⟩

/-- The attributes of a message with the words of its data manager. `bytes` is what the last
`set_contents` left of its input. -/
structure Rtcm3Message where
  preamble : ℕ
  reserved : ℕ
  messageLength : ℕ
  messageNumber : ℕ
  referenceStationID : ℕ
  crc : ℕ
  data : List ℕ
  bytes : Bytes
  valid : Bool
deriving DecidableEq

namespace Rtcm3Message

def preambleByte : UInt8 := 0xD3
def headerBytes : ℕ := 3
def crcBytes : ℕ := 3
def attrBytes : ℕ := 3

def new : Rtcm3Message := ⟨preambleByte.toNat, 0, 0, 0, 0, 0, [], [], true⟩

def invalidate (m : Rtcm3Message) : Rtcm3Message := { m with valid := false }

def setMessageNumber (m : Rtcm3Message) (value : ℕ) : Rtcm3Message :=
  { m with messageNumber := value }

def setReferenceStationID (m : Rtcm3Message) (value : ℕ) : Rtcm3Message :=
  { m with referenceStationID := value }

def size (m : Rtcm3Message) : ℕ := headerBytes + crcBytes + m.messageLength

def getParity (m : Rtcm3Message) (bytes : Bytes) : ℕ :=
  crc24qHash bytes (if m.size ≤ bytes.length then m.size - crcBytes else bytes.length)

def checkParity (m : Rtcm3Message) (bytes : Bytes) : Bool :=
  if bytes.length < m.size then false else m.crc = m.getParity bytes

/-- The number of words is a `size_t`. -/
def getContents (m : Rtcm3Message) : Option Bytes :=
  (rtcm3Format.extractAllData m.data ((m.messageLength + 2 ^ 64 - attrBytes) % 2 ^ 64)
    [(8, m.preamble), (6, m.reserved), (10, m.messageLength), (12, m.messageNumber),
      (12, m.referenceStationID)]).map fun bytes => bytes ++ rtcm3Format.extractData [(24, m.crc)]

def isValid (m : Rtcm3Message) : Bool :=
  m.valid && match m.getContents with
    | none => false
    | some data => m.preamble = preambleByte.toNat && m.checkParity data

def validate (m : Rtcm3Message) : Option Rtcm3Message :=
  m.getContents.map fun data => { m with crc := m.getParity data }

/-- `assignData` of bytes. An exception comes with the message at that point. -/
def assignBytes (m : Rtcm3Message) (bytes : Bytes) (sizes : List ℕ) :
    Except Rtcm3Message (List ℕ × Rtcm3Message) :=
  let data := rtcm3Format.loadData m.data bytes (rtcm3Format.countWords sizes)
  match rtcm3Format.assignData data sizes with
  | none => .error { m with data := data }
  | some (values, data) => .ok (values, { m with data := data })

/-- The header is assigned from the front of the buffer. -/
def assignHeader (m : Rtcm3Message) : Except Rtcm3Message Rtcm3Message :=
  match m.assignBytes m.bytes [8, 6, 10] with
  | .ok ([preamble, reserved, messageLength], m) =>
    .ok { m with preamble := preamble, reserved := reserved, messageLength := messageLength }
  | .ok (_, m) => .ok m
  | .error m => .error m

/-- The check sum is assigned from behind the message. -/
def assignCrc (m : Rtcm3Message) (crc : Bytes) : Except Rtcm3Message Rtcm3Message :=
  match m.assignBytes crc [24] with
  | .ok ([crc], m) => .ok { m with crc := crc }
  | .ok (_, m) => .ok m
  | .error m => .error m

/-- The end of `set_contents`, behind the loop. -/
def loadMessage (m : Rtcm3Message) : Rtcm3Message :=
  let bytes := m.bytes.drop headerBytes
  let data := rtcm3Format.loadData m.data bytes m.messageLength
  match rtcm3Format.assignData data [12, 12] with
  | some ([messageNumber, referenceStationID], data) =>
    { m with
      bytes := bytes
      data := data
      messageNumber := messageNumber
      referenceStationID := referenceStationID }
  | _ => { m with bytes := bytes, data := data }.invalidate

/-- The loop of `set_contents`. A try that fails puts a second copy of the check sum into the
buffer, so that the loop need not end. -/
def scan : ℕ → Rtcm3Message → Option Rtcm3Message
  | 0, _ => none
  | fuel + 1, m =>
    let m := { m with bytes := m.bytes.dropWhile (· ≠ preambleByte) }
    if m.bytes.length < headerBytes then some m.invalidate
    else
      match m.assignHeader with
      | .error m => some m.invalidate
      | .ok m =>
        if m.bytes.length < m.messageLength + headerBytes + crcBytes then some m.invalidate
        else
          let start := headerBytes + m.messageLength
          let crc := (m.bytes.drop start).take crcBytes
          match m.assignCrc crc with
          | .error m => some m.invalidate
          | .ok m =>
            if m.preamble = preambleByte.toNat && m.checkParity m.bytes then some m.loadMessage
            else
              scan fuel { m with bytes := (m.bytes.take start ++ crc ++ m.bytes.drop start).tail }

/-- `set_contents`; `none` if the loop does not end within the fuel. -/
def setContents (fuel : ℕ) (m : Rtcm3Message) (input : Bytes) : Option Rtcm3Message :=
  scan fuel { m with bytes := input }

end Rtcm3Message

/-- The bytes of a number, the most significant one first. -/
def bigEndian (n value : ℕ) : Bytes :=
  (unpackFields (List.replicate n 8) value).map UInt8.ofNat

/-- A complete frame: two bytes with six reserved bits and the length, and the payload. The check
sum is given by them. -/
structure Frame3 where
  high : UInt8
  low : UInt8
  payload : Bytes
  length_eq : payload.length = high.toNat % 4 * 256 + low.toNat
  length_ge : 3 ≤ payload.length

namespace Frame3

/-- What the check sum is for. -/
def body (F : Frame3) : Bytes := Rtcm3Message.preambleByte :: F.high :: F.low :: F.payload

def crc (F : Frame3) : ℕ := (crcOf crcPoly F.body).toNat

def bytes (F : Frame3) : Bytes := F.body ++ bigEndian 3 F.crc

/-- The first 12 bits of the payload. -/
def messageNumber (F : Frame3) : ℕ :=
  (F.payload.getD 0 0).toNat * 16 + (F.payload.getD 1 0).toNat / 16

/-- The next 12 bits. -/
def stationID (F : Frame3) : ℕ :=
  (F.payload.getD 1 0).toNat % 16 * 256 + (F.payload.getD 2 0).toNat

/-- The message that a frame decodes to. -/
def decoded (F : Frame3) (bytes : Bytes) : Rtcm3Message where
  preamble := Rtcm3Message.preambleByte.toNat
  reserved := F.high.toNat / 4
  messageLength := F.payload.length
  messageNumber := F.messageNumber
  referenceStationID := F.stationID
  crc := F.crc
  data := (F.payload.drop 3).map UInt8.toNat
  bytes := bytes
  valid := true

end Frame3

section Format

theorem rtcm3_reads : rtcm3Format.Reads := by
  intro byte hbyte
  have hlt : byte < 256 := hbyte
  simp [WordFormat.readByte, WordFormat.wireByte, rtcm3Format, Nat.mod_eq_of_lt hlt]

theorem rtcm3_writeWord (byte : UInt8) : rtcm3Format.writeWord byte.toNat = [byte] := by
  simp [WordFormat.writeWord, WordFormat.wordSize, WordFormat.wireByte, rtcm3Format, splitWord]

theorem rtcm3_writeWords (bytes : Bytes) :
    (bytes.map UInt8.toNat).flatMap rtcm3Format.writeWord = bytes := by
  rw [List.flatMap_map]
  simp only [rtcm3_writeWord, List.flatMap_singleton']

theorem map_toNat_lt (bytes : Bytes) :
    ∀ word ∈ bytes.map UInt8.toNat, word < 2 ^ rtcm3Format.wordBits := by
  intro word hword
  obtain ⟨byte, -, rfl⟩ := List.mem_map.mp hword
  exact byte.toNat_lt

theorem rtcm3_loadData (data : List ℕ) (bytes rest : Bytes) :
    rtcm3Format.loadData data (bytes ++ rest) bytes.length = data ++ bytes.map UInt8.toNat := by
  have h := WordFormat.loadData_writeWord rtcm3_reads data (map_toNat_lt bytes) rest
  rw [rtcm3_writeWords, List.length_map] at h
  exact h

/-- Attributes from bytes. -/
theorem rtcm3_assignData (bytes : Bytes) (rest sizes : List ℕ)
    (hsizes : sizes.sum = bytes.length * 8) (hwidth : sizes.sum ≤ 64) :
    rtcm3Format.assignData (bytes.map UInt8.toNat ++ rest) sizes =
      some (unpackFields sizes (packWords 8 (bytes.map UInt8.toNat)), rest) := by
  apply WordFormat.assignData_eq (map_toNat_lt bytes) _ (by decide) hwidth
  rw [hsizes, List.length_map]
  rfl

/-- Bytes from the attributes that were assigned from them. -/
theorem rtcm3_extractData (bytes : Bytes) (sizes : List ℕ) (hsizes : sizes.sum = bytes.length * 8)
    (hwidth : sizes.sum ≤ 64) :
    rtcm3Format.extractData
      (sizes.zip (unpackFields sizes (packWords 8 (bytes.map UInt8.toNat)))) = bytes := by
  have htotal : sizes.sum = (bytes.map UInt8.toNat).length * rtcm3Format.wordBits := by
    rw [hsizes, List.length_map]
    rfl
  have hwords := WordFormat.extractWords_unpackFields (map_toNat_lt bytes) htotal (by decide) hwidth
  have hbits : rtcm3Format.wordBits = 8 := rfl
  rw [hbits] at hwords
  rw [WordFormat.extractData, hwords, rtcm3_writeWords]

theorem bigEndian_toNat (n value : ℕ) :
    packWords 8 ((bigEndian n value).map UInt8.toNat) = value % 2 ^ (n * 8) := by
  have hmap : (bigEndian n value).map UInt8.toNat = unpackFields (List.replicate n 8) value := by
    rw [bigEndian, List.map_map]
    refine (List.map_congr_left fun word hword => ?_).trans (List.map_id' _)
    exact UInt8.toNat_ofNat_of_lt' (unpackFields_replicate_lt word hword)
  rw [hmap, packWords_unpackFields]

@[simp] theorem bigEndian_length (n value : ℕ) : (bigEndian n value).length = n := by
  simp [bigEndian]

/-- The fields of the header bytes. -/
theorem unpack_header (p h l : UInt8) :
    unpackFields [8, 6, 10] (packWords 8 ([p, h, l].map UInt8.toNat)) =
      [p.toNat, h.toNat / 4, h.toNat % 4 * 256 + l.toNat] := by
  have hp := p.toNat_lt
  have hh := h.toNat_lt
  have hl := l.toNat_lt
  simp only [unpackFields, packWords, packFields, List.map_cons, List.map_nil, List.sum_cons,
    List.sum_nil, List.cons.injEq, and_true]
  norm_num
  omega

theorem unpack_message (a b c : UInt8) :
    unpackFields [12, 12] (packWords 8 ([a, b, c].map UInt8.toNat)) =
      [a.toNat * 16 + b.toNat / 16, b.toNat % 16 * 256 + c.toNat] := by
  have ha := a.toNat_lt
  have hb := b.toNat_lt
  have hc := c.toNat_lt
  simp only [unpackFields, packWords, packFields, List.map_cons, List.map_nil, List.sum_cons,
    List.sum_nil, List.cons.injEq, and_true]
  norm_num
  omega

theorem unpack_all (p h l a b c : UInt8) :
    unpackFields [8, 6, 10, 12, 12] (packWords 8 ([p, h, l, a, b, c].map UInt8.toNat)) =
      [p.toNat, h.toNat / 4, h.toNat % 4 * 256 + l.toNat, a.toNat * 16 + b.toNat / 16,
        b.toNat % 16 * 256 + c.toNat] := by
  have hp := p.toNat_lt
  have hh := h.toNat_lt
  have hl := l.toNat_lt
  have ha := a.toNat_lt
  have hb := b.toNat_lt
  have hc := c.toNat_lt
  simp only [unpackFields, packWords, packFields, List.map_cons, List.map_nil, List.sum_cons,
    List.sum_nil, List.cons.injEq, and_true]
  norm_num
  omega

end Format

namespace Rtcm3Message
variable {m : Rtcm3Message}

theorem assignHeader_eq {p h l : UInt8} {rest : Bytes} (hdata : m.data = [])
    (hbytes : m.bytes = p :: h :: l :: rest) :
    m.assignHeader = .ok { m with
      preamble := p.toNat
      reserved := h.toNat / 4
      messageLength := h.toNat % 4 * 256 + l.toNat } := by
  have hload : rtcm3Format.loadData m.data m.bytes (rtcm3Format.countWords [8, 6, 10]) =
      [p, h, l].map UInt8.toNat ++ [] := by
    rw [hdata, hbytes]
    exact (rtcm3_loadData [] [p, h, l] rest).trans (List.append_nil _).symm
  have hassign := rtcm3_assignData [p, h, l] [] [8, 6, 10] rfl (by decide)
  rw [unpack_header] at hassign
  simp only [assignHeader, assignBytes, hload, hassign]
  rw [hdata]

theorem assignCrc_eq {crc : ℕ} (hdata : m.data = []) (hcrc : crc < 2 ^ 24) :
    m.assignCrc (bigEndian 3 crc) = .ok { m with crc := crc } := by
  have hload : rtcm3Format.loadData m.data (bigEndian 3 crc) (rtcm3Format.countWords [24]) =
      (bigEndian 3 crc).map UInt8.toNat ++ [] := by
    have h := rtcm3_loadData [] (bigEndian 3 crc) []
    rw [bigEndian_length, List.append_nil] at h
    rw [hdata, List.append_nil]
    exact h
  have hassign := rtcm3_assignData (bigEndian 3 crc) [] [24] (by simp) (by decide)
  have hvalue : unpackFields [24] (packWords 8 ((bigEndian 3 crc).map UInt8.toNat)) = [crc] := by
    have hlt : crc < 16777216 := hcrc
    rw [bigEndian_toNat]
    simp [unpackFields, hlt]
  rw [hvalue] at hassign
  simp only [assignCrc, assignBytes, hload, hassign]
  rw [hdata]

end Rtcm3Message

namespace Frame3
variable (F : Frame3) (rest : Bytes)

theorem body_length : F.body.length = F.payload.length + 3 := rfl

theorem bytes_length : F.bytes.length = F.payload.length + 6 := by
  rw [bytes, List.length_append, body_length, bigEndian_length]

theorem bytes_injective {F G : Frame3} (h : F.bytes = G.bytes) : F = G := by
  have hlen : (bigEndian 3 F.crc).length = (bigEndian 3 G.crc).length := by simp
  have hbody : F.body = G.body := (List.append_inj' h hlen).1
  cases F
  cases G
  simp only [body, List.cons.injEq, true_and] at hbody
  obtain ⟨rfl, rfl, rfl⟩ := hbody
  rfl

theorem crc_lt : F.crc < 2 ^ 24 := (crcOf crcPoly F.body).isLt

/-- The payload begins with the two attributes. -/
theorem payload_cons : ∃ a b c tail, F.payload = a :: b :: c :: tail := by
  have h := F.length_ge
  match hp : F.payload with
  | a :: b :: c :: tail => exact ⟨a, b, c, tail, rfl⟩
  | [] | [_] | [_, _] => simp [hp] at h

theorem getParity_eq {m : Rtcm3Message} (hlen : m.messageLength = F.payload.length)
    (tail : Bytes) (htail : 3 ≤ tail.length) : m.getParity (F.body ++ tail) = F.crc := by
  have hsize : m.size ≤ (F.body ++ tail).length := by
    rw [List.length_append, body_length, Rtcm3Message.size, hlen]
    simp only [Rtcm3Message.headerBytes, Rtcm3Message.crcBytes]
    omega
  have hbody : m.size - Rtcm3Message.crcBytes = F.body.length := by
    rw [body_length, Rtcm3Message.size, hlen]
    simp only [Rtcm3Message.headerBytes, Rtcm3Message.crcBytes]
    omega
  rw [Rtcm3Message.getParity, if_pos hsize, hbody, crc24qHash_eq, List.take_left' rfl, crc]

theorem checkParity_eq {m : Rtcm3Message} (hlen : m.messageLength = F.payload.length)
    (hcrc : m.crc = F.crc) {tail : Bytes} (htail : 3 ≤ tail.length) :
    m.checkParity (F.body ++ tail) = true := by
  have hsize : ¬ (F.body ++ tail).length < m.size := by
    rw [List.length_append, body_length, Rtcm3Message.size, hlen]
    simp only [Rtcm3Message.headerBytes, Rtcm3Message.crcBytes]
    omega
  rw [Rtcm3Message.checkParity, if_neg hsize, getParity_eq F hlen tail htail, hcrc]
  simp

/-- The attributes and the data of the message are taken from the payload. -/
theorem loadMessage_eq {m : Rtcm3Message} (hdata : m.data = [])
    (hlen : m.messageLength = F.payload.length) (hbytes : m.bytes = F.bytes ++ rest) :
    m.loadMessage = { m with
      bytes := F.payload ++ (bigEndian 3 F.crc ++ rest)
      data := (F.payload.drop 3).map UInt8.toNat
      messageNumber := F.messageNumber
      referenceStationID := F.stationID } := by
  have hdrop : m.bytes.drop Rtcm3Message.headerBytes =
      F.payload ++ (bigEndian 3 F.crc ++ rest) := by
    rw [hbytes, bytes, List.append_assoc]
    rfl
  obtain ⟨a, b, c, tail, hpayload⟩ := F.payload_cons
  have hload := rtcm3_loadData [] F.payload (bigEndian 3 F.crc ++ rest)
  have hassign := rtcm3_assignData [a, b, c] (tail.map UInt8.toNat) [12, 12] rfl (by decide)
  rw [unpack_message] at hassign
  have hwords : [] ++ F.payload.map UInt8.toNat =
      [a, b, c].map UInt8.toNat ++ tail.map UInt8.toNat := by
    rw [hpayload]
    rfl
  simp only [Rtcm3Message.loadMessage, hdrop, hdata, hlen, hload, hwords, hassign]
  simp [messageNumber, stationID, hpayload]

theorem dropWhile_garbage {garbage : Bytes} (hg : Rtcm3Message.preambleByte ∉ garbage) :
    (garbage ++ (F.bytes ++ rest)).dropWhile (· ≠ Rtcm3Message.preambleByte) = F.bytes ++ rest := by
  rw [List.dropWhile_append_of_pos]
  · rw [bytes, body]
    simp
  · intro byte hbyte
    have hne : byte ≠ Rtcm3Message.preambleByte := fun h => hg (h ▸ hbyte)
    simpa using hne

/-- Behind bytes that cannot start a frame, the decoder finds the frame at once. -/
theorem setContents_eq (fuel : ℕ) {garbage : Bytes} (hg : Rtcm3Message.preambleByte ∉ garbage) :
    Rtcm3Message.setContents (fuel + 1) .new (garbage ++ (F.bytes ++ rest)) =
      some (F.decoded (F.payload ++ (bigEndian 3 F.crc ++ rest))) := by
  have hlen : (F.bytes ++ rest).length = F.payload.length + 6 + rest.length := by
    rw [List.length_append, bytes_length]
  have hstart : Rtcm3Message.headerBytes + F.payload.length = F.body.length := by
    rw [body_length]
    simp only [Rtcm3Message.headerBytes]
    omega
  have hcrc : ((F.bytes ++ rest).drop F.body.length).take Rtcm3Message.crcBytes =
      bigEndian 3 F.crc := by
    rw [bytes, List.append_assoc, List.drop_left' rfl]
    exact List.take_left' (bigEndian_length 3 F.crc)
  let m : Rtcm3Message := { Rtcm3Message.new with bytes := F.bytes ++ rest }
  have hheader : m.assignHeader = .ok { m with
      preamble := Rtcm3Message.preambleByte.toNat
      reserved := F.high.toNat / 4
      messageLength := F.payload.length } := by
    rw [F.length_eq]
    exact Rtcm3Message.assignHeader_eq rfl rfl
  let m₁ : Rtcm3Message := { m with
    preamble := Rtcm3Message.preambleByte.toNat
    reserved := F.high.toNat / 4
    messageLength := F.payload.length }
  have hassign : m₁.assignCrc (bigEndian 3 F.crc) = .ok { m₁ with crc := F.crc } :=
    Rtcm3Message.assignCrc_eq rfl F.crc_lt
  have hparity : Rtcm3Message.checkParity { m₁ with crc := F.crc } (F.bytes ++ rest) = true := by
    rw [bytes, List.append_assoc]
    exact checkParity_eq F rfl rfl (by simp)
  rw [Rtcm3Message.setContents, Rtcm3Message.scan]
  simp only [dropWhile_garbage F rest hg]
  rw [if_neg (by rw [hlen]; simp only [Rtcm3Message.headerBytes]; omega)]
  simp only [m, m₁] at hheader hassign hparity
  simp only [hheader]
  rw [if_neg (by rw [hlen]; simp only [Rtcm3Message.headerBytes, Rtcm3Message.crcBytes]; omega)]
  simp only [hstart, hcrc, hassign, hparity, decide_true, Bool.and_true, if_true]
  rw [loadMessage_eq F rest rfl rfl rfl]
  rfl

theorem setContents_bytes (fuel : ℕ) :
    Rtcm3Message.setContents (fuel + 1) .new F.bytes =
      some (F.decoded (F.payload ++ bigEndian 3 F.crc)) := by
  have hnone : Rtcm3Message.preambleByte ∉ ([] : Bytes) := by simp
  simpa using F.setContents_eq [] fuel hnone

theorem extractData_crc {crc : ℕ} (hcrc : crc < 2 ^ 24) :
    rtcm3Format.extractData [(24, crc)] = bigEndian 3 crc := by
  have hlt : crc < 16777216 := hcrc
  have h := rtcm3_extractData (bigEndian 3 crc) [24] (by simp) (by decide)
  rw [bigEndian_toNat] at h
  simpa [unpackFields, Nat.mod_eq_of_lt hlt] using h

/-- The contents of a message with the attributes of the frame, whatever its check sum and
whatever words follow in its buffer. -/
theorem getContents_append (bytes : Bytes) (words : List ℕ) {crc : ℕ} (hcrc : crc < 2 ^ 24) :
    Rtcm3Message.getContents { F.decoded bytes with
      crc := crc
      data := (F.payload.drop 3).map UInt8.toNat ++ words } =
      some (F.body ++ bigEndian 3 crc) := by
  obtain ⟨a, b, c, tail, hpayload⟩ := F.payload_cons
  have hheader := rtcm3_extractData [Rtcm3Message.preambleByte, F.high, F.low, a, b, c]
    [8, 6, 10, 12, 12] rfl (by decide)
  rw [unpack_all, ← F.length_eq] at hheader
  have hnumber : F.messageNumber = a.toNat * 16 + b.toNat / 16 := by
    simp [messageNumber, hpayload]
  have hstation : F.stationID = b.toNat % 16 * 256 + c.toNat := by simp [stationID, hpayload]
  have hattrs : rtcm3Format.extractData [(8, Rtcm3Message.preambleByte.toNat),
      (6, F.high.toNat / 4), (10, F.payload.length), (12, F.messageNumber), (12, F.stationID)] =
      [Rtcm3Message.preambleByte, F.high, F.low, a, b, c] := by
    rw [hnumber, hstation]
    exact hheader
  have hdata : rtcm3Format.retrieveData ((F.payload.drop 3).map UInt8.toNat ++ words)
      (F.payload.length - 3) = some (F.payload.drop 3) := by
    rw [WordFormat.retrieveData_eq _ (by simp), List.take_left' (by simp), rtcm3_writeWords]
  have hwords : (F.payload.length + 2 ^ 64 - Rtcm3Message.attrBytes) % 2 ^ 64 =
      F.payload.length - 3 := by
    have hge := F.length_ge
    have hlt : F.payload.length < 1024 := by
      have hlow := F.low.toNat_lt
      rw [F.length_eq]
      omega
    simp only [Rtcm3Message.attrBytes]
    omega
  simp only [Rtcm3Message.getContents, WordFormat.extractAllData, decoded, hwords, hdata, hattrs,
    extractData_crc hcrc, Option.map_some]
  rw [body, hpayload]
  rfl

theorem getContents_eq (bytes : Bytes) {crc : ℕ} (hcrc : crc < 2 ^ 24) :
    Rtcm3Message.getContents { F.decoded bytes with crc := crc } =
      some (F.body ++ bigEndian 3 crc) := by
  have h := F.getContents_append bytes [] hcrc
  rw [List.append_nil] at h
  exact h

theorem getContents_decoded (bytes : Bytes) :
    (F.decoded bytes).getContents = some F.bytes :=
  getContents_eq F bytes F.crc_lt

/-- The check sum decides. -/
theorem isValid_eq (bytes : Bytes) {crc : ℕ} (hcrc : crc < 2 ^ 24) :
    Rtcm3Message.isValid { F.decoded bytes with crc := crc } = decide (crc = F.crc) := by
  have hsize : ¬ (F.body ++ bigEndian 3 crc).length <
      Rtcm3Message.size { F.decoded bytes with crc := crc } := by
    rw [List.length_append, body_length, bigEndian_length]
    simp only [Rtcm3Message.size, Rtcm3Message.headerBytes, Rtcm3Message.crcBytes, decoded]
    omega
  have hparity := F.getParity_eq (m := { F.decoded bytes with crc := crc }) rfl (bigEndian 3 crc)
    (by simp)
  simp only [Rtcm3Message.isValid, getContents_eq F bytes hcrc, Rtcm3Message.checkParity,
    if_neg hsize, hparity]
  rfl

theorem isValid_decoded (bytes : Bytes) : (F.decoded bytes).isValid = true := by
  have h := F.isValid_eq bytes F.crc_lt
  rw [decide_eq_true rfl] at h
  exact h

/-- The frame with other attributes. -/
def withNumbers (number station : ℕ) : Frame3 where
  high := F.high
  low := F.low
  payload := bigEndian 3 (number * 2 ^ 12 + station) ++ F.payload.drop 3
  length_eq := by
    have hge := F.length_ge
    rw [List.length_append, bigEndian_length, List.length_drop, ← F.length_eq]
    omega
  length_ge := by
    rw [List.length_append, bigEndian_length]
    omega

theorem bigEndian_three (value : ℕ) :
    bigEndian 3 value = [UInt8.ofNat (value / 65536 % 256), UInt8.ofNat (value / 256 % 256),
      UInt8.ofNat (value % 256)] := by
  simp [bigEndian, unpackFields, List.replicate]

theorem withNumbers_decoded {number station : ℕ} (hn : number < 2 ^ 12) (hs : station < 2 ^ 12)
    (bytes : Bytes) :
    (F.withNumbers number station).decoded bytes = { F.decoded bytes with
      messageNumber := number
      referenceStationID := station
      crc := (F.withNumbers number station).crc } := by
  have hn : number < 4096 := hn
  have hs : station < 4096 := hs
  have hpayload : (F.withNumbers number station).payload =
      bigEndian 3 (number * 4096 + station) ++ F.payload.drop 3 := rfl
  have hlen : (F.withNumbers number station).payload.length = F.payload.length := by
    rw [(F.withNumbers number station).length_eq, F.length_eq]
    rfl
  have hnumber : (F.withNumbers number station).messageNumber = number := by
    rw [messageNumber, hpayload, bigEndian_three]
    simp
    omega
  have hstation : (F.withNumbers number station).stationID = station := by
    rw [stationID, hpayload, bigEndian_three]
    simp
    omega
  have hdata : (F.withNumbers number station).payload.drop 3 = F.payload.drop 3 := by
    rw [hpayload, List.drop_left' (bigEndian_length _ _)]
  simp only [decoded, hlen, hnumber, hstation, hdata]
  rfl

theorem validate_eq {number station : ℕ} (hn : number < 2 ^ 12) (hs : station < 2 ^ 12)
    (bytes : Bytes) :
    (((F.decoded bytes).setMessageNumber number).setReferenceStationID station).validate =
      some ((F.withNumbers number station).decoded bytes) := by
  have hset : ((F.decoded bytes).setMessageNumber number).setReferenceStationID station =
      { (F.withNumbers number station).decoded bytes with crc := F.crc } := by
    rw [withNumbers_decoded F hn hs]
    rfl
  have hparity := getParity_eq (F.withNumbers number station)
    (m := { (F.withNumbers number station).decoded bytes with crc := F.crc }) rfl
    (bigEndian 3 F.crc) (by simp)
  rw [hset, Rtcm3Message.validate, getContents_eq _ _ F.crc_lt, Option.map_some, hparity]
  rfl

end Frame3

/-- Every frame decodes into a valid message with its fields and its bytes, and what is encoded
after a change of the two attributes decodes into a message with these. -/
theorem rtcm3_codec (F : Frame3) (fuel : ℕ) :
    ∃ m, Rtcm3Message.setContents (fuel + 1) .new F.bytes = some m ∧
      m.isValid = true ∧ m.messageNumber = F.messageNumber ∧
      m.referenceStationID = F.stationID ∧ m.getContents = some F.bytes ∧
      ∀ number < 2 ^ 12, ∀ station < 2 ^ 12, ∃ m₁ contents m₂,
        ((m.setMessageNumber number).setReferenceStationID station).validate = some m₁ ∧
        m₁.getContents = some contents ∧
        Rtcm3Message.setContents (fuel + 1) .new contents = some m₂ ∧ m₂.isValid = true ∧
        m₂.messageNumber = number ∧ m₂.referenceStationID = station ∧ m₂.data = m.data ∧
        m₂.getContents = some contents := by
  refine ⟨_, F.setContents_bytes fuel, F.isValid_decoded _, rfl, rfl, F.getContents_decoded _, ?_⟩
  intro number hn station hs
  let G := F.withNumbers number station
  have hfields := F.withNumbers_decoded hn hs (G.payload ++ bigEndian 3 G.crc)
  refine ⟨_, G.bytes, _, F.validate_eq hn hs _, G.getContents_decoded _, G.setContents_bytes fuel,
    G.isValid_decoded _, ?_, ?_, ?_, G.getContents_decoded _⟩
  · simp only [G, hfields]
  · simp only [G, hfields]
  · simp only [G, hfields]
    rfl

end V2IHub.Rtcm
