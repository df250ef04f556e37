import V2IHub.Rtcm.Accepted

/-! The classes of RTCM messages: the two that know their payload, and what the factory makes. -/
namespace V2IHub.Rtcm
open Foundation

/-- `RTCM_VERSION`; its `UNKNOWN` is `none` where there may be one. -/
inductive RtcmVersion where
  | SC10402_3
  | SC10403_3
deriving DecidableEq

/-- How a call may not return: a loop needs more passes, an exception is not caught, or words are
erased that are not there. -/
inductive Failure where
  | unfinished
  | exception
  | undefined
deriving DecidableEq

/-- A call with an exception that its caller does not catch. -/
def orThrow {α : Type} : Option α → Except Failure α
  | none => .error .exception
  | some a => .ok a

/-- `RTCM2GPSSpecialMessage` -/
structure GpsSpecialMessage where
  base : Rtcm2Message
  specialMessage : Bytes
deriving DecidableEq

namespace GpsSpecialMessage

def frameID : ℕ := 16

def new : GpsSpecialMessage where
  base := { Rtcm2Message.new with
    header := { Rtcm2Message.new.header with frameID := frameID }
    storage_version := Rtcm2Message.new.storage_version + 1 }
  specialMessage := []

/-- The three characters of a word; the last two are not taken if they are zero. -/
def wordText (word : ℕ) : Bytes :=
  let c := fun n => UInt8.ofNat (word >>> 6 >>> (8 * (2 - n)) % 256)
  c 0 :: [c 1, c 2].filter (· ≠ 0)

/-- The text of the words, if the parity of each is right. -/
def readText : ℕ → List ℕ → Option Bytes
  | _, [] => some []
  | prevWord, word :: words =>
    if checkParity word prevWord then (readText word words).map (wordText word ++ ·) else none

def setContents (m : GpsSpecialMessage) (input : Bytes) : GpsSpecialMessage :=
  let base := m.base.setContents input
  match readText base.header.parity2 base.data with
  | none => { m with base := base.invalidate }
  | some theMessage => ⟨{ base with storage_version := base.storage_version + 1 }, theMessage⟩

end GpsSpecialMessage

/-- `RTCM3AntennaDescriptorMessage` -/
structure AntennaDescriptorMessage where
  base : Rtcm3Message
  descriptorCounter : ℕ
  antennaDescriptor : Bytes
  setupID : ℕ
deriving DecidableEq

namespace AntennaDescriptorMessage

def messageNumber : ℕ := 1007

def new : AntennaDescriptorMessage := ⟨.new, 0, [], 0⟩

/-- An attribute of one word is taken off the buffer, outside of any `try`. -/
def assignByte (data : List ℕ) : Except Failure (ℕ × List ℕ) :=
  match rtcm3Format.assignData data [8] with
  | some ([value], data) => .ok (value, data)
  | _ => .error .exception

/-- `set_contents` behind the one of the base class. -/
def readDescriptor (base : Rtcm3Message) : Except Failure AntennaDescriptorMessage := do
  let (counter, data) ← assignByte base.data
  let antDesc := (List.range counter).map fun i => UInt8.ofNat (WordFormat.getData data i)
  if data.length < counter then .error .undefined
  else
    let (setupID, data) ← assignByte (data.drop counter)
    .ok ⟨{ base with data := data }, counter, antDesc, setupID⟩

def setContents (fuel : ℕ) (m : AntennaDescriptorMessage) (input : Bytes) :
    Except Failure AntennaDescriptorMessage :=
  match m.base.setContents fuel input with
  | none => .error .unfinished
  | some base => readDescriptor base

/-- `get_contents` rebuilds the buffer by appending to it. -/
def rebuild (m : AntennaDescriptorMessage) : AntennaDescriptorMessage :=
  let data := rtcm3Format.loadData m.base.data
    (rtcm3Format.extractData [(8, m.descriptorCounter)]) 1
  let bytes := m.antennaDescriptor ++ rtcm3Format.extractData [(8, m.setupID)]
  { m with base := { m.base with data := rtcm3Format.loadData data bytes bytes.length } }

def getContents (m : AntennaDescriptorMessage) : Option Bytes := m.rebuild.base.getContents

def isValid (m : AntennaDescriptorMessage) : Bool := m.rebuild.base.isValid

/-- The message after a call of `is_Valid`. -/
def afterIsValid (m : AntennaDescriptorMessage) : AntennaDescriptorMessage :=
  if m.base.valid then m.rebuild else m

end AntennaDescriptorMessage

/-- A message of one of the classes. -/
inductive TmxRtcmMessage where
  | rtcm2 (m : Rtcm2Message)
  | gpsSpecial (m : GpsSpecialMessage)
  | rtcm3 (m : Rtcm3Message)
  | antennaDescriptor (m : AntennaDescriptorMessage)
deriving DecidableEq

namespace TmxRtcmMessage

/-- `RtcmMessageFactory::create` -/
def create : RtcmVersion → ℕ → TmxRtcmMessage
  | .SC10402_3, type => if type = GpsSpecialMessage.frameID then .gpsSpecial .new else .rtcm2 .new
  | .SC10403_3, type =>
    if type = AntennaDescriptorMessage.messageNumber then .antennaDescriptor .new else .rtcm3 .new

def setContents (fuel : ℕ) : TmxRtcmMessage → Bytes → Except Failure TmxRtcmMessage
  | .rtcm2 m, input => .ok (.rtcm2 (m.setContents input))
  | .gpsSpecial m, input => .ok (.gpsSpecial (m.setContents input))
  | .rtcm3 m, input =>
    match m.setContents fuel input with
    | none => .error .unfinished
    | some m => .ok (.rtcm3 m)
  | .antennaDescriptor m, input => do
    let m ← m.setContents fuel input
    .ok (.antennaDescriptor m)

def isValid : TmxRtcmMessage → Bool
  | .rtcm2 m => m.isValid
  | .gpsSpecial m => m.base.isValid
  | .rtcm3 m => m.isValid
  | .antennaDescriptor m => m.isValid

/-- A call of `is_Valid` leaves the other classes as they were, up to cached header words. -/
def afterIsValid : TmxRtcmMessage → TmxRtcmMessage
  | .antennaDescriptor m => .antennaDescriptor m.afterIsValid
  | m => m

def getContents : TmxRtcmMessage → Except Failure Bytes
  | .rtcm2 m => .ok m.getContents
  | .gpsSpecial m => .ok m.base.getContents
  | .rtcm3 m => orThrow m.getContents
  | .antennaDescriptor m => orThrow m.getContents

def size : TmxRtcmMessage → ℕ
  | .rtcm2 m => m.size
  | .gpsSpecial m => m.base.size
  | .rtcm3 m => m.size
  | .antennaDescriptor m => m.base.size

def getVersion : TmxRtcmMessage → RtcmVersion
  | .rtcm2 _ | .gpsSpecial _ => .SC10402_3
  | .rtcm3 _ | .antennaDescriptor _ => .SC10403_3

def getMessageType : TmxRtcmMessage → ℕ
  | .rtcm2 m => m.header.frameID
  | .gpsSpecial m => m.base.header.frameID
  | .rtcm3 m => m.messageNumber
  | .antennaDescriptor m => m.base.messageNumber

end TmxRtcmMessage

namespace Frame3
variable (F : Frame3)

/-- The number of characters of an antenna descriptor. -/
def counter : ℕ := (F.payload.getD 3 0).toNat

/-- The frame with the rest of the payload in front of the descriptor. -/
def turned : Frame3 where
  high := F.high
  low := F.low
  payload := F.payload.take 3 ++ ((F.payload.drop 3).drop (F.counter + 2) ++
    (F.payload.drop 3).take (F.counter + 2))
  length_eq := by
    have hge := F.length_ge
    rw [← F.length_eq]
    simp only [List.length_append, List.length_take, List.length_drop]
    omega
  length_ge := by
    have hge := F.length_ge
    simp only [List.length_append, List.length_take, List.length_drop]
    omega

/-- What `get_contents` is of a message that the factory makes for the frame. -/
def contents : Except Failure Bytes :=
  if F.messageNumber ≠ AntennaDescriptorMessage.messageNumber then .ok F.bytes
  else if F.payload.length = 3 then .error .exception
  else if F.payload.length < F.counter + 4 then .error .undefined
  else if F.payload.length = F.counter + 4 then .error .exception
  else if F.turned.crc = F.crc then .ok F.turned.bytes else .ok F.bytes

theorem turned_length : F.turned.payload.length = F.payload.length := by
  rw [F.turned.length_eq, F.length_eq]
  rfl

theorem turned_drop : F.turned.payload.drop 3 =
    (F.payload.drop 3).drop (F.counter + 2) ++ (F.payload.drop 3).take (F.counter + 2) := by
  have hlen : (F.payload.take 3).length = 3 := by
    have hge := F.length_ge
    rw [List.length_take]
    omega
  exact List.drop_left' hlen

theorem turned_numbers :
    F.turned.messageNumber = F.messageNumber ∧ F.turned.stationID = F.stationID := by
  obtain ⟨a, b, c, tail, hpayload⟩ := F.payload_cons
  have hturned : F.turned.payload =
      F.payload.take 3 ++ ((F.payload.drop 3).drop (F.counter + 2) ++
        (F.payload.drop 3).take (F.counter + 2)) := rfl
  simp only [messageNumber, stationID, hturned, hpayload]
  exact ⟨rfl, rfl⟩

end Frame3

namespace AntennaDescriptorMessage

theorem assignByte_cons (byte : UInt8) (data : List ℕ) :
    assignByte (byte.toNat :: data) = .ok (byte.toNat, data) := by
  have h := rtcm3_assignData [byte] data [8] rfl (by decide)
  have hbyte := byte.toNat_lt
  simp only [unpackFields, packWords, packFields, List.map_cons, List.map_nil, List.sum_nil,
    List.cons_append, List.nil_append] at h
  rw [assignByte, h]
  norm_num

theorem extractData_byte (byte : UInt8) : rtcm3Format.extractData [(8, byte.toNat)] = [byte] := by
  have h := rtcm3_extractData [byte] [8] rfl (by decide)
  have hbyte := byte.toNat_lt
  have hlt : byte.toNat < 256 := hbyte
  simpa [unpackFields, packWords, packFields, Nat.mod_eq_of_lt hlt] using h

/-- The buffer grows by the attributes. -/
theorem rebuild_eq (base : Rtcm3Message) (counter : UInt8) (descriptor : Bytes) (setup : UInt8) :
    rebuild ⟨base, counter.toNat, descriptor, setup.toNat⟩ = ⟨{ base with
      data := base.data ++ (counter :: (descriptor ++ [setup])).map UInt8.toNat },
      counter.toNat, descriptor, setup.toNat⟩ := by
  have hcounter := rtcm3_loadData base.data [counter] []
  have hrest := rtcm3_loadData (base.data ++ [counter].map UInt8.toNat) (descriptor ++ [setup]) []
  rw [List.append_nil] at hcounter hrest
  simp only [rebuild, extractData_byte]
  rw [List.length_singleton] at hcounter
  rw [hcounter, hrest, List.append_assoc]
  rfl

section Decode
variable (F : Frame3) (fuel : ℕ)

theorem setContents_bytes :
    new.setContents (fuel + 1) F.bytes =
      readDescriptor (F.decoded (F.payload ++ bigEndian 3 F.crc)) := by
  have hbase : new.base = .new := rfl
  rw [setContents, hbase, F.setContents_bytes fuel]

end Decode

section Descriptor
variable {F : Frame3} {base : Rtcm3Message} (hdata : base.data = (F.payload.drop 3).map UInt8.toNat)

theorem payload_drop (h : F.payload.length ≠ 3) :
    ∃ c tail, F.payload.drop 3 = c :: tail ∧ c.toNat = F.counter ∧
      F.payload.length = tail.length + 4 := by
  obtain ⟨a, b, c, tail, hpayload⟩ := F.payload_cons
  cases tail with
  | nil => simp [hpayload] at h
  | cons byte tail =>
    refine ⟨byte, tail, ?_, ?_, ?_⟩
    · rw [hpayload]
      rfl
    · simp [Frame3.counter, hpayload]
    · simp [hpayload]

include hdata

theorem readDescriptor_short (h : F.payload.length = 3) :
    readDescriptor base = .error .exception := by
  have hdrop : F.payload.drop 3 = [] := List.drop_of_length_le h.le
  rw [readDescriptor, hdata, hdrop]
  rfl

theorem readDescriptor_undefined (h : F.payload.length ≠ 3)
    (hcounter : F.payload.length < F.counter + 4) : readDescriptor base = .error .undefined := by
  obtain ⟨c, tail, hdrop, hc, hlen⟩ := payload_drop h
  have hfew : (tail.map UInt8.toNat).length < c.toNat := by
    rw [List.length_map]
    omega
  rw [readDescriptor, hdata, hdrop, List.map_cons, assignByte_cons]
  exact if_pos hfew

theorem readDescriptor_last (h : F.payload.length ≠ 3)
    (hcounter : F.payload.length = F.counter + 4) : readDescriptor base = .error .exception := by
  obtain ⟨c, tail, hdrop, hc, hlen⟩ := payload_drop h
  have hfew : ¬ (tail.map UInt8.toNat).length < c.toNat := by
    rw [List.length_map]
    omega
  have hnone : (tail.map UInt8.toNat).drop c.toNat = [] := by
    apply List.drop_of_length_le
    rw [List.length_map]
    omega
  rw [readDescriptor, hdata, hdrop, List.map_cons, assignByte_cons]
  refine (if_neg hfew).trans ?_
  rw [hnone]
  rfl

/-- A descriptor that is there. -/
theorem readDescriptor_whole (h : F.counter + 5 ≤ F.payload.length) :
    ∃ (c : UInt8) (descriptor : Bytes) (s : UInt8) (left : Bytes),
      F.payload.drop 3 = c :: (descriptor ++ [s]) ++ left ∧ descriptor.length = F.counter ∧
      readDescriptor base = .ok ⟨{ base with data := left.map UInt8.toNat }, c.toNat, descriptor,
        s.toNat⟩ := by
  obtain ⟨c, tail, hdrop, hc, hlen⟩ := payload_drop (F := F) (by omega)
  have hlt : c.toNat < tail.length := by omega
  have hfew : ¬ (tail.map UInt8.toNat).length < c.toNat := by
    rw [List.length_map]
    omega
  have htail : tail.drop c.toNat = tail[c.toNat] :: tail.drop (c.toNat + 1) :=
    List.drop_eq_getElem_cons hlt
  have hdescriptor : (List.range c.toNat).map
      (fun i => UInt8.ofNat (WordFormat.getData (tail.map UInt8.toNat) i)) = tail.take c.toNat := by
    have hwords : (List.range c.toNat).map (WordFormat.getData (tail.map UInt8.toNat)) =
        (tail.map UInt8.toNat).take c.toNat := WordFormat.map_getData (Nat.le_of_not_lt hfew)
    have hbytes := congrArg (List.map UInt8.ofNat) hwords
    rw [List.map_map, ← List.map_take, List.map_map] at hbytes
    exact hbytes.trans
      ((List.map_congr_left fun byte _ => UInt8.ofNat_toNat).trans (List.map_id' _))
  refine ⟨c, tail.take c.toNat, tail[c.toNat], tail.drop (c.toNat + 1), ?_, ?_, ?_⟩
  · rw [hdrop, List.cons_append, List.append_assoc, List.singleton_append, ← htail,
      List.take_append_drop]
  · rw [List.length_take, hc]
    omega
  · rw [readDescriptor, hdata, hdrop, List.map_cons, assignByte_cons]
    refine (if_neg hfew).trans ?_
    rw [← List.map_drop, htail, List.map_cons, assignByte_cons, hdescriptor]
    rfl

end Descriptor

section Contents
variable {F : Frame3} (fuel : ℕ)

/-- A message with the descriptor of the frame has the words of the frame in another order. -/
theorem rebuild_base {c s : UInt8} {descriptor left : Bytes} (bytes : Bytes)
    (hdrop : F.payload.drop 3 = c :: (descriptor ++ [s]) ++ left)
    (hlen : descriptor.length = F.counter) (words : List ℕ) :
    { F.decoded bytes with
        data := left.map UInt8.toNat ++ (c :: (descriptor ++ [s])).map UInt8.toNat ++ words } =
      { F.turned.decoded bytes with
        crc := F.crc
        data := (F.turned.payload.drop 3).map UInt8.toNat ++ words } := by
  have hfront : (c :: (descriptor ++ [s])).length = F.counter + 2 := by simp [hlen]
  have hturned : F.turned.payload.drop 3 = left ++ c :: (descriptor ++ [s]) := by
    rw [F.turned_drop, hdrop, List.drop_left' hfront, List.take_left' hfront]
  have hlength := F.turned_length
  obtain ⟨hnumber, hstation⟩ := F.turned_numbers
  simp only [Frame3.decoded, hlength, hnumber, hstation, hturned, List.map_append]
  rfl

/-- What the class makes of a frame with a whole descriptor. -/
theorem setContents_whole (h : F.counter + 5 ≤ F.payload.length) :
    ∃ m, new.setContents (fuel + 1) F.bytes = .ok m ∧ m.base.size = F.bytes.length ∧
      m.isValid = decide (F.crc = F.turned.crc) ∧
      m.afterIsValid.getContents = some (F.turned.body ++ bigEndian 3 F.crc) := by
  let bytes := F.payload ++ bigEndian 3 F.crc
  have hdata : (F.decoded bytes).data = (F.payload.drop 3).map UInt8.toNat := rfl
  obtain ⟨c, descriptor, s, left, hdrop, hlen, hread⟩ := readDescriptor_whole hdata h
  let m : AntennaDescriptorMessage :=
    ⟨{ F.decoded bytes with data := left.map UInt8.toNat }, c.toNat, descriptor, s.toNat⟩
  have hafter : m.afterIsValid = m.rebuild := if_pos rfl
  have hsize : Rtcm3Message.headerBytes + Rtcm3Message.crcBytes + F.payload.length =
      F.bytes.length := by
    rw [F.bytes_length]
    simp only [Rtcm3Message.headerBytes, Rtcm3Message.crcBytes]
    omega
  refine ⟨m, (setContents_bytes F fuel).trans hread, hsize, ?_, ?_⟩
  · have hbase := rebuild_base bytes hdrop hlen []
    rw [isValid, rebuild_eq]
    simp only [List.append_nil] at hbase ⊢
    rw [hbase]
    exact F.turned.isValid_eq bytes F.crc_lt
  · rw [getContents, hafter, rebuild_eq, rebuild_eq]
    simp only
    rw [rebuild_base bytes hdrop hlen]
    exact F.turned.getContents_append bytes _ F.crc_lt

end Contents

theorem afterIsValid_size (m : AntennaDescriptorMessage) :
    m.afterIsValid.base.size = m.base.size := by
  rw [afterIsValid]
  split_ifs <;> rfl

end AntennaDescriptorMessage

namespace GpsSpecialMessage
variable {F : Frame2}

/-- What the class makes of a frame has its bytes, if the text is right. -/
theorem setContents_frame (hvalid : (new.setContents F.bytes).base.isValid = true) :
    (new.setContents F.bytes).base.getContents = F.bytes ∧
      (new.setContents F.bytes).base.size = F.bytes.length := by
  have hfresh : Frame2.Fresh new.base := ⟨rfl, rfl, rfl, by decide⟩
  rw [setContents, F.setContents_bytes hfresh] at hvalid ⊢
  cases htext : readText (F.decoded _ _).header.parity2 (F.decoded _ _).data with
  | none =>
    rw [htext] at hvalid
    simp [Rtcm2Message.isValid, Rtcm2Message.invalidate] at hvalid
  | some text =>
    constructor
    · apply F.getContents_of_header rfl rfl
      rw [Rtcm2Message.refresh_eq F.word1_lt F.word2_lt rfl]
      simp [Frame2.decoded]
    · exact F.size_decoded [] 0

end GpsSpecialMessage

end V2IHub.Rtcm
