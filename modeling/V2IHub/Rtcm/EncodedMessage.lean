import Mathlib.Data.List.TakeWhile
import V2IHub.Rtcm.MessageTypes

/-! The message with encoded RTCM messages, and how its container is filled. -/
namespace V2IHub.Rtcm
open Foundation

/-- A frame of a version. -/
inductive Frame : RtcmVersion → Type where
  | rtcm2 (F : Frame2) : Frame .SC10402_3
  | rtcm3 (F : Frame3) : Frame .SC10403_3

/-- The bytes where the decoder of a version looks for a frame. -/
def RtcmVersion.startsFrame : RtcmVersion → UInt8 → Bool
  | .SC10402_3, byte => Rtcm2Message.startsFrame byte
  | .SC10403_3, byte => byte = Rtcm3Message.preambleByte

/-- The name of a version in `RTCM_VERSIONS`. -/
def RtcmVersion.name : RtcmVersion → Bytes
  | .SC10402_3 => cstr "2.3"
  | .SC10403_3 => cstr "3.3"

/-- `RtcmVersion` of a text, which is compared by `strcmp`. -/
def rtcmVersion (version : Bytes) : Option RtcmVersion :=
  if cstringAt version = RtcmVersion.SC10402_3.name then some .SC10402_3
  else if cstringAt version = RtcmVersion.SC10403_3.name then some .SC10403_3
  else none

namespace TmxRtcmMessage

/-- The loop over the versions, from the last one down while it is above `thisVer`. -/
def guess (fuel : ℕ) (thisVer : Option RtcmVersion) (copy : Bytes) :
    Except Failure TmxRtcmMessage :=
  match thisVer with
  | some v => (create v 0).setContents fuel copy
  | none => do
    let ptr ← (create .SC10403_3 0).setContents fuel copy
    if ptr.isValid then .ok ptr else (create .SC10402_3 0).setContents fuel copy

/-- The message is reconstructed as one of its type. -/
def reconstruct (fuel : ℕ) (ptr : TmxRtcmMessage) : Except Failure TmxRtcmMessage :=
  if ptr.getMessageType = 0 then .ok ptr
  else do
    let contents ← ptr.getContents
    let tmp ← (create ptr.getVersion ptr.getMessageType).setContents fuel contents
    .ok (if tmp.isValid then tmp.afterIsValid else ptr)

end TmxRtcmMessage

/-- `TmxRtcmEncodedMessage`, with the bytes of its payload. -/
structure TmxRtcmEncodedMessage where
  subtype : Bytes
  payload : Bytes
  myMessages : List TmxRtcmMessage

namespace TmxRtcmEncodedMessage
open TmxRtcmMessage

/-- The loop of `get_container`. A pass erases at least one byte. -/
def fill (fuel : ℕ) : ℕ → Option RtcmVersion → Bytes →
    Except Failure (Option RtcmVersion × List TmxRtcmMessage)
  | _, thisVer, [] => .ok (thisVer, [])
  | 0, _, _ :: _ => .error .unfinished
  | steps + 1, thisVer, byte :: rest => do
    let copy := byte :: rest
    let ptr ← guess fuel thisVer copy
    if ptr.isValid then
      let message ← ptr.reconstruct fuel
      let n := if message.size ≤ copy.length then message.size else copy.length
      let (thisVer, messages) ← fill fuel steps (some ptr.getVersion) (copy.drop n)
      .ok (thisVer, message :: messages)
    else .ok (thisVer, [])

def getContainer (fuel : ℕ) (m : TmxRtcmEncodedMessage) : Except Failure TmxRtcmEncodedMessage :=
  if m.myMessages.isEmpty then do
    let (thisVer, messages) ← fill fuel m.payload.length (rtcmVersion m.subtype) m.payload
    .ok { m with
      subtype := if messages.isEmpty then m.subtype else (thisVer.map RtcmVersion.name).getD []
      myMessages := messages }
  else .ok m

/-- The contents of the messages from `begin` to `end`. -/
def contents (fuel : ℕ) (m : TmxRtcmEncodedMessage) : Except Failure (List Bytes) := do
  let m ← m.getContainer fuel
  m.myMessages.mapM getContents

end TmxRtcmEncodedMessage

/-- A call returns if each part of it does. -/
theorem bind_eq_ok {α β : Type} {call : Except Failure α} {next : α → Except Failure β}
    {result : β} :
    (call >>= next) = .ok result ↔ ∃ value, call = .ok value ∧ next value = .ok result := by
  constructor
  · intro h
    cases call with
    | error e => cases h
    | ok value => exact ⟨value, rfl, h⟩
  · rintro ⟨value, rfl, h⟩
    exact h

namespace TmxRtcmMessage
variable {bytes : Bytes}

theorem getContents_rtcm2 {m : Rtcm2Message} (h : m.getContents = bytes) :
    getContents (.rtcm2 m) = .ok bytes :=
  congrArg Except.ok h

theorem getContents_rtcm3 {m : Rtcm3Message} (h : m.getContents = some bytes) :
    getContents (.rtcm3 m) = .ok bytes := by
  rw [getContents, h, orThrow]

end TmxRtcmMessage

namespace Frame
variable {v : RtcmVersion}

def bytes : Frame v → Bytes
  | .rtcm2 F => F.bytes
  | .rtcm3 F => F.bytes

/-- What `get_contents` is of the message that is reconstructed for the frame. -/
def contents : Frame v → Except Failure Bytes
  | .rtcm2 F => .ok F.bytes
  | .rtcm3 F => F.contents

/-- A message as a frame is decoded into. -/
def DecodesTo : Frame v → TmxRtcmMessage → Prop
  | .rtcm2 F, m => ∃ bytes version, m = .rtcm2 (F.decoded bytes version)
  | .rtcm3 F, m => ∃ bytes, m = .rtcm3 (F.decoded bytes)

theorem bytes_pos (X : Frame v) : 0 < X.bytes.length := by
  cases X with
  | rtcm2 F =>
    simp only [bytes, F.bytes_length]
    omega
  | rtcm3 F =>
    simp only [bytes, F.bytes_length]
    omega

theorem contents_length {X : Frame v} {bytes : Bytes} (h : X.contents = .ok bytes) :
    bytes.length = X.bytes.length := by
  cases X with
  | rtcm2 F =>
    cases h
    rfl
  | rtcm3 F =>
    simp only [contents, Frame3.contents] at h
    split_ifs at h <;> cases h
    · rfl
    · simp only [Frame.bytes, Frame3.bytes_length, Frame3.turned_length]
    · rfl

/-- The frame decides on what is kept of it. -/
theorem contents_congr {X X' : Frame v} (h : X.bytes = X'.bytes) : X.contents = X'.contents := by
  cases X with
  | rtcm2 F =>
    cases X' with
    | rtcm2 F' => exact congrArg Except.ok h
  | rtcm3 F =>
    cases X' with
    | rtcm3 F' => rw [Frame3.bytes_injective h]

section Decoded
variable {X : Frame v} {m : TmxRtcmMessage} (hm : X.DecodesTo m)
include hm

theorem DecodesTo.isValid : m.isValid = true := by
  cases X with
  | rtcm2 F =>
    obtain ⟨bytes, version, rfl⟩ := hm
    exact F.isValid_decoded bytes version
  | rtcm3 F =>
    obtain ⟨bytes, rfl⟩ := hm
    exact F.isValid_decoded bytes

theorem DecodesTo.getContents : m.getContents = .ok X.bytes := by
  cases X with
  | rtcm2 F =>
    obtain ⟨bytes, version, rfl⟩ := hm
    exact TmxRtcmMessage.getContents_rtcm2 (F.getContents_decoded bytes version)
  | rtcm3 F =>
    obtain ⟨bytes, rfl⟩ := hm
    exact TmxRtcmMessage.getContents_rtcm3 (F.getContents_decoded bytes)

theorem DecodesTo.getVersion : m.getVersion = v := by
  cases X with
  | rtcm2 F =>
    obtain ⟨bytes, version, rfl⟩ := hm
    rfl
  | rtcm3 F =>
    obtain ⟨bytes, rfl⟩ := hm
    rfl

theorem DecodesTo.size : m.size = X.bytes.length := by
  cases X with
  | rtcm2 F =>
    obtain ⟨bytes, version, rfl⟩ := hm
    exact F.size_decoded bytes version
  | rtcm3 F =>
    obtain ⟨bytes, rfl⟩ := hm
    simp only [TmxRtcmMessage.size, Rtcm3Message.size, Frame3.decoded, Frame.bytes, F.bytes_length,
      Rtcm3Message.headerBytes, Rtcm3Message.crcBytes]
    omega

end Decoded

/-- Whatever the decoder of a version accepts is a frame of it. -/
theorem accepted {fuel : ℕ} {input : Bytes} {m : TmxRtcmMessage}
    (hset : (TmxRtcmMessage.create v 0).setContents fuel input = .ok m) (hvalid : m.isValid = true) :
    ∃ X : Frame v, X.DecodesTo m := by
  cases v with
  | SC10402_3 =>
    cases hset
    have hfresh : Frame2.Fresh Rtcm2Message.new := ⟨rfl, rfl, rfl, le_rfl⟩
    obtain ⟨F, bytes, version, hF⟩ := Rtcm2Message.setContents_accepted hfresh hvalid
    exact ⟨.rtcm2 F, bytes, version, by rw [hF]⟩
  | SC10403_3 =>
    have hcreate : TmxRtcmMessage.create .SC10403_3 0 = .rtcm3 .new := rfl
    rw [hcreate, TmxRtcmMessage.setContents] at hset
    cases hscan : Rtcm3Message.setContents fuel .new input with
    | none =>
      rw [hscan] at hset
      cases hset
    | some m₁ =>
      rw [hscan] at hset
      cases hset
      obtain ⟨F, bytes, hF⟩ := Rtcm3Message.setContents_accepted hscan hvalid
      exact ⟨.rtcm3 F, bytes, by rw [hF]⟩

/-- A frame is found behind bytes where the decoder does not look for one. -/
theorem found (X : Frame v) (fuel : ℕ) {garbage : Bytes} (rest : Bytes)
    (hg : ∀ byte ∈ garbage, v.startsFrame byte = false) :
    ∃ m, (TmxRtcmMessage.create v 0).setContents (fuel + 1) (garbage ++ (X.bytes ++ rest)) = .ok m ∧
      X.DecodesTo m := by
  cases X with
  | rtcm2 F =>
    have hfresh : Frame2.Fresh Rtcm2Message.new := ⟨rfl, rfl, rfl, le_rfl⟩
    refine ⟨_, rfl, _, _, congrArg _ (F.setContents_eq rest hfresh hg)⟩
  | rtcm3 F =>
    have hnone : Rtcm3Message.preambleByte ∉ garbage := by
      intro hmem
      simpa [RtcmVersion.startsFrame] using hg _ hmem
    have hset := F.setContents_eq rest fuel hnone
    have hcreate : TmxRtcmMessage.create .SC10403_3 0 = .rtcm3 .new := rfl
    refine ⟨.rtcm3 (F.decoded (F.payload ++ (bigEndian 3 F.crc ++ rest))), ?_, _, rfl⟩
    rw [hcreate, TmxRtcmMessage.setContents, Frame.bytes, hset]

/-- Bytes where the decoder does not look for a frame are rejected. -/
theorem rejected (fuel : ℕ) {garbage : Bytes}
    (hg : ∀ byte ∈ garbage, v.startsFrame byte = false) :
    ∃ m, (TmxRtcmMessage.create v 0).setContents (fuel + 1) garbage = .ok m ∧
      m.isValid = false := by
  cases v with
  | SC10402_3 =>
    have hscan := Frame2.scan_garbage (m := .new) hg []
    rw [List.append_nil, Rtcm2Message.scan] at hscan
    refine ⟨_, rfl, ?_⟩
    have hvalid : (Rtcm2Message.new.setContents garbage).valid = false := by
      rw [Rtcm2Message.setContents, hscan]
      rfl
    rw [TmxRtcmMessage.isValid, Rtcm2Message.isValid, hvalid]
    rfl
  | SC10403_3 =>
    have hdrop : garbage.dropWhile (· ≠ Rtcm3Message.preambleByte) = [] := by
      rw [List.dropWhile_eq_nil_iff]
      intro byte hbyte
      simpa [RtcmVersion.startsFrame] using hg byte hbyte
    have hset : Rtcm3Message.setContents (fuel + 1) .new garbage =
        some (Rtcm3Message.invalidate .new) := by
      rw [Rtcm3Message.setContents, Rtcm3Message.scan]
      simp only [hdrop]
      rfl
    have hcreate : TmxRtcmMessage.create .SC10403_3 0 = .rtcm3 .new := rfl
    refine ⟨.rtcm3 (Rtcm3Message.invalidate .new), ?_, ?_⟩
    · rw [hcreate, TmxRtcmMessage.setContents, hset]
    · rw [TmxRtcmMessage.isValid, Rtcm3Message.isValid]
      rfl

section Reconstruct
variable (fuel : ℕ)

/-- The message that is reconstructed for a frame has its size, and the contents that are left. -/
def ReconstructsTo (X : Frame v) (call : Except Failure TmxRtcmMessage) : Prop :=
  match X.contents with
  | .error e => call = .error e
  | .ok bytes => ∃ message, call = .ok message ∧ message.getContents = .ok bytes ∧
      message.size = X.bytes.length

theorem DecodesTo.reconstructsTo {X : Frame v} {m : TmxRtcmMessage} (hm : X.DecodesTo m)
    (h : X.contents = .ok X.bytes) : X.ReconstructsTo (.ok m) := by
  rw [ReconstructsTo, h]
  exact ⟨m, rfl, hm.getContents, hm.size⟩

theorem reconstruct_eq {X : Frame v} {m : TmxRtcmMessage} (hm : X.DecodesTo m)
    (htype : m.getMessageType ≠ 0) :
    m.reconstruct fuel = (TmxRtcmMessage.create v m.getMessageType).setContents fuel X.bytes >>=
      fun tmp => .ok (if tmp.isValid then tmp.afterIsValid else m) := by
  rw [TmxRtcmMessage.reconstruct, if_neg htype, hm.getContents, hm.getVersion]
  rfl

theorem found_bytes (X : Frame v) :
    ∃ m, (TmxRtcmMessage.create v 0).setContents (fuel + 1) X.bytes = .ok m ∧ X.DecodesTo m := by
  have hnone : ∀ byte ∈ ([] : Bytes), v.startsFrame byte = false := by simp
  simpa using X.found fuel [] hnone

/-- Most types are made as messages of an unknown type. -/
theorem reconstruct_unknown {X : Frame v} {m : TmxRtcmMessage} (hm : X.DecodesTo m)
    (hcreate : TmxRtcmMessage.create v m.getMessageType = TmxRtcmMessage.create v 0)
    (hcontents : X.contents = .ok X.bytes) : X.ReconstructsTo (m.reconstruct (fuel + 1)) := by
  by_cases htype : m.getMessageType = 0
  · rw [TmxRtcmMessage.reconstruct, if_pos htype]
    exact hm.reconstructsTo hcontents
  obtain ⟨tmp, hset, htmp⟩ := X.found_bytes fuel
  have hafter : tmp.afterIsValid = tmp := by
    cases X with
    | rtcm2 F =>
      obtain ⟨bytes, version, rfl⟩ := htmp
      rfl
    | rtcm3 F =>
      obtain ⟨bytes, rfl⟩ := htmp
      rfl
  have heq : m.reconstruct (fuel + 1) = .ok tmp := by
    rw [reconstruct_eq (fuel + 1) hm htype, hcreate, hset, bind_eq_ok]
    exact ⟨tmp, rfl, by rw [if_pos htmp.isValid, hafter]⟩
  rw [heq]
  exact htmp.reconstructsTo hcontents

theorem reconstruct_rtcm2 {F : Frame2} {m : TmxRtcmMessage} (hm : (rtcm2 F).DecodesTo m) :
    (rtcm2 F).ReconstructsTo (m.reconstruct (fuel + 1)) := by
  by_cases hspecial : m.getMessageType = GpsSpecialMessage.frameID
  · have htype : m.getMessageType ≠ 0 := by
      rw [hspecial]
      decide
    have hcreate : TmxRtcmMessage.create .SC10402_3 m.getMessageType = .gpsSpecial .new :=
      if_pos hspecial
    rw [reconstruct_eq (fuel + 1) hm htype, hcreate]
    by_cases hvalid : (GpsSpecialMessage.new.setContents F.bytes).base.isValid = true
    · obtain ⟨hcontents, hsize⟩ := GpsSpecialMessage.setContents_frame hvalid
      exact ⟨_, congrArg Except.ok (if_pos hvalid), congrArg Except.ok hcontents, hsize⟩
    · exact ⟨m, congrArg Except.ok (if_neg hvalid), hm.getContents, hm.size⟩
  · have hcreate : TmxRtcmMessage.create .SC10402_3 m.getMessageType = .rtcm2 .new :=
      if_neg hspecial
    exact reconstruct_unknown fuel hm hcreate rfl

theorem reconstruct_antenna {F : Frame3} {m : TmxRtcmMessage} (hm : (rtcm3 F).DecodesTo m)
    (hnumber : F.messageNumber = AntennaDescriptorMessage.messageNumber) :
    (rtcm3 F).ReconstructsTo (m.reconstruct (fuel + 1)) := by
  have hcall : m.reconstruct (fuel + 1) =
      AntennaDescriptorMessage.new.setContents (fuel + 1) F.bytes >>= fun tmp =>
        .ok (if tmp.isValid then .antennaDescriptor tmp.afterIsValid else m) := by
    have htype : m.getMessageType = AntennaDescriptorMessage.messageNumber := by
      obtain ⟨bytes, rfl⟩ := hm
      exact hnumber
    have hne : m.getMessageType ≠ 0 := by
      rw [htype]
      decide
    rw [reconstruct_eq (fuel + 1) hm hne, htype]
    change (AntennaDescriptorMessage.new.setContents (fuel + 1) F.bytes >>= fun tmp =>
      Except.ok (TmxRtcmMessage.antennaDescriptor tmp)) >>= _ = _
    cases AntennaDescriptorMessage.new.setContents (fuel + 1) F.bytes <;> rfl
  rw [hcall, AntennaDescriptorMessage.setContents_bytes]
  have hdata : (F.decoded (F.payload ++ bigEndian 3 F.crc)).data =
      (F.payload.drop 3).map UInt8.toNat := rfl
  simp only [ReconstructsTo, contents, Frame3.contents, hnumber, ne_eq, not_true_eq_false, if_false]
  by_cases h3 : F.payload.length = 3
  · rw [AntennaDescriptorMessage.readDescriptor_short hdata h3]
    simp only [if_pos h3]
    rfl
  by_cases hfew : F.payload.length < F.counter + 4
  · rw [AntennaDescriptorMessage.readDescriptor_undefined hdata h3 hfew]
    simp only [if_neg h3, if_pos hfew]
    rfl
  by_cases hlast : F.payload.length = F.counter + 4
  · rw [AntennaDescriptorMessage.readDescriptor_last hdata h3 hlast]
    simp only [if_neg h3, if_neg hfew, if_pos hlast]
    rfl
  obtain ⟨tmp, hset, hsize, hvalid, hcontents⟩ :=
    AntennaDescriptorMessage.setContents_whole (F := F) fuel (by omega)
  rw [AntennaDescriptorMessage.setContents_bytes] at hset
  rw [hset]
  by_cases hcrc : F.turned.crc = F.crc
  · have htrue : tmp.isValid = true := by rw [hvalid, decide_eq_true hcrc.symm]
    simp only [if_neg h3, if_neg hfew, if_neg hlast, if_pos hcrc]
    refine ⟨_, congrArg Except.ok (if_pos htrue), ?_, ?_⟩
    · rw [TmxRtcmMessage.getContents, hcontents, ← hcrc, orThrow]
      rfl
    · exact tmp.afterIsValid_size.trans hsize
  · have hfalse : ¬ tmp.isValid = true := by
      rw [hvalid, decide_eq_true_eq]
      exact fun h => hcrc h.symm
    simp only [if_neg h3, if_neg hfew, if_neg hlast, if_neg hcrc]
    exact ⟨m, congrArg Except.ok (if_neg hfalse), hm.getContents, hm.size⟩

theorem reconstruct_spec {X : Frame v} {m : TmxRtcmMessage} (hm : X.DecodesTo m) :
    X.ReconstructsTo (m.reconstruct (fuel + 1)) := by
  cases X with
  | rtcm2 F => exact reconstruct_rtcm2 fuel hm
  | rtcm3 F =>
    by_cases hnumber : F.messageNumber = AntennaDescriptorMessage.messageNumber
    · exact reconstruct_antenna fuel hm hnumber
    · have htype : m.getMessageType = F.messageNumber := by
        obtain ⟨bytes, rfl⟩ := hm
        rfl
      have hcreate : TmxRtcmMessage.create .SC10403_3 m.getMessageType = .rtcm3 .new := by
        rw [htype]
        exact if_neg hnumber
      exact reconstruct_unknown fuel hm hcreate (if_pos hnumber)

end Reconstruct

end Frame
end V2IHub.Rtcm
