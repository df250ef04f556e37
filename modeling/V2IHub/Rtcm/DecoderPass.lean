import V2IHub.Rtcm.Rtcm3

/-! One pass of the loop with which the RTCM 3 decoder looks for a frame. -/
namespace V2IHub.Rtcm
open Foundation

theorem bigEndian_packWords {n : ℕ} {bytes : Bytes} (h : bytes.length = n) :
    bigEndian n (packWords 8 (bytes.map UInt8.toNat)) = bytes := by
  have hlt : ∀ word ∈ bytes.map UInt8.toNat, word < 2 ^ 8 := map_toNat_lt bytes
  have hunpack := unpackFields_packWords hlt
  rw [List.length_map, h] at hunpack
  rw [bigEndian, hunpack, List.map_map]
  exact (List.map_congr_left fun byte _ => UInt8.ofNat_toNat).trans (List.map_id' bytes)

theorem packWords_toNat_lt {bytes : Bytes} (h : bytes.length = 3) :
    packWords 8 (bytes.map UInt8.toNat) < 2 ^ 24 := by
  have hlt := packWords_lt (map_toNat_lt bytes)
  rw [List.length_map, h] at hlt
  exact hlt

namespace Rtcm3Message

/-- The bytes from the first one that may start a frame. -/
theorem dropWhile_cases (bytes : Bytes) :
    (bytes.dropWhile (· ≠ preambleByte)).length < headerBytes ∨
      ∃ h l rest, bytes.dropWhile (· ≠ preambleByte) = preambleByte :: h :: l :: rest := by
  have hhead := List.head?_dropWhile_not (· ≠ preambleByte) bytes
  match hb : bytes.dropWhile (· ≠ preambleByte) with
  | [] | [_] | [_, _] => exact .inl (by simp [headerBytes])
  | p :: h :: l :: rest =>
    rw [hb] at hhead
    have hp : p = preambleByte := by simpa using hhead
    exact .inr ⟨h, l, rest, by rw [hp]⟩

/-- The bytes from the first preamble on. -/
def candidate (bytes : Bytes) : Bytes := bytes.dropWhile (· ≠ preambleByte)

/-- The length of the message, as the second and the third byte claim it. -/
def claimedLength (bytes : Bytes) : ℕ :=
  (bytes.getD 1 0).toNat % 4 * 256 + (bytes.getD 2 0).toNat

/-- Where the check sum of the claimed frame begins. -/
def checkStart (bytes : Bytes) : ℕ := headerBytes + claimedLength bytes

def checkBytes (bytes : Bytes) : Bytes := (bytes.drop (checkStart bytes)).take crcBytes

def frameEnd (bytes : Bytes) : ℕ := checkStart bytes + crcBytes

/-- The check sum of the claimed frame is right. -/
def intact (bytes : Bytes) : Bool :=
  packWords 8 ((checkBytes bytes).map UInt8.toNat) =
    (crcOf crcPoly (bytes.take (checkStart bytes))).toNat

/-- The claimed frame is there and its check sum is wrong. -/
def rejects (bytes : Bytes) : Bool :=
  headerBytes ≤ bytes.length && frameEnd bytes ≤ bytes.length && !intact bytes

/-- What a try that fails leaves in the buffer. -/
def retry (bytes : Bytes) : Bytes :=
  (bytes.take (checkStart bytes) ++ checkBytes bytes ++ bytes.drop (checkStart bytes)).tail

/-- The message with the header of the claimed frame. -/
def headed (m : Rtcm3Message) (bytes : Bytes) : Rtcm3Message :=
  { m with
    bytes := bytes
    preamble := preambleByte.toNat
    reserved := (bytes.getD 1 0).toNat / 4
    messageLength := claimedLength bytes }

/-- The message with the header and the check sum of the claimed frame. -/
def tried (m : Rtcm3Message) (bytes : Bytes) : Rtcm3Message :=
  { m.headed bytes with crc := packWords 8 ((checkBytes bytes).map UInt8.toNat) }

section Pass
variable {m : Rtcm3Message}

theorem checkBytes_length {bytes : Bytes} (h : frameEnd bytes ≤ bytes.length) :
    (checkBytes bytes).length = 3 := by
  simp only [frameEnd, crcBytes] at h
  simp only [checkBytes, List.length_take, List.length_drop, crcBytes]
  omega

theorem assignHeader_headed {h l : UInt8} {rest : Bytes} (hdata : m.data = [])
    (hbytes : m.bytes = preambleByte :: h :: l :: rest) :
    m.assignHeader = .ok (m.headed (preambleByte :: h :: l :: rest)) := by
  rw [assignHeader_eq hdata hbytes, headed, ← hbytes]
  rw [hbytes]
  rfl

theorem assignCrc_tried {bytes : Bytes} (hdata : m.data = [])
    (h : frameEnd bytes ≤ bytes.length) :
    (m.headed bytes).assignCrc (checkBytes bytes) = .ok (m.tried bytes) := by
  have hlen := checkBytes_length h
  have hassign := assignCrc_eq (m := m.headed bytes) hdata (packWords_toNat_lt hlen)
  rw [bigEndian_packWords hlen] at hassign
  exact hassign

theorem checkParity_tried {bytes : Bytes} (h : frameEnd bytes ≤ bytes.length) :
    (m.tried bytes).checkParity bytes = intact bytes := by
  have hsize : (m.tried bytes).size = frameEnd bytes := by
    simp only [size, tried, headed, frameEnd, checkStart, headerBytes, crcBytes]
    omega
  have hstart : frameEnd bytes - crcBytes = checkStart bytes := by
    simp only [frameEnd, Nat.add_sub_cancel]
  rw [checkParity, getParity, hsize, if_neg (Nat.not_lt.mpr h), if_pos h, hstart, crc24qHash_eq,
    intact]
  rfl

theorem candidate_cases (bytes : Bytes) : (candidate bytes).length < headerBytes ∨
    ∃ h l rest, candidate bytes = preambleByte :: h :: l :: rest := dropWhile_cases bytes

/-- One pass of the loop, as long as no words are left over. -/
theorem scan_succ (fuel : ℕ) (hdata : m.data = []) :
    scan (fuel + 1) m =
      if (candidate m.bytes).length < headerBytes then
        some (invalidate { m with bytes := candidate m.bytes })
      else if (candidate m.bytes).length < frameEnd (candidate m.bytes) then
        some (m.headed (candidate m.bytes)).invalidate
      else if intact (candidate m.bytes) then some (m.tried (candidate m.bytes)).loadMessage
      else scan fuel { m.tried (candidate m.bytes) with bytes := retry (candidate m.bytes) } := by
  have hbytes : m.bytes.dropWhile (· ≠ preambleByte) = candidate m.bytes := rfl
  rw [scan]
  simp only [hbytes]
  rcases candidate_cases m.bytes with hshort | ⟨h, l, rest, hcons⟩
  · rw [if_pos hshort, if_pos hshort]
  generalize candidate m.bytes = bytes at hcons ⊢
  have hlen : ¬ bytes.length < headerBytes := by simp [hcons, headerBytes]
  have hheader : assignHeader { m with bytes := bytes } = .ok (m.headed bytes) := by
    rw [hcons]
    exact assignHeader_headed (m := { m with bytes := preambleByte :: h :: l :: rest }) hdata rfl
  have hend : (m.headed bytes).messageLength + headerBytes + crcBytes = frameEnd bytes := by
    simp only [headed, frameEnd, checkStart]
    omega
  rw [if_neg hlen, if_neg hlen]
  simp only [hheader]
  rw [hend]
  by_cases hfew : bytes.length < frameEnd bytes
  · exact (if_pos hfew).trans (if_pos hfew).symm
  refine (if_neg hfew).trans (Eq.trans ?_ (if_neg hfew).symm)
  have hcrc : (m.headed bytes).assignCrc
      (((m.headed bytes).bytes.drop (headerBytes + (m.headed bytes).messageLength)).take crcBytes) =
      .ok (m.tried bytes) := assignCrc_tried hdata (Nat.le_of_not_lt hfew)
  have hparity : (m.tried bytes).checkParity (m.tried bytes).bytes = intact bytes :=
    checkParity_tried (Nat.le_of_not_lt hfew)
  have hpreamble : decide ((m.tried bytes).preamble = preambleByte.toNat) = true := by
    simp [tried, headed]
  simp only [hcrc, hparity, hpreamble, Bool.true_and]
  rfl

end Pass

end Rtcm3Message
end V2IHub.Rtcm
