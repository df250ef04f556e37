import V2IHub.Rtcm.MessageTypes
import V2IHub.Rtcm.Resynchronization

/-! When the antenna descriptor is read safely, for any bytes. -/
namespace V2IHub.Rtcm
open Foundation

namespace Rtcm3Message

/-- Whatever is loaded is bytes. -/
theorem loadData_bytes (bytes : Bytes) (n : ℕ) :
    rtcm3Format.loadData [] bytes n =
      ((List.range n).map fun i => bytes.getD i 0).map UInt8.toNat := by
  have hword : ∀ i, rtcm3Format.readWord bytes (i * rtcm3Format.wordSize) =
      (bytes.getD i 0).toNat := by
    intro i
    have hsize : rtcm3Format.wordSize = 1 := rfl
    rw [WordFormat.readWord, hsize, Nat.mul_one]
    by_cases hi : i < bytes.length
    · rw [List.take_one_drop_eq_of_lt_length hi, List.foldl_cons, List.foldl_nil]
      have hread : rtcm3Format.readByte (bytes.get ⟨i, hi⟩) = bytes[i].toNat := rfl
      have hbyte : bytes[i].toNat < 2 ^ rtcm3Format.byteBits := bytes[i].toNat_lt
      rw [hread, combineWord_eq hbyte (by decide)]
      simp [hi]
    · rw [List.drop_of_length_le (by omega)]
      simp [hi]
  rw [WordFormat.loadData, List.nil_append, List.map_map]
  exact List.map_congr_left fun i _ => hword i

theorem loadMessage_bytes {m : Rtcm3Message} (hdata : m.data = []) :
    ∃ bytes : Bytes, m.loadMessage.data = bytes.map UInt8.toNat := by
  have hload := loadData_bytes (m.bytes.drop headerBytes) m.messageLength
  generalize (List.range m.messageLength).map
    (fun i => (m.bytes.drop headerBytes).getD i 0) = bytes at hload
  simp only [loadMessage, hdata, hload]
  cases hassign : rtcm3Format.assignData (bytes.map UInt8.toNat) [12, 12] with
  | none => exact ⟨bytes, rfl⟩
  | some result =>
    rw [WordFormat.assignData] at hassign
    dsimp only at hassign
    split_ifs at hassign
    rw [← Option.some.inj hassign]
    exact ⟨bytes.drop 3, by rw [List.map_drop]; rfl⟩

/-- The words that a call on a new object leaves are bytes. -/
theorem scan_bytes (fuel : ℕ) {m m' : Rtcm3Message} (hdata : m.data = [])
    (hscan : scan fuel m = some m') : ∃ bytes : Bytes, m'.data = bytes.map UInt8.toNat := by
  induction fuel generalizing m with
  | zero => simp [scan] at hscan
  | succ fuel ih =>
    rw [scan_succ fuel hdata] at hscan
    split_ifs at hscan
    · rw [← Option.some.inj hscan]
      exact ⟨[], hdata⟩
    · rw [← Option.some.inj hscan]
      exact ⟨[], hdata⟩
    · rw [← Option.some.inj hscan]
      exact loadMessage_bytes hdata
    · exact ih (m := { m.tried (candidate m.bytes) with bytes := retry (candidate m.bytes) })
        hdata hscan

end Rtcm3Message

namespace AntennaDescriptorMessage

/-- The words begin with a counter, as many characters as it says, and the setup. -/
def HoldsDescriptor : List ℕ → Prop
  | [] => False
  | counter :: words => counter < words.length

theorem readDescriptor_ok_iff {base : Rtcm3Message} {bytes : Bytes}
    (hdata : base.data = bytes.map UInt8.toNat) :
    (∃ m, readDescriptor base = .ok m) ↔ HoldsDescriptor base.data := by
  rw [readDescriptor, hdata]
  cases bytes with
  | nil =>
    constructor
    · rintro ⟨m, hm⟩
      cases hm
    · exact False.elim
  | cons counter tail =>
    have hhold : HoldsDescriptor ((counter :: tail).map UInt8.toNat) ↔
        counter.toNat < tail.length := by
      rw [List.map_cons, HoldsDescriptor, List.length_map]
    rw [hhold, List.map_cons, assignByte_cons]
    change (∃ m, (if (tail.map UInt8.toNat).length < counter.toNat then _ else
      (assignByte ((tail.map UInt8.toNat).drop counter.toNat)).bind _) = _) ↔ _
    rw [List.length_map, ← List.map_drop]
    by_cases hlt : counter.toNat < tail.length
    · rw [if_neg hlt.not_gt, List.drop_eq_getElem_cons hlt, List.map_cons, assignByte_cons]
      exact ⟨fun _ => hlt, fun _ => ⟨_, rfl⟩⟩
    · refine ⟨?_, fun h => absurd h hlt⟩
      rintro ⟨m, hm⟩
      rw [List.drop_of_length_le (Nat.le_of_not_lt hlt)] at hm
      split_ifs at hm
      cases hm

theorem holdsDescriptor_frame (F : Frame3) :
    HoldsDescriptor ((F.payload.drop 3).map UInt8.toNat) ↔ F.counter + 5 ≤ F.payload.length := by
  by_cases h : F.payload.length = 3
  · rw [List.drop_of_length_le h.le]
    exact ⟨False.elim, fun hlen => by omega⟩
  · obtain ⟨c, tail, hdrop, hc, hlen⟩ := payload_drop h
    rw [hdrop, List.map_cons, HoldsDescriptor, List.length_map]
    omega

/-- Wherever the base class returns, the call is safe exactly when the words behind its attributes
hold a whole descriptor; it is never made invalid instead. -/
theorem setContents_safe_iff {fuel : ℕ} {input : Bytes} {base : Rtcm3Message}
    (hset : Rtcm3Message.setContents fuel .new input = some base) :
    ((∃ m, new.setContents fuel input = .ok m ∧
        (¬ HoldsDescriptor base.data → m.isValid = false)) ↔ HoldsDescriptor base.data) ∧
      ∀ F : Frame3, F.bytes = input →
        (HoldsDescriptor base.data ↔ F.counter + 5 ≤ F.payload.length) := by
  have hread : new.setContents fuel input = readDescriptor base := by
    have hbase : new.base = .new := rfl
    rw [setContents, hbase, hset]
  obtain ⟨bytes, hbytes⟩ := Rtcm3Message.scan_bytes fuel rfl hset
  have hok := readDescriptor_ok_iff hbytes
  constructor
  · rw [hread]
    constructor
    · rintro ⟨m, hm, -⟩
      exact hok.mp ⟨m, hm⟩
    · intro hholds
      obtain ⟨m, hm⟩ := hok.mpr hholds
      exact ⟨m, hm, fun hnot => absurd hholds hnot⟩
  · rintro F rfl
    cases fuel with
    | zero => cases hset
    | succ fuel =>
      rw [F.setContents_bytes fuel, Option.some.injEq] at hset
      rw [← hset]
      exact holdsDescriptor_frame F

/-- A frame that says there are five characters, and has none. -/
def emptyDescriptor : Frame3 := ⟨0, 4, [0x3E, 0xF0, 0, 5], rfl, by decide⟩

/-- A descriptor without characters. -/
def plainDescriptor : Frame3 := ⟨0, 5, [0x3E, 0xF0, 0, 0, 7], rfl, by decide⟩

theorem setContents_plainDescriptor :
    ∃ m, new.setContents 1 plainDescriptor.bytes = .ok m := by
  obtain ⟨hsafe, hframe⟩ := setContents_safe_iff (plainDescriptor.setContents_bytes 0)
  obtain ⟨m, hm, -⟩ := hsafe.mpr ((hframe plainDescriptor rfl).mpr (by decide))
  exact ⟨m, hm⟩

/-- Five words are erased where there are none. -/
theorem setContents_emptyDescriptor :
    emptyDescriptor.messageNumber = messageNumber ∧
      new.setContents 1 emptyDescriptor.bytes = .error .undefined ∧
      ¬ ∀ (fuel : ℕ) (input : Bytes) (base : Rtcm3Message),
        Rtcm3Message.setContents fuel .new input = some base →
        ∃ m, new.setContents fuel input = .ok m ∧
          (¬ HoldsDescriptor base.data → m.isValid = false) := by
  have hundefined : new.setContents 1 emptyDescriptor.bytes = .error .undefined := by
    decide +kernel
  refine ⟨by decide, hundefined, fun hclaim => ?_⟩
  obtain ⟨m, hm, -⟩ := hclaim 1 _ _ (emptyDescriptor.setContents_bytes 0)
  rw [hundefined] at hm
  cases hm

end AntennaDescriptorMessage
end V2IHub.Rtcm
