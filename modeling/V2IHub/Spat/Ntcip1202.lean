import V2IHub.Foundation.Bytes

/-! The packets of a signal controller, and the structure that `SignalController` copies them
into. -/
namespace V2IHub.Spat
open Foundation

/-- `Ntcip1202Ext_PhaseTime`; the times are in network order. -/
structure PhaseTime where
  phaseNumber : UInt8
  spatVehMinTimeToChange : UInt16
  spatVehMaxTimeToChange : UInt16
  spatPedMinTimeToChange : UInt16
  spatPedMaxTimeToChange : UInt16
  spatOvlpMinTimeToChange : UInt16
  spatOvpMaxTimeToChange : UInt16
deriving DecidableEq

structure Ntcip1202Ext where
  header : Int8
  numOfPhases : Int8
  phaseTimes : List PhaseTime
  phaseStatusGroupReds : UInt16
  phaseStatusGroupYellows : UInt16
  phaseStatusGroupGreens : UInt16
  phaseStatusGroupDontWalks : UInt16
  phaseStatusGroupPedClears : UInt16
  phaseStatusGroupWalks : UInt16
  overlapStatusGroupReds : UInt16
  overlapStatusGroupYellows : UInt16
  overlapStatusGroupGreens : UInt16
  flashingOutputPhaseStatus : UInt16
  flashingOutputOverlapStatus : UInt16
  spatIntersectionStatus : UInt8
  timebaseAscActionStatus : UInt8
  spatDiscontinuoutChangeFlag : UInt8
  spatMessageSeqCounter : UInt8
  spatTimestamp_hr : UInt8
  spatTimestamp_min : UInt8
  spatTimestamp_sec : UInt8
  spatTimestamp_msec : UInt16
  spatPedestrianCall : UInt16
  spatPedestrianDetect : UInt16
deriving DecidableEq

/-- `sizeof(Ntcip1202Ext)`; the structures are packed. -/
def SIZEOF_NTCIP1202EXT : ℕ := 245

abbrev Object := Vector UInt8 SIZEOF_NTCIP1202EXT

namespace Object

def uint8At (object : Object) (offset : ℕ) : UInt8 := object.toList.getD offset 0

/-- The host is little-endian. -/
def uint16At (object : Object) (offset : ℕ) : UInt16 :=
  UInt16.ofNat ((object.uint8At offset).toNat + 256 * (object.uint8At (offset + 1)).toNat)

def phaseTimeAt (object : Object) (offset : ℕ) : PhaseTime where
  phaseNumber := object.uint8At offset
  spatVehMinTimeToChange := object.uint16At (offset + 1)
  spatVehMaxTimeToChange := object.uint16At (offset + 3)
  spatPedMinTimeToChange := object.uint16At (offset + 5)
  spatPedMaxTimeToChange := object.uint16At (offset + 7)
  spatOvlpMinTimeToChange := object.uint16At (offset + 9)
  spatOvpMaxTimeToChange := object.uint16At (offset + 11)

/-- The fields at their offsets in the packed structure. -/
def ext (object : Object) : Ntcip1202Ext where
  header := (object.uint8At 0).toInt8
  numOfPhases := (object.uint8At 1).toInt8
  phaseTimes := (List.range 16).map fun i => object.phaseTimeAt (2 + 13 * i)
  phaseStatusGroupReds := object.uint16At 210
  phaseStatusGroupYellows := object.uint16At 212
  phaseStatusGroupGreens := object.uint16At 214
  phaseStatusGroupDontWalks := object.uint16At 216
  phaseStatusGroupPedClears := object.uint16At 218
  phaseStatusGroupWalks := object.uint16At 220
  overlapStatusGroupReds := object.uint16At 222
  overlapStatusGroupYellows := object.uint16At 224
  overlapStatusGroupGreens := object.uint16At 226
  flashingOutputPhaseStatus := object.uint16At 228
  flashingOutputOverlapStatus := object.uint16At 230
  spatIntersectionStatus := object.uint8At 232
  timebaseAscActionStatus := object.uint8At 233
  spatDiscontinuoutChangeFlag := object.uint8At 234
  spatMessageSeqCounter := object.uint8At 235
  spatTimestamp_hr := object.uint8At 236
  spatTimestamp_min := object.uint8At 237
  spatTimestamp_sec := object.uint8At 238
  spatTimestamp_msec := object.uint16At 239
  spatPedestrianCall := object.uint16At 241
  spatPedestrianDetect := object.uint16At 243

/-- `memcpy` to the object; `none` when it writes behind its end. -/
def memcpy (object : Object) (buff : Bytes) : Option Object :=
  if buff.length ≤ SIZEOF_NTCIP1202EXT then some (Memory.store object 0 buff) else none

end Object

/-- `Ntcip1202` without its mapping of signal groups. -/
structure Ntcip1202 where
  ntcip1202Data : Object
  phaseToIndexMapping : UInt8 → Option ℕ

/-- What the getters of an `Ntcip1202` read. -/
structure Decoded where
  ext : Ntcip1202Ext
  phaseToIndexMapping : UInt8 → Option ℕ

namespace Ntcip1202

/-- `new Ntcip1202()` clears its members. -/
def new : Ntcip1202 := ⟨Vector.replicate _ 0, fun _ => none⟩

def decoded (n : Ntcip1202) : Decoded := ⟨n.ntcip1202Data.ext, n.phaseToIndexMapping⟩

/-- Of two entries with one phase number the later one counts. -/
def mapPhases (phaseTimes : List PhaseTime) : UInt8 → Option ℕ :=
  phaseTimes.zipIdx.foldl (fun mapping p =>
    if 0 < p.1.phaseNumber then Function.update mapping p.1.phaseNumber (some p.2) else mapping)
    fun _ => none

def copyBytesIntoNtcip1202 (n : Ntcip1202) (buff : Bytes) : Option Ntcip1202 :=
  (n.ntcip1202Data.memcpy buff).map fun object => ⟨object, mapPhases object.ext.phaseTimes⟩

end Ntcip1202

/-- What `recv` can return: it has 999 bytes of room. -/
abbrev Packet := {bytes : Bytes // 1 ≤ bytes.length ∧ bytes.length ≤ 999}

/-- The packets since the start of `start_signalController`; `none` once a copy has written behind
the end of the structure. -/
def received (packets : List Packet) : Option Ntcip1202 :=
  packets.foldlM (fun n p => n.copyBytesIntoNtcip1202 p.val) Ntcip1202.new

/-- No copy writes more than the structure, and after each packet the decoded state is the one
that any other packets before it leave. -/
def Independent (packets : List Packet) : Prop :=
  ∀ before p, before ++ [p] <+: packets → ∃ n, received (before ++ [p]) = some n ∧
    ∀ other n', received (other ++ [p]) = some n' → n'.decoded = n.decoded

section Copies
variable {object object' : Object} {buff : Bytes} {n : Ntcip1202} {p : Packet}

theorem memcpy_eq_some (h : object.memcpy buff = some object') :
    buff.length ≤ SIZEOF_NTCIP1202EXT ∧
      object'.toList = buff ++ object.toList.drop buff.length := by
  unfold Object.memcpy at h
  split_ifs at h with hfits
  refine ⟨hfits, ?_⟩
  have hroom : buff.length ≤ object.toList.length := by simpa using hfits
  have hstore := Memory.store_toList buff (List.nil_append object.toList).symm hroom
  rw [← Option.some.inj h]
  simpa using hstore

theorem memcpy_of_le (object : Object) (h : buff.length ≤ SIZEOF_NTCIP1202EXT) :
    ∃ object', object.memcpy buff = some object' := by
  rw [Object.memcpy, if_pos h]
  exact ⟨_, rfl⟩

/-- A packet of the size of the structure replaces it. -/
theorem copyBytesIntoNtcip1202_full (n : Ntcip1202) (packet : Object) :
    n.copyBytesIntoNtcip1202 packet.toList =
      some ⟨packet, Ntcip1202.mapPhases packet.ext.phaseTimes⟩ := by
  have hlength : packet.toList.length = SIZEOF_NTCIP1202EXT := packet.length_toList
  obtain ⟨object, hobject⟩ := memcpy_of_le n.ntcip1202Data hlength.le
  have hbytes := (memcpy_eq_some hobject).2
  rw [List.drop_of_length_le (by simp), List.append_nil] at hbytes
  rw [Ntcip1202.copyBytesIntoNtcip1202, hobject, Option.map_some, Vector.toList_inj.mp hbytes]

theorem received_concat (before : List Packet) (p : Packet) :
    received (before ++ [p]) =
      (received before).bind fun n => n.copyBytesIntoNtcip1202 p.val := by
  rw [received, List.foldlM_append, received]
  simp

/-- The bytes after a packet: its own, and behind them what was there before. -/
theorem received_concat_eq_some {before : List Packet} {n : Ntcip1202}
    (h : received (before ++ [p]) = some n) :
    ∃ m, received before = some m ∧ p.val.length ≤ SIZEOF_NTCIP1202EXT ∧
      n.ntcip1202Data.toList = p.val ++ m.ntcip1202Data.toList.drop p.val.length ∧
      n.phaseToIndexMapping = Ntcip1202.mapPhases n.ntcip1202Data.ext.phaseTimes := by
  rw [received_concat] at h
  obtain ⟨m, hm, hcopy⟩ := Option.bind_eq_some_iff.mp h
  obtain ⟨object, hobject, hn⟩ := Option.map_eq_some_iff.mp hcopy
  obtain ⟨hfits, hbytes⟩ := memcpy_eq_some hobject
  subst hn
  exact ⟨m, hm, hfits, hbytes, rfl⟩

/-- Packets that fit are copied. -/
theorem received_of_le {packets : List Packet}
    (h : ∀ p ∈ packets, p.val.length ≤ SIZEOF_NTCIP1202EXT) : ∃ n, received packets = some n := by
  induction packets using List.reverseRecOn with
  | nil => exact ⟨_, rfl⟩
  | append_singleton before p ih =>
    obtain ⟨m, hm⟩ := ih fun q hq => h q (List.mem_append_left [p] hq)
    obtain ⟨object, hobject⟩ := memcpy_of_le m.ntcip1202Data (h p (by simp))
    rw [received_concat, hm, Option.bind_some, Ntcip1202.copyBytesIntoNtcip1202, hobject]
    exact ⟨_, rfl⟩

/-- Every byte comes from a packet that fills the structure. -/
theorem received_full {before : List Packet} (h : received (before ++ [p]) = some n)
    (hfull : p.val.length = SIZEOF_NTCIP1202EXT) : n.ntcip1202Data.toList = p.val := by
  obtain ⟨m, -, -, hbytes, -⟩ := received_concat_eq_some h
  have hnone : m.ntcip1202Data.toList.drop p.val.length = [] := by simp [hfull]
  rw [hbytes, hnone, List.append_nil]

theorem decoded_congr {n n' : Ntcip1202} (h : n.ntcip1202Data = n'.ntcip1202Data)
    (hn : n.phaseToIndexMapping = Ntcip1202.mapPhases n.ntcip1202Data.ext.phaseTimes)
    (hn' : n'.phaseToIndexMapping = Ntcip1202.mapPhases n'.ntcip1202Data.ext.phaseTimes) :
    n.decoded = n'.decoded := by
  unfold Ntcip1202.decoded
  rw [hn, hn', h]

/-- The high byte of a field can be read from the field. -/
theorem uint8At_of_uint16At {offset : ℕ} (h : object.uint16At offset = object'.uint16At offset) :
    object.uint8At (offset + 1) = object'.uint8At (offset + 1) := by
  have hnat := congrArg UInt16.toNat h
  have hlow := (object.uint8At offset).toNat_lt
  have hlow' := (object'.uint8At offset).toNat_lt
  have hhigh := (object.uint8At (offset + 1)).toNat_lt
  have hhigh' := (object'.uint8At (offset + 1)).toNat_lt
  simp only [Object.uint16At, UInt16.toNat_ofNat'] at hnat
  apply UInt8.toNat_inj.mp
  omega

end Copies

/-- A packet that fills the structure. -/
def filler (last : UInt8) : Packet where
  val := List.replicate 244 0 ++ [last]
  property := by simp only [List.length_append, List.length_replicate, List.length_singleton,
    Nat.reduceLeDiff, and_self]

theorem filler_length (last : UInt8) : (filler last).val.length = SIZEOF_NTCIP1202EXT := by
  simp only [filler, List.length_append, List.length_replicate, List.length_singleton,
    SIZEOF_NTCIP1202EXT]

/-- A short packet leaves the last byte of the packet before it. -/
theorem received_filler {last : UInt8} {n : Ntcip1202} {p : Packet}
    (h : received ([filler last] ++ [p]) = some n) (hshort : p.val.length < SIZEOF_NTCIP1202EXT) :
    n.ntcip1202Data.uint8At 244 = last := by
  obtain ⟨m, hm, -, hbytes, -⟩ := received_concat_eq_some h
  have hfirst : received ([] ++ [filler last]) = some m := hm
  have hfiller := received_full hfirst (filler_length last)
  unfold SIZEOF_NTCIP1202EXT at hshort
  have hindex : p.val.length + (244 - p.val.length) = 244 := by omega
  rw [Object.uint8At, hbytes, hfiller, List.getD_eq_getElem?_getD,
    List.getElem?_append_right (by omega), List.getElem?_drop, hindex, filler,
    List.getElem?_append_right (by rw [List.length_replicate]), List.length_replicate]
  rfl

theorem Independent.length_eq {packets : List Packet} (h : Independent packets) :
    ∀ p ∈ packets, p.val.length = SIZEOF_NTCIP1202EXT := by
  intro p hp
  obtain ⟨before, after, rfl⟩ := List.append_of_mem hp
  obtain ⟨n, hn, hsame⟩ := h before p ⟨after, by simp⟩
  obtain ⟨-, -, hfits, -, -⟩ := received_concat_eq_some hn
  by_contra hshort
  have hlt : p.val.length < SIZEOF_NTCIP1202EXT := by omega
  set last := n.ntcip1202Data.uint8At 244 with hlast
  have hall : ∀ q ∈ [filler (last + 1)] ++ [p], q.val.length ≤ SIZEOF_NTCIP1202EXT := by
    intro q hq
    rcases List.mem_append.mp hq with hq | hq
    · rw [List.mem_singleton.mp hq, filler_length]
    · rw [List.mem_singleton.mp hq]
      exact hfits
  obtain ⟨n', hn'⟩ := received_of_le hall
  have hfield := congrArg (fun d => d.ext.spatPedestrianDetect) (hsame _ n' hn')
  have hequal : last + 1 = last := by
    rw [← received_filler hn' hlt, hlast]
    exact uint8At_of_uint16At hfield
  exact absurd hequal (by simp)

/-- The packets are independent exactly when each of them fills the structure. -/
theorem independent_iff (packets : List Packet) :
    Independent packets ↔ ∀ p ∈ packets, p.val.length = SIZEOF_NTCIP1202EXT := by
  refine ⟨Independent.length_eq, ?_⟩
  rintro h before p ⟨after, rfl⟩
  have hfull := h p (by simp)
  have hall : ∀ q ∈ before ++ [p], q.val.length ≤ SIZEOF_NTCIP1202EXT :=
    fun q hq => (h q (List.mem_append_left after hq)).le
  obtain ⟨n, hn⟩ := received_of_le hall
  refine ⟨n, hn, fun other n' hn' => ?_⟩
  obtain ⟨-, -, -, -, hmapping⟩ := received_concat_eq_some hn
  obtain ⟨-, -, -, -, hmapping'⟩ := received_concat_eq_some hn'
  apply decoded_congr _ hmapping' hmapping
  apply Vector.toList_inj.mp
  rw [received_full hn' hfull, received_full hn hfull]

/-- A packet of one byte shows the bytes of the one before. -/
theorem independent_fails : ¬ Independent [filler 255, ⟨[0xcd], by decide⟩] := by
  intro h
  have hlength := h.length_eq ⟨[0xcd], by decide⟩ (by simp)
  exact absurd hlength (by decide)

end V2IHub.Spat
