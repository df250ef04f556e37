import V2IHub.Client.ConfigValue
import V2IHub.Foundation.Collect
import V2IHub.Spat.Ntcip1202
import V2IHub.Utils.Clock

/-! The SPAT that `Ntcip1202` makes from the last packet and the mapping of signal groups.
A result `none` is a shift by a negative or too large number, or an access outside of an array. -/
namespace V2IHub.Spat
open Foundation Utils

section Spat

/-- `MovementPhaseState` -/
inductive PhaseState where
  | dark | stop_Then_Proceed | stop_And_Remain | permissive_Movement_Allowed
  | protected_clearance | caution_Conflicting_Traffic
deriving DecidableEq

structure TimeChangeDetails where
  minEndTime : ℤ
  maxEndTime : Option ℤ
deriving DecidableEq

structure MovementEvent where
  eventState : PhaseState
  timing : TimeChangeDetails
deriving DecidableEq

structure ConnectionManeuverAssist where
  connectionID : ℤ
  pedBicycleDetect : Option Bool
deriving DecidableEq

structure MovementState where
  signalGroup : ℤ
  state_time_speed : List MovementEvent
  maneuverAssistList : Option (List ConnectionManeuverAssist)
deriving DecidableEq

structure IntersectionState where
  name : Option Bytes
  id : ℤ
  revision : ℤ
  status : Bytes
  moy : Option ℤ
  timeStamp : Option ℤ
  states : List MovementState
deriving DecidableEq

end Spat

structure SignalGroupMapping where
  SignalGroupId : ℤ
  PhaseId : ℤ
  Type' : Bytes
deriving DecidableEq

section Getters
variable (d : Decoded)

def ntohs (v : UInt16) : UInt16 := v <<< 8 ||| v >>> 8

/-- The phase's bit of a status word. -/
def bit (word : UInt16) (phaseNumber : UInt8) : Bool :=
  (ntohs word).toNat.testBit (phaseNumber.toNat - 1)

/-- The shift is by one less than the phase number. -/
def statusBit (word : UInt16) (phaseNumber : UInt8) : Option Bool :=
  if 1 ≤ phaseNumber ∧ phaseNumber ≤ 32 then some (bit word phaseNumber) else none

namespace Decoded

def getPhaseFlashingStatus := statusBit d.ext.flashingOutputPhaseStatus
def getOverlapFlashingStatus := statusBit d.ext.flashingOutputOverlapStatus
def getPhaseRedStatus := statusBit d.ext.phaseStatusGroupReds
def getPhaseYellowStatus := statusBit d.ext.phaseStatusGroupYellows
def getPhaseGreensStatus := statusBit d.ext.phaseStatusGroupGreens
def getPhaseDontWalkStatus := statusBit d.ext.phaseStatusGroupDontWalks
def getPhasePedClearsStatus := statusBit d.ext.phaseStatusGroupPedClears
def getPhaseWalkStatus := statusBit d.ext.phaseStatusGroupWalks
def getOverlapRedStatus := statusBit d.ext.overlapStatusGroupReds
def getOverlapYellowStatus := statusBit d.ext.overlapStatusGroupYellows
def getOverlapGreenStatus := statusBit d.ext.overlapStatusGroupGreens
def getSpatPedestrianDetect := statusBit d.ext.spatPedestrianDetect

def isFlashingStatus : Bool :=
  ntohs (UInt16.ofNat d.ext.spatIntersectionStatus.toNat) >>> 7 != 0

def isPhaseFlashing : Bool := d.ext.flashingOutputPhaseStatus != 0

/-- A phase that has no index yet gets index 0. -/
def phaseTime (phaseNumber : UInt8) : Option PhaseTime :=
  d.ext.phaseTimes[(d.phaseToIndexMapping phaseNumber).getD 0]?

/-- One of the times of a phase, in host order. -/
def timeOf (field : PhaseTime → UInt16) (phaseNumber : UInt8) : Option ℕ :=
  (d.phaseTime phaseNumber).map fun p => (ntohs (field p)).toNat

def getVehicleMinTime := d.timeOf PhaseTime.spatVehMinTimeToChange
def getVehicleMaxTime := d.timeOf PhaseTime.spatVehMaxTimeToChange
def getPedMinTime := d.timeOf PhaseTime.spatPedMinTimeToChange
def getPedMaxTime := d.timeOf PhaseTime.spatPedMaxTimeToChange
def getOverlapMinTime := d.timeOf PhaseTime.spatOvlpMinTimeToChange
def getOverlapMaxTime := d.timeOf PhaseTime.spatOvpMaxTimeToChange

end Decoded
end Getters

section Populate
variable (d : Decoded) (now : ℕ)

def vehicleState (isFlashing forceFlashing red yellow green : Bool) : PhaseState :=
  if forceFlashing || red then
    if forceFlashing || isFlashing then .stop_Then_Proceed else .stop_And_Remain
  else if yellow then
    if isFlashing then .caution_Conflicting_Traffic else .protected_clearance
  else if green then .permissive_Movement_Allowed
  else .dark

def pedestrianState (dontWalk pedClear walk : Bool) : PhaseState :=
  if dontWalk then .stop_And_Remain
  else if pedClear then .protected_clearance
  else if walk then .permissive_Movement_Allowed
  else .dark

/-- Overlaps are not forced to flash. -/
def overlapState (isFlashing red yellow green : Bool) : PhaseState :=
  vehicleState isFlashing false red yellow green

/-- The end times, the later one if `hasMax`. -/
def timing (minTime maxTime : ℕ) (hasMax : Bool) : TimeChangeDetails where
  minEndTime := adjustedTime now minTime
  maxEndTime := if hasMax then some (adjustedTime now maxTime) else none

/-- The bits have no effect, so all of them are read first. -/
def populateVehicleSignalGroup (signalGroup : ℤ) (phase : UInt8) : Option MovementState := do
  let isFlashing ← d.getPhaseFlashingStatus phase
  let forceFlashing := d.isFlashingStatus && !d.isPhaseFlashing
  let red ← d.getPhaseRedStatus phase
  let yellow ← d.getPhaseYellowStatus phase
  let green ← d.getPhaseGreensStatus phase
  let minTime ← d.getVehicleMinTime phase
  let maxTime ← d.getVehicleMaxTime phase
  some ⟨signalGroup, [⟨vehicleState isFlashing forceFlashing red yellow green,
    timing now minTime maxTime (maxTime > 0)⟩], none⟩

/-- The array of the phase times is asked for a latest end with the phase itself. -/
def populatePedestrianSignalGroup (signalGroup : ℤ) (phase : UInt8) : Option MovementState := do
  let dontWalk ← d.getPhaseDontWalkStatus phase
  let pedClear ← d.getPhasePedClearsStatus phase
  let walk ← d.getPhaseWalkStatus phase
  let minTime ← d.getPedMinTime phase
  let atPhase ← d.ext.phaseTimes[phase.toNat]?
  let maxTime ← d.getPedMaxTime phase
  let pedDetect ← d.getSpatPedestrianDetect phase
  some ⟨signalGroup, [⟨pedestrianState dontWalk pedClear walk,
    timing now minTime maxTime (atPhase.spatPedMaxTimeToChange > 0)⟩],
    if pedDetect then some [⟨0, some true⟩] else none⟩

def populateOverlapSignalGroup (signalGroup : ℤ) (phase : UInt8) : Option MovementState := do
  let isFlashing ← d.getOverlapFlashingStatus phase
  let red ← d.getOverlapRedStatus phase
  let yellow ← d.getOverlapYellowStatus phase
  let green ← d.getOverlapGreenStatus phase
  let minTime ← d.getOverlapMinTime phase
  let maxTime ← d.getOverlapMaxTime phase
  some ⟨signalGroup, [⟨overlapState isFlashing red yellow green,
    timing now minTime maxTime (maxTime > 0)⟩], none⟩

end Populate

section MovementList
variable (d : Decoded) (now : ℕ) (signalGroupMappingList : List SignalGroupMapping)

/-- The passes over the list, in their order. -/
inductive Kind where
  | vehicle | pedestrian | overlap
deriving DecidableEq

def Kind.all : List Kind := [.vehicle, .pedestrian, .overlap]

def Kind.text : Kind → Bytes
  | .vehicle => cstr "vehicle"
  | .pedestrian => cstr "pedestrian"
  | .overlap => cstr "overlap"

def populate : Kind → ℤ → UInt8 → Option MovementState
  | .vehicle => populateVehicleSignalGroup d now
  | .pedestrian => populatePedestrianSignalGroup d now
  | .overlap => populateOverlapSignalGroup d now

/-- The entry gets a movement in the pass for a slot with the phase. -/
def SignalGroupMapping.Selected (it : SignalGroupMapping) (kind : Kind) (phase : UInt8) : Prop :=
  (it.PhaseId = phase.toNat ∧ Client.iequals it.Type' kind.text = true) ∧ it.SignalGroupId > 0

instance (kind : Kind) (phase : UInt8) :
    DecidablePred fun it : SignalGroupMapping => it.Selected kind phase := fun it =>
  inferInstanceAs (Decidable ((it.PhaseId = phase.toNat ∧
    Client.iequals it.Type' kind.text = true) ∧ it.SignalGroupId > 0))

/-- A movement with the entry that it was made for. -/
abbrev Made := SignalGroupMapping × MovementState

/-- A pass over the mapping for the phase of one slot. -/
def pass (phase : UInt8) (kind : Kind) : Option (List Made) :=
  collect (fun it => (populate d now kind it.SignalGroupId phase).map fun movement =>
    [(it, movement)]) (signalGroupMappingList.filter fun it => it.Selected kind phase)

/-- The movement list, slot by slot. -/
def movementList : Option (List Made) :=
  collect (fun slot => collect (pass d now signalGroupMappingList slot.phaseNumber) Kind.all)
    d.ext.phaseTimes

def minOfYear (tm_yday : ℕ) : ℕ := now / MINUTE % 60 + now / HOUR % 24 * 60 + tm_yday * 24 * 60

def msOfMin : ℕ := 1000 * (now / SECOND % 60) + now / MILLISECOND % 1000

def ToJ2735r41SPAT (intersectionName : Bytes) (intersectionId : ℤ) (tm_yday : ℕ) :
    Option IntersectionState :=
  (movementList d now signalGroupMappingList).map fun movements =>
    { name := some intersectionName
      id := intersectionId
      revision := 1
      status := [0, d.ext.spatIntersectionStatus]
      moy := some (minOfYear now tm_yday)
      timeStamp := some (msOfMin now)
      states := movements.map Prod.snd }

end MovementList

section Slots
variable {phaseTimes : List PhaseTime} {phase : UInt8} {slot : PhaseTime}

/-- The slot with the phase number; of several the last. -/
def slotOf (phaseTimes : List PhaseTime) (phase : UInt8) : Option PhaseTime :=
  (phaseTimes.filter fun slot => slot.phaseNumber = phase).getLast?

theorem slotOf_concat (phaseTimes : List PhaseTime) (slot : PhaseTime) (phase : UInt8) :
    slotOf (phaseTimes ++ [slot]) phase =
      if slot.phaseNumber = phase then some slot else slotOf phaseTimes phase := by
  rw [slotOf, List.filter_append]
  by_cases h : slot.phaseNumber = phase <;> simp [slotOf, h]

theorem slotOf_phaseNumber (h : slotOf phaseTimes phase = some slot) :
    slot ∈ phaseTimes ∧ slot.phaseNumber = phase := by
  have hmem := List.mem_of_getLast? h
  rw [List.mem_filter, decide_eq_true_eq] at hmem
  exact hmem

theorem exists_slotOf (h : slot ∈ phaseTimes) (hphase : slot.phaseNumber = phase) :
    ∃ slot, slotOf phaseTimes phase = some slot := by
  have hne : phaseTimes.filter (fun slot => slot.phaseNumber = phase) ≠ [] :=
    List.ne_nil_of_mem (List.mem_filter.mpr ⟨h, by simpa using hphase⟩)
  exact ⟨_, List.getLast?_eq_some_getLast hne⟩

theorem mapPhases_concat (phaseTimes : List PhaseTime) (slot : PhaseTime) :
    Ntcip1202.mapPhases (phaseTimes ++ [slot]) =
      if 0 < slot.phaseNumber then
        Function.update (Ntcip1202.mapPhases phaseTimes) slot.phaseNumber (some phaseTimes.length)
      else Ntcip1202.mapPhases phaseTimes := by
  rw [Ntcip1202.mapPhases, List.zipIdx_append, List.foldl_append]
  simp [Ntcip1202.mapPhases]

/-- The index of a phase is that of its last slot. -/
theorem getElem?_mapPhases (hphase : 0 < phase) (h : slotOf phaseTimes phase = some slot) :
    phaseTimes[(Ntcip1202.mapPhases phaseTimes phase).getD 0]? = some slot := by
  suffices hindex : ∃ i, Ntcip1202.mapPhases phaseTimes phase = some i ∧
      phaseTimes[i]? = some slot by
    obtain ⟨i, hi, hget⟩ := hindex
    rw [hi, Option.getD_some, hget]
  induction phaseTimes using List.reverseRecOn with
  | nil => exact absurd h (by simp [slotOf])
  | append_singleton phaseTimes last ih =>
    rw [slotOf_concat] at h
    rw [mapPhases_concat]
    by_cases hlast : last.phaseNumber = phase
    · rw [if_pos hlast] at h
      rw [if_pos (hlast ▸ hphase), hlast, Function.update_self, ← Option.some.inj h]
      exact ⟨_, rfl, by simp⟩
    · rw [if_neg hlast] at h
      obtain ⟨i, hi, hget⟩ := ih h
      refine ⟨i, ?_, ?_⟩
      · split_ifs
        · rw [Function.update_of_ne (Ne.symm hlast), hi]
        · exact hi
      · have hlt : i < phaseTimes.length := (List.getElem?_eq_some_iff.mp hget).1
        rw [List.getElem?_append_left hlt, hget]

/-- What the members of `Ntcip1202` have in common after a packet. -/
def Decoded.Mapped (d : Decoded) : Prop :=
  d.phaseToIndexMapping = Ntcip1202.mapPhases d.ext.phaseTimes

theorem mapped_of_copy {n n' : Ntcip1202} {buff : Bytes}
    (h : n.copyBytesIntoNtcip1202 buff = some n') : n'.decoded.Mapped := by
  obtain ⟨object, -, rfl⟩ := Option.map_eq_some_iff.mp h
  rfl

variable {d : Decoded} {now : ℕ}

theorem timeOf_eq (hd : d.Mapped) (hphase : 0 < phase)
    (hslot : slotOf d.ext.phaseTimes phase = some slot) (field : PhaseTime → UInt16) :
    d.timeOf field phase = some (ntohs (field slot)).toNat := by
  rw [Decoded.timeOf, Decoded.phaseTime, hd, getElem?_mapPhases hphase hslot, Option.map_some]

end Slots

section Pedestrians
variable {d : Decoded} {now : ℕ} {phase : UInt8} {slot : PhaseTime}

/-- The movement ends when the slot says, and has a latest end if the slot has one. -/
def PedestrianKept (now : ℕ) (slot : PhaseTime) (movement : MovementState) : Prop :=
  movement.state_time_speed.map MovementEvent.timing =
    [timing now (ntohs slot.spatPedMinTimeToChange).toNat (ntohs slot.spatPedMaxTimeToChange).toNat
      (slot.spatPedMaxTimeToChange ≠ 0)]

/-- There is a slot at the index that is the phase number, and it has a latest end for pedestrians
if the slot of the phase has one. -/
def PedestrianTimed (d : Decoded) (phase : UInt8) (slot : PhaseTime) : Prop :=
  ∃ atPhase, d.ext.phaseTimes[phase.toNat]? = some atPhase ∧
    (atPhase.spatPedMaxTimeToChange ≠ 0 ↔ slot.spatPedMaxTimeToChange ≠ 0)

theorem statusBit_eq (word : UInt16) (hlow : 1 ≤ phase) (hhigh : phase ≤ 32) :
    statusBit word phase = some (bit word phase) :=
  if_pos ⟨hlow, hhigh⟩

/-- The phase's own bits and the two slots. -/
theorem populatePedestrian_eq (hd : d.Mapped) (hlow : 1 ≤ phase) (hhigh : phase ≤ 32)
    (hslot : slotOf d.ext.phaseTimes phase = some slot) (signalGroup : ℤ) :
    populatePedestrianSignalGroup d now signalGroup phase =
      (d.ext.phaseTimes[phase.toNat]?).map fun atPhase =>
        ⟨signalGroup, [⟨pedestrianState (bit d.ext.phaseStatusGroupDontWalks phase)
            (bit d.ext.phaseStatusGroupPedClears phase) (bit d.ext.phaseStatusGroupWalks phase),
          timing now (ntohs slot.spatPedMinTimeToChange).toNat
            (ntohs slot.spatPedMaxTimeToChange).toNat (atPhase.spatPedMaxTimeToChange > 0)⟩],
          if bit d.ext.spatPedestrianDetect phase then
            some [⟨0, some true⟩] else none⟩ := by
  simp only [populatePedestrianSignalGroup, Decoded.getPhaseDontWalkStatus,
    Decoded.getPhasePedClearsStatus, Decoded.getPhaseWalkStatus, Decoded.getSpatPedestrianDetect,
    statusBit_eq _ hlow hhigh, Decoded.getPedMinTime, Decoded.getPedMaxTime,
    timeOf_eq hd hlow hslot, Option.bind_eq_bind, Option.bind_some]
  cases d.ext.phaseTimes[phase.toNat]? <;> rfl

theorem timing_inj_hasMax (minTime maxTime : ℕ) (a b : Bool) :
    timing now minTime maxTime a = timing now minTime maxTime b ↔ a = b := by
  cases a <;> cases b <;> simp [timing]

theorem populatePedestrian_kept_iff (hd : d.Mapped) (hlow : 1 ≤ phase) (hhigh : phase ≤ 32)
    (hslot : slotOf d.ext.phaseTimes phase = some slot) (signalGroup : ℤ) :
    (∃ movement, populatePedestrianSignalGroup d now signalGroup phase = some movement ∧
        PedestrianKept now slot movement) ↔ PedestrianTimed d phase slot := by
  rw [populatePedestrian_eq hd hlow hhigh hslot, PedestrianTimed]
  rcases d.ext.phaseTimes[phase.toNat]? with _ | atPhase
  · simp
  · simp only [Option.map_some, Option.some.injEq, exists_eq_left', PedestrianKept, List.map_cons,
      List.map_nil, List.cons.injEq, and_true, timing_inj_hasMax, decide_eq_decide,
      UInt16.pos_iff_ne_zero]

/-- For the entry of a pedestrian phase the packet has to agree at two places. -/
theorem pedestrian_kept_iff (n n' : Ntcip1202) (buff : Bytes)
    (hcopy : n.copyBytesIntoNtcip1202 buff = some n') (it : SignalGroupMapping) (phase : UInt8)
    (hlow : 1 ≤ phase) (hhigh : phase ≤ 16) (slot : PhaseTime)
    (hslot : slotOf n'.decoded.ext.phaseTimes phase = some slot) (now : ℕ) :
    (∃ movement, populate n'.decoded now .pedestrian it.SignalGroupId phase = some movement ∧
        PedestrianKept now slot movement) ↔ PedestrianTimed n'.decoded phase slot :=
  populatePedestrian_kept_iff (mapped_of_copy hcopy) hlow (UInt8.le_trans hhigh (by decide)) hslot _

/-- The bytes of a slot, with times for pedestrians only. -/
def slotBytes (phase pedMin pedMax : UInt8) : Bytes :=
  [phase, 0, 0, 0, 0, 0, pedMin, 0, pedMax, 0, 0, 0, 0]

/-- A packet with these slots, and zeros for the rest. -/
def packetOf (slots : List Bytes) : Bytes := ([0, 0] ++ slots.flatten).takeD SIZEOF_NTCIP1202EXT 0

theorem length_packetOf (slots : List Bytes) :
    (packetOf slots).toArray.size = SIZEOF_NTCIP1202EXT := by
  simp [packetOf]

theorem copy_packetOf (n : Ntcip1202) (slots : List Bytes) :
    n.copyBytesIntoNtcip1202 (packetOf slots) =
      some ⟨⟨_, length_packetOf slots⟩,
        Ntcip1202.mapPhases (Object.ext ⟨_, length_packetOf slots⟩).phaseTimes⟩ :=
  copyBytesIntoNtcip1202_full n ⟨_, length_packetOf slots⟩

theorem copy_twoSlots :
    (Ntcip1202.new.copyBytesIntoNtcip1202 (packetOf [slotBytes 1 30 50, slotBytes 2 30 50])).map
        (fun n => (slotOf n.decoded.ext.phaseTimes 1, n.decoded.ext.phaseTimes[1]?)) =
      some (some ⟨1, 0, 0, 30 * 256, 50 * 256, 0, 0⟩,
        some ⟨2, 0, 0, 30 * 256, 50 * 256, 0, 0⟩) := by
  rw [copy_packetOf]
  decide +kernel

theorem pedestrian_kept : ∃ n', Ntcip1202.new.copyBytesIntoNtcip1202
      (packetOf [slotBytes 1 30 50, slotBytes 2 30 50]) = some n' ∧
    ∃ movement, populate n'.decoded 0 .pedestrian 4 1 = some movement ∧
      PedestrianKept 0 ⟨1, 0, 0, 30 * 256, 50 * 256, 0, 0⟩ movement := by
  obtain ⟨n', hcopy, hread⟩ := Option.map_eq_some_iff.mp copy_twoSlots
  obtain ⟨hslot, hatPhase⟩ := Prod.mk.inj hread
  exact ⟨n', hcopy, (pedestrian_kept_iff _ n' _ hcopy ⟨4, 1, []⟩ 1 (by decide) (by decide) _ hslot
    0).mpr ⟨_, hatPhase, by decide⟩⟩

theorem copy_oneSlot :
    (Ntcip1202.new.copyBytesIntoNtcip1202 (packetOf [slotBytes 1 30 50])).map
        (fun n => (slotOf n.decoded.ext.phaseTimes 1, n.decoded.ext.phaseTimes[1]?)) =
      some (some ⟨1, 0, 0, 30 * 256, 50 * 256, 0, 0⟩, some ⟨0, 0, 0, 0, 0, 0, 0⟩) := by
  rw [copy_packetOf]
  decide +kernel

/-- Phase 1 in the first slot loses its latest end if the second slot is empty. -/
theorem pedestrian_end_lost : ∃ n', Ntcip1202.new.copyBytesIntoNtcip1202
      (packetOf [slotBytes 1 30 50]) = some n' ∧
    slotOf n'.decoded.ext.phaseTimes 1 = some ⟨1, 0, 0, 30 * 256, 50 * 256, 0, 0⟩ ∧
    ¬ ∃ movement, populate n'.decoded 0 .pedestrian 4 1 = some movement ∧
      PedestrianKept 0 ⟨1, 0, 0, 30 * 256, 50 * 256, 0, 0⟩ movement := by
  obtain ⟨n', hcopy, hread⟩ := Option.map_eq_some_iff.mp copy_oneSlot
  obtain ⟨hslot, hatPhase⟩ := Prod.mk.inj hread
  refine ⟨n', hcopy, hslot, fun hkept => ?_⟩
  obtain ⟨atPhase, hat, hiff⟩ := (populatePedestrian_kept_iff (mapped_of_copy hcopy) (by decide)
    (by decide) hslot 4).mp hkept
  have hsame : atPhase = ⟨0, 0, 0, 0, 0, 0, 0⟩ := Option.some.inj (hat.symm.trans hatPhase)
  rw [hsame] at hiff
  exact absurd hiff (by decide)

end Pedestrians
end V2IHub.Spat
