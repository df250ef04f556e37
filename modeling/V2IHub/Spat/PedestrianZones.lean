import V2IHub.Foundation.Machine
import V2IHub.Foundation.Strtol
import V2IHub.Spat.Movements

/-! The detections of pedestrians that `getEncodedSpat` writes into the SPAT of the last packet. -/
namespace V2IHub.Spat
open Foundation

/-- `ManeuverAssistList`: the size that it says, and the pointers that its array has room for. -/
structure ManeuverAssistList where
  count : ℕ
  array : List (Option ConnectionManeuverAssist)
deriving DecidableEq

/-- An intersection of the SPAT with the list that the packet does not fill. -/
structure SpatIntersection where
  state : IntersectionState
  maneuverAssistList : Option ManeuverAssistList
deriving DecidableEq

/-- `_spatMessage` of the controller. -/
structure SignalController where
  _spatMessage : Option (List SpatIntersection)
deriving DecidableEq

/-- The zones in the text of the detection message. -/
def zonesOf (currentPedLanes : Bytes) : List ℤ :=
  (strtokAll 44 (cstringAt currentPedLanes)).map strtol0

def detection (zone : ℤ) : ConnectionManeuverAssist := ⟨zone, some true⟩

/-- The loop over the sorted zones, from the index on; `none` is a write behind the array. -/
def fillArray : ℕ → List ℤ → List (Option ConnectionManeuverAssist) →
    Option (List (Option ConnectionManeuverAssist))
  | _, [], array => some array
  | i, zone :: zones, array =>
    if i < array.length then fillArray (i + 1) zones (array.set i (some (detection zone))) else none

namespace SignalController

def new : SignalController := ⟨none⟩

/-- A packet makes a new SPAT. -/
def receive (c : SignalController) (spat : List IntersectionState) : SignalController :=
  { c with _spatMessage := some (spat.map fun state => ⟨state, none⟩) }

def sortedZones (zones : List ℤ) : List ℤ := zones.mergeSort (· ≤ ·)

/-- `getEncodedSpat`, which encodes `_spatMessage` at its end. -/
def getEncodedSpat (c : SignalController) (currentPedLanes : Bytes) : Option SignalController :=
  match c._spatMessage with
  | some (intersection :: others) =>
    let zones := zonesOf currentPedLanes
    if zones ≠ [] then
      (fillArray 0 (sortedZones zones) [none]).map fun array =>
        ⟨some ({ intersection with maneuverAssistList := some ⟨zones.length, array⟩ } :: others)⟩
    else some c
  | _ => some c

end SignalController

inductive ControllerAct where
  | receive (spat : List IntersectionState)
  | getEncodedSpat (currentPedLanes : Bytes)

namespace SignalController

def machine : Machine SignalController ControllerAct where
  step c
    | .receive spat => some (c.receive spat)
    | .getEncodedSpat currentPedLanes => c.getEncodedSpat currentPedLanes

/-- The list of the first intersection. -/
def assistList (c : SignalController) : Option ManeuverAssistList :=
  (c._spatMessage.getD []).head?.bind SpatIntersection.maneuverAssistList

/-- The list holds the zones and nothing else, and its array has room for them. -/
def Shows (zones : List ℤ) : Option ManeuverAssistList → Prop
  | none => zones = []
  | some list => zones ≠ [] ∧ list.count = zones.length ∧ list.count ≤ list.array.length ∧
    ∃ sorted : List ℤ, sorted.Perm zones ∧ sorted.Pairwise (· ≤ ·) ∧
      list.array.take list.count = sorted.map fun zone => some (detection zone)

/-- After a call with an intersection in the SPAT, its list shows the zones of the call. -/
def ShowsCall (act : ControllerAct) (c : SignalController) : Prop :=
  match act with
  | .receive _ => True
  | .getEncodedSpat currentPedLanes =>
    c._spatMessage.getD [] ≠ [] → Shows (zonesOf currentPedLanes) c.assistList

/-- The call has one zone at most, and one at least if there is still a list. -/
def Guarded (c : SignalController) : ControllerAct → Prop
  | .receive _ => True
  | .getEncodedSpat currentPedLanes => c._spatMessage.getD [] ≠ [] →
    (zonesOf currentPedLanes).length ≤ 1 ∧
      (zonesOf currentPedLanes = [] → c.assistList = none)

/-- The array has room for one zone. -/
theorem fillArray_eq_none_iff (zones : List ℤ) :
    fillArray 0 zones [none] = none ↔ 2 ≤ zones.length := by
  match zones with
  | [] => simp [fillArray]
  | [zone] => simp [fillArray]
  | zone :: zone' :: zones => simp [fillArray]

/-- Two zones do not fit. -/
theorem getEncodedSpat_of_two {intersection : SpatIntersection} {others : List SpatIntersection}
    {currentPedLanes : Bytes} (h : 2 ≤ (zonesOf currentPedLanes).length) :
    getEncodedSpat ⟨some (intersection :: others)⟩ currentPedLanes = none := by
  have hne : zonesOf currentPedLanes ≠ [] := by
    rintro hnil
    simp [hnil] at h
  have hnone : fillArray 0 (sortedZones (zonesOf currentPedLanes)) [none] = none :=
    (fillArray_eq_none_iff _).mpr (by rwa [sortedZones, List.length_mergeSort])
  simp only [getEncodedSpat, if_pos hne, hnone, Option.map_none]

/-- One zone makes a new list. -/
theorem getEncodedSpat_of_one {intersection : SpatIntersection} {others : List SpatIntersection}
    {currentPedLanes : Bytes} {zone : ℤ} (h : zonesOf currentPedLanes = [zone]) :
    getEncodedSpat ⟨some (intersection :: others)⟩ currentPedLanes =
      some ⟨some ({ intersection with
        maneuverAssistList := some ⟨1, [some (detection zone)]⟩ } :: others)⟩ := by
  simp [getEncodedSpat, h, sortedZones, fillArray]

/-- Without a zone nothing is written. -/
theorem getEncodedSpat_of_nil {c : SignalController} {currentPedLanes : Bytes}
    (h : zonesOf currentPedLanes = []) : c.getEncodedSpat currentPedLanes = some c := by
  rcases c with ⟨_ | _ | ⟨intersection, others⟩⟩
  · rfl
  · rfl
  · simp [getEncodedSpat, h]

theorem step_iff (c : SignalController) (act : ControllerAct) :
    (∃ c', machine.step c act = some c' ∧ ShowsCall act c') ↔ c.Guarded act := by
  cases act with
  | receive spat => exact iff_of_true ⟨_, rfl, trivial⟩ trivial
  | getEncodedSpat currentPedLanes =>
    change (∃ c', c.getEncodedSpat currentPedLanes = some c' ∧ _) ↔ _
    rcases c with ⟨_ | _ | ⟨intersection, others⟩⟩
    · exact iff_of_true ⟨_, rfl, fun h => absurd rfl h⟩ fun h => absurd rfl h
    · exact iff_of_true ⟨_, rfl, fun h => absurd rfl h⟩ fun h => absurd rfl h
    · simp only [Guarded, ShowsCall, Option.getD_some, ne_eq, reduceCtorEq, not_false_eq_true,
        forall_const]
      match hzones : zonesOf currentPedLanes with
      | [] =>
        rw [getEncodedSpat_of_nil hzones]
        simp only [Option.some.injEq, exists_eq_left', Option.getD_some, reduceCtorEq,
          not_false_eq_true, forall_const, List.length_nil, Nat.zero_le, true_and]
        cases assistList ⟨some (intersection :: others)⟩ <;> simp [Shows]
      | [zone] =>
        rw [getEncodedSpat_of_one hzones]
        refine iff_of_true ⟨_, rfl, fun _ => ?_⟩ ⟨le_rfl, fun h => nomatch h⟩
        exact ⟨List.cons_ne_nil _ _, rfl, le_rfl, [zone], .refl _, List.pairwise_singleton _ _, rfl⟩
      | zone :: zone' :: zones =>
        rw [getEncodedSpat_of_two (by rw [hzones]; exact Nat.le_add_left 2 _)]
        simp

/-- Every call of a run shows its zones exactly if every call has one zone at most, and none only
where the SPAT has no list yet. -/
theorem zones_shown_iff (acts : List ControllerAct) :
    (∀ before act after, acts = before ++ act :: after →
      ∃ c, machine.run new (before ++ [act]) = some c ∧ ShowsCall act c) ↔
      machine.Obeys Guarded new acts := by
  rw [← Machine.obeys_congr step_iff]
  exact Machine.obeys_iff_exists_after.symm

/-- An intersection without any movements. -/
def sampleState : IntersectionState := ⟨none, 7, 0, [], none, none, []⟩

/-- Two pedestrians at once are written behind the array, and a single one stays when it has
left. -/
theorem zones_not_shown :
    machine.run new [.receive [sampleState], .getEncodedSpat (cstr "9,8")] = none ∧
      (machine.run new [.receive [sampleState], .getEncodedSpat (cstr "8"),
        .getEncodedSpat []]).map assistList = some (some ⟨1, [some (detection 8)]⟩) ∧
      ¬ ∀ (acts before after : List ControllerAct) (act : ControllerAct),
        acts = before ++ act :: after →
          ∃ c, machine.run new (before ++ [act]) = some c ∧ ShowsCall act c := by
  have htwo : machine.run new [.receive [sampleState], .getEncodedSpat (cstr "9,8")] = none := by
    have hstep : ((new.receive [sampleState]).getEncodedSpat (cstr "9,8")) = none :=
      getEncodedSpat_of_two (by decide)
    simp only [Machine.run, machine, hstep]
  refine ⟨htwo, ?_, fun hall => ?_⟩
  · have hzones : zonesOf (cstr "8") = [8] := by decide
    have hone : (new.receive [sampleState]).getEncodedSpat (cstr "8") = _ :=
      getEncodedSpat_of_one hzones
    simp only [Machine.run, machine, hone, getEncodedSpat_of_nil (show zonesOf [] = [] by decide)]
    rfl
  · obtain ⟨c, hc, -⟩ := hall [.receive [sampleState], .getEncodedSpat (cstr "9,8")]
      [.receive [sampleState]] [] (.getEncodedSpat (cstr "9,8")) rfl
    have hboth : none = some c := htwo.symm.trans hc
    cases hboth

end SignalController

end V2IHub.Spat
