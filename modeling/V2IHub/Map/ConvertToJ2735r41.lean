import V2IHub.Map.MapBlob
import V2IHub.Map.MapData

/-! The conversion of a `map` structure to MAP data, and when it keeps every geometry. -/
namespace V2IHub.Map
open V2IHub.Foundation

/-- The `map_lane_type` values that only the conversion names. -/
def crosswalk : UInt8 := 10
def bike : UInt8 := 11
def sidewalk : UInt8 := 12
def barrier : UInt8 := 13
def striping : UInt8 := 14
def trackedVehicle : UInt8 := 15
def parking : UInt8 := 16

/-- A `map` structure with the id that its blob does not carry. -/
structure GidMap extends MapMessage where
  mapid : UInt64

namespace ConvertToJ2735r41
open J2735

section Lane

/-- Twelve bits, with the four that are left over at the end. -/
def maneuverString (maneuver : UInt16) : BitString where
  buf := [(maneuver >>> 4).toUInt8, (maneuver <<< 4).toUInt8]
  bits_unused := 4

/-- `1 << (15 - i)` -/
def attributeBit (i : ℕ) : UInt16 := UInt16.ofNat (1 <<< (15 - i))

def hovLaneUseOnly : UInt16 := attributeBit 2
def restrictedToBusUse : UInt16 := attributeBit 3
def restrictedToTaxiUse : UInt16 := attributeBit 4
def bicyleUseAllowed : UInt16 := attributeBit 1
def heavyRailRoadTrack : UInt16 := attributeBit 3

def createVehicleLaneAttributes (attributes : UInt16) : UInt16 :=
  (if attributes &&& 0x0100 ≠ 0 then hovLaneUseOnly else 0) |||
    (if attributes &&& 0x0200 ≠ 0 then restrictedToBusUse else 0) |||
    if attributes &&& 0x0400 ≠ 0 then restrictedToBusUse ||| restrictedToTaxiUse else 0

def createCrosswalkLaneAttributes (attributes : UInt16) : UInt16 :=
  if attributes &&& 0x1000 ≠ 0 then bicyleUseAllowed else 0

def createTrackedVehicleAttributes : UInt16 := heavyRailRoadTrack

/-- The alternative of the lane type with its 16 bits. -/
def addLaneType (directionalUse : UInt8) (laneType : LaneType) (attributes : UInt16) :
    LaneAttributes where
  directionalUse := ⟨[directionalUse], 6⟩
  sharedWith := ⟨[0, 0], 6⟩
  laneType := laneType
  laneTypeBits := ⟨[(attributes >>> 8).toUInt8, attributes.toUInt8], 0⟩

def ingressPath : UInt8 := UInt8.ofNat (1 <<< (7 - 0))
def egressPath : UInt8 := UInt8.ofNat (1 <<< (7 - 1))

/-- The lane attributes, and the maneuvers where the lane type has them. -/
def laneAttributes (direction : Direction) (lane : MapLane) : LaneAttributes × Option BitString :=
  let both := ingressPath ||| egressPath
  if lane.type = vehicle ∨ lane.type = computed then
    (addLaneType (match direction with | .approach => ingressPath | .egress => egressPath)
      .vehicle (createVehicleLaneAttributes lane.attributes),
      some (maneuverString lane.attributes))
  else if lane.type = pedestrian ∨ lane.type = crosswalk then
    (addLaneType both .crosswalk (createCrosswalkLaneAttributes lane.attributes), none)
  else if lane.type = trackedVehicle then
    (addLaneType both .trackedVehicle createTrackedVehicleAttributes,
      some (maneuverString lane.attributes))
  else if lane.type = bike then (addLaneType both .bikeLane 0, none)
  else if lane.type = sidewalk then (addLaneType both .sidewalk 0, none)
  else if lane.type = barrier then (addLaneType both .median 0, none)
  else if lane.type = striping then (addLaneType both .striping 0, none)
  else if lane.type = parking then (addLaneType both .parking 0, none)
  else (⟨⟨[0], 6⟩, ⟨[0, 0], 6⟩, .nothing, ⟨[], 0⟩⟩, none)

def newConnection (connection : Map.Connection) : J2735.Connection where
  lane := connection.lanenumber.toNat
  maneuver := if connection.maneuver ≠ 0 then some (maneuverString connection.maneuver) else none
  signalGroup := some connection.signalGroup.toNat

/-- No list at all if the first slot is free. -/
def connectsTo (lane : MapLane) : Option (List J2735.Connection) :=
  if (lane.connection 0).lanenumber ≠ 0 then
    some (loopUsed (fun ct => (lane.connection ct).lanenumber ≠ 0)
      (fun list ct => list ++ [newConnection (lane.connection ct)]) []
      (List.finRange maxconnections))
  else none

/-- The width of lane 0 is the default. -/
def newNode (group : MapGroup) (laneIter : Fin maxlanes) (node : MapNode) : Node where
  delta := offsetXY node.eastern.toInt node.northern.toInt
  attributes := some {
    dWidth :=
      if (group.lane 0).width ≠ (group.lane laneIter).width then
        some ((group.lane laneIter).width.toNat - (group.lane 0).width.toNat)
      else none
    dElevation := if node.elevation ≠ 0 then some node.elevation.toInt else none }

def LoadGenericLaneData (laneIter : Fin maxlanes) (direction : Direction) (group : MapGroup) :
    GenericLane :=
  let lane := group.lane laneIter
  let attributes := laneAttributes direction lane
  { laneID := lane.number.toNat
    ingressApproach := none
    egressApproach := none
    laneAttributes := attributes.1
    maneuvers := attributes.2
    nodeList :=
      if lane.type = computed then
        .computed ⟨lane.referencelane.lanenumber.toNat, lane.referencelane.xoffset.toInt,
          lane.referencelane.yoffset.toInt⟩
      else
        .nodes (loopUsed (fun n => lane.node n ≠ .zero)
          (fun nodes n => nodes ++ [newNode group laneIter (lane.node n)]) []
          (List.finRange maxnodes))
    connectsTo := connectsTo lane }

end Lane

section Geometries

def loadLanes (direction : Direction) (group : MapGroup) (laneSet : List GenericLane) :
    List GenericLane :=
  loopUsed (fun l => (group.lane l).number ≠ 0)
    (fun laneSet l => laneSet ++ [LoadGenericLaneData l direction group]) laneSet
    (List.finRange maxlanes)

/-- The lanes of a geometry: first the approach, then the egress. -/
def laneSet (geom : Geometry) : List GenericLane :=
  loadLanes .egress geom.egress (loadLanes .approach geom.approach [])

abbrev Populated (geom : Geometry) : Prop :=
  ¬ (geom.refpoint.longitude = 0 ∧ geom.refpoint.latitude = 0)

def refPoint (message : GidMap) (geom : Geometry) : Position3D where
  lat := geom.refpoint.latitude.toInt
  Long := geom.refpoint.longitude.toInt
  elevation := if hasElevation message.attributes then some geom.refpoint.elevation.toInt else none

/-- An old file may not have the `mapid`. -/
def newIntersection (message : GidMap) (geom : Geometry) : IntersectionGeometry where
  name := none
  id :=
    if message.mapid.toInt64.toInt = 0 then message.intersectionid.toInt64.toInt
    else message.mapid.toInt64.toInt
  revision := 1
  refPoint := refPoint message geom
  laneWidth := some (geom.approach.lane 0).width.toNat
  laneSet := laneSet geom

def newRoadSegment (message : GidMap) (geom : Geometry) : RoadSegment where
  id := message.mapid.toInt64.toInt
  revision := 1
  refPoint := refPoint message geom
  laneWidth := some (geom.approach.lane 0).width.toNat
  roadLaneSet := laneSet geom

/-- The list head is allocated for every geometry. -/
def addIntersection (message : GidMap) (mapJ2735 : MapData) (g : Fin maxgeometries) : MapData :=
  let mapJ2735 := { mapJ2735 with intersections := some [] }
  { mapJ2735 with
    intersections := mapJ2735.intersections.map fun list =>
      list ++ [newIntersection message (message.geometry g)] }

def addRoadSegment (message : GidMap) (mapJ2735 : MapData) (g : Fin maxgeometries) : MapData :=
  let mapJ2735 := { mapJ2735 with roadSegments := some [] }
  { mapJ2735 with
    roadSegments := mapJ2735.roadSegments.map fun list =>
      list ++ [newRoadSegment message (message.geometry g)] }

def convertIntersectionMap (mapJ2735 : MapData) (message : GidMap) : MapData :=
  loopUsed (fun g => Populated (message.geometry g)) (addIntersection message)
    { mapJ2735 with layerType := some .intersectionData } (List.finRange maxgeometries)

def convertRoadwayMap (mapJ2735 : MapData) (message : GidMap) : MapData :=
  loopUsed (fun g => Populated (message.geometry g)) (addRoadSegment message)
    { mapJ2735 with layerType := some .roadwaySectionData } (List.finRange maxgeometries)

/-- The MAP data as `convertMap` allocates it. -/
def emptyMapData : MapData := ⟨none, none, none⟩

end Geometries

section Kept

/-- The number that the bits stand for. -/
def bitValue (bits : BitString) : ℕ :=
  bits.buf.foldl (fun v b => 256 * v + b.toNat) 0 / 2 ^ bits.bits_unused

structure ConnectionKept (connection : Map.Connection) (new : J2735.Connection) : Prop where
  lane : new.lane = connection.lanenumber.toNat
  signalGroup : new.signalGroup = some (connection.signalGroup.toNat : ℤ)
  /-- Twelve bits, or nothing for no maneuver. -/
  maneuver : if connection.maneuver = 0 then new.maneuver = none else
    ∃ bits, new.maneuver = some bits ∧ 8 * bits.buf.length = 12 + bits.bits_unused ∧
      bitValue bits = connection.maneuver.toNat % 2 ^ 12

structure NodeKept (node : MapNode) (new : Node) : Prop where
  x : new.delta.x = node.eastern.toInt
  y : new.delta.y = node.northern.toInt

def leadingNodes (lane : MapLane) : List MapNode := leadingSlots (· ≠ .zero) lane.node

structure LaneKept (lane : MapLane) (new : GenericLane) : Prop where
  laneID : new.laneID = lane.number.toNat
  connectsTo : List.Forall₂ ConnectionKept
    (leadingSlots (fun connection => connection.lanenumber ≠ 0) lane.connection)
    (new.connectsTo.getD [])
  nodeList : List.Forall₂ NodeKept (leadingNodes lane) new.nodeList.toList

/-- The approach lanes, then the egress lanes. -/
def leadingLanes (geom : Geometry) : List MapLane :=
  leadingSlots (fun lane => lane.number ≠ 0) geom.approach.lane ++
    leadingSlots (fun lane => lane.number ≠ 0) geom.egress.lane

def leadingGeometries (message : GidMap) : List Geometry := leadingSlots Populated message.geometry

/-- Every geometry is there, in order, with its reference point and its lanes. -/
def KeepsGeometries (message : GidMap) (new : List (Position3D × List GenericLane)) : Prop :=
  List.Forall₂ (fun geom new => new.1 = refPoint message geom ∧
    List.Forall₂ LaneKept (leadingLanes geom) new.2) (leadingGeometries message) new

/-- There is one geometry at most, and its computed lanes have no nodes of their own. -/
structure OneGeometry (message : GidMap) : Prop where
  length_le : (leadingGeometries message).length ≤ 1
  computed : ∀ geom ∈ leadingGeometries message, ∀ lane ∈ leadingLanes geom,
    lane.type = Map.computed → leadingNodes lane = []

variable {message : GidMap} {geom : Geometry} {group : MapGroup} {direction : Direction}
  {laneIter : Fin maxlanes}

theorem bitValue_maneuverString (maneuver : UInt16) :
    bitValue (maneuverString maneuver) = maneuver.toNat % 2 ^ 12 := by
  have hlt := maneuver.toNat_lt
  simp [bitValue, maneuverString]
  omega

theorem newConnection_kept (connection : Map.Connection) :
    ConnectionKept connection (newConnection connection) where
  lane := rfl
  signalGroup := rfl
  maneuver := by
    by_cases h : connection.maneuver = 0
    · simp [newConnection, h]
    · rw [if_neg h]
      exact ⟨maneuverString connection.maneuver, if_pos h, rfl, bitValue_maneuverString _⟩

theorem connectsTo_getD (lane : MapLane) : (connectsTo lane).getD [] =
    (leadingSlots (fun connection => connection.lanenumber ≠ 0) lane.connection).map
      newConnection := by
  by_cases h : (lane.connection 0).lanenumber = 0
  · simp [connectsTo, leadingSlots, h, List.finRange_succ]
  · rw [connectsTo, if_pos h, Option.getD_some, loopUsed_append, leadingSlots, List.map_map]
    rfl

theorem offset_toInt (v : Int16) : Offset v.toInt :=
  ⟨v.le_toInt, Int.le_of_lt_add_one v.toInt_lt⟩

theorem newNode_kept (group : MapGroup) (laneIter : Fin maxlanes) (node : MapNode) :
    NodeKept node (newNode group laneIter node) := by
  obtain ⟨hx, hy⟩ := offsetXY_coordinates (offset_toInt node.eastern) (offset_toInt node.northern)
  exact ⟨hx, hy⟩

theorem nodeList_toList (h : (group.lane laneIter).type ≠ Map.computed) :
    (LoadGenericLaneData laneIter direction group).nodeList.toList =
      (leadingNodes (group.lane laneIter)).map (newNode group laneIter) := by
  simp only [LoadGenericLaneData, if_neg h, NodeList.toList, loopUsed_append, List.nil_append,
    leadingNodes, leadingSlots, List.map_map]
  rfl

/-- A computed lane gets no nodes. -/
theorem loadGenericLaneData_kept_iff (laneIter : Fin maxlanes) (direction : Direction)
    (group : MapGroup) :
    LaneKept (group.lane laneIter) (LoadGenericLaneData laneIter direction group) ↔
      ((group.lane laneIter).type = Map.computed → leadingNodes (group.lane laneIter) = []) := by
  constructor
  · intro h htype
    have hnodes := h.nodeList
    rw [LoadGenericLaneData] at hnodes
    simp only [if_pos htype, NodeList.toList, List.forall₂_nil_right_iff] at hnodes
    exact hnodes
  · intro h
    refine ⟨rfl, ?_, ?_⟩
    · change List.Forall₂ _ _ ((connectsTo (group.lane laneIter)).getD [])
      rw [connectsTo_getD, List.forall₂_map_right_iff]
      exact List.forall₂_same.mpr fun connection _ => newConnection_kept connection
    · by_cases htype : (group.lane laneIter).type = Map.computed
      · rw [h htype, LoadGenericLaneData]
        simp [if_pos htype, NodeList.toList]
      · rw [nodeList_toList htype, List.forall₂_map_right_iff]
        exact List.forall₂_same.mpr fun node _ => newNode_kept group laneIter node

theorem loadLanes_eq (direction : Direction) (group : MapGroup) (laneSet : List GenericLane) :
    loadLanes direction group laneSet = laneSet ++
      ((List.finRange maxlanes).takeWhile fun l => (group.lane l).number ≠ 0).map fun l =>
        LoadGenericLaneData l direction group :=
  loopUsed_append _ _ _ _

theorem loadLanes_kept_iff (direction : Direction) (group : MapGroup) :
    List.Forall₂ LaneKept (leadingSlots (fun lane => lane.number ≠ 0) group.lane)
        (loadLanes direction group []) ↔
      ∀ lane ∈ leadingSlots (fun lane => lane.number ≠ 0) group.lane,
        lane.type = Map.computed → leadingNodes lane = [] := by
  rw [loadLanes_eq, List.nil_append, leadingSlots, List.forall₂_map_left_iff,
    List.forall₂_map_right_iff, List.forall₂_same, List.forall_mem_map]
  exact forall₂_congr fun l _ => loadGenericLaneData_kept_iff l direction group

theorem loadLanes_length (direction : Direction) (group : MapGroup) :
    (leadingSlots (fun lane => lane.number ≠ 0) group.lane).length =
      (loadLanes direction group []).length := by
  rw [loadLanes_eq, List.nil_append, leadingSlots, List.length_map, List.length_map]

theorem laneSet_kept_iff (geom : Geometry) :
    List.Forall₂ LaneKept (leadingLanes geom) (laneSet geom) ↔
      ∀ lane ∈ leadingLanes geom, lane.type = Map.computed → leadingNodes lane = [] := by
  have happend : laneSet geom =
      loadLanes .approach geom.approach [] ++ loadLanes .egress geom.egress [] := by
    rw [laneSet, loadLanes_eq .egress, loadLanes_eq .egress _ [], List.nil_append]
  rw [leadingLanes, happend, List.forall_mem_append, ← loadLanes_kept_iff .approach,
    ← loadLanes_kept_iff .egress]
  constructor
  · intro h
    have happroach := List.forall₂_take_append _ _ _ h
    have hegress := List.forall₂_drop_append _ _ _ h
    rw [← loadLanes_length, List.take_left] at happroach
    rw [← loadLanes_length, List.drop_left] at hegress
    exact ⟨happroach, hegress⟩
  · rintro ⟨happroach, hegress⟩
    exact List.rel_append happroach hegress

/-- Only the last geometry is left in the list. -/
theorem foldl_intersections (message : GidMap) (mapJ2735 : MapData)
    (slots : List (Fin maxgeometries)) (g : Fin maxgeometries) :
    ((slots ++ [g]).foldl (addIntersection message) mapJ2735).intersections =
      some [newIntersection message (message.geometry g)] := by
  rw [List.foldl_append]
  rfl

theorem foldl_roadSegments (message : GidMap) (mapJ2735 : MapData)
    (slots : List (Fin maxgeometries)) (g : Fin maxgeometries) :
    ((slots ++ [g]).foldl (addRoadSegment message) mapJ2735).roadSegments =
      some [newRoadSegment message (message.geometry g)] := by
  rw [List.foldl_append]
  rfl

theorem intersectionLanes_eq (message : GidMap) :
    (convertIntersectionMap emptyMapData message).intersectionLanes =
      (leadingGeometries message).getLast?.toList.map fun geom =>
        (refPoint message geom, laneSet geom) := by
  rw [convertIntersectionMap, loopUsed_eq_foldl, leadingGeometries, leadingSlots]
  rcases List.eq_nil_or_concat ((List.finRange maxgeometries).takeWhile fun g =>
    Populated (message.geometry g)) with hnil | ⟨slots, g, hconcat⟩
  · rw [hnil]
    rfl
  · rw [hconcat, List.concat_eq_append, MapData.intersectionLanes, foldl_intersections,
      List.map_append, List.map_singleton, List.getLast?_concat]
    rfl

theorem roadLanes_eq (message : GidMap) :
    (convertRoadwayMap emptyMapData message).roadLanes =
      (leadingGeometries message).getLast?.toList.map fun geom =>
        (refPoint message geom, laneSet geom) := by
  rw [convertRoadwayMap, loopUsed_eq_foldl, leadingGeometries, leadingSlots]
  rcases List.eq_nil_or_concat ((List.finRange maxgeometries).takeWhile fun g =>
    Populated (message.geometry g)) with hnil | ⟨slots, g, hconcat⟩
  · rw [hnil]
    rfl
  · rw [hconcat, List.concat_eq_append, MapData.roadLanes, foldl_roadSegments,
      List.map_append, List.map_singleton, List.getLast?_concat]
    rfl

theorem keepsGeometries_last_iff (message : GidMap) :
    KeepsGeometries message ((leadingGeometries message).getLast?.toList.map fun geom =>
      (refPoint message geom, laneSet geom)) ↔ OneGeometry message := by
  constructor
  · intro h
    have hlength := h.length_eq
    rw [List.length_map] at hlength
    have hle : (leadingGeometries message).length ≤ 1 := by
      rw [hlength]
      exact Option.length_toList_le
    refine ⟨hle, fun geom hgeom => (laneSet_kept_iff geom).mp ?_⟩
    obtain ⟨last, hlast⟩ := List.length_eq_one_iff.mp
      (hle.antisymm (List.length_pos_of_mem hgeom))
    rw [KeepsGeometries, hlast] at h
    rw [hlast, List.mem_singleton] at hgeom
    rw [hgeom]
    exact ((List.forall₂_cons.mp h).1).2
  · intro h
    unfold KeepsGeometries
    rcases hgeoms : leadingGeometries message with _ | ⟨geom, rest⟩
    · exact .nil
    · have hle := h.length_le
      rw [hgeoms, List.length_cons] at hle
      have hrest : rest = [] := List.eq_nil_of_length_eq_zero (by omega)
      subst hrest
      have hlanes := h.computed geom (hgeoms ▸ List.mem_cons_self)
      exact .cons ⟨rfl, (laneSet_kept_iff geom).mpr hlanes⟩ .nil

/-- Both conversions keep all geometries only if there is one at most. -/
theorem converted_keepsGeometries_iff (message : GidMap) :
    (KeepsGeometries message (convertIntersectionMap emptyMapData message).intersectionLanes ↔
        OneGeometry message) ∧
      (KeepsGeometries message (convertRoadwayMap emptyMapData message).roadLanes ↔
        OneGeometry message) := by
  rw [intersectionLanes_eq, roadLanes_eq]
  exact ⟨keepsGeometries_last_iff message, keepsGeometries_last_iff message⟩

/-- A lane that the conversion does not look at. -/
def noLane : MapLane := ⟨0, vehicle, 0, 0, fun _ => .zero, ⟨0, 0, 0, 0⟩, fun _ => ⟨0, 0, 0, 0⟩⟩

/-- Two geometries without lanes. -/
def twoGeometries : GidMap where
  intersectionid := 1
  mapid := 1
  attributes := 0
  geometry := fun g =>
    ⟨⟨if g.val < 2 then 389500000 else 0, if g.val < 2 then -771500000 else 0, 0⟩,
      ⟨0, fun _ => noLane⟩, ⟨0, fun _ => noLane⟩, fun _ => ⟨0, 0, fun _ => .zero⟩⟩
  payload := none

theorem converted_drops_geometry :
    ¬ KeepsGeometries twoGeometries
        (convertIntersectionMap emptyMapData twoGeometries).intersectionLanes ∧
      ¬ KeepsGeometries twoGeometries
        (convertRoadwayMap emptyMapData twoGeometries).roadLanes := by
  have htwo : ¬ (leadingGeometries twoGeometries).length ≤ 1 := by decide
  rw [intersectionLanes_eq, roadLanes_eq]
  exact ⟨fun h => htwo ((keepsGeometries_last_iff _).mp h).length_le,
    fun h => htwo ((keepsGeometries_last_iff _).mp h).length_le⟩

end Kept
end ConvertToJ2735r41
end V2IHub.Map
