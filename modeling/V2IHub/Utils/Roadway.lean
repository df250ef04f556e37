import V2IHub.Utils.MapBoundaryBox

/-! `Roadway`: the map of the road segments of a MAP message, which is read as that of an
intersection is. -/
namespace V2IHub.Utils.Roadway
open Intersection

structure RoadSegment where
  id : ℤ
  refPoint : Position3D
  laneWidth : Option ℤ
  roadLaneSet : List GenericLane
deriving DecidableEq

/-- At least one segment: the schema says `SIZE(1..32)`. -/
structure RoadSegmentList where
  array0 : RoadSegment
  others : List RoadSegment
deriving DecidableEq

structure MapData where
  msgIssueRevision : ℤ
  roadSegments : Option RoadSegmentList
deriving DecidableEq

structure MapDataMessage where
  j2735Data : Option MapData
deriving DecidableEq

def MapDataMessage.findRoadSegments (msg : MapDataMessage) : Option RoadSegmentList :=
  msg.j2735Data.bind MapData.roadSegments

/-- The first segment, in the place that the first intersection has in the functions of the other
class: they read the same members of it. -/
def RoadSegmentList.geometry (segs : RoadSegmentList) : IntersectionGeometryList :=
  ⟨⟨segs.array0.id, segs.array0.refPoint, segs.array0.laneWidth, segs.array0.roadLaneSet⟩, []⟩

/-- The danger zones are left out. -/
structure State (K : Type) where
  mapVersion : ℤ
  mapId : ℤ
  map : ParsedMap K
deriving DecidableEq

section Calls
variable {K : Type} (G : Geodesy K)

def getMapReferencePoint (segs : RoadSegmentList) : WGS84Point K :=
  Intersection.getMapReferencePoint G segs.geometry

def getMapLanes (segs : RoadSegmentList) (map : ParsedMap K) : ParsedMap K × List (MapLane K) :=
  Intersection.getMapLanes G segs.geometry map

def setComputedLanes (lanes : List (MapLane K)) : List (MapLane K) :=
  Intersection.setComputedLanes G lanes

/-- `LandingLane` and `SidewalkLane` -/
def isDangerLane (lane : MapLane K) : Bool := lane.LaneNumber = 1 ∨ lane.LaneNumber = 4

/-- The body of `LoadMap` up to `UpdateDangerZonesForMap`. -/
def parseSegments (map : ParsedMap K) (segs : RoadSegmentList) : ParsedMap K :=
  let point := getMapReferencePoint G segs
  let map := { map with
    ReferencePoint := { map.ReferencePoint with
      Latitude := point.Latitude
      Longitude := point.Longitude } }
  let boxed := getMapLanes G segs (initMapBoundaryBox map)
  { boxed.1 with Lanes := setComputedLanes G boxed.2 }

/-- `none` is `front` of an empty list, in `UpdateDangerZonesForMap`. -/
def loadMap (s : State K) (msg : MapDataMessage) : Option (State K × Bool) :=
  match msg.findRoadSegments, msg.j2735Data with
  | some segs, some data =>
    if data.msgIssueRevision ≠ s.mapVersion then
      let map := parseSegments G s.map segs
      if map.Lanes.any fun lane => isDangerLane lane && lane.Nodes.isEmpty then none
      else some (⟨data.msgIssueRevision, segs.array0.id, map⟩, true)
    else some (s, false)
  | _, _ => some (s, false)

end Calls

/-- The first segment is parsed as the first intersection is. -/
theorem parseSegments_eq {K : Type} {G : Geodesy K} (map : ParsedMap K) (segs : RoadSegmentList) :
    parseSegments G map segs = (parseMap G map [] segs.geometry).1 := rfl

theorem loadMap_eq_some_true {K : Type} {G : Geodesy K} {s s' : State K} {msg : MapDataMessage}
    (h : loadMap G s msg = some (s', true)) :
    ∃ segs, msg.findRoadSegments = some segs ∧ s'.map = parseSegments G s.map segs := by
  cases hsegs : msg.findRoadSegments with
  | none => simp [loadMap, hsegs] at h
  | some segs =>
    cases hdata : msg.j2735Data with
    | none => simp [loadMap, hsegs, hdata] at h
    | some data =>
      refine ⟨segs, rfl, ?_⟩
      simp only [loadMap, hsegs, hdata] at h
      split at h
      · split at h
        · cases h
        · obtain rfl := congrArg Prod.fst (Option.some.inj h)
          rfl
      · cases h

end V2IHub.Utils.Roadway

namespace V2IHub.Utils.Intersection

/-- The geometry that a message is loaded from, if `LoadMap` takes it. -/
theorem loadMap_eq_true {K : Type} {G : Geodesy K} {s : State K} {msg : MapDataMessage} {now : ℕ}
    (h : (loadMap G s msg now).2 = true) :
    ∃ geom, msg.findIntersections = some geom ∧
      (loadMap G s msg now).1.map = (parseMap G s.map s.regions geom).1 := by
  cases hgeom : msg.findIntersections with
  | none => simp [loadMap, hgeom] at h
  | some geom =>
    cases hdata : msg.j2735Data with
    | none => simp [loadMap, hgeom, hdata] at h
    | some data =>
      by_cases hrev : data.msgIssueRevision = s.mapVersion
      · simp [loadMap, hgeom, hdata, hrev] at h
      · exact ⟨geom, rfl, by simp [loadMap, hgeom, hdata, hrev]⟩

section Sample

/-- Lane 1 with two nodes that are a metre apart, and lane 2 three metres ahead of it. -/
def sampleAhead : IntersectionGeometryList :=
  ⟨⟨7, ⟨420000000, -830000000, none⟩, none,
    [⟨1, [128], .nodes [⟨.xy 100 0, none⟩, ⟨.xy 100 0, none⟩], []⟩,
      ⟨2, [128], .computed ⟨1, .small 300, .nothing⟩, []⟩]⟩, []⟩

def sampleLoaded : State ℤ × Bool :=
  loadMap centimetres.exact (initial centimetres.exact) ⟨some ⟨1, some sampleAhead⟩⟩ 0

end Sample

end V2IHub.Utils.Intersection
