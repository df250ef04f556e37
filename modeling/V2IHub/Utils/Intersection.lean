import Mathlib.Data.List.Infix
import Mathlib.Tactic

/-! `Intersection`: the map that is kept of the last MAP message. The arithmetic on
coordinates is a parameter, since all of it is binary floating point. -/
namespace V2IHub.Utils.Intersection

structure WGS84Point (K : Type) where
  Latitude : K
  Longitude : K
  Elevation : K
deriving DecidableEq

inductive DirectionalUse where
  | notApplicable | ingressVehicleComputed | ingressPedestrian | egressComputed
deriving DecidableEq

inductive LaneType where
  | other | vehicle | computed | pedestrian | egress | sidewalk
deriving DecidableEq

inductive NodeDelta where
  | nothing
  | xy (x y : ℤ)
  | latLon (lat lon : ℤ)
deriving DecidableEq

structure Node where
  delta : NodeDelta
  dElevation : Option ℤ
deriving DecidableEq

inductive AxisOffset where
  | nothing
  | small (offset : ℤ)
  | large (offset : ℤ)
deriving DecidableEq

structure ComputedLane where
  referenceLaneId : ℤ
  offsetXaxis : AxisOffset
  offsetYaxis : AxisOffset
deriving DecidableEq

inductive NodeList where
  | nothing
  | nodes (nodes : List Node)
  | computed (lane : ComputedLane)
deriving DecidableEq

/-- `connectsTo` holds the optional signal group of each connection. -/
structure GenericLane where
  laneID : ℤ
  directionalUse : List UInt8
  nodeList : NodeList
  connectsTo : List (Option ℤ)
deriving DecidableEq

structure Position3D where
  lat : ℤ
  long : ℤ
  elevation : Option ℤ
deriving DecidableEq

structure IntersectionGeometry where
  id : ℤ
  refPoint : Position3D
  laneWidth : Option ℤ
  laneSet : List GenericLane
deriving DecidableEq

/-- At least one geometry: the schema says `SIZE(1..32)`. -/
structure IntersectionGeometryList where
  array0 : IntersectionGeometry
  others : List IntersectionGeometry
deriving DecidableEq

structure MapData where
  msgIssueRevision : ℤ
  intersections : Option IntersectionGeometryList
deriving DecidableEq

/-- A message without contents has no decoded data. -/
structure MapDataMessage where
  j2735Data : Option MapData
deriving DecidableEq

/-- The intersection ids of a SPAT message. -/
structure SpatMessage where
  j2735Data : Option (List ℤ)
deriving DecidableEq

def MapDataMessage.findIntersections (msg : MapDataMessage) : Option IntersectionGeometryList :=
  msg.j2735Data.bind MapData.intersections

def SpatMessage.findIntersections (msg : SpatMessage) : Option (List ℤ) := msg.j2735Data

structure MapLane (K : Type) where
  LaneNumber : ℤ
  LaneWidthMeters : Option K
  LaneDirectionEgress : Bool
  Nodes : List (WGS84Point K)
  Type' : LaneType
  Direction : DirectionalUse
  ReferenceLaneId : ℤ
  SignalGroupId : Option ℤ
  LaneNodeOffset : WGS84Point K
deriving DecidableEq

structure ParsedMap (K : Type) where
  ReferencePoint : WGS84Point K
  Lanes : List (MapLane K)
  MaxLat : K
  MinLat : K
  MaxLong : K
  MinLong : K
deriving DecidableEq

structure Region where
  RegionId : ℤ
  Crosswalks : List ℤ
  Curbs : List ℤ
  VehicleLanes : List ℤ
deriving DecidableEq

/-- The operations on doubles that parsing a map uses. -/
structure Geodesy (K : Type) where
  /-- `value / 10000000.0` -/
  degrees : ℤ → K
  /-- `value / 10.0` -/
  elevation : ℤ → K
  /-- `(double) laneWidth / 100` -/
  meters : ℤ → K
  ofLong : ℤ → K
  lt : K → K → Bool
  getPointFromNodeOffset : WGS84Point K → WGS84Point K → WGS84Point K
  computeLaneNodes : WGS84Point K → ℤ → List GenericLane → List (WGS84Point K)

structure State (K : Type) where
  mapVersion : ℤ
  intersectionId : ℤ
  isMapLoaded : Bool
  isSpatLoaded : Bool
  regions : List Region
  map : ParsedMap K
  mapMessage : MapDataMessage
  spatMsg : SpatMessage
  lastSpatTime : ℕ
  lastMapUpdateAttemptTime : ℕ
deriving DecidableEq

section Lanes
variable {K : Type} (G : Geodesy K)

def WGS84Point.zero : WGS84Point K := ⟨G.ofLong 0, G.ofLong 0, G.ofLong 0⟩

def getMapReferencePoint (geom : IntersectionGeometryList) : WGS84Point K :=
  ⟨G.degrees geom.array0.refPoint.lat, G.degrees geom.array0.refPoint.long,
    G.elevation (geom.array0.refPoint.elevation.getD 0)⟩

def getDirectionalUse (use : List UInt8) : DirectionalUse :=
  match use.head?.map fun byte : UInt8 => byte >>> 6 with
  | some 1 => .egressComputed
  | some 2 => .ingressVehicleComputed
  | some 3 => .ingressPedestrian
  | _ => .notApplicable

def getReferenceLaneId (lane : GenericLane) (use : DirectionalUse) : ℤ :=
  match lane.nodeList, use with
  | .computed c, .ingressVehicleComputed => c.referenceLaneId
  | .computed c, .egressComputed => c.referenceLaneId
  | _, _ => -1

def getLaneType (lane : GenericLane) : DirectionalUse → LaneType
  | .ingressVehicleComputed =>
    match lane.nodeList with
    | .nodes _ => .vehicle
    | .computed _ => .computed
    | .nothing => .other
  | .ingressPedestrian => .pedestrian
  | .egressComputed => .egress
  | .notApplicable => .other

def AxisOffset.value : AxisOffset → ℤ
  | .nothing => 0
  | .small offset => offset
  | .large offset => offset

def getComputedLaneOffset (lane : GenericLane) : WGS84Point K :=
  match lane.nodeList with
  | .computed c => ⟨G.ofLong c.offsetXaxis.value, G.ofLong c.offsetYaxis.value, G.ofLong 0⟩
  | _ => WGS84Point.zero G

/-- The object before `FillMapLaneData`, which sets every field but the two options. -/
def MapLane.blank : MapLane K :=
  ⟨0, none, false, [], .other, .notApplicable, -1, none, WGS84Point.zero G⟩

def fillMapLaneData (mapLane : MapLane K) (lane : GenericLane) (laneWidth : ℤ) : MapLane K :=
  let use := getDirectionalUse lane.directionalUse
  { mapLane with
    LaneNumber := lane.laneID
    Direction := use
    LaneDirectionEgress := use = .egressComputed
    LaneWidthMeters :=
      if laneWidth > 0 then some (G.meters laneWidth) else mapLane.LaneWidthMeters
    ReferenceLaneId := getReferenceLaneId lane use
    Type' := getLaneType lane use
    LaneNodeOffset := getComputedLaneOffset G lane
    SignalGroupId := (lane.connectsTo.findSome? id).or mapLane.SignalGroupId }

def getLaneNodes (geom : IntersectionGeometryList) (laneId : ℤ) : List (WGS84Point K) :=
  G.computeLaneNodes (getMapReferencePoint G geom) laneId geom.array0.laneSet

/-- Every lane of the set with this id is filled into the same object. -/
def getMapLane (geom : IntersectionGeometryList) (laneId : ℤ) : MapLane K :=
  (geom.array0.laneSet.filter fun lane => lane.laneID = laneId).foldl
    (fun mapLane lane =>
      { fillMapLaneData G mapLane lane (geom.array0.laneWidth.getD 0) with
        Nodes := getLaneNodes G geom laneId })
    (MapLane.blank G)

def initMapBoundaryBox (map : ParsedMap K) : ParsedMap K :=
  { map with
    MaxLat := map.ReferencePoint.Latitude
    MinLat := map.ReferencePoint.Latitude
    MaxLong := map.ReferencePoint.Longitude
    MinLong := map.ReferencePoint.Longitude }

def updateLatitudes (map : ParsedMap K) (latitude : K) : ParsedMap K :=
  if G.lt map.MaxLat latitude then { map with MaxLat := latitude }
  else if G.lt latitude map.MinLat then { map with MinLat := latitude }
  else map

def updateLongitudes (map : ParsedMap K) (longitude : K) : ParsedMap K :=
  if G.lt map.MaxLong longitude then { map with MaxLong := longitude }
  else if G.lt longitude map.MinLong then { map with MinLong := longitude }
  else map

def updateMapBoundaryBox (map : ParsedMap K) (point : WGS84Point K) : ParsedMap K :=
  updateLongitudes G (updateLatitudes G map point.Latitude) point.Longitude

/-- One pass of the loop of `GetMapLanes`: the map, whose boundary box is widened by the
nodes of the lane, and the lanes so far. -/
def addMapLane (geom : IntersectionGeometryList) (r : ParsedMap K × List (MapLane K))
    (lane : GenericLane) : ParsedMap K × List (MapLane K) :=
  let mapLane := getMapLane G geom lane.laneID
  (mapLane.Nodes.foldl (updateMapBoundaryBox G) r.1, r.2 ++ [mapLane])

def getMapLanes (geom : IntersectionGeometryList) (map : ParsedMap K) :
    ParsedMap K × List (MapLane K) :=
  geom.array0.laneSet.foldl (addMapLane G geom) (map, [])

/-- The first lane of the list that satisfies `p` is replaced. -/
def replaceFirst (p : MapLane K → Bool) (f : MapLane K → MapLane K) :
    List (MapLane K) → List (MapLane K)
  | [] => []
  | lane :: lanes => if p lane then f lane :: lanes else lane :: replaceFirst p f lanes

def setComputedLanes (lanes : List (MapLane K)) : List (MapLane K) :=
  (lanes.filter fun l => l.ReferenceLaneId > 0 ∧ (l.Type' = .computed ∨ l.Type' = .egress)).foldl
    (fun lanes i =>
      let nodes := match lanes.find? fun j => i.ReferenceLaneId = j.LaneNumber with
        | some j => j.Nodes.map fun point => G.getPointFromNodeOffset point i.LaneNodeOffset
        | none => i.Nodes
      replaceFirst (fun j => i.LaneNumber = j.LaneNumber) (fun j => { j with Nodes := nodes }) lanes)
    lanes

end Lanes

section Regions

def Region.clear (r : Region) : Region := ⟨r.RegionId, [], [], []⟩

inductive LaneKind where
  | vehicle | crosswalk | curb
deriving DecidableEq

def Region.push (kind : LaneKind) (laneId : ℤ) (r : Region) : Region :=
  match kind with
  | .vehicle => { r with VehicleLanes := r.VehicleLanes ++ [laneId] }
  | .crosswalk => { r with Crosswalks := r.Crosswalks ++ [laneId] }
  | .curb => { r with Curbs := r.Curbs ++ [laneId] }

/-- The region a lane id belongs to, and which of its lists. -/
def regionForLaneId (laneId : ℤ) : Option (ℕ × LaneKind) :=
  if 10 ≤ laneId ∧ laneId ≤ 19 then some (1, .vehicle)
  else if 20 ≤ laneId ∧ laneId ≤ 29 then some (2, .vehicle)
  else if 30 ≤ laneId ∧ laneId ≤ 39 then some (3, .vehicle)
  else if 40 ≤ laneId ∧ laneId ≤ 49 then some (4, .vehicle)
  else if laneId = 1 then some (1, .crosswalk)
  else if laneId = 2 then some (2, .crosswalk)
  else if laneId = 3 then some (3, .crosswalk)
  else if laneId = 4 then some (4, .crosswalk)
  else if 101 ≤ laneId ∧ laneId < 200 then
    let zoneRem := laneId - 100
    if 10 ≤ zoneRem ∧ zoneRem ≤ 19 then some (1, .curb)
    else if 20 ≤ zoneRem ∧ zoneRem ≤ 29 then some (2, .curb)
    else if 30 ≤ zoneRem ∧ zoneRem ≤ 39 then some (3, .curb)
    else if 40 ≤ zoneRem ∧ zoneRem ≤ 49 then some (4, .curb)
    else none
  else none

def updateRegionForLaneId (regions : List Region) (laneId : ℤ) : List Region :=
  match regionForLaneId laneId with
  | some (region, kind) => regions.modify region (Region.push kind laneId)
  | none => regions

def updateRegions {K : Type} (regions : List Region) (lanes : List (MapLane K)) : List Region :=
  lanes.foldl (fun regions lane => updateRegionForLaneId regions lane.LaneNumber)
    (regions.map Region.clear)

/-- The regions the constructor pushes, with a dummy at 0. -/
def initialRegions : List Region :=
  [⟨0, [], [], []⟩, ⟨1, [], [], []⟩, ⟨2, [], [], []⟩, ⟨3, [], [], []⟩, ⟨4, [], [], []⟩]

theorem Region.clear_push (kind : LaneKind) (laneId : ℤ) (r : Region) :
    (r.push kind laneId).clear = r.clear := by
  cases kind <;> rfl

theorem updateRegionForLaneId_clear (regions : List Region) (laneId : ℤ) :
    (updateRegionForLaneId regions laneId).map Region.clear = regions.map Region.clear := by
  unfold updateRegionForLaneId
  cases regionForLaneId laneId with
  | none => rfl
  | some slot =>
    apply List.ext_getElem
    · simp
    · intro n hn hn'
      simp only [List.getElem_map, List.getElem_modify]
      split
      · exact Region.clear_push _ _ _
      · rfl

theorem updateRegions_clear {K : Type} (regions : List Region) (lanes : List (MapLane K)) :
    (updateRegions regions lanes).map Region.clear = regions.map Region.clear := by
  have hfold : ∀ rs : List Region,
      (lanes.foldl (fun regions lane => updateRegionForLaneId regions lane.LaneNumber) rs).map
        Region.clear = rs.map Region.clear := by
    induction lanes with
    | nil => exact fun rs => rfl
    | cons lane lanes ih =>
      intro rs
      rw [List.foldl_cons, ih, updateRegionForLaneId_clear]
  unfold updateRegions
  rw [hfold, List.map_map]
  rfl

end Regions

section Calls
variable {K : Type} (G : Geodesy K)

/-- The constructor. -/
def initial : State K where
  mapVersion := -1
  intersectionId := -1
  isMapLoaded := false
  isSpatLoaded := false
  regions := initialRegions
  map := ⟨WGS84Point.zero G, [], G.ofLong 0, G.ofLong 0, G.ofLong 0, G.ofLong 0⟩
  mapMessage := ⟨none⟩
  spatMsg := ⟨none⟩
  lastSpatTime := 0
  lastMapUpdateAttemptTime := 0

/-- The body of `LoadMap` between the assignment of the id and that of `MapMessage`. -/
def parseMap (map : ParsedMap K) (regions : List Region) (geom : IntersectionGeometryList) :
    ParsedMap K × List Region :=
  let point := getMapReferencePoint G geom
  let map := { map with
    ReferencePoint := { map.ReferencePoint with
      Latitude := point.Latitude
      Longitude := point.Longitude } }
  let boxed := getMapLanes G geom (initMapBoundaryBox map)
  let map := { boxed.1 with Lanes := setComputedLanes G boxed.2 }
  (map, updateRegions regions map.Lanes)

def loadMap (s : State K) (msg : MapDataMessage) (now : ℕ) : State K × Bool :=
  let s := { s with lastMapUpdateAttemptTime := now }
  match msg.findIntersections, msg.j2735Data with
  | some geom, some data =>
    if data.msgIssueRevision ≠ s.mapVersion then
      let parsed := parseMap G s.map s.regions geom
      ({ s with
        mapVersion := data.msgIssueRevision
        intersectionId := geom.array0.id
        map := parsed.1
        regions := parsed.2
        mapMessage := msg
        isMapLoaded := true }, true)
    else (s, false)
  | _, _ => (s, false)

def clearMap (s : State K) : State K := { s with isMapLoaded := false }

def doesSpatMatchMap (s : State K) (msg : SpatMessage) : Bool :=
  if s.isMapLoaded then
    match msg.findIntersections with
    | some ids => ids.any fun id => id = s.intersectionId
    | none => false
  else false

def updateSpat (s : State K) (msg : SpatMessage) (now : ℕ) : State K × Bool :=
  if doesSpatMatchMap s msg then
    ({ s with spatMsg := msg, lastSpatTime := now, isSpatLoaded := true }, true)
  else (s, false)

/-- A call, with what the clock answers in it. -/
inductive Call where
  | loadMap (msg : MapDataMessage) (now : ℕ)
  | clearMap
  | updateSpat (msg : SpatMessage) (now : ℕ)
deriving DecidableEq

def step (s : State K) : Call → State K
  | .loadMap msg now => (loadMap G s msg now).1
  | .clearMap => clearMap s
  | .updateSpat msg now => (updateSpat s msg now).1

def run (calls : List Call) : State K := calls.foldl (step G) (initial G)

/-- The map of a geometry: what parsing it makes of a new object. -/
def mapOf (geom : IntersectionGeometryList) : ParsedMap K × List Region :=
  parseMap G (initial G).map (initial G).regions geom

/-- The object holds the map of this revision and geometry. -/
structure Shows (s : State K) (data : MapData) (geom : IntersectionGeometryList) : Prop where
  loaded : s.isMapLoaded = true
  map : (s.map, s.regions) = mapOf G geom
  id : s.intersectionId = geom.array0.id
  version : s.mapVersion = data.msgIssueRevision

/-- The message of the last `LoadMap`, unless `ClearMap` was called after it. -/
def lastLoad : List Call → Option MapDataMessage :=
  List.foldl
    (fun last call =>
      match call with
      | .loadMap msg _ => some msg
      | .clearMap => none
      | .updateSpat _ _ => last)
    none

/-- A load that was the last call on the map is shown. -/
def LastLoadShown (calls : List Call) : Prop :=
  ∀ msg data geom, lastLoad calls = some msg → msg.j2735Data = some data →
    data.intersections = some geom → Shows G (run G calls) data geom

/-- The revision is new, or the map is loaded from a message with the same intersection
id and the same map. -/
def LoadsAgain (s : State K) (msg : MapDataMessage) : Prop :=
  ∀ data geom, msg.j2735Data = some data → data.intersections = some geom →
    data.msgIssueRevision ≠ s.mapVersion ∨
      s.isMapLoaded = true ∧ ∃ old, s.mapMessage.findIntersections = some old ∧
        old.array0.id = geom.array0.id ∧ mapOf G old = mapOf G geom

end Calls

section Parsing
variable {K : Type} {G : Geodesy K}

theorem updateMapBoundaryBox_lanes (map : ParsedMap K) (lanes : List (MapLane K))
    (point : WGS84Point K) :
    updateMapBoundaryBox G { map with Lanes := lanes } point =
      { updateMapBoundaryBox G map point with Lanes := lanes } := by
  have hlat : updateLatitudes G { map with Lanes := lanes } point.Latitude =
      { updateLatitudes G map point.Latitude with Lanes := lanes } := by
    unfold updateLatitudes
    split_ifs <;> rfl
  unfold updateMapBoundaryBox
  rw [hlat]
  unfold updateLongitudes
  split_ifs <;> rfl

theorem foldl_boundaryBox_lanes (points : List (WGS84Point K)) (map : ParsedMap K)
    (lanes : List (MapLane K)) :
    points.foldl (updateMapBoundaryBox G) { map with Lanes := lanes } =
      { points.foldl (updateMapBoundaryBox G) map with Lanes := lanes } := by
  induction points generalizing map with
  | nil => rfl
  | cons point points ih =>
    rw [List.foldl_cons, List.foldl_cons, updateMapBoundaryBox_lanes, ih]

theorem getMapLanes_lanes (geom : IntersectionGeometryList) (map : ParsedMap K)
    (lanes : List (MapLane K)) :
    getMapLanes G geom { map with Lanes := lanes } =
      ({ (getMapLanes G geom map).1 with Lanes := lanes }, (getMapLanes G geom map).2) := by
  unfold getMapLanes
  generalize ([] : List (MapLane K)) = found
  induction geom.array0.laneSet generalizing map found with
  | nil => rfl
  | cons lane laneSet ih =>
    rw [List.foldl_cons, List.foldl_cons]
    unfold addMapLane
    simp only [foldl_boundaryBox_lanes]
    exact ih _ _

/-- Parsing leaves nothing of the map and the regions that were there before. -/
theorem parseMap_eq_mapOf {map : ParsedMap K} {regions : List Region}
    (hpoint : map.ReferencePoint.Elevation = G.ofLong 0)
    (hregions : regions.map Region.clear = initialRegions) (geom : IntersectionGeometryList) :
    parseMap G map regions geom = mapOf G geom := by
  obtain ⟨⟨latitude, longitude, elevation⟩, lanes, maxLat, minLat, maxLong, minLong⟩ := map
  obtain rfl : elevation = G.ofLong 0 := hpoint
  have hinit := getMapLanes_lanes (G := G) geom
    (initMapBoundaryBox ⟨⟨G.degrees geom.array0.refPoint.lat, G.degrees geom.array0.refPoint.long,
      G.ofLong 0⟩, [], maxLat, minLat, maxLong, minLong⟩) lanes
  have hclear : initialRegions.map Region.clear = initialRegions := rfl
  unfold mapOf parseMap updateRegions
  simp only [getMapReferencePoint, initMapBoundaryBox, initial, WGS84Point.zero, hregions,
    hclear] at hinit ⊢
  rw [hinit]

end Parsing

section Runs
variable {K : Type} {G : Geodesy K}

/-- What no call changes of the object, and what the flag says about its map. -/
structure Consistent (G : Geodesy K) (s : State K) : Prop where
  point : s.map.ReferencePoint.Elevation = G.ofLong 0
  regions : s.regions.map Region.clear = initialRegions
  shown : s.isMapLoaded = true → ∃ data geom, s.mapMessage.j2735Data = some data ∧
    data.intersections = some geom ∧ Shows G s data geom

theorem getMapLanes_referencePoint (geom : IntersectionGeometryList) (map : ParsedMap K) :
    (getMapLanes G geom map).1.ReferencePoint = map.ReferencePoint := by
  have hpoint : ∀ (map : ParsedMap K) point,
      (updateMapBoundaryBox G map point).ReferencePoint = map.ReferencePoint := by
    intro map point
    unfold updateMapBoundaryBox updateLongitudes updateLatitudes
    split_ifs <;> rfl
  have hpoints : ∀ (points : List (WGS84Point K)) (map : ParsedMap K),
      (points.foldl (updateMapBoundaryBox G) map).ReferencePoint = map.ReferencePoint := by
    intro points
    induction points with
    | nil => exact fun map => rfl
    | cons point points ih =>
      intro map
      rw [List.foldl_cons, ih, hpoint]
  unfold getMapLanes
  generalize ([] : List (MapLane K)) = found
  induction geom.array0.laneSet generalizing map found with
  | nil => rfl
  | cons lane laneSet ih =>
    rw [List.foldl_cons]
    exact (ih _ _).trans (hpoints _ _)

theorem mapOf_elevation (geom : IntersectionGeometryList) :
    (mapOf G geom).1.ReferencePoint.Elevation = G.ofLong 0 := by
  unfold mapOf parseMap
  simp only [getMapLanes_referencePoint, initMapBoundaryBox]
  rfl

theorem mapOf_regions (geom : IntersectionGeometryList) :
    (mapOf G geom).2.map Region.clear = initialRegions :=
  updateRegions_clear _ _

variable {s : State K} {msg : MapDataMessage} {data : MapData} {geom : IntersectionGeometryList}

theorem loadMap_new (hs : Consistent G s) (hdata : msg.j2735Data = some data)
    (hgeom : data.intersections = some geom) (hnew : data.msgIssueRevision ≠ s.mapVersion)
    (now : ℕ) :
    (loadMap G s msg now).1.mapMessage = msg ∧ Shows G (loadMap G s msg now).1 data geom := by
  have hfind : msg.findIntersections = some geom := by
    simp [MapDataMessage.findIntersections, hdata, hgeom]
  have hparse := parseMap_eq_mapOf hs.point hs.regions geom
  simp only [loadMap, hfind, hdata, hnew, ne_eq, not_false_eq_true, ↓reduceIte, hparse]
  exact ⟨trivial, rfl, rfl, rfl, rfl⟩

theorem loadMap_known (hdata : msg.j2735Data = some data)
    (hold : data.msgIssueRevision = s.mapVersion) (now : ℕ) :
    (loadMap G s msg now).1 = { s with lastMapUpdateAttemptTime := now } := by
  unfold loadMap
  cases msg.findIntersections with
  | none => rfl
  | some geom => simp only [hdata, hold, ne_eq, not_true_eq_false, ↓reduceIte]

theorem loadMap_absent (hfind : msg.findIntersections = none) (now : ℕ) :
    (loadMap G s msg now).1 = { s with lastMapUpdateAttemptTime := now } := by
  simp only [loadMap, hfind]

theorem Shows.congr {t : State K} (h : Shows G s data geom)
    (hloaded : t.isMapLoaded = s.isMapLoaded) (hmap : t.map = s.map)
    (hregions : t.regions = s.regions) (hid : t.intersectionId = s.intersectionId)
    (hversion : t.mapVersion = s.mapVersion) : Shows G t data geom where
  loaded := hloaded.trans h.loaded
  map := by rw [hmap, hregions, h.map]
  id := hid.trans h.id
  version := hversion.trans h.version

/-- Nothing but the clock readings and the SPAT part changes. -/
theorem Consistent.congr {t : State K} (h : Consistent G s)
    (hloaded : t.isMapLoaded = s.isMapLoaded) (hmap : t.map = s.map)
    (hregions : t.regions = s.regions) (hid : t.intersectionId = s.intersectionId)
    (hversion : t.mapVersion = s.mapVersion) (hmsg : t.mapMessage = s.mapMessage) :
    Consistent G t where
  point := by rw [hmap, h.point]
  regions := by rw [hregions, h.regions]
  shown := by
    intro ht
    obtain ⟨data, geom, hdata, hgeom, hshows⟩ := h.shown (hloaded ▸ ht)
    exact ⟨data, geom, hmsg ▸ hdata, hgeom, hshows.congr hloaded hmap hregions hid hversion⟩

theorem loadMap_consistent (hs : Consistent G s) (msg : MapDataMessage) (now : ℕ) :
    Consistent G (loadMap G s msg now).1 := by
  have hkept : Consistent G { s with lastMapUpdateAttemptTime := now } :=
    hs.congr rfl rfl rfl rfl rfl rfl
  cases hdata : msg.j2735Data with
  | none =>
    rw [loadMap_absent (by simp [MapDataMessage.findIntersections, hdata])]
    exact hkept
  | some data =>
    cases hgeom : data.intersections with
    | none =>
      rw [loadMap_absent (by simp [MapDataMessage.findIntersections, hdata, hgeom])]
      exact hkept
    | some geom =>
      by_cases hnew : data.msgIssueRevision = s.mapVersion
      · rw [loadMap_known hdata hnew]
        exact hkept
      · obtain ⟨hmsg, hshows⟩ := loadMap_new hs hdata hgeom hnew now
        have hmap : (loadMap G s msg now).1.map = (mapOf G geom).1 :=
          congrArg Prod.fst hshows.map
        have hregions : (loadMap G s msg now).1.regions = (mapOf G geom).2 :=
          congrArg Prod.snd hshows.map
        exact {
          point := by rw [hmap, mapOf_elevation]
          regions := by rw [hregions, mapOf_regions]
          shown := fun _ => ⟨data, geom, by rw [hmsg, hdata], hgeom, hshows⟩ }

theorem updateSpat_fst (s : State K) (msg : SpatMessage) (now : ℕ) :
    (updateSpat s msg now).1 = s ∨
      (updateSpat s msg now).1 =
        { s with spatMsg := msg, lastSpatTime := now, isSpatLoaded := true } := by
  unfold updateSpat
  split_ifs
  · exact Or.inr rfl
  · exact Or.inl rfl

theorem step_consistent (hs : Consistent G s) (call : Call) : Consistent G (step G s call) := by
  cases call with
  | loadMap msg now => exact loadMap_consistent hs msg now
  | clearMap =>
    exact { point := hs.point, regions := hs.regions, shown := fun h => by cases h }
  | updateSpat msg now =>
    show Consistent G (updateSpat s msg now).1
    rcases updateSpat_fst s msg now with h | h <;> rw [h]
    · exact hs
    · exact hs.congr rfl rfl rfl rfl rfl rfl

theorem initial_consistent : Consistent G (initial G) where
  point := rfl
  regions := rfl
  shown := fun h => by cases h

theorem run_consistent (calls : List Call) : Consistent G (run G calls) := by
  induction calls using List.reverseRecOn with
  | nil => exact initial_consistent
  | append_singleton calls call ih =>
    unfold run
    rw [List.foldl_append]
    exact step_consistent ih call

/-- One load shows its message exactly when the state before it lets it. -/
theorem loadMap_shows_iff (hs : Consistent G s) (hdata : msg.j2735Data = some data)
    (hgeom : data.intersections = some geom) (now : ℕ) :
    Shows G (loadMap G s msg now).1 data geom ↔
      data.msgIssueRevision ≠ s.mapVersion ∨
        s.isMapLoaded = true ∧ ∃ old, s.mapMessage.findIntersections = some old ∧
          old.array0.id = geom.array0.id ∧ mapOf G old = mapOf G geom := by
  by_cases hnew : data.msgIssueRevision = s.mapVersion
  · rw [loadMap_known hdata hnew]
    constructor
    · intro h
      have hloaded : s.isMapLoaded = true := h.loaded
      obtain ⟨oldData, old, holdData, hold, hshows⟩ := hs.shown hloaded
      refine Or.inr ⟨hloaded, old, ?_, ?_, ?_⟩
      · simp [MapDataMessage.findIntersections, holdData, hold]
      · exact hshows.id.symm.trans h.id
      · exact hshows.map.symm.trans h.map
    · rintro (h | ⟨hloaded, old, hfind, hid, hmap⟩)
      · exact absurd hnew h
      · obtain ⟨oldData, old', holdData, hold', hshows⟩ := hs.shown hloaded
        obtain rfl : old' = old := by
          simpa [MapDataMessage.findIntersections, holdData, hold'] using hfind
        exact {
          loaded := hloaded
          map := hshows.map.trans hmap
          id := hshows.id.trans hid
          version := hnew.symm }
  · exact ⟨fun _ => Or.inl hnew, fun _ => (loadMap_new hs hdata hgeom hnew now).2⟩

theorem lastLoad_append (calls : List Call) (call : Call) :
    lastLoad (calls ++ [call]) =
      match call with
      | .loadMap msg _ => some msg
      | .clearMap => none
      | .updateSpat _ _ => lastLoad calls := by
  unfold lastLoad
  rw [List.foldl_append]
  rfl

theorem run_append (calls : List Call) (call : Call) :
    run G (calls ++ [call]) = step G (run G calls) call := by
  unfold run
  rw [List.foldl_append]
  rfl

theorem lastLoadShown_loadMap_iff (calls : List Call) (msg : MapDataMessage) (now : ℕ) :
    LastLoadShown G (calls ++ [.loadMap msg now]) ↔ LoadsAgain G (run G calls) msg := by
  unfold LastLoadShown LoadsAgain
  rw [lastLoad_append, run_append]
  have hs := run_consistent (G := G) calls
  constructor
  · intro h data geom hdata hgeom
    exact (loadMap_shows_iff hs hdata hgeom now).mp (h msg data geom rfl hdata hgeom)
  · rintro h msg data geom ⟨⟩ hdata hgeom
    exact (loadMap_shows_iff hs hdata hgeom now).mpr (h data geom hdata hgeom)

theorem lastLoadShown_updateSpat {calls : List Call} (h : LastLoadShown G calls)
    (msg : SpatMessage) (now : ℕ) : LastLoadShown G (calls ++ [.updateSpat msg now]) := by
  intro load data geom hlast hdata hgeom
  rw [lastLoad_append] at hlast
  have hshows := h load data geom hlast hdata hgeom
  rw [run_append]
  show Shows G (updateSpat (run G calls) msg now).1 data geom
  rcases updateSpat_fst (run G calls) msg now with heq | heq <;> rw [heq]
  · exact hshows
  · exact hshows.congr rfl rfl rfl rfl rfl

/-- After every prefix of the calls the object holds the map of the last load exactly when
each load found a new revision, or its own map loaded. -/
theorem run_lastLoadShown_iff (G : Geodesy K) (calls : List Call) :
    (∀ pre, pre <+: calls → LastLoadShown G pre) ↔
      ∀ pre msg now, pre ++ [.loadMap msg now] <+: calls → LoadsAgain G (run G pre) msg := by
  constructor
  · intro h pre msg now hpre
    exact (lastLoadShown_loadMap_iff pre msg now).mp (h _ hpre)
  · intro h pre
    induction pre using List.reverseRecOn with
    | nil => exact fun _ msg data geom hlast => by cases hlast
    | append_singleton pre call ih =>
      intro hpre
      cases call with
      | loadMap msg now => exact (lastLoadShown_loadMap_iff pre msg now).mpr (h pre msg now hpre)
      | clearMap =>
        intro msg data geom hlast
        rw [lastLoad_append] at hlast
        cases hlast
      | updateSpat msg now =>
        exact lastLoadShown_updateSpat (ih ((List.prefix_append pre _).trans hpre)) msg now

end Runs

section IntersectionList
variable {K : Type} (G : Geodesy K) (listedId : MapDataMessage → ℤ)

/-- The objects by intersection id. -/
structure IntersectionList (K : Type) where
  intersections : ℤ → Option (State K)

/-- `listedId` reads the id from the tree of the message, or gives -1. -/
def IntersectionList.loadMap (list : IntersectionList K) (msg : MapDataMessage) (now : ℕ) :
    IntersectionList K × Bool :=
  let object := (list.intersections (listedId msg)).getD (initial G)
  let loaded := Intersection.loadMap G object msg now
  (⟨Function.update list.intersections (listedId msg) (some loaded.1)⟩, loaded.2)

def IntersectionList.run (msgs : List (MapDataMessage × ℕ)) : IntersectionList K :=
  msgs.foldl (fun list m => (list.loadMap G listedId m.1 m.2).1) ⟨fun _ => none⟩

/-- Each object of the list has seen the messages of its own id, in their order. -/
theorem IntersectionList.run_find (msgs : List (MapDataMessage × ℕ)) (id : ℤ) :
    ((IntersectionList.run G listedId msgs).intersections id).getD (initial G) =
      Intersection.run G ((msgs.filter fun m => listedId m.1 = id).map
        fun m => .loadMap m.1 m.2) := by
  induction msgs using List.reverseRecOn with
  | nil => rfl
  | append_singleton msgs m ih =>
    have hrun : IntersectionList.run G listedId (msgs ++ [m]) =
        ((IntersectionList.run G listedId msgs).loadMap G listedId m.1 m.2).1 := by
      unfold IntersectionList.run
      rw [List.foldl_append]
      rfl
    rw [hrun, List.filter_append, List.map_append]
    by_cases hid : listedId m.1 = id
    · subst hid
      simp only [IntersectionList.loadMap, Function.update_self, Option.getD_some, ih,
        decide_true, List.filter_cons_of_pos, List.filter_nil, List.map_cons, List.map_nil]
      rw [run_append]
      rfl
    · simp only [IntersectionList.loadMap, Function.update_of_ne (Ne.symm hid), ih, hid,
        decide_false, Bool.false_eq_true, not_false_eq_true, List.filter_cons_of_neg,
        List.filter_nil, List.map_nil, List.append_nil]

end IntersectionList

section Sample

/-- Whole degrees only. -/
def sampleGeodesy : Geodesy ℤ where
  degrees n := n / 10000000
  elevation n := n / 10
  meters n := n / 100
  ofLong n := n
  lt a b := a < b
  getPointFromNodeOffset point _ := point
  computeLaneNodes _ _ _ := []

def sampleMessage (id rev : ℤ) : MapDataMessage :=
  ⟨some ⟨rev, some ⟨⟨id, ⟨420000000, -830000000, none⟩, none, []⟩, []⟩⟩⟩

/-- The same message is not loaded again after `ClearMap`, nor one of another intersection
whose revision is the same. -/
theorem run_lastLoadShown_fails :
    ¬ LastLoadShown sampleGeodesy
        [.loadMap (sampleMessage 7 1) 0, .clearMap, .loadMap (sampleMessage 7 1) 1] ∧
      ¬ LastLoadShown sampleGeodesy
        [.loadMap (sampleMessage 7 1) 0, .loadMap (sampleMessage 8 1) 1] := by
  constructor
  · intro h
    have hshows := h (sampleMessage 7 1) _ _ rfl rfl rfl
    exact absurd hshows.loaded (by decide)
  · intro h
    have hshows := h (sampleMessage 8 1) _ _ rfl rfl rfl
    exact absurd hshows.id (by decide)

end Sample

end V2IHub.Utils.Intersection
