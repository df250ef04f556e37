import Mathlib.Order.Bounds.Basic
import V2IHub.Utils.ComputedLanes

/-! The boundary box of a map, with exact coordinates, in `Intersection` and in `Roadway`. -/
namespace V2IHub.Utils.Intersection

variable {K : Type} [LinearOrder K]

/-- The same arithmetic with the order of the numbers. -/
def Geodesy.exact (G : Geodesy K) : Geodesy K := { G with lt := fun a b => a < b }

/-- The box goes exactly as far as the points. -/
structure Bounds (points : Set (WGS84Point K)) (map : ParsedMap K) : Prop where
  MaxLat : IsGreatest (WGS84Point.Latitude '' points) map.MaxLat
  MinLat : IsLeast (WGS84Point.Latitude '' points) map.MinLat
  MaxLong : IsGreatest (WGS84Point.Longitude '' points) map.MaxLong
  MinLong : IsLeast (WGS84Point.Longitude '' points) map.MinLong

def ParsedMap.Contains (map : ParsedMap K) (point : WGS84Point K) : Prop :=
  map.MinLat ≤ point.Latitude ∧ point.Latitude ≤ map.MaxLat ∧
    map.MinLong ≤ point.Longitude ∧ point.Longitude ≤ map.MaxLong

/-- Between some of the points to each side. -/
def Within (points : Set (WGS84Point K)) (point : WGS84Point K) : Prop :=
  (∃ q ∈ points, q.Latitude ≤ point.Latitude) ∧ (∃ q ∈ points, point.Latitude ≤ q.Latitude) ∧
    (∃ q ∈ points, q.Longitude ≤ point.Longitude) ∧ ∃ q ∈ points, point.Longitude ≤ q.Longitude

section Box
variable {G : Geodesy K} {points : Set (WGS84Point K)} {map : ParsedMap K}

theorem Bounds.contains_iff (h : Bounds points map) (point : WGS84Point K) :
    map.Contains point ↔ Within points point := by
  have hmin : ∀ {f : WGS84Point K → K} {least x : K}, IsLeast (f '' points) least →
      (least ≤ x ↔ ∃ q ∈ points, f q ≤ x) := by
    intro f least x hleast
    constructor
    · intro hle
      obtain ⟨q, hq, rfl⟩ := hleast.1
      exact ⟨q, hq, hle⟩
    · rintro ⟨q, hq, hle⟩
      exact (hleast.2 ⟨q, hq, rfl⟩).trans hle
  have hmax : ∀ {f : WGS84Point K → K} {greatest x : K}, IsGreatest (f '' points) greatest →
      (x ≤ greatest ↔ ∃ q ∈ points, x ≤ f q) := by
    intro f greatest x hgreatest
    constructor
    · intro hle
      obtain ⟨q, hq, rfl⟩ := hgreatest.1
      exact ⟨q, hq, hle⟩
    · rintro ⟨q, hq, hle⟩
      exact hle.trans (hgreatest.2 ⟨q, hq, rfl⟩)
  exact and_congr (hmin h.MinLat) (and_congr (hmax h.MaxLat)
    (and_congr (hmin h.MinLong) (hmax h.MaxLong)))

theorem updateLatitudes_exact (h : map.MinLat ≤ map.MaxLat) (latitude : K) :
    updateLatitudes G.exact map latitude =
      { map with MaxLat := max latitude map.MaxLat, MinLat := min latitude map.MinLat } := by
  simp only [updateLatitudes, Geodesy.exact, decide_eq_true_eq]
  split_ifs with hmax hmin
  · rw [max_eq_left hmax.le, min_eq_right (h.trans hmax.le)]
  · rw [max_eq_right (not_lt.mp hmax), min_eq_left hmin.le]
  · rw [max_eq_right (not_lt.mp hmax), min_eq_right (not_lt.mp hmin)]

theorem updateLongitudes_exact (h : map.MinLong ≤ map.MaxLong) (longitude : K) :
    updateLongitudes G.exact map longitude =
      { map with MaxLong := max longitude map.MaxLong, MinLong := min longitude map.MinLong } := by
  simp only [updateLongitudes, Geodesy.exact, decide_eq_true_eq]
  split_ifs with hmax hmin
  · rw [max_eq_left hmax.le, min_eq_right (h.trans hmax.le)]
  · rw [max_eq_right (not_lt.mp hmax), min_eq_left hmin.le]
  · rw [max_eq_right (not_lt.mp hmax), min_eq_right (not_lt.mp hmin)]

/-- One point more. The `else if` does no harm, since the sides never cross. -/
theorem Bounds.update (h : Bounds points map) (point : WGS84Point K) :
    Bounds (insert point points) (updateMapBoundaryBox G.exact map point) := by
  have hlat : map.MinLat ≤ map.MaxLat := h.MinLat.2 h.MaxLat.1
  have hlong : map.MinLong ≤ map.MaxLong := h.MinLong.2 h.MaxLong.1
  rw [updateMapBoundaryBox, updateLatitudes_exact hlat,
    updateLongitudes_exact (by exact hlong)]
  constructor <;> rw [Set.image_insert_eq]
  · exact h.MaxLat.insert _
  · exact h.MinLat.insert _
  · exact h.MaxLong.insert _
  · exact h.MinLong.insert _

theorem Bounds.foldl (h : Bounds points map) (nodes : List (WGS84Point K)) :
    Bounds (points ∪ {p | p ∈ nodes}) (nodes.foldl (updateMapBoundaryBox G.exact) map) := by
  induction nodes generalizing points map with
  | nil => simpa using h
  | cons node nodes ih =>
    have hset : points ∪ {p | p ∈ node :: nodes} = insert node points ∪ {p | p ∈ nodes} := by
      ext p
      simp only [Set.mem_union, Set.mem_ofPred_eq, List.mem_cons, Set.mem_insert_iff]
      tauto
    rw [hset]
    exact ih (h.update node)

theorem initMapBoundaryBox_bounds {point : WGS84Point K}
    (hlat : map.ReferencePoint.Latitude = point.Latitude)
    (hlong : map.ReferencePoint.Longitude = point.Longitude) :
    Bounds {point} (initMapBoundaryBox map) := by
  unfold initMapBoundaryBox
  rw [hlat, hlong]
  constructor <;> rw [Set.image_singleton]
  · exact isGreatest_singleton
  · exact isLeast_singleton
  · exact isGreatest_singleton
  · exact isLeast_singleton

end Box

section Parse
variable {G : Geodesy K} {geom : IntersectionGeometryList}

/-- The reference point, and the nodes that are read for the lanes. -/
def readPoints (G : Geodesy K) (geom : IntersectionGeometryList) : Set (WGS84Point K) :=
  {getMapReferencePoint G geom} ∪ {p | ∃ lane ∈ readLanes G geom, p ∈ lane.Nodes}

/-- Whatever the second pass places at a lane is between points that were read. -/
def PlacedWithin (G : Geodesy K) (geom : IntersectionGeometryList) : Prop :=
  ∀ laneNumber nodes, placedNodes G (nodesOf (readLanes G geom))
      (computedLanes (readLanes G geom)).reverse laneNumber = some nodes →
    ∀ p ∈ nodes, Within (readPoints G geom) p

def ParsedMap.ContainsNodes (map : ParsedMap K) : Prop :=
  ∀ lane ∈ map.Lanes, ∀ p ∈ lane.Nodes, map.Contains p

theorem Bounds.congr {points : Set (WGS84Point K)} {map map' : ParsedMap K} (h : Bounds points map)
    (hmax : map'.MaxLat = map.MaxLat) (hmin : map'.MinLat = map.MinLat)
    (hmaxLong : map'.MaxLong = map.MaxLong) (hminLong : map'.MinLong = map.MinLong) :
    Bounds points map' where
  MaxLat := hmax ▸ h.MaxLat
  MinLat := hmin ▸ h.MinLat
  MaxLong := hmaxLong ▸ h.MaxLong
  MinLong := hminLong ▸ h.MinLong

theorem getMapLanes_bounds {points : Set (WGS84Point K)} {map : ParsedMap K}
    (h : Bounds points map) (geom : IntersectionGeometryList) :
    Bounds (points ∪ {p | ∃ lane ∈ readLanes G.exact geom, p ∈ lane.Nodes})
      (getMapLanes G.exact geom map).1 := by
  rw [getMapLanes, readLanes]
  generalize ([] : List (MapLane K)) = found
  induction geom.array0.laneSet generalizing points map found with
  | nil => simpa using h
  | cons lane laneSet ih =>
    have hset : points ∪ {p | ∃ l ∈ (lane :: laneSet).map
          fun l => getMapLane G.exact geom l.laneID, p ∈ l.Nodes} =
        (points ∪ {p | p ∈ (getMapLane G.exact geom lane.laneID).Nodes}) ∪
          {p | ∃ l ∈ laneSet.map fun l => getMapLane G.exact geom l.laneID, p ∈ l.Nodes} := by
      ext p
      simp only [Set.mem_union, Set.mem_ofPred_eq, List.map_cons, List.mem_cons,
        exists_eq_or_imp, or_assoc]
    rw [hset, List.foldl_cons]
    exact ih (h.foldl _) _

/-- The box of a parsed map goes as far as what was read. -/
theorem parseMap_bounds (map : ParsedMap K) (regions : List Region)
    (geom : IntersectionGeometryList) :
    Bounds (readPoints G.exact geom) (parseMap G.exact map regions geom).1 := by
  have hinit : Bounds {getMapReferencePoint G.exact geom} (initMapBoundaryBox { map with
      ReferencePoint := { map.ReferencePoint with
        Latitude := (getMapReferencePoint G.exact geom).Latitude
        Longitude := (getMapReferencePoint G.exact geom).Longitude } }) :=
    initMapBoundaryBox_bounds rfl rfl
  exact (getMapLanes_bounds hinit geom).congr rfl rfl rfl rfl

/-- The nodes of a parsed map are in its box, exactly if those of the second pass are between the
others. -/
theorem parseMap_containsNodes_iff (map : ParsedMap K) (regions : List Region)
    (geom : IntersectionGeometryList) :
    (parseMap G.exact map regions geom).1.ContainsNodes ↔ PlacedWithin G.exact geom := by
  have hbounds := parseMap_bounds (G := G) map regions geom
  have hcontains : ∀ p, (parseMap G.exact map regions geom).1.Contains p ↔
      Within (readPoints G.exact geom) p := hbounds.contains_iff
  have hread : ∀ lane ∈ readLanes G.exact geom, ∀ p ∈ lane.Nodes,
      Within (readPoints G.exact geom) p := by
    intro lane hlane p hp
    have hmem : p ∈ readPoints G.exact geom := .inr ⟨lane, hlane, hp⟩
    exact ⟨⟨p, hmem, le_rfl⟩, ⟨p, hmem, le_rfl⟩, ⟨p, hmem, le_rfl⟩, ⟨p, hmem, le_rfl⟩⟩
  simp only [ParsedMap.ContainsNodes, hcontains, parseMap_lanes, setComputedLanes_eq_placeNodes,
    forall_placeNodes_iff _ _ hread, PlacedWithin]
  refine ⟨fun h laneNumber nodes hnodes => ?_, fun h lane _ => h lane.LaneNumber⟩
  obtain ⟨i, hi, hnumber⟩ := exists_of_placedNodes_eq_some hnodes
  rw [← hnumber] at hnodes
  exact h i (List.mem_of_mem_filter (List.mem_reverse.mp hi)) nodes hnodes

end Parse

end V2IHub.Utils.Intersection
