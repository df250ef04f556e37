import V2IHub.Utils.SetComputedLanes

/-! `ComputeLaneNodes` with exact offsets: `x` and `y` in centimetres and elevations in decimetres
from the reference point. -/
namespace V2IHub.Utils.Intersection

/-- The loop state: the totals, and the nodes so far. -/
structure NodeTotals where
  totalXOffset : ℤ
  totalYOffset : ℤ
  totalElevationOffset : ℤ
  laneNodes : List (WGS84Point ℤ)
deriving DecidableEq

/-- `x` and `y` of the delta; the loop goes over a node that has none. -/
def Node.offset (node : Node) : Option (ℤ × ℤ) :=
  match node.delta with
  | .nothing => none
  | .xy x y => some (x, y)
  | .latLon lat lon => some (lat, lon)

/-- The point at the totals, to which the node's own offset is added already. -/
def getPointFromNode (referencePoint : WGS84Point ℤ) (totalXOffset totalYOffset elevation
    totalElevationOffset : ℤ) : WGS84Point ℤ :=
  ⟨referencePoint.Latitude + totalYOffset, referencePoint.Longitude + totalXOffset,
    referencePoint.Elevation + (totalElevationOffset + elevation)⟩

/-- The loop's body for a defined lane: `GetPointFromNode` adds to the totals of the loop. -/
def addDefinedNode (refPoint : WGS84Point ℤ) (t : NodeTotals) (node : Node) : NodeTotals :=
  match node.offset with
  | none => t
  | some (x, y) =>
    let elevation := node.dElevation.getD 0
    { totalXOffset := t.totalXOffset + x
      totalYOffset := t.totalYOffset + y
      totalElevationOffset := t.totalElevationOffset + elevation
      laneNodes := t.laneNodes ++ [getPointFromNode refPoint (t.totalXOffset + x)
        (t.totalYOffset + y) elevation t.totalElevationOffset] }

/-- The loop's body for a computed lane: it adds to totals that it makes for each node. -/
def addComputedNode (refPoint : WGS84Point ℤ) (xOffset yOffset : ℤ) (t : NodeTotals)
    (node : Node) : NodeTotals :=
  match node.offset with
  | none => t
  | some (x, y) =>
    let elevation := node.dElevation.getD 0
    let totalComputedXOffset := t.totalXOffset + xOffset
    let totalComputedYOffset := t.totalYOffset + yOffset
    { t with
      totalElevationOffset := t.totalElevationOffset + elevation
      laneNodes := t.laneNodes ++ [getPointFromNode refPoint (totalComputedXOffset + x)
        (totalComputedYOffset + y) elevation t.totalElevationOffset] }

/-- The inner loop over the reference lanes; `none` where one is not a list of nodes, which the loop
takes for one. -/
def addReferenceLane (refPoint : WGS84Point ℤ) (xOffset yOffset : ℤ) (t : NodeTotals)
    (referenceLane : GenericLane) : Option NodeTotals :=
  match referenceLane.nodeList with
  | .nodes nodes =>
    some (nodes.foldl (addComputedNode refPoint xOffset yOffset)
      { t with totalElevationOffset := 0 })
  | _ => none

def addLane (refPoint : WGS84Point ℤ) (lanes : List GenericLane) (t : NodeTotals)
    (lane : GenericLane) : Option NodeTotals :=
  match lane.nodeList with
  | .nothing => some t
  | .nodes nodes =>
    some (nodes.foldl (addDefinedNode refPoint) { t with totalElevationOffset := 0 })
  | .computed node =>
    (lanes.filter fun referenceLane => referenceLane.laneID = node.referenceLaneId).foldlM
      (addReferenceLane refPoint node.offsetXaxis.value node.offsetYaxis.value) t

def computeLaneNodes (refPoint : WGS84Point ℤ) (laneId : ℤ) (lanes : List GenericLane) :
    Option (List (WGS84Point ℤ)) :=
  ((lanes.filter fun lane => lane.laneID = laneId).foldlM (addLane refPoint lanes)
    ⟨0, 0, 0, []⟩).map NodeTotals.laneNodes

/-- The reference point is the origin, and a point moves by the centimetres of the offset. -/
def centimetres : Geodesy ℤ where
  degrees _ := 0
  elevation n := n
  meters n := n
  ofLong n := n
  lt a b := a < b
  getPointFromNodeOffset referencePoint laneNodeOffset :=
    ⟨referencePoint.Latitude + laneNodeOffset.Longitude,
      referencePoint.Longitude + laneNodeOffset.Latitude, 0⟩
  computeLaneNodes refPoint laneId lanes := (computeLaneNodes refPoint laneId lanes).getD []

/-- The cumulative offset of a node. -/
def WGS84Point.xy (point : WGS84Point ℤ) : ℤ × ℤ := (point.Longitude, point.Latitude)

/-- A lane of the map that is computed from lanes with lists of nodes. -/
structure ComputedReference (lanes : List GenericLane) where
  lane : GenericLane
  computed : ComputedLane
  only : (lanes.filter fun l => l.laneID = lane.laneID) = [lane]
  nodeList : lane.nodeList = .computed computed
  refers : ∃ l ∈ lanes, l.laneID = computed.referenceLaneId
  defined : ∀ l ∈ lanes, l.laneID = computed.referenceLaneId → ∃ nodes, l.nodeList = .nodes nodes

def NodeList.toNodes : NodeList → List Node
  | .nodes list => list
  | _ => []

/-- The deltas of the lanes that have lists of nodes. -/
def laneDeltas (lanes : List GenericLane) : List (ℤ × ℤ) :=
  lanes.flatMap fun l => l.nodeList.toNodes.filterMap Node.offset

namespace ComputedReference
variable {lanes : List GenericLane} (r : ComputedReference lanes)

def referenceLanes : List GenericLane :=
  lanes.filter fun l => l.laneID = r.computed.referenceLaneId

/-- The offsets that the nodes of the reference lane have from one another. -/
def deltas : List (ℤ × ℤ) := laneDeltas r.referenceLanes

def offset : ℤ × ℤ := (r.computed.offsetXaxis.value, r.computed.offsetYaxis.value)

theorem referenceLanes_defined : ∀ l ∈ r.referenceLanes, ∃ nodes, l.nodeList = .nodes nodes := by
  intro l hl
  obtain ⟨hmem, hid⟩ := List.mem_filter.mp hl
  exact r.defined l hmem (by simpa using hid)

end ComputedReference

section Totals

/-- The sums of the first one, the first two and so on, on top of a total. -/
def runningTotals (total : ℤ × ℤ) : List (ℤ × ℤ) → List (ℤ × ℤ)
  | [] => []
  | d :: ds => (total + d) :: runningTotals (total + d) ds

/-- The sums are the offsets themselves, moved by `c`, only if there is nothing to sum up. -/
theorem runningTotals_eq_map_iff (c total : ℤ × ℤ) (ds : List (ℤ × ℤ)) :
    runningTotals total ds = ds.map (c + ·) ↔
      ds = [] ∨ total = c ∧ ∀ d ∈ ds.dropLast, d = 0 := by
  induction ds generalizing total with
  | nil => simp [runningTotals]
  | cons d ds ih =>
    simp only [runningTotals, List.map_cons, List.cons.injEq, add_left_inj, ih, reduceCtorEq,
      false_or]
    refine and_congr_right fun htotal => ?_
    subst htotal
    cases ds with
    | nil => simp
    | cons e ds => simp

theorem runningTotals_append (total : ℤ × ℤ) (ds es : List (ℤ × ℤ)) :
    runningTotals total (ds ++ es) =
      runningTotals total ds ++ runningTotals (total + ds.sum) es := by
  induction ds generalizing total with
  | nil => simp [runningTotals]
  | cons d ds ih => simp [runningTotals, ih, add_assoc]

end Totals

section Loops
variable (refPoint : WGS84Point ℤ) {t : NodeTotals}

/-- The totals of `x` and `y`. -/
def NodeTotals.xy (t : NodeTotals) : ℤ × ℤ := (t.totalXOffset, t.totalYOffset)

/-- The nodes so far, as offsets. -/
def NodeTotals.offsets (t : NodeTotals) : List (ℤ × ℤ) := t.laneNodes.map WGS84Point.xy

theorem addDefinedNode_some {node : Node} {d : ℤ × ℤ} (h : node.offset = some d) :
    (addDefinedNode refPoint t node).xy = t.xy + d ∧
      (addDefinedNode refPoint t node).offsets = t.offsets ++ [refPoint.xy + (t.xy + d)] := by
  obtain ⟨x, y⟩ := d
  simp [addDefinedNode, h, NodeTotals.xy, NodeTotals.offsets, WGS84Point.xy, getPointFromNode]

theorem addComputedNode_some {node : Node} {d : ℤ × ℤ} (h : node.offset = some d)
    (xOffset yOffset : ℤ) :
    (addComputedNode refPoint xOffset yOffset t node).xy = t.xy ∧
      (addComputedNode refPoint xOffset yOffset t node).offsets =
        t.offsets ++ [refPoint.xy + (t.xy + (xOffset, yOffset) + d)] := by
  obtain ⟨x, y⟩ := d
  simp [addComputedNode, h, NodeTotals.xy, NodeTotals.offsets, WGS84Point.xy, getPointFromNode]

/-- The nodes of a defined lane are at the running totals. -/
theorem foldl_addDefinedNode (nodes : List Node) (t : NodeTotals) :
    (nodes.foldl (addDefinedNode refPoint) t).xy =
        t.xy + (nodes.filterMap Node.offset).sum ∧
      (nodes.foldl (addDefinedNode refPoint) t).offsets = t.offsets ++
        (runningTotals t.xy (nodes.filterMap Node.offset)).map (refPoint.xy + ·) := by
  induction nodes generalizing t with
  | nil => simp [runningTotals]
  | cons node nodes ih =>
    rw [List.foldl_cons]
    obtain ⟨hxy, hoffsets⟩ := ih (addDefinedNode refPoint t node)
    cases hnode : node.offset with
    | none =>
      rw [List.filterMap_cons_none hnode]
      rw [addDefinedNode, hnode] at hxy hoffsets ⊢
      exact ⟨hxy, hoffsets⟩
    | some d =>
      obtain ⟨hstep, hadded⟩ := addDefinedNode_some refPoint (t := t) hnode
      rw [List.filterMap_cons_some hnode, hxy, hoffsets, hstep, hadded]
      exact ⟨by rw [List.sum_cons, add_assoc], by simp [runningTotals]⟩

/-- Those of a computed lane are all at the totals from before the lane. -/
theorem foldl_addComputedNode (xOffset yOffset : ℤ) (nodes : List Node) (t : NodeTotals) :
    (nodes.foldl (addComputedNode refPoint xOffset yOffset) t).xy = t.xy ∧
      (nodes.foldl (addComputedNode refPoint xOffset yOffset) t).offsets = t.offsets ++
        (nodes.filterMap Node.offset).map fun d =>
          refPoint.xy + (t.xy + (xOffset, yOffset) + d) := by
  induction nodes generalizing t with
  | nil => simp
  | cons node nodes ih =>
    rw [List.foldl_cons]
    obtain ⟨hxy, hoffsets⟩ := ih (addComputedNode refPoint xOffset yOffset t node)
    cases hnode : node.offset with
    | none =>
      rw [List.filterMap_cons_none hnode]
      rw [addComputedNode, hnode] at hxy hoffsets ⊢
      exact ⟨hxy, hoffsets⟩
    | some d =>
      obtain ⟨hstep, hadded⟩ :=
        addComputedNode_some refPoint (t := t) hnode xOffset yOffset
      rw [List.filterMap_cons_some hnode, hxy, hoffsets, hstep, hadded]
      exact ⟨rfl, by simp⟩

theorem foldlM_addLane {lanes : List GenericLane} (all : List GenericLane)
    (hdefined : ∀ l ∈ lanes, ∃ nodes, l.nodeList = .nodes nodes) (t : NodeTotals) :
    ∃ t', lanes.foldlM (addLane refPoint all) t = some t' ∧
      t'.xy = t.xy + (laneDeltas lanes).sum ∧
      t'.offsets = t.offsets ++
        (runningTotals t.xy (laneDeltas lanes)).map (refPoint.xy + ·) := by
  induction lanes generalizing t with
  | nil => exact ⟨t, rfl, by simp [laneDeltas], by simp [laneDeltas, runningTotals]⟩
  | cons lane lanes ih =>
    obtain ⟨nodes, hnodes⟩ := hdefined lane (by simp)
    obtain ⟨hxy, hoffsets⟩ := foldl_addDefinedNode refPoint nodes
      { t with totalElevationOffset := 0 }
    obtain ⟨t', ht', hxy', hoffsets'⟩ := ih (fun l hl => hdefined l (by simp [hl]))
      (nodes.foldl (addDefinedNode refPoint) { t with totalElevationOffset := 0 })
    have hdeltas : laneDeltas (lane :: lanes) =
        nodes.filterMap Node.offset ++ laneDeltas lanes := by
      simp [laneDeltas, hnodes, NodeList.toNodes]
    refine ⟨t', ?_, ?_, ?_⟩
    · simp only [List.foldlM_cons, addLane, hnodes]
      exact ht'
    · rw [hxy', hxy, hdeltas, List.sum_append, ← add_assoc]
      rfl
    · rw [hoffsets', hoffsets, hxy, hdeltas, runningTotals_append, List.map_append,
        List.append_assoc]
      rfl

theorem foldlM_addReferenceLane (xOffset yOffset : ℤ) {lanes : List GenericLane}
    (hdefined : ∀ l ∈ lanes, ∃ nodes, l.nodeList = .nodes nodes) (t : NodeTotals) :
    ∃ t', lanes.foldlM (addReferenceLane refPoint xOffset yOffset) t = some t' ∧
      t'.xy = t.xy ∧
      t'.offsets = t.offsets ++ (laneDeltas lanes).map fun d =>
        refPoint.xy + (t.xy + (xOffset, yOffset) + d) := by
  induction lanes generalizing t with
  | nil => exact ⟨t, rfl, rfl, by simp [laneDeltas]⟩
  | cons lane lanes ih =>
    obtain ⟨nodes, hnodes⟩ := hdefined lane (by simp)
    obtain ⟨hxy, hoffsets⟩ := foldl_addComputedNode refPoint xOffset yOffset nodes
      { t with totalElevationOffset := 0 }
    obtain ⟨t', ht', hxy', hoffsets'⟩ := ih (fun l hl => hdefined l (by simp [hl]))
      (nodes.foldl (addComputedNode refPoint xOffset yOffset) { t with totalElevationOffset := 0 })
    have hdeltas : laneDeltas (lane :: lanes) =
        nodes.filterMap Node.offset ++ laneDeltas lanes := by
      simp [laneDeltas, hnodes, NodeList.toNodes]
    refine ⟨t', ?_, ?_, ?_⟩
    · simp only [List.foldlM_cons, addReferenceLane, hnodes]
      exact ht'
    · rw [hxy', hxy]
      rfl
    · rw [hoffsets', hoffsets, hxy, hdeltas, List.map_append, List.append_assoc]
      rfl

end Loops

namespace ComputedReference
variable {lanes : List GenericLane} (refPoint : WGS84Point ℤ) (r : ComputedReference lanes)

/-- The nodes of the lane are those of its reference lane, each moved by the offset, but not on top
of one another. -/
theorem computeLaneNodes_lane : ∃ nodes,
    computeLaneNodes refPoint r.lane.laneID lanes = some nodes ∧
      nodes.map WGS84Point.xy = r.deltas.map fun d => refPoint.xy + (r.offset + d) := by
  obtain ⟨t, ht, -, hoffsets⟩ := foldlM_addReferenceLane refPoint r.computed.offsetXaxis.value
    r.computed.offsetYaxis.value r.referenceLanes_defined ⟨0, 0, 0, []⟩
  refine ⟨t.laneNodes, ?_, ?_⟩
  · simp only [computeLaneNodes, r.only, List.foldlM_cons, List.foldlM_nil, addLane, r.nodeList]
    rw [referenceLanes] at ht
    rw [ht]
    rfl
  · have hzero : NodeTotals.xy ⟨0, 0, 0, []⟩ = 0 := rfl
    rw [hzero, zero_add] at hoffsets
    exact hoffsets

theorem computeLaneNodes_reference : ∃ nodes,
    computeLaneNodes refPoint r.computed.referenceLaneId lanes = some nodes ∧
      nodes.map WGS84Point.xy = (runningTotals 0 r.deltas).map (refPoint.xy + ·) := by
  obtain ⟨t, ht, -, hoffsets⟩ := foldlM_addLane refPoint lanes r.referenceLanes_defined
    ⟨0, 0, 0, []⟩
  refine ⟨t.laneNodes, ?_, hoffsets⟩
  rw [computeLaneNodes, ← referenceLanes, ht]
  rfl

/-- They are the nodes of the reference lane, moved by the offset, only if there is nothing to sum
up. -/
theorem offsets_eq_iff : (r.deltas.map fun d => refPoint.xy + (r.offset + d)) =
      ((runningTotals 0 r.deltas).map (refPoint.xy + ·)).map (· + r.offset) ↔
    ∀ d ∈ r.deltas.dropLast, d = 0 := by
  have hinj : Function.Injective fun d : ℤ × ℤ => refPoint.xy + (r.offset + d) :=
    fun d e h => add_left_cancel (add_left_cancel h)
  have hmoved : ((runningTotals 0 r.deltas).map (refPoint.xy + ·)).map (· + r.offset) =
      (runningTotals 0 r.deltas).map fun d => refPoint.xy + (r.offset + d) := by
    rw [List.map_map]
    exact List.map_congr_left fun d _ => by simp only [Function.comp]; ring
  have htotals := runningTotals_eq_map_iff 0 0 r.deltas
  simp only [zero_add, List.map_id', true_and] at htotals
  rw [hmoved, (List.map_injective_iff.mpr hinj).eq_iff, eq_comm, htotals, or_iff_right_of_imp]
  rintro hnil d hd
  rw [hnil] at hd
  cases hd

variable {geom : IntersectionGeometryList} (r : ComputedReference geom.array0.laneSet)

theorem mem : r.lane ∈ geom.array0.laneSet :=
  List.mem_of_mem_filter (r.only ▸ List.mem_singleton_self r.lane)

/-- What is read for the computed lane, and for no other one. -/
theorem readFrom_lane : ReadFrom centimetres geom r.lane
    (getMapLane centimetres geom r.lane.laneID) := by
  obtain ⟨last, hlast, hid, hread⟩ := getMapLane_readFrom (G := centimetres) r.mem
  have hfilter : last ∈ geom.array0.laneSet.filter fun l => l.laneID = r.lane.laneID := by
    simpa using ⟨hlast, hid⟩
  rw [r.only, List.mem_singleton] at hfilter
  rwa [hfilter] at hread

/-- None of the lanes that `SetComputedLanes` treats has the number of the reference lane. -/
theorem computedLanes_ne {i : MapLane ℤ} (hi : i ∈ computedLanes (readLanes centimetres geom)) :
    i.LaneNumber ≠ r.computed.referenceLaneId := by
  intro hnumber
  obtain ⟨hmem, htreated⟩ := List.mem_filter.mp hi
  obtain ⟨l, hl, rfl⟩ := List.mem_map.mp hmem
  obtain ⟨last, hlast, -, hread⟩ := getMapLane_readFrom (G := centimetres) hl
  obtain ⟨nodes, hnodes⟩ := r.defined last hlast (hread.LaneNumber ▸ hnumber)
  have hnone : (getMapLane centimetres geom l.laneID).ReferenceLaneId = -1 := by
    rw [hread.ReferenceLaneId]
    simp [getReferenceLaneId, hnodes]
  simp [hnone] at htreated

/-- The only treated lane of its number is the lane itself. -/
theorem computedLanes_eq {i : MapLane ℤ} (hi : i ∈ computedLanes (readLanes centimetres geom))
    (hnumber : i.LaneNumber = r.lane.laneID) :
    i = getMapLane centimetres geom r.lane.laneID := by
  obtain ⟨l, hl, rfl⟩ := List.mem_map.mp (List.mem_of_mem_filter hi)
  obtain ⟨last, -, hid, hread⟩ := getMapLane_readFrom (G := centimetres) hl
  rw [← hnumber, hread.LaneNumber, hid]

theorem referenceLaneId_of_treated
    (h : getMapLane centimetres geom r.lane.laneID ∈ computedLanes (readLanes centimetres geom)) :
    (getMapLane centimetres geom r.lane.laneID).ReferenceLaneId = r.computed.referenceLaneId := by
  have htreated := (List.mem_filter.mp h).2
  rw [decide_eq_true_eq, r.readFrom_lane.ReferenceLaneId] at htreated
  rw [r.readFrom_lane.ReferenceLaneId]
  cases huse : getDirectionalUse r.lane.directionalUse <;>
    simp [getReferenceLaneId, r.nodeList, huse] at htreated ⊢

/-- The nodes of the lane in the map: those of the reference lane moved by the offset, or the ones
that were read. -/
theorem nodesOf_lane {refNodes : List (WGS84Point ℤ)}
    (href : getLaneNodes centimetres geom r.computed.referenceLaneId = refNodes) :
    nodesOf (mapOf centimetres geom).1.Lanes r.lane.laneID =
        some (getLaneNodes centimetres geom r.lane.laneID) ∨
      ∃ final, nodesOf (mapOf centimetres geom).1.Lanes r.lane.laneID = some final ∧
        final.map WGS84Point.xy = (refNodes.map WGS84Point.xy).map (· + r.offset) := by
  have hlane := r.readFrom_lane
  have honly : ∀ i ∈ (computedLanes (readLanes centimetres geom)).reverse,
      i.LaneNumber = r.lane.laneID → i = getMapLane centimetres geom r.lane.laneID :=
    fun i hi => r.computedLanes_eq (List.mem_reverse.mp hi)
  rw [mapOf, parseMap_lanes, setComputedLanes_eq_placeNodes, nodesOf_placeNodes,
    nodesOf_readLanes r.mem, Option.map_some]
  by_cases htreated : getMapLane centimetres geom r.lane.laneID ∈
      computedLanes (readLanes centimetres geom)
  · have hreference : (getMapLane centimetres geom r.lane.laneID).ReferenceLaneId =
        r.computed.referenceLaneId := r.referenceLaneId_of_treated htreated
    obtain ⟨l, hl, hid⟩ := r.refers
    have hread : nodesOf (readLanes centimetres geom)
        (getMapLane centimetres geom r.lane.laneID).ReferenceLaneId = some refNodes := by
      rw [hreference, ← hid, nodesOf_readLanes hl, hid, href]
    have hplaced := placedNodes_of_only (G := centimetres)
      (fun i hi hnumber => honly i hi (hnumber.trans hlane.LaneNumber))
      (fun i hi => hreference ▸ r.computedLanes_ne (List.mem_reverse.mp hi)) hread
    rw [hlane.LaneNumber] at hplaced
    rcases hplaced with h | h
    · left
      rw [h]
      rfl
    · right
      rw [h, hlane.LaneNodeOffset]
      refine ⟨_, rfl, ?_⟩
      simp only [Option.getD_some, getOffsetNodeList, getComputedLaneOffset, r.nodeList,
        List.map_map]
      rfl
  · left
    rw [placedNodes_of_ne]
    · rfl
    · exact fun i hi hnumber => htreated (honly i hi hnumber ▸ List.mem_reverse.mp hi)

theorem getLaneNodes_centimetres {laneId : ℤ} {nodes : List (WGS84Point ℤ)}
    (h : computeLaneNodes (getMapReferencePoint centimetres geom) laneId geom.array0.laneSet =
      some nodes) : getLaneNodes centimetres geom laneId = nodes := by
  show (computeLaneNodes (getMapReferencePoint centimetres geom) laneId
    geom.array0.laneSet).getD [] = nodes
  rw [h]
  rfl

end ComputedReference

/-- Both ways give the lane the nodes of its reference lane, moved by the offset. -/
def AgreesWithReference (geom : IntersectionGeometryList)
    (r : ComputedReference geom.array0.laneSet) : Prop :=
  ∃ nodes refNodes final,
    computeLaneNodes (getMapReferencePoint centimetres geom) r.lane.laneID geom.array0.laneSet =
      some nodes ∧
    computeLaneNodes (getMapReferencePoint centimetres geom) r.computed.referenceLaneId
      geom.array0.laneSet = some refNodes ∧
    nodes.map WGS84Point.xy = (refNodes.map WGS84Point.xy).map (· + r.offset) ∧
    nodesOf (mapOf centimetres geom).1.Lanes r.lane.laneID = some final ∧
    final.map WGS84Point.xy = nodes.map WGS84Point.xy

/-- The two ways to compute the lane give the nodes of its reference lane moved by the offset, exactly
if all of these but the last are in one place. -/
theorem computedLane_agrees_iff (geom : IntersectionGeometryList)
    (r : ComputedReference geom.array0.laneSet) :
    AgreesWithReference geom r ↔ ∀ d ∈ r.deltas.dropLast, d = 0 := by
  obtain ⟨nodes, hnodes, hxy⟩ := r.computeLaneNodes_lane (getMapReferencePoint centimetres geom)
  obtain ⟨refNodes, hrefNodes, hrefxy⟩ :=
    r.computeLaneNodes_reference (getMapReferencePoint centimetres geom)
  have hmoved := r.offsets_eq_iff (getMapReferencePoint centimetres geom)
  rw [← hxy, ← hrefxy] at hmoved
  rw [← hmoved]
  constructor
  · rintro ⟨nodes', refNodes', final, hnodes', hrefNodes', hoffset, -, -⟩
    obtain rfl := Option.some.inj (hnodes.symm.trans hnodes')
    obtain rfl := Option.some.inj (hrefNodes.symm.trans hrefNodes')
    exact hoffset
  · intro hoffset
    have hread := ComputedReference.getLaneNodes_centimetres hnodes
    have href := ComputedReference.getLaneNodes_centimetres hrefNodes
    rcases r.nodesOf_lane href with hkept | ⟨final, hplaced, hfinal⟩
    · exact ⟨nodes, refNodes, nodes, hnodes, hrefNodes, hoffset, hread ▸ hkept, rfl⟩
    · exact ⟨nodes, refNodes, final, hnodes, hrefNodes, hoffset, hplaced, hfinal.trans hoffset.symm⟩

section Sample

/-- Lane 1 with two nodes, one metre from one another, and lane 2 three metres beside it. -/
def sampleGeometry : IntersectionGeometryList :=
  ⟨⟨7, ⟨420000000, -830000000, none⟩, none,
    [⟨1, [128], .nodes [⟨.xy 100 0, none⟩, ⟨.xy 100 0, none⟩], []⟩,
      ⟨2, [128], .computed ⟨1, .nothing, .small 300⟩, []⟩]⟩, []⟩

def sampleReference : ComputedReference sampleGeometry.array0.laneSet where
  lane := ⟨2, [128], .computed ⟨1, .nothing, .small 300⟩, []⟩
  computed := ⟨1, .nothing, .small 300⟩
  only := rfl
  nodeList := rfl
  refers := ⟨_, List.mem_cons_self, rfl⟩
  defined := by
    intro l hl hid
    rcases List.mem_cons.mp hl with rfl | hl
    · exact ⟨_, rfl⟩
    · obtain rfl := List.mem_singleton.mp hl
      cases hid

/-- One way puts both nodes of the computed lane in one place, the other one a metre apart. -/
theorem computedLane_nodes_collapse :
    (computeLaneNodes (getMapReferencePoint centimetres sampleGeometry) 2
        sampleGeometry.array0.laneSet).map (·.map WGS84Point.xy) = some [(100, 300), (100, 300)] ∧
      (nodesOf (mapOf centimetres sampleGeometry).1.Lanes 2).map (·.map WGS84Point.xy) =
        some [(100, 300), (200, 300)] ∧
      ¬ ∀ (geom : IntersectionGeometryList) (r : ComputedReference geom.array0.laneSet),
        AgreesWithReference geom r := by
  have hcomputed : (computeLaneNodes (getMapReferencePoint centimetres sampleGeometry) 2
      sampleGeometry.array0.laneSet).map (·.map WGS84Point.xy) =
        some [(100, 300), (100, 300)] := by decide
  have hplaced : (nodesOf (mapOf centimetres sampleGeometry).1.Lanes 2).map
      (·.map WGS84Point.xy) = some [(100, 300), (200, 300)] := by decide
  refine ⟨hcomputed, hplaced, fun hall => ?_⟩
  obtain ⟨nodes, -, final, hnodes, -, -, hfinal, hsame⟩ := hall sampleGeometry sampleReference
  have hnodes' : computeLaneNodes (getMapReferencePoint centimetres sampleGeometry) 2
      sampleGeometry.array0.laneSet = some nodes := hnodes
  have hfinal' : nodesOf (mapOf centimetres sampleGeometry).1.Lanes 2 = some final := hfinal
  rw [hnodes', Option.map_some] at hcomputed
  rw [hfinal', Option.map_some] at hplaced
  rw [Option.some.inj hcomputed, Option.some.inj hplaced] at hsame
  exact absurd hsame (by decide)

end Sample

end V2IHub.Utils.Intersection
