import V2IHub.Utils.Intersection

/-! What `SetComputedLanes` makes of the nodes of each lane. -/
namespace V2IHub.Utils.Intersection

variable {K : Type}

/-- The nodes of the first lane with that number. -/
def nodesOf (lanes : List (MapLane K)) (laneNumber : ℤ) : Option (List (WGS84Point K)) :=
  (lanes.find? fun lane => laneNumber = lane.LaneNumber).map MapLane.Nodes

/-- The lanes that the first loop copies. -/
def computedLanes (lanes : List (MapLane K)) : List (MapLane K) :=
  lanes.filter fun l => l.ReferenceLaneId > 0 ∧ (l.Type' = .computed ∨ l.Type' = .egress)

def getOffsetNodeList (G : Geodesy K) (nodes : List (WGS84Point K))
    (laneNodeOffset : WGS84Point K) : List (WGS84Point K) :=
  nodes.map fun point => G.getPointFromNodeOffset point laneNodeOffset

/-- The nodes that the lanes of the copy place at a lane number, the last one first: those of its
reference lane, as the lanes before it have left them, moved by its offset. -/
def placedNodes (G : Geodesy K) (read : ℤ → Option (List (WGS84Point K))) :
    List (MapLane K) → ℤ → Option (List (WGS84Point K))
  | [], _ => none
  | i :: earlier, laneNumber =>
    if laneNumber = i.LaneNumber then
      match read i.ReferenceLaneId with
      | some nodes => some (getOffsetNodeList G
          ((placedNodes G read earlier i.ReferenceLaneId).getD nodes) i.LaneNodeOffset)
      | none => some i.Nodes
    else placedNodes G read earlier laneNumber

section Placed
variable {G : Geodesy K} {read : ℤ → Option (List (WGS84Point K))} {lanes : List (MapLane K)}

theorem placedNodes_of_ne {laneNumber : ℤ} (h : ∀ i ∈ lanes, i.LaneNumber ≠ laneNumber) :
    placedNodes G read lanes laneNumber = none := by
  induction lanes with
  | nil => rfl
  | cons i earlier ih =>
    rw [placedNodes, if_neg (h i (by simp)).symm]
    exact ih fun j hj => h j (by simp [hj])

theorem exists_of_placedNodes_eq_some {laneNumber : ℤ} {nodes : List (WGS84Point K)}
    (h : placedNodes G read lanes laneNumber = some nodes) :
    ∃ i ∈ lanes, i.LaneNumber = laneNumber := by
  by_contra hne
  rw [placedNodes_of_ne fun i hi hnumber => hne ⟨i, hi, hnumber⟩] at h
  cases h

/-- A lane that alone has its number gets the nodes that were read for its reference lane, if none
are placed there. -/
theorem placedNodes_of_only {m : MapLane K} {nodes : List (WGS84Point K)}
    (honly : ∀ i ∈ lanes, i.LaneNumber = m.LaneNumber → i = m)
    (href : ∀ i ∈ lanes, i.LaneNumber ≠ m.ReferenceLaneId)
    (hread : read m.ReferenceLaneId = some nodes) :
    placedNodes G read lanes m.LaneNumber = none ∨
      placedNodes G read lanes m.LaneNumber =
        some (getOffsetNodeList G nodes m.LaneNodeOffset) := by
  induction lanes with
  | nil => exact .inl rfl
  | cons i earlier ih =>
    by_cases h : m.LaneNumber = i.LaneNumber
    · obtain rfl := honly i (by simp) h.symm
      have hnone : placedNodes G read earlier i.ReferenceLaneId = none :=
        placedNodes_of_ne fun j hj => href j (by simp [hj])
      rw [placedNodes, if_pos rfl, hread, hnone]
      exact .inr rfl
    · rw [placedNodes, if_neg h]
      exact ih (fun j hj => honly j (by simp [hj])) fun j hj => href j (by simp [hj])

end Placed

/-- The first lane of each number gets the nodes that are placed there. -/
def placeNodes (placed : ℤ → Option (List (WGS84Point K))) : List (MapLane K) → List (MapLane K)
  | [] => []
  | lane :: lanes =>
    { lane with Nodes := (placed lane.LaneNumber).getD lane.Nodes } ::
      placeNodes (Function.update placed lane.LaneNumber none) lanes

section Place
variable {placed : ℤ → Option (List (WGS84Point K))} {lanes : List (MapLane K)}

theorem placeNodes_none (lanes : List (MapLane K)) : placeNodes (fun _ => none) lanes = lanes := by
  induction lanes with
  | nil => rfl
  | cons lane lanes ih =>
    have hupdate : Function.update (fun _ => none : ℤ → Option (List (WGS84Point K)))
        lane.LaneNumber none = fun _ => none := Function.update_eq_self _ _
    rw [placeNodes, hupdate, ih]
    rfl

theorem nodesOf_cons (lane : MapLane K) (lanes : List (MapLane K)) (laneNumber : ℤ) :
    nodesOf (lane :: lanes) laneNumber =
      if laneNumber = lane.LaneNumber then some lane.Nodes else nodesOf lanes laneNumber := by
  by_cases h : laneNumber = lane.LaneNumber <;> simp [nodesOf, h]

theorem nodesOf_placeNodes (laneNumber : ℤ) :
    nodesOf (placeNodes placed lanes) laneNumber =
      (nodesOf lanes laneNumber).map fun nodes => (placed laneNumber).getD nodes := by
  induction lanes generalizing placed with
  | nil => rfl
  | cons lane lanes ih =>
    rw [placeNodes, nodesOf_cons, nodesOf_cons, ih]
    by_cases h : laneNumber = lane.LaneNumber
    · rw [if_pos h, if_pos h, h]
      rfl
    · rw [if_neg h, if_neg h, Function.update_of_ne h]

/-- Replacing the nodes of the first lane with a number places them there. -/
theorem replaceFirst_placeNodes (laneNumber : ℤ) (nodes : List (WGS84Point K)) :
    replaceFirst (fun j => laneNumber = j.LaneNumber) (fun j => { j with Nodes := nodes })
        (placeNodes placed lanes) =
      placeNodes (Function.update placed laneNumber (some nodes)) lanes := by
  induction lanes generalizing placed with
  | nil => rfl
  | cons lane lanes ih =>
    by_cases h : laneNumber = lane.LaneNumber
    · subst h
      simp [placeNodes, replaceFirst]
    · have hne : lane.LaneNumber ≠ laneNumber := Ne.symm h
      simp only [placeNodes, replaceFirst, h, decide_false, Bool.false_eq_true, if_false, ih,
        Function.update_of_ne hne]
      rw [Function.update_comm hne]

/-- Where all nodes that were read are good, those that are placed decide. -/
theorem forall_placeNodes_iff {Q : WGS84Point K → Prop} (lanes : List (MapLane K))
    (placed : ℤ → Option (List (WGS84Point K))) (hread : ∀ lane ∈ lanes, ∀ p ∈ lane.Nodes, Q p) :
    (∀ lane ∈ placeNodes placed lanes, ∀ p ∈ lane.Nodes, Q p) ↔
      ∀ lane ∈ lanes, ∀ nodes, placed lane.LaneNumber = some nodes → ∀ p ∈ nodes, Q p := by
  induction lanes generalizing placed with
  | nil => simp [placeNodes]
  | cons lane lanes ih =>
    rw [placeNodes, List.forall_mem_cons, List.forall_mem_cons,
      ih _ fun l hl => hread l (by simp [hl])]
    constructor
    · rintro ⟨hfirst, hrest⟩
      have hhere : ∀ nodes, placed lane.LaneNumber = some nodes → ∀ p ∈ nodes, Q p := by
        intro nodes hnodes
        rwa [hnodes] at hfirst
      refine ⟨hhere, fun l hl nodes hnodes => ?_⟩
      by_cases h : l.LaneNumber = lane.LaneNumber
      · exact hhere nodes (h ▸ hnodes)
      · exact hrest l hl nodes (by rwa [Function.update_of_ne h])
    · rintro ⟨hfirst, hrest⟩
      constructor
      · cases hnodes : placed lane.LaneNumber with
        | none => exact hread lane (by simp)
        | some nodes => exact hfirst nodes hnodes
      · intro l hl nodes hnodes
        by_cases h : l.LaneNumber = lane.LaneNumber
        · rw [h, Function.update_self] at hnodes
          cases hnodes
        · rw [Function.update_of_ne h] at hnodes
          exact hrest l hl nodes hnodes

end Place

/-- One pass of the second loop. -/
def setComputedLane (G : Geodesy K) (lanes : List (MapLane K)) (i : MapLane K) :
    List (MapLane K) :=
  let nodes := match lanes.find? fun j => i.ReferenceLaneId = j.LaneNumber with
    | some j => getOffsetNodeList G j.Nodes i.LaneNodeOffset
    | none => i.Nodes
  replaceFirst (fun j => i.LaneNumber = j.LaneNumber) (fun j => { j with Nodes := nodes }) lanes

theorem setComputedLanes_eq_foldl (G : Geodesy K) (lanes : List (MapLane K)) :
    setComputedLanes G lanes = (computedLanes lanes).foldl (setComputedLane G) lanes := rfl

theorem setComputedLane_placeNodes (G : Geodesy K) (lanes earlier : List (MapLane K))
    (i : MapLane K) :
    setComputedLane G (placeNodes (placedNodes G (nodesOf lanes) earlier) lanes) i =
      placeNodes (placedNodes G (nodesOf lanes) (i :: earlier)) lanes := by
  have hread : nodesOf (placeNodes (placedNodes G (nodesOf lanes) earlier) lanes)
      i.ReferenceLaneId = _ := nodesOf_placeNodes i.ReferenceLaneId
  have hupdate : placedNodes G (nodesOf lanes) (i :: earlier) =
      Function.update (placedNodes G (nodesOf lanes) earlier) i.LaneNumber
        (placedNodes G (nodesOf lanes) (i :: earlier) i.LaneNumber) := by
    funext laneNumber
    by_cases h : laneNumber = i.LaneNumber
    · rw [h, Function.update_self]
    · rw [Function.update_of_ne h, placedNodes, if_neg h]
  rw [hupdate, placedNodes, if_pos rfl, setComputedLane]
  rw [nodesOf] at hread
  cases hown : nodesOf lanes i.ReferenceLaneId with
  | none =>
    rw [hown, Option.map_none, Option.map_eq_none_iff] at hread
    rw [hread]
    exact replaceFirst_placeNodes _ _
  | some nodes =>
    rw [hown, Option.map_some, Option.map_eq_some_iff] at hread
    obtain ⟨j, hfind, hnodes⟩ := hread
    simp only [hfind, hnodes]
    exact replaceFirst_placeNodes _ _

/-- All of the lanes at once: what the copied lanes place, last one first. -/
theorem setComputedLanes_eq_placeNodes (G : Geodesy K) (lanes : List (MapLane K)) :
    setComputedLanes G lanes =
      placeNodes (placedNodes G (nodesOf lanes) (computedLanes lanes).reverse) lanes := by
  rw [setComputedLanes_eq_foldl]
  induction computedLanes lanes using List.reverseRecOn with
  | nil => exact (placeNodes_none lanes).symm
  | append_singleton earlier i ih =>
    rw [List.foldl_append, ih, List.foldl_cons, List.foldl_nil, setComputedLane_placeNodes,
      List.reverse_append, List.reverse_singleton, List.singleton_append]

section Read
variable {G : Geodesy K} {geom : IntersectionGeometryList}

/-- The lanes as `GetMapLanes` reads them. -/
def readLanes (G : Geodesy K) (geom : IntersectionGeometryList) : List (MapLane K) :=
  geom.array0.laneSet.map fun l => getMapLane G geom l.laneID

theorem getMapLanes_snd (geom : IntersectionGeometryList) (map : ParsedMap K) :
    (getMapLanes G geom map).2 = readLanes G geom := by
  have hfold : ∀ (laneSet : List GenericLane) (r : ParsedMap K × List (MapLane K)),
      (laneSet.foldl (addMapLane G geom) r).2 =
        r.2 ++ laneSet.map fun l => getMapLane G geom l.laneID := by
    intro laneSet
    induction laneSet with
    | nil => simp
    | cons lane laneSet ih =>
      intro r
      rw [List.foldl_cons, ih]
      simp [addMapLane]
  exact hfold _ _

theorem parseMap_lanes (map : ParsedMap K) (regions : List Region)
    (geom : IntersectionGeometryList) :
    (parseMap G map regions geom).1.Lanes = setComputedLanes G (readLanes G geom) := by
  rw [← getMapLanes_snd geom]
  rfl

/-- A lane that is in the set has the data of the last one with its id, and the nodes of the id. -/
structure ReadFrom (G : Geodesy K) (geom : IntersectionGeometryList) (lane : GenericLane)
    (mapLane : MapLane K) : Prop where
  LaneNumber : mapLane.LaneNumber = lane.laneID
  Nodes : mapLane.Nodes = getLaneNodes G geom lane.laneID
  Type' : mapLane.Type' = getLaneType lane (getDirectionalUse lane.directionalUse)
  ReferenceLaneId :
    mapLane.ReferenceLaneId = getReferenceLaneId lane (getDirectionalUse lane.directionalUse)
  LaneNodeOffset : mapLane.LaneNodeOffset = getComputedLaneOffset G lane

theorem getMapLane_readFrom {l : GenericLane} (hl : l ∈ geom.array0.laneSet) :
    ∃ last ∈ geom.array0.laneSet, last.laneID = l.laneID ∧
      ReadFrom G geom last (getMapLane G geom l.laneID) := by
  have hmem : l ∈ geom.array0.laneSet.filter fun lane => lane.laneID = l.laneID := by simpa using hl
  obtain ⟨init, last, hfilter⟩ := List.eq_nil_or_concat' _ |>.resolve_left (List.ne_nil_of_mem hmem)
  have hlast : last ∈ geom.array0.laneSet.filter fun lane => lane.laneID = l.laneID := by
    simp [hfilter]
  rw [List.mem_filter, decide_eq_true_eq] at hlast
  refine ⟨last, hlast.1, hlast.2, ?_⟩
  rw [getMapLane, hfilter, List.foldl_append]
  exact ⟨rfl, by rw [hlast.2]; rfl, rfl, rfl, rfl⟩

/-- The first lane with a number has the nodes of that id. -/
theorem nodesOf_readLanes {lane : GenericLane} (h : lane ∈ geom.array0.laneSet) :
    nodesOf (readLanes G geom) lane.laneID = some (getLaneNodes G geom lane.laneID) := by
  obtain ⟨last, hlast, hid, hread⟩ := getMapLane_readFrom (G := G) h
  rw [nodesOf, Option.map_eq_some_iff]
  cases hfind : (readLanes G geom).find? fun m => lane.laneID = m.LaneNumber with
  | none =>
    rw [List.find?_eq_none] at hfind
    refine absurd (hfind _ (List.mem_map_of_mem h)) ?_
    simp [hread.LaneNumber, hid]
  | some m =>
    have hnumber := List.find?_some hfind
    rw [decide_eq_true_eq] at hnumber
    obtain ⟨l, hl, rfl⟩ := List.mem_map.mp (List.mem_of_find?_eq_some hfind)
    obtain ⟨last', -, hid', hread'⟩ := getMapLane_readFrom (G := G) hl
    refine ⟨_, rfl, ?_⟩
    rw [hread'.Nodes, hnumber, hread'.LaneNumber]

end Read

end V2IHub.Utils.Intersection
