import V2IHub.Foundation.DecimalText
import V2IHub.Map.ConvertToJ2735r41

/-! The conversion of an ISD file to MAP data: `add_layer` for intersections. Numbers of the
file are rationals, which are finite doubles. -/
namespace V2IHub.Map.ISDToJ2735r41
open V2IHub.Foundation Binary64 J2735

structure LaneNodeAdaptor where
  nodeLat : ℚ
  nodeLong : ℚ
  nodeElev : Option ℚ
  laneWidthDelta : ℤ
deriving DecidableEq

/-- What the node elevation is without an entry. -/
def nodeElevDefault : ℚ := -1000

def LaneNodeAdaptor.get_nodeElev (laneNode : LaneNodeAdaptor) : ℚ :=
  laneNode.nodeElev.getD nodeElevDefault

structure ConnectionAdaptor where
  fromLane : Bytes
  toLane : Bytes
  signal_id : Bytes
  maneuvers : List ℕ
deriving DecidableEq

structure DrivingLaneAdaptor where
  laneID : Bytes
  laneType : Bytes
  typeAttributes : List ℕ
  sharedWith : List ℕ
  laneManeuvers : List ℕ
  laneNodes : List LaneNodeAdaptor
  connections : List ConnectionAdaptor
deriving DecidableEq

structure LaneListAdaptor where
  approachType : Bytes
  approachID : Bytes
  drivingLanes : List DrivingLaneAdaptor
  crosswalkLanes : List DrivingLaneAdaptor
deriving DecidableEq

structure IntersectionGeometryAdaptor where
  descriptiveIntersctionName : Bytes
  intersectionID : ℤ
  msgCount : ℤ
  masterLaneWidth : ℤ
  referenceLat : ℚ
  referenceLon : ℚ
  referenceElevation : Option ℚ
  lanes : List LaneListAdaptor
deriving DecidableEq

def IntersectionGeometryAdaptor.get_referenceElevation (geom : IntersectionGeometryAdaptor) : ℚ :=
  geom.referenceElevation.getD (-1)

structure WGS84Point where
  Latitude : ℚ
  Longitude : ℚ
deriving DecidableEq

section Values

def atol (text : Bytes) : ℤ :=
  let body := text.dropWhile fun b => b = 32 ∨ 9 ≤ b ∧ b ≤ 13
  let (negative, digits) :=
    match body with
    | 45 :: rest => (true, rest)
    | 43 :: rest => (false, rest)
    | rest => (false, rest)
  let value : ℤ := (digits.takeWhile DecimalText.isDigit).foldl
    (fun n b => 10 * n + DecimalText.digitVal b) 0
  if negative then max (-value) (-2 ^ 63) else min value (2 ^ 63 - 1)

def atoi (text : Bytes) : ℤ := (BitVec.ofInt 32 (atol text)).toInt

/-- The bits of a `bitset` that the file lists. -/
def bitset (n : ℕ) (positions : List ℕ) : BitVec n :=
  positions.foldl (fun bits i => bits ||| 1#n <<< i) 0

/-- `addValue` for a bit string: bit 0 comes first. -/
def addBits {n : ℕ} (bits : BitVec n) : BitString :=
  let numBytes := n / 8 + if n % 8 ≠ 0 then 1 else 0
  let bits_unused := numBytes * 8 - n
  let value := bits.reverse.toNat <<< bits_unused
  ⟨(List.range numBytes).map fun i => UInt8.ofNat (value >>> (8 * (numBytes - 1 - i))), bits_unused⟩

/-- `addOptionalValue` -/
def addOptionalValue {α : Type} [DecidableEq α] (value skipVal : α) : Option α :=
  if value ≠ skipVal then some value else none

def addOptionalBits {n : ℕ} (bits : BitVec n) : Option BitString :=
  if bits.toNat ≠ 0 then some (addBits bits) else none

end Values

section Nodes
variable (distanceInMeters : WGS84Point → WGS84Point → ℚ)

def LaneNodeAdaptor.point (laneNode : LaneNodeAdaptor) : WGS84Point :=
  ⟨laneNode.nodeLat, laneNode.nodeLong⟩

/-- Centimeters along the latitude of the node. -/
def modX (refPoint nodePoint : WGS84Point) : ℤ :=
  let nodeXToRefY : WGS84Point := ⟨nodePoint.Latitude, refPoint.Longitude⟩
  let modX := toInt32 (mul (distanceInMeters nodePoint nodeXToRefY) 100)
  if nodePoint.Longitude < refPoint.Longitude then modX * -1 else modX

/-- Centimeters along the longitude of the node. -/
def modY (refPoint nodePoint : WGS84Point) : ℤ :=
  let refXToNodeY : WGS84Point := ⟨refPoint.Latitude, nodePoint.Longitude⟩
  let modY := toInt32 (mul (distanceInMeters nodePoint refXToNodeY) 100)
  if nodePoint.Latitude < refPoint.Latitude then modY * -1 else modY

/-- The default of the elevation is in meters, what it is compared with in decimeters. -/
def elevationDelta (elevation : Option ℤ) (laneNode : LaneNodeAdaptor) : ℤ :=
  let dElev := toInt64 (mul laneNode.get_nodeElev 10)
  match elevation with
  | none => 0
  | some elevation => if (dElev : ℚ) ≤ nodeElevDefault then 0 else dElev + -1 * elevation

def newNode (elevation : Option ℤ) (refPoint : WGS84Point) (laneNode : LaneNodeAdaptor) : Node :=
  let dWidth := laneNode.laneWidthDelta
  let dElev := elevationDelta elevation laneNode
  { delta := offsetXY (modX distanceInMeters refPoint laneNode.point)
      (modY distanceInMeters refPoint laneNode.point)
    attributes :=
      if dWidth ≠ 0 ∨ dElev ≠ 0 then
        some { dWidth := addOptionalValue dWidth 0, dElevation := addOptionalValue dElev 0 }
      else none }

/-- Each node is the reference point of the next. -/
def nodes (elevation : Option ℤ) : WGS84Point → List LaneNodeAdaptor → List Node
  | _, [] => []
  | refPoint, laneNode :: laneNodes =>
    newNode distanceInMeters elevation refPoint laneNode :: nodes elevation laneNode.point laneNodes

end Nodes

section Lanes
variable (distanceInMeters : WGS84Point → WGS84Point → ℚ)

def isIngress (type : Bytes) : Prop := type = cstr "Ingress" ∨ type = cstr "ingress"

def isEgress (type : Bytes) : Prop := type = cstr "Egress" ∨ type = cstr "egress"

instance (type : Bytes) : Decidable (isIngress type) :=
  inferInstanceAs (Decidable (type = cstr "Ingress" ∨ type = cstr "ingress"))

instance (type : Bytes) : Decidable (isEgress type) :=
  inferInstanceAs (Decidable (type = cstr "Egress" ∨ type = cstr "egress"))

/-- The direction has two bits, ingress and egress. -/
def laneDirection (type : Bytes) : BitVec 2 :=
  if isIngress type then 1 else if isEgress type then 2 else 0

def laneTypeOf (laneType : Bytes) : LaneType :=
  if laneType = cstr "Vehicle" then .vehicle
  else if laneType = cstr "Crosswalk" then .crosswalk
  else if laneType = cstr "Bikelane" then .bikeLane
  else if laneType = cstr "Sidewalk" then .sidewalk
  else if laneType = cstr "Median" then .median
  else if laneType = cstr "Striping" then .striping
  else if laneType = cstr "TrackedVehicle" then .trackedVehicle
  else if laneType = cstr "Parking" then .parking
  else .nothing

def newConnection (conn : ConnectionAdaptor) : J2735.Connection where
  lane := atol conn.toLane
  maneuver := addOptionalBits (bitset 12 conn.maneuvers)
  signalGroup := addOptionalValue (if conn.signal_id = [] then -1 else atol conn.signal_id) (-1)

/-- Only the connections that start at the lane. -/
def connectsTo (driveLane : DrivingLaneAdaptor) : Option (List J2735.Connection) :=
  match driveLane.connections.filter fun conn => conn.fromLane = driveLane.laneID with
  | [] => none
  | conns => some (conns.map newConnection)

def nodeList (elevation : Option ℤ) (refPoint : WGS84Point) (driveLane : DrivingLaneAdaptor) :
    NodeList :=
  match driveLane.laneNodes with
  | [] => .nothing
  | laneNodes => .nodes (nodes distanceInMeters elevation refPoint laneNodes)

/-- The reference elevation, unless it is what a file without it gets. -/
def refElevation (geom : IntersectionGeometryAdaptor) : Option ℤ :=
  (addOptionalValue (mul geom.get_referenceElevation 10) (-10)).map toInt64

def newLane (geom : IntersectionGeometryAdaptor) (approach : LaneListAdaptor)
    (driveLane : DrivingLaneAdaptor) : GenericLane :=
  let type := approach.approachType
  let id := atoi approach.approachID
  { laneID := atol driveLane.laneID
    ingressApproach := if isIngress type then addOptionalValue id 0 else none
    egressApproach := if ¬ isIngress type ∧ isEgress type then addOptionalValue id 0 else none
    laneAttributes :=
      { directionalUse := addBits (laneDirection type)
        sharedWith := addBits (bitset 10 driveLane.sharedWith)
        laneType := laneTypeOf driveLane.laneType
        laneTypeBits :=
          if laneTypeOf driveLane.laneType = .nothing then ⟨[], 0⟩
          else addBits (bitset 16 driveLane.typeAttributes) }
    maneuvers := addOptionalBits (bitset 12 driveLane.laneManeuvers)
    nodeList := nodeList distanceInMeters (refElevation geom)
      ⟨geom.referenceLat, geom.referenceLon⟩ driveLane
    connectsTo := connectsTo driveLane }

def lanes (geom : IntersectionGeometryAdaptor) (approach : LaneListAdaptor) : List GenericLane :=
  if approach.approachType = cstr "none" then []
  else
    (if approach.approachType = cstr "Crosswalk" then approach.crosswalkLanes
      else approach.drivingLanes).map (newLane distanceInMeters geom approach)

def newIntersection (geom : IntersectionGeometryAdaptor) : IntersectionGeometry where
  name := addOptionalValue geom.descriptiveIntersctionName []
  id := geom.intersectionID
  revision := geom.msgCount
  refPoint :=
    { lat := toInt64 (mul geom.referenceLat 10000000)
      Long := toInt64 (mul geom.referenceLon 10000000)
      elevation := refElevation geom }
  laneWidth := addOptionalValue geom.masterLaneWidth (-1)
  laneSet := geom.lanes.flatMap (lanes distanceInMeters geom)

/-- Without an intersection geometry in the file nothing is added. -/
def add_layer (map : MapData) (geometry : Option IntersectionGeometryAdaptor) : MapData :=
  match geometry with
  | none => map
  | some geom => { map with intersections := some [newIntersection distanceInMeters geom] }

end Lanes

section Offsets

/-- The alternative for a node is the smallest one with both coordinates unless they differ in
the sign alone and the negative one is the lower end of a range. -/
theorem node_fits_iff (x y : ℤ) (hx : Offset x) (hy : Offset y) :
    (∀ (group : MapGroup) (laneIter : Fin maxlanes) (node : MapNode),
      node.eastern.toInt = x → node.northern.toInt = y →
        ((ConvertToJ2735r41.newNode group laneIter node).delta.Fits x y ↔ ¬ Opposite x y)) ∧
      ∀ (distanceInMeters : WGS84Point → WGS84Point → ℚ) (elevation : Option ℤ)
        (refPoint : WGS84Point) (laneNode : LaneNodeAdaptor),
        modX distanceInMeters refPoint laneNode.point = x →
        modY distanceInMeters refPoint laneNode.point = y →
          ((newNode distanceInMeters elevation refPoint laneNode).delta.Fits x y ↔
            ¬ Opposite x y) := by
  constructor
  · rintro group laneIter node rfl rfl
    exact offsetXY_fits_iff hx hy
  · rintro distanceInMeters elevation refPoint laneNode rfl rfl
    exact offsetXY_fits_iff hx hy

theorem node_fits_near :
    (ConvertToJ2735r41.newNode ⟨0, fun _ => ConvertToJ2735r41.noLane⟩ 0 ⟨100, -7, 0, 0⟩).delta.Fits
      100 (-7) :=
  ((node_fits_iff 100 (-7) (by decide) (by decide)).1 _ _ _ rfl rfl).mpr
    (mt opposite_iff.mp (by decide))

/-- A node five meters to the east and to the south, and a reference point. -/
def southEast : LaneNodeAdaptor := ⟨0, 0, none, 0⟩

def northWest : WGS84Point := ⟨1, -1⟩

theorem southEast_offsets : modX (fun _ _ => 41 / 8) northWest southEast.point = 512 ∧
    modY (fun _ _ => 41 / 8) northWest southEast.point = -512 := by
  have hmul : mul (41 / 8) 100 = 4100 / 8 := by
    have h := round_dyadic (n := 4100) 3 (by norm_num)
    norm_num at h
    rw [mul]
    norm_num
    exact h
  have htrunc : toInt32 (4100 / 8) = 512 := by norm_num [toInt32]
  simp only [modX, modY, hmul, htrunc, northWest, southEast, LaneNodeAdaptor.point]
  norm_num

/-- Both converters choose the smallest alternative, which ends at 511. -/
theorem node_misfits :
    ¬ (ConvertToJ2735r41.newNode ⟨0, fun _ => ConvertToJ2735r41.noLane⟩ 0
        ⟨512, -512, 0, 0⟩).delta.Fits 512 (-512) ∧
      ¬ (newNode (fun _ _ => 41 / 8) none northWest southEast).delta.Fits 512 (-512) := by
  have hmisfit : ¬ (offsetXY 512 (-512)).Fits 512 (-512) := fun h =>
    (offsetXY_fits_iff (by decide) (by decide)).mp h (opposite_iff.mpr (by decide))
  refine ⟨hmisfit, ?_⟩
  rw [newNode, southEast_offsets.1, southEast_offsets.2]
  exact hmisfit

end Offsets

section Elevations

/-- The `double` of `k` tenths of a meter, which is given in the file. -/
def Tenths (elevation : Option ℚ) (k : ℤ) : Prop :=
  elevation = some (Binary64.round (k / 10)) ∧ |k| < 2 ^ 52

/-- From the elevation at the start, the values that the nodes add give the elevation of each. -/
def ElevationsKept (start : ℤ) (elevations : List ℤ) (nodes : List Node) : Prop :=
  ∀ (n : ℕ) (h : n < elevations.length),
    start + ((nodes.take (n + 1)).map Node.dElevation).sum = elevations[n]

/-- All nodes but the last are at the reference elevation, and so is the last, unless both have
a value that does not stand for a missing one. -/
def LevelUntilLast (reference : ℤ) (elevations : List ℤ) : Prop :=
  (∀ e ∈ elevations.dropLast, e = reference) ∧
    ∀ e ∈ elevations.getLast?, e = reference ∨ -1000 < e ∧ reference ≠ -10

variable {distanceInMeters : WGS84Point → WGS84Point → ℚ}

@[simp] theorem elevationsKept_nil (start : ℤ) (nodes : List Node) :
    ElevationsKept start [] nodes :=
  fun _ h => absurd h (Nat.not_lt_zero _)

theorem elevationsKept_cons (start e : ℤ) (elevations : List ℤ) (node : Node) (nodes : List Node) :
    ElevationsKept start (e :: elevations) (node :: nodes) ↔
      start + node.dElevation = e ∧ ElevationsKept e elevations nodes := by
  constructor
  · intro h
    have hfirst := h 0 (Nat.succ_pos _)
    rw [List.take_succ_cons, List.take_zero, List.map_singleton, List.sum_singleton,
      List.getElem_cons_zero] at hfirst
    refine ⟨hfirst, fun n hn => ?_⟩
    have hn' := h (n + 1) (by simpa using hn)
    rw [List.take_succ_cons, List.map_cons, List.sum_cons, ← add_assoc, hfirst,
      List.getElem_cons_succ] at hn'
    exact hn'
  · rintro ⟨hfirst, h⟩ n hn
    rw [List.take_succ_cons, List.map_cons, List.sum_cons, ← add_assoc, hfirst]
    cases n with
    | zero => simp
    | succ n => exact h n (by simpa using hn)

/-- The reference elevation and a node's, in decimeters, as the nodes get it. -/
def levelDelta (reference e : ℤ) : ℤ := if e ≤ -1000 ∨ reference = -10 then 0 else e - reference

theorem newNode_dElevation (elevation : Option ℤ) (refPoint : WGS84Point)
    (laneNode : LaneNodeAdaptor) :
    (newNode distanceInMeters elevation refPoint laneNode).dElevation =
      elevationDelta elevation laneNode := by
  by_cases hzero : elevationDelta elevation laneNode = 0
  · by_cases hwidth : laneNode.laneWidthDelta = 0 <;>
      simp [newNode, Node.dElevation, addOptionalValue, hzero, hwidth]
  · simp [newNode, Node.dElevation, addOptionalValue, hzero]

theorem refElevation_eq {geom : IntersectionGeometryAdaptor} {reference : ℤ}
    (h : Tenths geom.referenceElevation reference) :
    refElevation geom = if reference = -10 then none else some reference := by
  have hvalue : mul geom.get_referenceElevation 10 = reference := by
    rw [IntersectionGeometryAdaptor.get_referenceElevation, h.1, Option.getD_some]
    exact mul_round_tenth h.2
  have hten : ((reference : ℚ) = -10) ↔ reference = -10 := by
    exact_mod_cast (Int.cast_inj (α := ℚ) (m := reference) (n := -10))
  rw [refElevation, hvalue, addOptionalValue]
  by_cases hr : reference = -10
  · rw [if_pos hr, if_neg (not_not.mpr (hten.mpr hr))]
    rfl
  · rw [if_neg hr, if_pos (mt hten.mp hr), Option.map_some,
      toInt64_intCast (h.2.trans (by norm_num))]

theorem elevationDelta_eq {reference e : ℤ} {laneNode : LaneNodeAdaptor}
    (h : Tenths laneNode.nodeElev e) :
    elevationDelta (if reference = -10 then none else some reference) laneNode =
      levelDelta reference e := by
  have hvalue : toInt64 (mul laneNode.get_nodeElev 10) = e := by
    rw [LaneNodeAdaptor.get_nodeElev, h.1, Option.getD_some, mul_round_tenth h.2,
      toInt64_intCast (h.2.trans (by norm_num))]
  have hlow : ((e : ℚ) ≤ nodeElevDefault) ↔ e ≤ -1000 := by
    unfold nodeElevDefault
    exact_mod_cast Iff.rfl
  by_cases hr : reference = -10
  · simp [elevationDelta, levelDelta, hr]
  · simp only [elevationDelta, levelDelta, hr, if_false, hvalue, hlow, or_false]
    split_ifs
    · rfl
    · ring

/-- Only the last node can change the elevation, since its value counts from the reference. -/
theorem levelUntilLast_cons_cons (reference e e' : ℤ) (elevations : List ℤ) :
    LevelUntilLast reference (e :: e' :: elevations) ↔
      e = reference ∧ LevelUntilLast reference (e' :: elevations) := by
  rw [LevelUntilLast, LevelUntilLast, List.dropLast_cons_cons, List.forall_mem_cons,
    List.getLast?_cons_cons, and_assoc]

theorem elevationsKept_nodes_iff {reference : ℤ} {elevations : List ℤ}
    {laneNodes : List LaneNodeAdaptor} (refPoint : WGS84Point)
    (h : List.Forall₂ (fun laneNode e => Tenths laneNode.nodeElev e) laneNodes elevations) :
    ElevationsKept reference elevations (nodes distanceInMeters
        (if reference = -10 then none else some reference) refPoint laneNodes) ↔
      LevelUntilLast reference elevations := by
  induction h generalizing refPoint with
  | nil => simp [nodes, LevelUntilLast]
  | @cons laneNode e laneNodes elevations he h ih =>
    rw [nodes, elevationsKept_cons, newNode_dElevation, elevationDelta_eq he]
    cases h with
    | nil =>
      simp only [nodes, elevationsKept_nil, LevelUntilLast, levelDelta, List.dropLast_singleton,
        List.not_mem_nil, false_implies, implies_true, List.getLast?_singleton, Option.mem_some_iff,
        forall_eq', true_and, and_true]
      split_ifs <;> omega
    | @cons laneNode' e' laneNodes elevations he' h =>
      rw [levelUntilLast_cons_cons]
      by_cases hlevel : e = reference
      · subst hlevel
        have hzero : e + levelDelta e e = e := by
          unfold levelDelta
          split_ifs <;> omega
        rw [ih, iff_true_intro hzero, iff_true_intro rfl]
      · -- the next node cannot make up for the elevation that this one has left
        rw [nodes, elevationsKept_cons, newNode_dElevation, elevationDelta_eq he']
        have hnot : ¬ (reference + levelDelta reference e = e ∧
            e + levelDelta reference e' = e') := by
          unfold levelDelta
          split_ifs <;> omega
        rw [iff_false_intro hlevel, false_and, iff_false]
        exact fun hkept => hnot ⟨hkept.1, hkept.2.1⟩

theorem newLane_toList (geom : IntersectionGeometryAdaptor) (approach : LaneListAdaptor)
    (driveLane : DrivingLaneAdaptor) :
    (newLane distanceInMeters geom approach driveLane).nodeList.toList =
      nodes distanceInMeters (refElevation geom) ⟨geom.referenceLat, geom.referenceLon⟩
        driveLane.laneNodes := by
  change (nodeList _ _ _ _).toList = _
  unfold nodeList
  split <;> rename_i hnodes
  · rw [hnodes]
    rfl
  · rfl

theorem newLane_elevations_iff (geom : IntersectionGeometryAdaptor) (approach : LaneListAdaptor)
    (driveLane : DrivingLaneAdaptor) (reference : ℤ) (elevations : List ℤ)
    (hreference : Tenths geom.referenceElevation reference)
    (helevations : List.Forall₂ (fun laneNode e => Tenths laneNode.nodeElev e)
      driveLane.laneNodes elevations) :
    ElevationsKept reference elevations
        (newLane distanceInMeters geom approach driveLane).nodeList.toList ↔
      LevelUntilLast reference elevations := by
  rw [newLane_toList, refElevation_eq hreference]
  exact elevationsKept_nodes_iff _ helevations

/-- An intersection 100 meters high, and a lane with nodes at these elevations. -/
def hilltop : IntersectionGeometryAdaptor :=
  ⟨[], 1, 0, 300, 0, 0, some (Binary64.round ((1000 : ℤ) / 10)), []⟩

def lanesOf (elevations : List ℤ) : DrivingLaneAdaptor :=
  ⟨cstr "1", cstr "Vehicle", [], [], [],
    elevations.map fun e : ℤ => ⟨0, 0, some (Binary64.round ((e : ℚ) / 10)), 0⟩, []⟩

def ingress : LaneListAdaptor := ⟨cstr "Ingress", cstr "1", [], []⟩

theorem tenths_hilltop : Tenths hilltop.referenceElevation 1000 := ⟨rfl, by norm_num⟩

theorem tenths_lanesOf {elevations : List ℤ} (h : ∀ e ∈ elevations, |e| < 2 ^ 52) :
    List.Forall₂ (fun laneNode e => Tenths laneNode.nodeElev e)
      (lanesOf elevations).laneNodes elevations :=
  List.forall₂_map_left_iff.mpr (List.forall₂_same.mpr fun e he => ⟨rfl, h e he⟩)

theorem hilltop_level : ElevationsKept 1000 [1000, 1005]
    (newLane (fun _ _ => 0) hilltop ingress (lanesOf [1000, 1005])).nodeList.toList :=
  (newLane_elevations_iff _ _ _ _ _ tenths_hilltop (tenths_lanesOf (by norm_num))).mpr
    (by norm_num [LevelUntilLast])

/-- On a lane that climbs by a meter at each node, the second node is a meter too high. -/
theorem hilltop_climb : ¬ ElevationsKept 1000 [1010, 1020]
    (newLane (fun _ _ => 0) hilltop ingress (lanesOf [1010, 1020])).nodeList.toList := by
  rw [newLane_toList, refElevation_eq tenths_hilltop,
    elevationsKept_nodes_iff _ (tenths_lanesOf (by norm_num))]
  norm_num [LevelUntilLast]

end Elevations
end V2IHub.Map.ISDToJ2735r41
