import V2IHub.Foundation.Bytes
import Mathlib.Tactic

/-! The MAP data of J2735 that the converters of the MAP plugin build, and the choice of an
alternative for the offsets of a node. -/
namespace V2IHub.Map.J2735
open Foundation

/-- `BIT_STRING_t` -/
structure BitString where
  buf : Bytes
  bits_unused : ℕ
deriving DecidableEq

/-- `NodeOffsetPointXY_PR` -/
inductive NodeXY where
  | XY1 | XY2 | XY3 | XY4 | XY5 | XY6
deriving DecidableEq

/-- The `delta` of a node; without an alternative it is `NOTHING`. -/
structure Delta where
  present : Option NodeXY
  x : ℤ
  y : ℤ
deriving DecidableEq

structure NodeAttributeSet where
  dWidth : Option ℤ
  dElevation : Option ℤ
deriving DecidableEq

structure Node where
  delta : Delta
  attributes : Option NodeAttributeSet
deriving DecidableEq

/-- Absent means 0. -/
def Node.dElevation (node : Node) : ℤ :=
  (node.attributes.bind NodeAttributeSet.dElevation).getD 0

structure ComputedLane where
  referenceLaneId : ℤ
  /-- The members of the choice share their place. -/
  offsetXaxis : ℤ
  offsetYaxis : ℤ
deriving DecidableEq

/-- `NodeListXY_PR` -/
inductive NodeList where
  | nothing
  | nodes (nodes : List Node)
  | computed (lane : ComputedLane)
deriving DecidableEq

def NodeList.toList : NodeList → List Node
  | .nodes list => list
  | _ => []

structure Connection where
  lane : ℤ
  maneuver : Option BitString
  signalGroup : Option ℤ
deriving DecidableEq

/-- `LaneTypeAttributes_PR` -/
inductive LaneType where
  | nothing | vehicle | crosswalk | bikeLane | sidewalk | median | striping | trackedVehicle
  | parking
deriving DecidableEq

structure LaneAttributes where
  directionalUse : BitString
  sharedWith : BitString
  laneType : LaneType
  laneTypeBits : BitString
deriving DecidableEq

structure GenericLane where
  laneID : ℤ
  ingressApproach : Option ℤ
  egressApproach : Option ℤ
  laneAttributes : LaneAttributes
  maneuvers : Option BitString
  nodeList : NodeList
  connectsTo : Option (List Connection)
deriving DecidableEq

structure Position3D where
  lat : ℤ
  Long : ℤ
  elevation : Option ℤ
deriving DecidableEq

structure IntersectionGeometry where
  name : Option Bytes
  id : ℤ
  revision : ℤ
  refPoint : Position3D
  laneWidth : Option ℤ
  laneSet : List GenericLane
deriving DecidableEq

structure RoadSegment where
  id : ℤ
  revision : ℤ
  refPoint : Position3D
  laneWidth : Option ℤ
  roadLaneSet : List GenericLane
deriving DecidableEq

inductive LayerType where
  | intersectionData | roadwaySectionData
deriving DecidableEq

/-- The list heads are allocated apart from the message. -/
structure MapData where
  layerType : Option LayerType
  intersections : Option (List IntersectionGeometry)
  roadSegments : Option (List RoadSegment)
deriving DecidableEq

/-- The reference point and the lanes of each intersection. -/
def MapData.intersectionLanes (mapJ2735 : MapData) : List (Position3D × List GenericLane) :=
  (mapJ2735.intersections.getD []).map fun i => (i.refPoint, i.laneSet)

def MapData.roadLanes (mapJ2735 : MapData) : List (Position3D × List GenericLane) :=
  (mapJ2735.roadSegments.getD []).map fun r => (r.refPoint, r.roadLaneSet)

section Offsets

def NodeXY.bound : NodeXY → ℤ
  | .XY1 => 512
  | .XY2 => 1024
  | .XY3 => 2048
  | .XY4 => 4096
  | .XY5 => 8192
  | .XY6 => 32768

/-- The offset is in the range of the alternative. -/
def NodeXY.Has (p : NodeXY) (v : ℤ) : Prop := -p.bound ≤ v ∧ v ≤ p.bound - 1

/-- The coordinate that both converters look at. -/
def largestOffset (modX modY : ℤ) : ℤ := if |modX| > |modY| then modX else modY

/-- The alternative for the coordinates, from that one alone. -/
def offsetXY (modX modY : ℤ) : Delta :=
  let largestOffset := largestOffset modX modY
  if largestOffset ≥ -512 ∧ largestOffset ≤ 511 then ⟨some .XY1, modX, modY⟩
  else if largestOffset ≥ -1024 ∧ largestOffset ≤ 1023 then ⟨some .XY2, modX, modY⟩
  else if largestOffset ≥ -2048 ∧ largestOffset ≤ 2047 then ⟨some .XY3, modX, modY⟩
  else if largestOffset ≥ -4096 ∧ largestOffset ≤ 4095 then ⟨some .XY4, modX, modY⟩
  else if largestOffset ≥ -8192 ∧ largestOffset ≤ 8191 then ⟨some .XY5, modX, modY⟩
  else if largestOffset ≥ -32768 ∧ largestOffset ≤ 32767 then ⟨some .XY6, modX, modY⟩
  else ⟨none, 0, 0⟩

/-- The range of the widest alternative. -/
abbrev Offset (v : ℤ) : Prop := -32768 ≤ v ∧ v ≤ 32767

theorem largestOffset_eq (modX modY : ℤ) :
    largestOffset modX modY = modX ∨ largestOffset modX modY = modY := by
  unfold largestOffset
  split_ifs <;> simp

theorem offsetXY_coordinates {modX modY : ℤ} (hx : Offset modX) (hy : Offset modY) :
    (offsetXY modX modY).x = modX ∧ (offsetXY modX modY).y = modY := by
  have hlargest : Offset (largestOffset modX modY) := by
    rcases largestOffset_eq modX modY with h | h <;> rw [h] <;> assumption
  unfold offsetXY
  dsimp only
  split_ifs <;> exact ⟨rfl, rfl⟩

/-- The node has the coordinates, in the smallest alternative whose range has both. -/
def Delta.Fits (delta : Delta) (x y : ℤ) : Prop :=
  ∃ p, delta = ⟨some p, x, y⟩ ∧ p.Has x ∧ p.Has y ∧
    ∀ q : NodeXY, q.Has x → q.Has y → p.bound ≤ q.bound

/-- The coordinates where the one that is looked at is the bound itself, with the other sign. -/
def Opposite (x y : ℤ) : Prop :=
  y = -x ∧ ∃ p : NodeXY, p ≠ .XY6 ∧ x = p.bound

theorem NodeXY.forall_iff {P : NodeXY → Prop} :
    (∀ p, P p) ↔ P .XY1 ∧ P .XY2 ∧ P .XY3 ∧ P .XY4 ∧ P .XY5 ∧ P .XY6 := by
  constructor
  · intro h
    exact ⟨h _, h _, h _, h _, h _, h _⟩
  · rintro ⟨h₁, h₂, h₃, h₄, h₅, h₆⟩ p
    cases p <;> assumption

theorem opposite_iff {x y : ℤ} : Opposite x y ↔
    y = -x ∧ (x = 512 ∨ x = 1024 ∨ x = 2048 ∨ x = 4096 ∨ x = 8192) := by
  refine and_congr_right fun _ => ⟨?_, ?_⟩
  · rintro ⟨p, hp, hx⟩
    cases p <;> simp_all [NodeXY.bound]
  · rintro (h | h | h | h | h)
    · exact ⟨.XY1, by decide, h⟩
    · exact ⟨.XY2, by decide, h⟩
    · exact ⟨.XY3, by decide, h⟩
    · exact ⟨.XY4, by decide, h⟩
    · exact ⟨.XY5, by decide, h⟩

/-- The bound that a value needs. -/
def reach (v : ℤ) : ℤ := if 0 ≤ v then v + 1 else -v

theorem NodeXY.has_iff (p : NodeXY) (v : ℤ) : p.Has v ↔ reach v ≤ p.bound := by
  unfold NodeXY.Has reach
  split_ifs <;> omega

theorem reach_pos (v : ℤ) : 0 < reach v := by
  unfold reach
  split_ifs <;> omega

/-- The bound of the next smaller alternative. -/
def NodeXY.below : NodeXY → ℤ
  | .XY1 => 0
  | .XY2 => 512
  | .XY3 => 1024
  | .XY4 => 2048
  | .XY5 => 4096
  | .XY6 => 8192

theorem NodeXY.least_iff (p : NodeXY) {need : ℤ} (hneed : 0 < need) :
    (∀ q : NodeXY, need ≤ q.bound → p.bound ≤ q.bound) ↔ p.below < need := by
  cases p <;> simp [NodeXY.forall_iff, NodeXY.bound, NodeXY.below] <;> omega

theorem Delta.fits_some_iff (p : NodeXY) (x y : ℤ) : Delta.Fits ⟨some p, x, y⟩ x y ↔
    p.below < max (reach x) (reach y) ∧ max (reach x) (reach y) ≤ p.bound := by
  rw [← p.least_iff (lt_max_of_lt_left (reach_pos x)), max_le_iff]
  simp only [max_le_iff, ← NodeXY.has_iff]
  constructor
  · rintro ⟨p', hp', hx, hy, hleast⟩
    cases hp'
    exact ⟨fun q hq => hleast q hq.1 hq.2, hx, hy⟩
  · rintro ⟨hleast, hx, hy⟩
    exact ⟨p, rfl, hx, hy, fun q hqx hqy => hleast q ⟨hqx, hqy⟩⟩

/-- The larger coordinate needs what both need, unless the two differ in the sign alone. -/
theorem max_reach {x y : ℤ} (h : ¬ (y = -x ∧ 0 < x)) :
    max (reach x) (reach y) = reach (largestOffset x y) := by
  have hx := abs_cases x
  have hy := abs_cases y
  unfold largestOffset reach
  split_ifs <;> omega

theorem max_reach_neg {x : ℤ} (h : 0 < x) : max (reach x) (reach (-x)) = x + 1 := by
  unfold reach
  split_ifs <;> omega

theorem largestOffset_neg (x : ℤ) : largestOffset x (-x) = -x := by
  rw [largestOffset, abs_neg, if_neg (lt_irrefl _)]

theorem offsetXY_fits_iff {x y : ℤ} (hx : Offset x) (hy : Offset y) :
    (offsetXY x y).Fits x y ↔ ¬ Opposite x y := by
  have hrange : Offset (largestOffset x y) := by
    rcases largestOffset_eq x y with h | h <;> rw [h] <;> assumption
  unfold Offset at hx hrange
  rw [opposite_iff]
  unfold offsetXY
  dsimp only
  by_cases hneg : y = -x ∧ 0 < x
  · obtain ⟨rfl, hpos⟩ := hneg
    rw [largestOffset_neg] at hrange ⊢
    rw [and_iff_right rfl]
    split_ifs
    all_goals
      rw [Delta.fits_some_iff, max_reach_neg hpos]
      simp only [NodeXY.bound, NodeXY.below]
      omega
  · have hopp : ¬ (y = -x ∧ (x = 512 ∨ x = 1024 ∨ x = 2048 ∨ x = 4096 ∨ x = 8192)) :=
      fun h => hneg ⟨h.1, by omega⟩
    have hreach : (0 ≤ largestOffset x y ∧ reach (largestOffset x y) = largestOffset x y + 1) ∨
        (largestOffset x y < 0 ∧ reach (largestOffset x y) = -largestOffset x y) := by
      unfold reach
      split_ifs <;> omega
    rw [iff_true_intro hopp, iff_true]
    clear hopp
    split_ifs
    all_goals
      rw [Delta.fits_some_iff, max_reach hneg]
      simp only [NodeXY.bound, NodeXY.below]
      clear hneg
      omega
end Offsets
end V2IHub.Map.J2735
