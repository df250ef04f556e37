import V2IHub.Map.BlobFields

/-! What `map_decode` restores of a message that `map_encode` wrote. -/
namespace V2IHub.Map
open V2IHub.Foundation

section Used

/-- The slots that the encoder writes. -/
abbrev Connection.Used (connection : Connection) : Prop := connection.lanenumber ≠ 0
abbrev MapLane.Used (lane : MapLane) : Prop := lane.number ≠ 0
abbrev Barrier.Used (barrier : Barrier) : Prop := (barrier.node 0).Listed
abbrev Geometry.Used (geometry : Geometry) : Prop := geometry.refpoint.latitude ≠ 0

/-- Used slots come first, at every level of a message. -/
structure LeadingSlots (message : MapMessage) : Prop where
  geometries : Leading fun g => (message.geometry g).Used
  lanes : ∀ g, (message.geometry g).Used → ∀ d,
    Leading fun l => (((message.geometry g).group d).lane l).Used
  connections : ∀ g, (message.geometry g).Used → ∀ d l, (((message.geometry g).group d).lane l).Used →
    Leading fun c => ((((message.geometry g).group d).lane l).connection c).Used
  barriers : ∀ g, (message.geometry g).Used → Leading fun b => ((message.geometry g).barrier b).Used

end Used

section Restored

/-- A slot is used again if it was, and then holds the same. -/
def Kept {α : Type} (used : α → Prop) (same : α → α → Prop) (sent restored : α) : Prop :=
  (used restored ↔ used sent) ∧ (used sent → same sent restored)

/-- A lane has a reference lane or a node list. -/
structure MapLane.Restores (sent restored : MapLane) : Prop where
  number : restored.number = sent.number
  type : restored.type = sent.type
  attributes : restored.attributes = sent.attributes
  width : restored.width = sent.width
  referencelane : sent.referencelane.lanenumber ≠ 0 → restored.referencelane = sent.referencelane
  node : sent.referencelane.lanenumber = 0 →
    restored.referencelane.lanenumber = 0 ∧ restored.node = sent.node
  connection : ∀ c, Kept Connection.Used Eq (sent.connection c) (restored.connection c)

structure Geometry.Restores (sent restored : Geometry) : Prop where
  refpoint : restored.refpoint = sent.refpoint
  lane : ∀ d l, Kept MapLane.Used MapLane.Restores ((sent.group d).lane l) ((restored.group d).lane l)
  barrier : ∀ b, Kept Barrier.Used Eq (sent.barrier b) (restored.barrier b)

structure MapMessage.Restores (sent restored : MapMessage) : Prop where
  attributes : restored.attributes = sent.attributes
  intersectionid : restored.intersectionid.toNat % 2 ^ 32 = sent.intersectionid.toNat % 2 ^ 32
  geometry : ∀ g, Kept Geometry.Used Geometry.Restores (sent.geometry g) (restored.geometry g)

/-- What the claimed use of the codec comes to: encode, then decode into `target`. -/
def RoundTrips (message target : MapMessage) (content_version : UInt8) : Prop :=
  ∃ sent restored blob, mapEncode message content_version = some (1, sent) ∧
    sent.payload = some blob ∧ blob.length ≤ 1024 ∧
    mapDecode { target with payload := some blob } = some (1, restored) ∧
    message.Restores restored

end Restored

section Fits

/-- A node list that the blob can carry. -/
structure NodesFit (attributes : UInt8) (nodes : Nodes) : Prop where
  leading : Leading fun n => (nodes n).Listed
  first : (nodes 0).Listed
  others : ∀ n, ¬ (nodes n).Listed → nodes n = .zero
  elevation : hasElevation attributes = false → ∀ n, (nodes n).elevation = 0

/-- A connection that the blob can carry; the signal group is not in it. -/
structure Connection.Fits (connection old : Connection) : Prop where
  maneuver : connection.maneuver.toNat < 256
  signalGroup : connection.signalGroup = old.signalGroup

structure MapLane.Fits (attributes : UInt8) (lane old : MapLane) : Prop where
  referencelane : lane.referencelane.lanenumber ≠ 0 → lane.type = computed ∧
    lane.referencelane.xoffset = 0 ∧ lane.referencelane.yoffset = 0
  node : lane.referencelane.lanenumber = 0 →
    if lane.type = computed then ∀ n, lane.node n = .zero else NodesFit attributes lane.node
  connection : ∀ c, (lane.connection c).Used →
    lane.type ≠ pedestrian ∧ (lane.connection c).Fits (old.connection c)

def ReferencePoint.Fits (attributes : UInt8) (refpoint : ReferencePoint) : Prop :=
  if hasElevation attributes then
    -32768 ≤ refpoint.elevation.toInt ∧ refpoint.elevation.toInt < 32768
  else refpoint.elevation = 0

/-- The lanes of a group that are written. -/
def MapGroup.lanes (group : MapGroup) : List MapLane :=
  (usedBefore (fun l => (group.lane l).Used) maxlanes).map group.lane

/-- The lanes written before geometry `k`. -/
def MapMessage.lanesBefore (message : MapMessage) (k : ℕ) : List MapLane :=
  (usedBefore (fun g => (message.geometry g).Used) k).flatMap fun g =>
    (message.geometry g).approach.lanes ++ (message.geometry g).egress.lanes

/-- The width of a group adds nothing to that of the lane written before it. -/
def MapGroup.WidthFits (group : MapGroup) (lanes : List MapLane) : Prop :=
  (group.lane 0).Used → ∀ lane ∈ lanes.getLast?, lane.width ||| group.width = lane.width

structure Geometry.Fits (attributes : UInt8) (lanes : List MapLane) (barriers : Prop)
    (geometry old : Geometry) : Prop where
  refpoint : geometry.refpoint.Fits attributes
  lane : ∀ d l, ((geometry.group d).lane l).Used →
    MapLane.Fits attributes ((geometry.group d).lane l) ((old.group d).lane l)
  approach : geometry.approach.WidthFits lanes
  egress : geometry.egress.WidthFits (lanes ++ geometry.approach.lanes)
  barrier : ∀ b, (geometry.barrier b).Used → NodesFit attributes (geometry.barrier b).node ∧
    barriers ∧ lanes ++ geometry.approach.lanes ++ geometry.egress.lanes = []

/-- No geometry before `k` has a barrier. -/
def MapMessage.NoBarrierBefore (message : MapMessage) (k : ℕ) : Prop :=
  ∀ g : Fin maxgeometries, g < k → (message.geometry g).Used →
    ¬ ((message.geometry g).barrier 0).Used

/-- The geometries that the blob carries whole, to be decoded into `target`. -/
def MapMessage.GeometriesFit (message target : MapMessage) : Prop :=
  ∀ g, (message.geometry g).Used →
    Geometry.Fits message.attributes (message.lanesBefore g) (message.NoBarrierBefore g)
      (message.geometry g) (target.geometry g)

/-- A message that its blob carries whole. -/
structure MapMessage.Fits (message target : MapMessage) : Prop where
  attributes : message.attributes < 16
  intersectionid : message.intersectionid.toNat % 2 ^ 32 < 256
  geometry : message.GeometriesFit target

end Fits

section Slots
variable {a : UInt8}

/-- A lane as it is decoded over a cleared one. -/
def MapLane.onto (lane old : MapLane) : MapLane :=
  { lane with
    node := if lane.referencelane.lanenumber ≠ 0 then fun _ => .zero else lane.node
    referencelane := if lane.referencelane.lanenumber ≠ 0 then lane.referencelane
      else ⟨0, 0, 0, 0⟩
    connection := fun c =>
      if (lane.connection c).Used then lane.connection c else (old.connection c).clear }

/-- The same up to the width only. -/
def MapLane.headOnto (lane old : MapLane) : MapLane :=
  { old.clear with
    number := lane.number
    type := lane.type
    attributes := lane.attributes
    width := lane.width }

theorem ReferenceLane.eq_of_offsets (referencelane : ReferenceLane)
    (hx : referencelane.xoffset = 0) (hy : referencelane.yoffset = 0) :
    ⟨referencelane.lanenumber, referencelane.lateraloffset, 0, 0⟩ = referencelane := by
  obtain ⟨lanenumber, lateraloffset, xoffset, yoffset⟩ := referencelane
  dsimp only at hx hy
  rw [hx, hy]

theorem NodesFit.restored {nodes : Nodes} (h : NodesFit a nodes) :
    (fun n => if (nodes n).Listed then
      MapNode.zero.carried (hasElevation a) (hasWidth nodes) (nodes n) else .zero) = nodes := by
  funext n
  by_cases hn : (nodes n).Listed
  · have hwidth : (if hasWidth nodes then (nodes n).width else 0) = (nodes n).width := by
      split_ifs with hw
      · rfl
      · have hzero := List.any_eq_false.mp ((Bool.not_eq_true _).mp hw) n (List.mem_finRange n)
        simp only [ne_eq, decide_not, Bool.not_eq_true', decide_eq_false_iff_not, not_not] at hzero
        exact hzero.symm
    have helevation : (if hasElevation a then (nodes n).elevation else 0) =
        (nodes n).elevation := by
      split_ifs with he
      · rfl
      · exact (h.elevation (by simpa using he) n).symm
    rw [if_pos hn]
    simp only [MapNode.carried, MapNode.zero, hwidth, helevation]
  · rw [if_neg hn, h.others n hn]

namespace Decoder
variable {s : Decoder} {old lane : MapLane} {p : (Fin maxgeometries × Direction) × Fin maxlanes}

theorem reads_connections (hleading : Leading fun c => (lane.connection c).Used)
    (hfits : MapLane.Fits a lane old) (slot : MapLane) (htype : slot.type = lane.type) :
    Reads (s.atLane p { slot with connection := fun c => (old.connection c).clear })
      ((List.finRange maxconnections).flatMap fun c =>
        if (lane.connection c).Used then encodeConnection (lane.connection c) else [])
      (s.atLane p { slot with connection := (lane.onto old).connection }) := by
  let array := filled (fun c => (lane.connection c).Used) lane.connection
    fun c => (old.connection c).clear
  have hstep : ∀ (c : Fin maxconnections) t, t = s.atLane p { slot with connection := array c } →
      ∃ u, Reads t (if (lane.connection c).Used then encodeConnection (lane.connection c) else [])
        u ∧ u = s.atLane p { slot with connection := array (c + 1) } := by
    rintro c t rfl
    refine ⟨_, ?_, rfl⟩
    split_ifs with hc
    · obtain ⟨hpedestrian, hmaneuver, hsignal⟩ := hfits.connection c hc
      have hclear : ∀ j, ¬ (old.connection j).clear.Used := fun _ h => h rfl
      have hfree := find?_filled (q := Connection.Used) hleading (fun _ h => h) hclear hc
      rw [show array (c + 1) = _ from filled_used hc]
      apply reads_connection (htype ▸ hpedestrian) _ hmaneuver
      · have hslot : (array c c).signalGroup = (old.connection c).signalGroup := by
          simp only [array, filled_self, Connection.clear]
        exact hsignal.trans hslot.symm
      · simpa using hfree
    · rw [show array (c + 1) = array c from filled_unused hc]
      exact RecordReader.Reads.refl
  obtain ⟨t, hreads, rfl⟩ := RecordReader.Reads.loop
    (P := fun k t => t = s.atLane p { slot with connection := array k }) hstep rfl
  have hlast : array maxconnections = (lane.onto old).connection := by
    simp only [array, filled_all, MapLane.onto]
  have hfirst : array 0 = fun c => (old.connection c).clear := filled_zero
  rw [hlast, hfirst] at hreads
  exact hreads

theorem reads_shape (ha : s.message.attributes = a) (hfits : MapLane.Fits a lane old) :
    Reads (s.atLane p (lane.headOnto old))
      (if lane.referencelane.lanenumber ≠ 0 then encodeReferencelane lane.referencelane
        else encodeNodes a lane.node)
      (s.atLane p { lane.onto old with connection := fun c => (old.connection c).clear }) := by
  by_cases hreference : lane.referencelane.lanenumber = 0
  · have hnode := hfits.node hreference
    rw [if_neg (not_not.mpr hreference)]
    by_cases htype : lane.type = computed
    · rw [if_pos htype] at hnode
      have hzero : lane.node = fun _ => .zero := funext hnode
      have honto : { lane.onto old with connection := fun c => (old.connection c).clear } =
          lane.headOnto old := by
        simp [MapLane.onto, MapLane.headOnto, MapLane.clear, hreference, hzero]
      have htype' : (lane.headOnto old).type = computed := htype
      rw [honto]
      exact reads_computedNodes htype' lane.node
    · rw [if_neg htype] at hnode
      have hreads := reads_laneNodes (s := s) (p := p) ha
        (show (lane.headOnto old).type ≠ computed from htype) hnode.leading hnode.first
      have honto : { lane.onto old with connection := fun c => (old.connection c).clear } =
          { lane.headOnto old with node := lane.node } := by
        simp [MapLane.onto, MapLane.headOnto, MapLane.clear, hreference]
      have hslot : (lane.headOnto old).node = fun _ => .zero := rfl
      simp only [hslot, hnode.restored] at hreads
      rw [honto]
      exact hreads
  · obtain ⟨htype, hx, hy⟩ := hfits.referencelane hreference
    have hreads := reads_referencelane (s := s) (p := p)
      (show (lane.headOnto old).type = computed from htype) lane.referencelane
    have honto : { lane.onto old with connection := fun c => (old.connection c).clear } =
        { lane.headOnto old with referencelane := { (lane.headOnto old).referencelane with
          lanenumber := lane.referencelane.lanenumber
          lateraloffset := lane.referencelane.lateraloffset } } := by
      simp only [MapLane.onto, MapLane.headOnto, MapLane.clear, if_pos hreference]
      rw [lane.referencelane.eq_of_offsets hx hy]
    rw [if_pos hreference, honto]
    exact hreads

theorem reads_encodedLane {g : Fin maxgeometries × Direction} {l : Fin maxlanes}
    (hgroup : s.group = some g)
    (hfree : ((List.finRange maxlanes).find? fun l => ((s.message.group g).lane l).number = 0) =
      some l) (hslot : s.message.lane (g, l) = old.clear) (ha : s.message.attributes = a)
    (hleading : Leading fun c => (lane.connection c).Used) (hfits : MapLane.Fits a lane old) :
    Reads s (encodeLane a lane) (s.atLane (g, l) (lane.onto old)) := by
  let first : MapLane := { old.clear with number := lane.number, type := lane.type }
  have hlane : Reads s [5, 2, lane.number, lane.type] (s.atLane (g, l) first) := by
    have hreads := reads_lane hgroup hfree lane.number lane.type
    rw [hslot] at hreads
    exact hreads
  have hattributes : Reads (s.atLane (g, l) first) ([6, 2] ++ wordBytes lane.attributes.toNat)
      (s.atLane (g, l) { first with attributes := lane.attributes }) := by
    have hreads := reads_laneAttributes (s := s) (p := (g, l)) first lane.attributes
    rw [show first.attributes ||| lane.attributes = lane.attributes from UInt16.zero_or] at hreads
    exact hreads
  have hwidth : Reads (s.atLane (g, l) { first with attributes := lane.attributes })
      (encodeWidth lane.width) (s.atLane (g, l) (lane.headOnto old)) := by
    have hreads := reads_laneWidth (s := s) (p := (g, l))
      { first with attributes := lane.attributes } lane.width
    rw [show first.width ||| lane.width = lane.width from UInt16.zero_or] at hreads
    exact hreads
  have hconnections := reads_connections (s := s) (p := (g, l)) hleading hfits (lane.onto old) rfl
  exact (((hlane.trans hattributes).trans hwidth).trans (reads_shape ha hfits)).trans hconnections

end Decoder

def MapGroup.onto (group old : MapGroup) : MapGroup where
  width := 0
  lane := fun l =>
    if (group.lane l).Used then (group.lane l).onto (old.lane l) else (old.lane l).clear

/-- What the lanes of a used group are asked. -/
structure MapGroup.Fits (attributes : UInt8) (group old : MapGroup) : Prop where
  leading : Leading fun l => (group.lane l).Used
  connections : ∀ l, (group.lane l).Used → Leading fun c => ((group.lane l).connection c).Used
  lane : ∀ l, (group.lane l).Used → MapLane.Fits attributes (group.lane l) (old.lane l)

namespace Decoder
variable {s : Decoder} {group old : MapGroup} {lanes : List MapLane}

/-- The width of the lane that a width field would reach. -/
def laneWidth (s : Decoder) : Option UInt16 := s.lane.map fun p => (s.message.lane p).width

theorem reads_lanes {p : Fin maxgeometries × Direction} (hgroup : s.group = some p)
    (hold : s.message.group p = old.clear) (ha : s.message.attributes = a)
    (hfits : MapGroup.Fits a group old)
    (hlast : s.laneWidth = lanes.getLast?.map MapLane.width) :
    ∃ ptr, Reads s ((List.finRange maxlanes).flatMap fun l =>
        if (group.lane l).Used then encodeLane a (group.lane l) else [])
        { s with message := s.message.setGroup p (group.onto old), lane := ptr } ∧
      laneWidth { s with message := s.message.setGroup p (group.onto old), lane := ptr } =
        (lanes ++ group.lanes).getLast?.map MapLane.width := by
  let used (l : Fin maxlanes) : Prop := (group.lane l).Used
  let array := filled used (fun l => (group.lane l).onto (old.lane l)) fun l => (old.lane l).clear
  let P (k : ℕ) (t : Decoder) : Prop :=
    ∃ ptr, t = { s with message := s.message.setGroup p ⟨0, array k⟩, lane := ptr } ∧
      t.laneWidth = (lanes ++ (usedBefore used k).map group.lane).getLast?.map MapLane.width
  have hstep : ∀ (l : Fin maxlanes) t, P l t → ∃ u,
      Reads t (if (group.lane l).Used then encodeLane a (group.lane l) else []) u ∧
        P (l + 1) u := by
    rintro l t ⟨ptr, rfl, hwidth⟩
    split_ifs with hl
    · have hused : ∀ j, used j → ((group.lane j).onto (old.lane j)).Used := fun _ h => h
      have hclear : ∀ j, ¬ (old.lane j).clear.Used := fun _ h => h rfl
      have hfree := find?_filled (q := MapLane.Used) hfits.leading hused hclear hl
      refine ⟨_, reads_encodedLane (g := p) (l := l) hgroup ?_ ?_ ha (hfits.connections l hl)
        (hfits.lane l hl), some (p, l), ?_, ?_⟩
      · simpa using hfree
      · have hslot : array l l = (old.lane l).clear := filled_self _ _ _ l
        simpa [MapMessage.lane] using hslot
      · have hfilled : array (l + 1) =
            Function.update (array l) l ((group.lane l).onto (old.lane l)) := filled_used hl
        simp [atLane, MapMessage.setLane, hfilled]
      · rw [usedBefore_succ, if_pos hl]
        simp [laneWidth, atLane, MapLane.onto]
    · refine ⟨_, RecordReader.Reads.refl, ptr, ?_, ?_⟩
      · rw [show array (l + 1) = array l from filled_unused hl]
      · rw [usedBefore_succ, if_neg hl, List.append_nil]
        exact hwidth
  have hfirst : (⟨0, array 0⟩ : MapGroup) = s.message.group p := by
    rw [hold, show array 0 = _ from filled_zero]
    rfl
  have hstart : P 0 s := by
    refine ⟨s.lane, ?_, ?_⟩
    · rw [hfirst, MapMessage.setGroup_group]
    · simpa using hlast
  have honto : (⟨0, array maxlanes⟩ : MapGroup) = group.onto old := by
    simp only [array, filled_all, MapGroup.onto, used]
  obtain ⟨t, hreads, ptr, rfl, hwidth⟩ := RecordReader.Reads.loop (P := P) hstep hstart
  rw [honto] at hreads hwidth
  exact ⟨ptr, hreads, hwidth⟩

theorem atLane_self {p : (Fin maxgeometries × Direction) × Fin maxlanes} (h : s.lane = some p) :
    s.atLane p (s.message.lane p) = s := by
  simp [atLane, ← h]

/-- The width of a group is lost, without harm where it adds nothing. -/
theorem reads_groupWidth (hbarrier : s.barrier = none) (hfirst : (group.lane 0).Used)
    (hwidth : group.WidthFits lanes) (hlast : s.laneWidth = lanes.getLast?.map MapLane.width) :
    Reads s (encodeWidth group.width) s := by
  cases hlane : s.lane with
  | none => exact reads_noWidth hlane hbarrier group.width
  | some p =>
    have hreads := reads_laneWidth (s := s) (p := p) (s.message.lane p) group.width
    rw [laneWidth, hlane, Option.map_some, eq_comm, Option.map_eq_some_iff] at hlast
    obtain ⟨lane, hmem, hlane'⟩ := hlast
    have hsame := hwidth hfirst lane hmem
    rw [hlane'] at hsame
    rw [hsame, atLane_self hlane] at hreads
    exact hreads

theorem reads_encodedGroup {g : Fin maxgeometries} {d : Direction}
    (hgeometry : s.geometry = some g) (hold : s.message.group (g, d) = old.clear)
    (ha : s.message.attributes = a) (hfits : MapGroup.Fits a group old)
    (hwidth : group.WidthFits lanes) (hlast : s.laneWidth = lanes.getLast?.map MapLane.width) :
    ∃ t, Reads s (encodeGroup a d group) t ∧
      t.message = s.message.setGroup (g, d) (group.onto old) ∧
      t.laneWidth = (lanes ++ group.lanes).getLast?.map MapLane.width ∧
      t.g = s.g ∧ t.b = s.b ∧ t.geometry = s.geometry := by
  by_cases hfirst : (group.lane 0).Used
  · rw [encodeGroup, if_pos hfirst]
    obtain ⟨ptr, hlanes, hlast'⟩ := reads_lanes (p := (g, d))
      (s := { s with group := some (g, d), barrier := none }) rfl hold ha hfits hlast
    have hgroupWidth := reads_groupWidth (s := { s with group := some (g, d), barrier := none })
      rfl hfirst hwidth hlast
    exact ⟨_, ((reads_group hgeometry d).trans hgroupWidth).trans hlanes, rfl, hlast', rfl, rfl, rfl⟩
  · have hnone : ∀ l, ¬ (group.lane l).Used :=
      fun l hl => hfirst (hfits.leading 0 l (Fin.zero_le l) hl)
    have honto : group.onto old = old.clear := by
      simp only [MapGroup.onto, if_neg (hnone _), MapGroup.clear]
    have hlanes : group.lanes = [] := by
      simp [MapGroup.lanes, usedBefore, hnone]
    rw [encodeGroup, if_neg hfirst, honto, ← hold, MapMessage.setGroup_group, hlanes,
      List.append_nil]
    exact ⟨s, RecordReader.Reads.refl, rfl, hlast, rfl, rfl, rfl⟩

end Decoder

def Barrier.zero : Barrier := ⟨0, 0, fun _ => .zero⟩

def Geometry.onto (geometry old : Geometry) : Geometry where
  refpoint := geometry.refpoint
  approach := geometry.approach.onto old.approach
  egress := geometry.egress.onto old.egress
  barrier := fun b => if (geometry.barrier b).Used then geometry.barrier b else .zero

section Congr
variable {a' : UInt8} (h : hasElevation a = hasElevation a')
include h

/-- Of the message attributes only the elevation flag counts for a geometry. -/
theorem encodeGeometry_congr (geometry : Geometry) :
    encodeGeometry a geometry = encodeGeometry a' geometry := by
  simp only [encodeGeometry, encodeRefpoint, encodeGroup, encodeLane, encodeBarrier, encodeNodes,
    encodeNodelist, h]

theorem NodesFit.congr {nodes : Nodes} (hfit : NodesFit a nodes) : NodesFit a' nodes :=
  ⟨hfit.leading, hfit.first, hfit.others, h ▸ hfit.elevation⟩

theorem MapLane.Fits.congr {lane old : MapLane} (hfits : MapLane.Fits a lane old) :
    MapLane.Fits a' lane old where
  referencelane := hfits.referencelane
  node hzero := by
    have hnode := hfits.node hzero
    split_ifs at hnode ⊢
    · exact hnode
    · exact hnode.congr h
  connection := hfits.connection

theorem Geometry.Fits.congr {geometry old : Geometry} {lanes : List MapLane} {barriers : Prop}
    (hfits : Geometry.Fits a lanes barriers geometry old) :
    Geometry.Fits a' lanes barriers geometry old where
  refpoint := by
    have hrefpoint := hfits.refpoint
    rw [ReferencePoint.Fits, h] at hrefpoint
    exact hrefpoint
  lane d l hused := (hfits.lane d l hused).congr h
  approach := hfits.approach
  egress := hfits.egress
  barrier b hused := by
    obtain ⟨hnodes, hrest⟩ := hfits.barrier b hused
    exact ⟨hnodes.congr h, hrest⟩

end Congr

theorem MapMessage.lanesBefore_succ (message : MapMessage) (g : Fin maxgeometries) :
    message.lanesBefore (g + 1) = message.lanesBefore g ++
      if (message.geometry g).Used then
        (message.geometry g).approach.lanes ++ (message.geometry g).egress.lanes
      else [] := by
  simp only [lanesBefore, usedBefore_succ, List.flatMap_append]
  split_ifs <;> simp

/-- Lanes are in the groups of a geometry only. -/
theorem MapMessage.lane_setGeometry {message : MapMessage} {g : Fin maxgeometries}
    {geometry : Geometry} (h : ∀ d, geometry.group d = (message.geometry g).group d)
    (p : (Fin maxgeometries × Direction) × Fin maxlanes) :
    (message.setGeometry g geometry).lane p = message.lane p := by
  obtain ⟨⟨g', d⟩, l⟩ := p
  by_cases hg : g' = g
  · subst hg
    simp [MapMessage.lane, MapMessage.group, h]
  · simp [MapMessage.lane, MapMessage.group, MapMessage.setGeometry, hg]

namespace Decoder
variable {s : Decoder} {g : Fin maxgeometries}

theorem atBarrier_self {p : Fin maxgeometries × Fin maxbarriers} (h : s.barrier = some p) :
    s.atBarrier p (s.message.barrier p) = s := by
  simp [atBarrier, ← h]

theorem reads_encodedBarrier {b : Fin maxbarriers} {barrier : Barrier}
    (hgeometry : s.geometry = some g) (hb : s.b = b) (hlane : s.lane = none)
    (hold : s.message.barrier (g, b) = .zero) (ha : s.message.attributes = a)
    (hfit : NodesFit a barrier.node) :
    Reads s (encodeBarrier a barrier)
      { s with
        message := s.message.setBarrier (g, b) barrier
        barrier := some (g, b)
        b := b + 1
        group := none } := by
  let s1 : Decoder := { s with barrier := some (g, b), b := b + 1, group := none }
  have hflag : Reads s [4, 1, 3] (s1.atBarrier (g, b) .zero) := by
    have hreads := reads_barrierFlag hgeometry hb
    have hself := atBarrier_self (s := s1) rfl
    rw [show s1.message.barrier (g, b) = .zero from hold] at hself
    rw [hself]
    exact hreads
  have hattributes : Reads (s1.atBarrier (g, b) .zero) ([7, 2] ++ wordBytes barrier.attributes.toNat)
      (s1.atBarrier (g, b) { Barrier.zero with attributes := barrier.attributes }) := by
    have hreads := reads_barrierAttributes (s := s1) (p := (g, b)) .zero barrier.attributes
    rw [show Barrier.zero.attributes ||| barrier.attributes = barrier.attributes from
      UInt16.zero_or] at hreads
    exact hreads
  have hwidth : Reads (s1.atBarrier (g, b) { Barrier.zero with attributes := barrier.attributes })
      (encodeWidth barrier.width) (s1.atBarrier (g, b) { barrier with node := fun _ => .zero }) := by
    have hreads := reads_barrierWidth (s := s1) (p := (g, b)) hlane
      { Barrier.zero with attributes := barrier.attributes } barrier.width
    rw [show Barrier.zero.width ||| barrier.width = barrier.width from UInt16.zero_or] at hreads
    exact hreads
  have hnodes : Reads (s1.atBarrier (g, b) { barrier with node := fun _ => .zero })
      (encodeNodes a barrier.node) (s1.atBarrier (g, b) barrier) := by
    have hreads := reads_barrierNodes (s := s1) (p := (g, b)) hlane ha
      { barrier with node := fun _ => .zero } hfit.leading hfit.first
    simp only [hfit.restored] at hreads
    exact hreads
  exact ((hflag.trans hattributes).trans hwidth).trans hnodes

theorem reads_barriers {barrier : Fin maxbarriers → Barrier} (hgeometry : s.geometry = some g)
    (hold : ∀ b, (s.message.geometry g).barrier b = .zero) (ha : s.message.attributes = a)
    (hleading : Leading fun b => (barrier b).Used)
    (hfits : ∀ b, (barrier b).Used → NodesFit a (barrier b).node ∧ s.b = 0 ∧ s.lane = none) :
    ∃ t, Reads s ((List.finRange maxbarriers).flatMap fun b =>
        if (barrier b).Used then encodeBarrier a (barrier b) else []) t ∧
      t.message = s.message.setGeometry g { s.message.geometry g with
        barrier := fun b => if (barrier b).Used then barrier b else .zero } ∧
      t.lane = s.lane ∧ t.g = s.g ∧ ((∀ b, ¬ (barrier b).Used) → t.b = s.b) := by
  let used (b : Fin maxbarriers) : Prop := (barrier b).Used
  let array := filled used barrier fun _ => .zero
  let P (k : ℕ) (t : Decoder) : Prop := ∃ group place,
    t = { s with
      message := s.message.setGeometry g { s.message.geometry g with barrier := array k }
      b := s.b + (usedBefore used k).length
      group := group
      barrier := place }
  have hstep : ∀ (b : Fin maxbarriers) t, P b t → ∃ u,
      Reads t (if (barrier b).Used then encodeBarrier a (barrier b) else []) u ∧
        P (b + 1) u := by
    rintro b t ⟨group, place, rfl⟩
    split_ifs with hb
    · obtain ⟨hfit, hzero, hlane⟩ := hfits b hb
      refine ⟨_, reads_encodedBarrier (g := g) (b := b) hgeometry ?_ hlane ?_ ha hfit,
        none, some (g, b), ?_⟩
      · rw [hzero, Nat.zero_add]
        exact hleading.usedBefore_length hb
      · have hslot : array b b = .zero := filled_self _ _ _ b
        simpa [MapMessage.barrier] using hslot
      · have hfilled : array (b + 1) = Function.update (array b) b (barrier b) := filled_used hb
        have hcount := hleading.usedBefore_length hb
        rw [usedBefore_succ, if_pos hb, List.length_append, List.length_singleton, hfilled, hzero,
          hcount]
        simp [MapMessage.setBarrier]
    · refine ⟨_, RecordReader.Reads.refl, group, place, ?_⟩
      rw [show array (b + 1) = array b from filled_unused hb, usedBefore_succ, if_neg hb,
        List.append_nil]
  have hstart : P 0 s := by
    have hfirst : array 0 = (s.message.geometry g).barrier := by
      rw [show array 0 = _ from filled_zero]
      exact (funext hold).symm
    refine ⟨s.group, s.barrier, ?_⟩
    rw [hfirst, MapMessage.setGeometry_geometry]
    simp
  have hlast : array maxbarriers = fun b => if (barrier b).Used then barrier b else .zero := by
    simp only [array, filled_all, used]
  obtain ⟨t, hreads, group, place, rfl⟩ := RecordReader.Reads.loop (P := P) hstep hstart
  refine ⟨_, hreads, ?_, rfl, rfl, fun hnone => ?_⟩
  · rw [hlast]
  · have hempty : usedBefore used maxbarriers = [] := by
      simp [usedBefore, used, hnone]
    rw [hempty]
    rfl

theorem laneWidth_setGeometry {t : Decoder} {geometry : Geometry} (hlane : t.lane = s.lane)
    (hmessage : t.message = s.message.setGeometry g geometry)
    (h : ∀ d, geometry.group d = (s.message.geometry g).group d) : t.laneWidth = s.laneWidth := by
  simp only [laneWidth, hlane, hmessage, MapMessage.lane_setGeometry h]

theorem reads_encodedGeometry {geometry old : Geometry} {lanes : List MapLane} {barriers : Prop}
    (hg : s.g = g) (hold : s.message.geometry g = old.clear) (ha : s.message.attributes = a)
    (hlanes : ∀ d, Leading fun l => ((geometry.group d).lane l).Used)
    (hconnections : ∀ d l, ((geometry.group d).lane l).Used →
      Leading fun c => (((geometry.group d).lane l).connection c).Used)
    (hbarriers : Leading fun b => (geometry.barrier b).Used)
    (hfits : Geometry.Fits a lanes barriers geometry old) (hb : barriers → s.b = 0)
    (hlast : s.laneWidth = lanes.getLast?.map MapLane.width) :
    ∃ t, Reads s (encodeGeometry a geometry) t ∧
      t.message = s.message.setGeometry g (geometry.onto old) ∧
      t.laneWidth = (lanes ++ geometry.approach.lanes ++ geometry.egress.lanes).getLast?.map
        MapLane.width ∧ t.g = g + 1 ∧ ((∀ b, ¬ (geometry.barrier b).Used) → t.b = s.b) := by
  have hgroup (d : Direction) : MapGroup.Fits a (geometry.group d) (old.group d) :=
    ⟨hlanes d, hconnections d, hfits.lane d⟩
  have helevation : if hasElevation a then
      -32768 ≤ geometry.refpoint.elevation.toInt ∧ geometry.refpoint.elevation.toInt < 32768
      else geometry.refpoint.elevation = (s.message.geometry g).refpoint.elevation := by
    rw [hold]
    exact hfits.refpoint
  have hrefpoint := reads_refpoint hg ha helevation
  generalize hs1 : ({ s with
    message := s.message.setGeometry g { s.message.geometry g with refpoint := geometry.refpoint }
    g := g + 1
    geometry := some g } : Decoder) = s1 at hrefpoint
  have hm1 : s1.message = s.message.setGeometry g
      { s.message.geometry g with refpoint := geometry.refpoint } := by rw [← hs1]
  have hgeometry1 : s1.geometry = some g := by rw [← hs1]
  have hw1 : s1.laneWidth = s.laneWidth :=
    laneWidth_setGeometry (by rw [← hs1]) hm1 fun d => by cases d <;> rfl
  obtain ⟨s2, happroach, hm2, hw2, hg2, hb2, hgeometry2⟩ := reads_encodedGroup (s := s1)
    (d := .approach) hgeometry1 (by simp [hm1, hold, MapMessage.group, Geometry.group, Geometry.clear])
    (by simp [hm1, ha]) (hgroup .approach) hfits.approach (hw1.trans hlast)
  obtain ⟨s3, hegress, hm3, hw3, hg3, hb3, hgeometry3⟩ := reads_encodedGroup (s := s2)
    (d := .egress) (hgeometry2.trans hgeometry1)
    (by simp [hm2, hm1, hold, MapMessage.setGroup, MapMessage.group, Geometry.group, Geometry.setGroup,
      Geometry.clear])
    (by simp [hm2, hm1, ha]) (hgroup .egress) hfits.egress hw2
  have hm3' : s3.message = s.message.setGeometry g { geometry.onto old with
      barrier := old.clear.barrier } := by
    simp [hm3, hm2, hm1, hold, MapMessage.setGroup, Geometry.setGroup, Geometry.onto, Geometry.group]
  have hb3' : s3.b = s.b := by rw [hb3, hb2, ← hs1]
  have hfree : ∀ b, (geometry.barrier b).Used →
      NodesFit a (geometry.barrier b).node ∧ s3.b = 0 ∧ s3.lane = none := by
    intro b hused
    obtain ⟨hnodes, hnone, hempty⟩ := hfits.barrier b hused
    refine ⟨hnodes, hb3'.trans (hb hnone), ?_⟩
    rw [show geometry.group .egress = geometry.egress from rfl, hempty] at hw3
    simpa [laneWidth] using hw3
  obtain ⟨t, hbarrier, hm, hlane, hgt, hbt⟩ := reads_barriers (s := s3)
    (hgeometry3.trans (hgeometry2.trans hgeometry1)) (by simp [hm3', Geometry.clear, Barrier.zero])
    (by simp [hm3', ha]) hbarriers hfree
  refine ⟨t, ((hrefpoint.trans happroach).trans hegress).trans hbarrier, ?_, ?_, ?_, ?_⟩
  · simp [hm, hm3', Geometry.onto]
  · exact (laneWidth_setGeometry hlane hm fun d => by cases d <;> rfl).trans hw3
  · rw [hgt, hg3, hg2, ← hs1]
  · exact fun hnone => (hbt hnone).trans hb3'

theorem reads_geometries {message target : MapMessage} (hslots : LeadingSlots message)
    (hfits : message.GeometriesFit target) {s : Decoder}
    (ha : hasElevation s.message.attributes = hasElevation message.attributes)
    (hold : ∀ g, s.message.geometry g = (target.geometry g).clear) (hg : s.g = 0) (hb : s.b = 0)
    (hlane : s.lane = none) :
    ∃ t, Reads s ((List.finRange maxgeometries).flatMap fun g =>
        if (message.geometry g).refpoint.latitude ≠ 0 then
          encodeGeometry message.attributes (message.geometry g)
        else []) t ∧
      t.message = { s.message with
        geometry := fun g => if (message.geometry g).Used then
          (message.geometry g).onto (target.geometry g) else (target.geometry g).clear } := by
  let used (g : Fin maxgeometries) : Prop := (message.geometry g).Used
  let array := filled used (fun g => (message.geometry g).onto (target.geometry g))
    fun g => (target.geometry g).clear
  let P (k : ℕ) (t : Decoder) : Prop :=
    t.message = { s.message with geometry := array k } ∧
      t.laneWidth = (message.lanesBefore k).getLast?.map MapLane.width ∧
      t.g = (usedBefore used k).length ∧ (message.NoBarrierBefore k → t.b = 0)
  have hstep : ∀ (g : Fin maxgeometries) t, P g t → ∃ u,
      Reads t (if (message.geometry g).refpoint.latitude ≠ 0 then
        encodeGeometry message.attributes (message.geometry g) else []) u ∧ P (g + 1) u := by
    rintro g t ⟨hm, hw, hgt, hbt⟩
    split_ifs with hused
    · have hslot : t.message.geometry g = (target.geometry g).clear := by
        rw [hm]
        simp only [array, filled_self]
      have hattributes : t.message.attributes = s.message.attributes := by rw [hm]
      obtain ⟨u, hreads, hmu, hwu, hgu, hbu⟩ := reads_encodedGeometry
        (hgt.trans (hslots.geometries.usedBefore_length hused)) hslot hattributes
        (hslots.lanes g hused) (hslots.connections g hused) (hslots.barriers g hused)
        ((hfits g hused).congr ha.symm) hbt hw
      rw [encodeGeometry_congr ha] at hreads
      refine ⟨u, hreads, ?_, ?_, ?_, ?_⟩
      · have hfilled : array (g + 1) = Function.update (array g) g
            ((message.geometry g).onto (target.geometry g)) := filled_used hused
        rw [hmu, hm, hfilled]
        rfl
      · rw [hwu, message.lanesBefore_succ, if_pos hused, List.append_assoc]
      · rw [hgu, usedBefore_succ, if_pos hused, List.length_append, List.length_singleton,
          hslots.geometries.usedBefore_length hused]
      · intro hnone
        have hfirst := hnone g (Nat.lt_succ_self g) hused
        have hempty : ∀ b, ¬ ((message.geometry g).barrier b).Used :=
          fun b hb => hfirst (hslots.barriers g hused 0 b (Fin.zero_le b) hb)
        rw [hbu hempty]
        exact hbt fun g' hlt => hnone g' (Nat.lt_succ_of_lt hlt)
    · refine ⟨t, RecordReader.Reads.refl, ?_, ?_, ?_, ?_⟩
      · rw [hm, show array (g + 1) = array g from filled_unused hused]
      · rw [hw, message.lanesBefore_succ, if_neg hused, List.append_nil]
      · rw [hgt, usedBefore_succ, if_neg hused, List.append_nil]
      · exact fun hnone => hbt fun g' hlt => hnone g' (Nat.lt_succ_of_lt hlt)
  have hstart : P 0 s := by
    have hfirst : array 0 = s.message.geometry := by
      rw [show array 0 = _ from filled_zero]
      exact (funext hold).symm
    refine ⟨by rw [hfirst], ?_, hg, fun _ => hb⟩
    simp [laneWidth, hlane, MapMessage.lanesBefore]
  have hlast : array maxgeometries = fun g => if (message.geometry g).Used then
      (message.geometry g).onto (target.geometry g) else (target.geometry g).clear := by
    simp only [array, filled_all, used]
  obtain ⟨t, hreads, hm, -⟩ := RecordReader.Reads.loop (P := P) hstep hstart
  rw [hlast] at hm
  exact ⟨t, hreads, hm⟩

end Decoder
end Slots

section Main

theorem Kept.of_if {α : Type} {used : α → Prop} {same : α → α → Prop} {sent restored free : α}
    [Decidable (used sent)] (hfree : ¬ used free) (hused : used sent → used restored)
    (hsame : used sent → same sent restored) :
    Kept used same sent (if used sent then restored else free) := by
  by_cases h : used sent
  · rw [if_pos h]
    exact ⟨⟨fun _ => h, hused⟩, hsame⟩
  · rw [if_neg h]
    exact ⟨⟨fun h' => absurd h' hfree, fun h' => absurd h' h⟩, fun h' => absurd h' h⟩

theorem MapLane.restores_onto (lane old : MapLane) : lane.Restores (lane.onto old) where
  number := rfl
  type := rfl
  attributes := rfl
  width := rfl
  referencelane h := if_pos h
  node h := by simp [onto, h]
  connection c := Kept.of_if (fun h => h rfl) id fun _ => rfl

theorem Geometry.restores_onto (geometry old : Geometry) :
    geometry.Restores (geometry.onto old) where
  refpoint := rfl
  lane d l := by
    cases d <;> exact Kept.of_if (fun h => h rfl) id fun _ => MapLane.restores_onto _ _
  barrier b := Kept.of_if (fun h => h.1 rfl) id fun _ => rfl

/-- The low four flags are encoded, the elevation flag among them. -/
theorem encodeAttributes_eq (attributes : UInt8) :
    encodeAttributes attributes < 16 ∧ (attributes < 16 → encodeAttributes attributes = attributes) ∧
      hasElevation (encodeAttributes attributes) = hasElevation attributes := by
  have hall : ∀ n < 256, encodeAttributes (UInt8.ofNat n) < 16 ∧
      (UInt8.ofNat n < 16 → encodeAttributes (UInt8.ofNat n) = UInt8.ofNat n) ∧
      hasElevation (encodeAttributes (UInt8.ofNat n)) = hasElevation (UInt8.ofNat n) := by
    decide +kernel
  have hattributes := hall attributes.toNat attributes.toNat_lt
  rwa [UInt8.ofNat_toNat] at hattributes

/-- What is decoded from the blob of a message whose geometries fit. -/
def MapMessage.onto (message target : MapMessage) : MapMessage :=
  { target with
    attributes := encodeAttributes message.attributes
    intersectionid := .ofNat (message.intersectionid.toNat % 256)
    geometry := fun g => if (message.geometry g).Used then
      (message.geometry g).onto (target.geometry g) else (target.geometry g).clear }

theorem MapMessage.restores_onto_iff (message target : MapMessage) :
    message.Restores (message.onto target) ↔
      message.attributes < 16 ∧ message.intersectionid.toNat % 2 ^ 32 < 256 := by
  have hbyte : (message.onto target).intersectionid.toNat = message.intersectionid.toNat % 256 := by
    rw [onto, UInt64.toNat_ofNat']
    omega
  obtain ⟨hlt, hsame, -⟩ := encodeAttributes_eq message.attributes
  constructor
  · rintro ⟨hattributes, hid, -⟩
    rw [show (message.onto target).attributes = encodeAttributes message.attributes from rfl]
      at hattributes
    refine ⟨hattributes ▸ hlt, ?_⟩
    rw [hbyte] at hid
    omega
  · rintro ⟨hattributes, hid⟩
    refine ⟨hsame hattributes, ?_, fun g => ?_⟩
    · rw [hbyte]
      omega
    · exact Kept.of_if (fun h => h rfl) id fun _ => Geometry.restores_onto _ _

/-- The loop of `map_decode` over all fields. -/
theorem reads_encodeFields {message target : MapMessage} (hslots : LeadingSlots message)
    (hfits : message.GeometriesFit target) :
    ∃ t, Decoder.Reads (.start target.clear) (encodeFields message) t ∧
      t.message = message.onto target := by
  obtain ⟨-, -, helevation⟩ := encodeAttributes_eq message.attributes
  have hattributes := Decoder.reads_attributes (s := .start target.clear)
    (encodeAttributes message.attributes)
  have hid := Decoder.reads_intersectionId (s := { Decoder.start target.clear with
    message.attributes := encodeAttributes message.attributes }) rfl message.intersectionid
  obtain ⟨t, hgeometries, hm⟩ := Decoder.reads_geometries hslots hfits
    (s := { Decoder.start target.clear with
      message.attributes := encodeAttributes message.attributes
      message.intersectionid := .ofNat (message.intersectionid.toNat % 256) })
    helevation (fun _ => rfl) rfl rfl rfl
  exact ⟨t, (hattributes.trans hid).trans hgeometries, hm⟩

theorem mapDecode_encodedBlob {message target : MapMessage} (hslots : LeadingSlots message)
    (hfits : message.GeometriesFit target) {content_version : UInt8}
    (hpayload : target.payload = some (encodedBlob message content_version)) :
    mapDecode target = some (1, message.onto target) := by
  obtain ⟨t, hreads, hm⟩ := reads_encodeFields hslots hfits
  let crc : Bytes := wordBytes (crcCcitt ([0x87, content_version] ++
    wordBytes (encodeFields message ++ [255]).length ++ (encodeFields message ++ [255]))).toNat
  have hblob : encodedBlob message content_version = [0x87, content_version] ++
      wordBytes (encodeFields message ++ [255]).length ++
        (encodeFields message ++ [255] ++ crc) := by
    simp only [encodedBlob, crc, List.append_assoc]
  have hdrop : (encodedBlob message content_version).drop 4 =
      encodeFields message ++ (255 :: crc) := by
    rw [hblob, List.append_assoc (encodeFields message)]
    rfl
  have hfuel : (encodeFields message ++ (255 :: crc)).length ≤
      (encodedBlob message content_version).length := by
    rw [← hdrop, List.length_drop]
    omega
  have hrun := hreads.run_eq Decoder.reader_advances (by simp [crc]) rfl hfuel
  simp only [mapDecode, hpayload]
  rw [hdrop, hrun, Option.map_some, hm]

theorem roundTrips_iff_restores {message target : MapMessage} {content_version : UInt8}
    (hslots : LeadingSlots message)
    (hlength : (encodedBlob message content_version).length ≤ 1024)
    (hfits : message.GeometriesFit target) :
    RoundTrips message target content_version ↔
      message.attributes < 16 ∧ message.intersectionid.toNat % 2 ^ 32 < 256 := by
  let loaded : MapMessage := { target with payload := some (encodedBlob message content_version) }
  have hdecode : mapDecode loaded = some (1, message.onto loaded) :=
    mapDecode_encodedBlob hslots hfits rfl
  have hencode : mapEncode message content_version =
      some (1, { message with payload := some (encodedBlob message content_version) }) :=
    if_pos hlength
  rw [← message.restores_onto_iff loaded]
  constructor
  · rintro ⟨sent, restored, blob, hsent, hpayload, -, hrestored, hsame⟩
    obtain rfl : { message with payload := some (encodedBlob message content_version) } = sent :=
      congrArg Prod.snd (Option.some.inj (hencode.symm.trans hsent))
    obtain rfl : encodedBlob message content_version = blob := Option.some.inj hpayload
    obtain rfl : message.onto loaded = restored :=
      congrArg Prod.snd (Option.some.inj (hdecode.symm.trans hrestored))
    exact hsame
  · intro hsame
    exact ⟨_, _, _, hencode, rfl, hlength, hdecode, hsame⟩

end Main
end V2IHub.Map
