import V2IHub.Map.BlobRoundTrip

/-! What no blob restores, however `map_decode` reads it, and when a message comes back whole. -/
namespace V2IHub.Map
open V2IHub.Foundation

section Limits
variable {target message : MapMessage}

/-- What every blob leaves of a lane: offsets it does not carry, connections it carries in part. -/
structure MapLane.Limited (lane old : MapLane) : Prop where
  offsets : lane.referencelane.xoffset = 0 ∧ lane.referencelane.yoffset = 0
  connection : ∀ c, (lane.connection c).Fits (old.connection c)

/-- A 16-bit elevation. -/
def ReferencePoint.Limited (refpoint : ReferencePoint) : Prop :=
  -32768 ≤ refpoint.elevation.toInt ∧ refpoint.elevation.toInt < 32768

structure MapMessage.Limited (message target : MapMessage) : Prop where
  lane : ∀ p, (message.lane p).Limited (target.lane p)
  refpoint : ∀ g, (message.geometry g).refpoint.Limited

theorem MapMessage.limited_clear (target : MapMessage) : target.clear.Limited target where
  lane p := by
    obtain ⟨⟨g, d⟩, l⟩ := p
    have hmaneuver : (0 : UInt16).toNat < 256 := by decide
    cases d <;> exact ⟨⟨rfl, rfl⟩, fun _ => ⟨hmaneuver, rfl⟩⟩
  refpoint g := by
    simp only [ReferencePoint.Limited, clear, Geometry.clear]
    decide

theorem MapMessage.lane_setLane_of_ne {p q : (Fin maxgeometries × Direction) × Fin maxlanes}
    (h : q ≠ p) (lane : MapLane) : (message.setLane p lane).lane q = message.lane q := by
  obtain ⟨⟨g, d⟩, l⟩ := p
  obtain ⟨⟨g', d'⟩, l'⟩ := q
  by_cases hg : g' = g
  · subst hg
    by_cases hd : d' = d
    · subst hd
      have hl : l' ≠ l := fun heq => h (by rw [heq])
      simp [MapMessage.lane, setLane, hl]
    · cases d <;> cases d' <;>
        first
        | exact absurd rfl hd
        | simp [MapMessage.lane, setLane, setGroup, MapMessage.group, Geometry.group, Geometry.setGroup]
  · simp [MapMessage.lane, setLane, setGroup, MapMessage.group, setGeometry, hg]

theorem MapMessage.refpoint_setLane {p : (Fin maxgeometries × Direction) × Fin maxlanes}
    (lane : MapLane) (g : Fin maxgeometries) :
    ((message.setLane p lane).geometry g).refpoint = (message.geometry g).refpoint := by
  obtain ⟨⟨g', d⟩, l⟩ := p
  by_cases hg : g = g'
  · subst hg
    cases d <;> simp [setLane, setGroup, Geometry.setGroup]
  · simp [setLane, setGroup, setGeometry, hg]

namespace MapMessage.Limited
variable (h : message.Limited target)
include h

theorem setLane {p : (Fin maxgeometries × Direction) × Fin maxlanes} {lane : MapLane}
    (hlane : lane.Limited (target.lane p)) : (message.setLane p lane).Limited target where
  lane q := by
    by_cases hq : q = p
    · subst hq
      rw [lane_setLane]
      exact hlane
    · rw [lane_setLane_of_ne hq]
      exact h.lane q
  refpoint g := by
    rw [refpoint_setLane]
    exact h.refpoint g

theorem setGeometry {g : Fin maxgeometries} {geometry : Geometry}
    (hgroups : ∀ d, geometry.group d = (message.geometry g).group d)
    (hrefpoint : geometry.refpoint.Limited) : (message.setGeometry g geometry).Limited target where
  lane p := by
    rw [lane_setGeometry hgroups]
    exact h.lane p
  refpoint g' := by
    by_cases hg : g' = g
    · subst hg
      rw [geometry_setGeometry]
      exact hrefpoint
    · have hother := h.refpoint g'
      simpa [MapMessage.setGeometry, hg] using hother

theorem setBarrier (p : Fin maxgeometries × Fin maxbarriers) (barrier : Barrier) :
    (message.setBarrier p barrier).Limited target :=
  h.setGeometry (fun d => by cases d <;> rfl) (h.refpoint p.1)

end MapMessage.Limited
end Limits

namespace Decoder
variable {target : MapMessage} {s : Decoder}

theorem signedWord_limited : Ensures (fun v => -32768 ≤ v ∧ v < 32768) signedWord := by
  refine .bind fun high => .bind fun low => .pure ?_
  have hhigh := high.toNat_lt
  have hlow := low.toNat_lt
  simp only [signedByte]
  split <;> omega

theorem limited_refpoint (h : s.message.Limited target) :
    Ensures (fun t : Decoder => t.message.Limited target) s.decodeRefpoint := by
  have hword : Ensures (fun x : Int32 => -32768 ≤ x.toInt ∧ x.toInt < 32768)
      (Int32.ofInt <$> signedWord) := by
    apply Ensures.map
    intro bytes r hr
    obtain ⟨hlow, hhigh⟩ := signedWord_limited bytes r hr
    rw [Int32.toInt_ofInt_of_le (by omega) (by omega)]
    exact ⟨hlow, hhigh⟩
  refine .bind fun _ => .bind fun g => .bind fun _ => .bind fun _ => ?_
  dsimp only
  split_ifs
  · refine .bind_of hword fun elevation helevation => .pure ?_
    exact h.setGeometry (fun d => by cases d <;> rfl) helevation
  · have hold : Ensures (fun x : Int32 => -32768 ≤ x.toInt ∧ x.toInt < 32768)
        (pure (s.message.geometry g).refpoint.elevation : Read Int32) := .pure (h.refpoint g)
    refine .bind_of hold fun elevation helevation => .pure ?_
    exact h.setGeometry (fun d => by cases d <;> rfl) helevation

theorem limited_flag (h : s.message.Limited target) :
    Ensures (fun t : Decoder => t.message.Limited target) s.decodeFlag := by
  refine .bind fun _ => .bind fun flag => ?_
  split
  · exact .bind fun _ => .pure h
  · exact .bind fun _ => .pure h
  · exact .bind fun _ => .bind fun _ => .pure h
  · exact .pure h

theorem limited_lane (h : s.message.Limited target) :
    Ensures (fun t : Decoder => t.message.Limited target) s.decodeLane := by
  simp only [decodeLane]
  split
  · exact .pure h
  · split
    · exact .bind fun _ => .pure h
    · next p _ _ l _ =>
      have hold := h.lane (p, l)
      exact .bind fun _ => .bind fun _ => .bind fun _ => .pure (h.setLane ⟨hold.1, hold.2⟩)

theorem limited_connection (h : s.message.Limited target) :
    Ensures (fun t : Decoder => t.message.Limited target) s.decodeConnection := by
  simp only [decodeConnection]
  split
  · exact .bind fun _ => .pure h
  · next p _ =>
    split
    · exact .bind fun _ => .pure h
    · next c _ =>
      refine .bind fun _ => .bind fun _ => .bind fun maneuver => .bind fun _ => .pure ?_
      obtain ⟨hoffsets, hold⟩ := h.lane p
      refine h.setLane ⟨hoffsets, fun c' => ?_⟩
      by_cases hc : c' = c
      · subst hc
        have hbyte := maneuver.toNat_lt
        have hmaneuver : (UInt16.ofNat maneuver.toNat).toNat < 256 := by
          rw [UInt16.toNat_ofNat']
          omega
        simp only [Function.update_self]
        exact ⟨hmaneuver, (hold c').signalGroup⟩
      · simpa [hc] using hold c'

/-- Any field, in any state. -/
theorem limited_field (tag : ℕ) (h : s.message.Limited target) :
    Ensures (fun t : Decoder => t.message.Limited target) (s.decodeField tag) := by
  simp only [decodeField]
  split
  · exact .bind fun _ => .bind fun _ => .pure ⟨h.lane, h.refpoint⟩
  · exact .bind fun _ => .bind fun _ => .pure ⟨h.lane, h.refpoint⟩
  · exact limited_refpoint h
  · exact limited_flag h
  · exact limited_lane h
  · simp only [decodeLaneAttributes]
    split
    · exact .bind fun _ => .pure h
    · next p _ => exact .bind fun _ => .bind fun _ => .pure (h.setLane ⟨(h.lane p).1, (h.lane p).2⟩)
  · simp only [decodeBarrierAttributes]
    split
    · exact .bind fun _ => .pure h
    · exact .bind fun _ => .bind fun _ => .pure (h.setBarrier _ _)
  · simp only [decodeWidth]
    split
    · next p _ => exact .bind fun _ => .bind fun _ => .pure (h.setLane ⟨(h.lane p).1, (h.lane p).2⟩)
    · exact .bind fun _ => .bind fun _ => .pure (h.setBarrier _ _)
    · exact .bind fun _ => .pure h
  · simp only [decodeNodeList]
    split
    · next p _ =>
      split
      · exact .bind fun _ => .pure (h.setLane ⟨(h.lane p).1, (h.lane p).2⟩)
      · exact .bind fun _ => .pure h
    · exact .bind fun _ => .pure (h.setBarrier _ _)
    · exact .bind fun _ => .pure h
  · exact limited_connection h
  · simp only [decodeReferencelane]
    split
    · exact .bind fun _ => .pure h
    · next p _ =>
      split
      · exact .bind fun _ => .bind fun _ => .bind fun _ =>
          .pure (h.setLane ⟨(h.lane p).1, (h.lane p).2⟩)
      · exact .bind fun _ => .pure h
  · exact .pure h

end Decoder

section Main
variable {message target : MapMessage} {content_version : UInt8}

theorem mapDecode_limited {blob : Bytes} {restored : MapMessage}
    (h : mapDecode { target with payload := some blob } = some (1, restored)) :
    restored.Limited target := by
  obtain ⟨s, hrun, hs⟩ := Option.map_eq_some_iff.mp h
  cases hs
  have hclear := MapMessage.limited_clear { target with payload := some blob }
  have hstep : ∀ (s : Decoder) bytes r, Decoder.reader.step s bytes = some r →
      s.message.Limited target → r.1.message.Limited target := by
    intro s bytes r hr hs
    obtain ⟨⟨tag, rest⟩, -, hfield⟩ := Option.bind_eq_some_iff.mp hr
    exact Decoder.limited_field tag.toNat hs rest r hfield
  exact RecordReader.run_invariant (I := fun s => s.message.Limited target) hstep
    ⟨hclear.lane, hclear.refpoint⟩ hrun

/-- What a message keeps to if any blob is to restore it. -/
structure MapMessage.Carried (message target : MapMessage) : Prop where
  refpoint : ∀ g, (message.geometry g).Used → (message.geometry g).refpoint.Limited
  offsets : ∀ g, (message.geometry g).Used → ∀ d l, (message.lane ((g, d), l)).Used →
    (message.lane ((g, d), l)).referencelane.lanenumber ≠ 0 →
    (message.lane ((g, d), l)).referencelane.xoffset = 0 ∧
      (message.lane ((g, d), l)).referencelane.yoffset = 0
  connection : ∀ g, (message.geometry g).Used → ∀ d l, (message.lane ((g, d), l)).Used →
    ∀ c, ((message.lane ((g, d), l)).connection c).Used →
      ((message.lane ((g, d), l)).connection c).Fits ((target.lane ((g, d), l)).connection c)

theorem RoundTrips.carried (h : RoundTrips message target content_version) :
    message.Carried target := by
  obtain ⟨sent, restored, blob, -, -, -, hdecode, hsame⟩ := h
  have hlimited := mapDecode_limited hdecode
  have hlane (g) (hg : (message.geometry g).Used) (d l) (hl : (message.lane ((g, d), l)).Used) :
      (message.lane ((g, d), l)).Restores (restored.lane ((g, d), l)) :=
    (((hsame.geometry g).2 hg).lane d l).2 hl
  refine ⟨fun g hg => ?_, fun g hg d l hl hreference => ?_, fun g hg d l hl c hc => ?_⟩
  · rw [← ((hsame.geometry g).2 hg).refpoint]
    exact hlimited.refpoint g
  · rw [← (hlane g hg d l hl).referencelane hreference]
    exact (hlimited.lane ((g, d), l)).offsets
  · rw [((hlane g hg d l hl).connection c).2 hc]
    exact (hlimited.lane ((g, d), l)).connection c

def freeLane : MapLane :=
  ⟨0, vehicle, 0, 0, fun _ => .zero, ⟨0, 0, 0, 0⟩, fun _ => ⟨0, 0, 0, 0⟩⟩

def freeGeometry : Geometry :=
  ⟨⟨0, 0, 0⟩, ⟨0, fun _ => freeLane⟩, ⟨0, fun _ => freeLane⟩, fun _ => .zero⟩

def freeMessage : MapMessage := ⟨0, 0, fun _ => freeGeometry, none⟩

/-- One lane with two nodes and a connection. -/
def sampleLane : MapLane :=
  { freeLane with
    number := 3
    attributes := 0x0102
    width := 300
    node := fun n => if n.val < 2 then ⟨25, -40, 0, 0⟩ else .zero
    connection := fun c => if c.val = 0 then ⟨4, 5, 0, 2⟩ else ⟨0, 0, 0, 0⟩ }

def sampleGeometry : Geometry :=
  { freeGeometry with
    refpoint := ⟨389549540, -771491600, 0⟩
    approach := ⟨0, fun l => if l.val = 0 then sampleLane else freeLane⟩ }

def sampleMessage : MapMessage :=
  ⟨77, 2, fun g => if g.val = 0 then sampleGeometry else freeGeometry, none⟩

theorem sampleMessage_slots : LeadingSlots sampleMessage where
  geometries := by decide +kernel
  lanes g hg d := by cases d <;> revert g <;> decide +kernel
  connections g hg d := by cases d <;> revert g <;> decide +kernel
  barriers := by decide +kernel

theorem sampleMessage_length : (encodedBlob sampleMessage 1).length ≤ 1024 := by decide +kernel

theorem sampleLane_fits : MapLane.Fits 2 sampleLane freeLane where
  referencelane h := absurd rfl h
  node _ := by
    rw [if_neg (by decide)]
    exact ⟨by decide +kernel, by decide, by decide +kernel, fun _ => by decide +kernel⟩
  connection c hc := ⟨by decide, by revert c; decide +kernel, by revert c; decide +kernel⟩

theorem sampleMessage_fits : sampleMessage.Fits freeMessage where
  attributes := by decide
  intersectionid := by decide
  geometry g hg := by
    obtain rfl : g = 0 := by
      revert g
      decide +kernel
    refine ⟨?_, fun d l hl => ?_, fun _ lane hlane => ?_, fun hl => ?_, fun b hb => ?_⟩
    · rw [ReferencePoint.Fits, if_neg (by decide)]
      rfl
    · cases d with
      | approach =>
        obtain rfl : l = 0 := by
          revert l
          decide +kernel
        exact sampleLane_fits
      | egress => exact absurd rfl hl
    · cases hlane
    · exact absurd rfl hl
    · exact absurd rfl hb.1

def sampleWideId : MapMessage := { freeMessage with intersectionid := 256 }

end Main
end V2IHub.Map
