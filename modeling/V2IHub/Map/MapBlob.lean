import V2IHub.Foundation.Crc
import V2IHub.Foundation.RecordReader
import V2IHub.Map.NodeList

/-! The MAP message and its blob: `map_clear`, `map_encode` and `map_decode`. -/
namespace V2IHub.Map
open V2IHub.Foundation

abbrev maxgeometries : ℕ := 10
abbrev maxbarriers : ℕ := 20
abbrev maxlanes : ℕ := 30
abbrev maxconnections : ℕ := 10

scoped instance maxlanes_neZero : NeZero maxlanes := ⟨by decide⟩

/-- The `map_lane_type` values that the codec names. -/
def vehicle : UInt8 := 1
def computed : UInt8 := 2
def pedestrian : UInt8 := 3

structure ReferenceLane where
  lanenumber : UInt8
  lateraloffset : Int16
  xoffset : Int16
  yoffset : Int16
  deriving DecidableEq

structure Connection where
  lanenumber : UInt8
  connectionID : UInt8
  signalGroup : UInt8
  maneuver : UInt16
  deriving DecidableEq

structure MapLane where
  number : UInt8
  type : UInt8
  attributes : UInt16
  width : UInt16
  node : Nodes
  referencelane : ReferenceLane
  connection : Fin maxconnections → Connection
  deriving DecidableEq

structure MapGroup where
  width : UInt16
  lane : Fin maxlanes → MapLane
  deriving DecidableEq

structure Barrier where
  attributes : UInt16
  width : UInt16
  node : Nodes
  deriving DecidableEq

structure ReferencePoint where
  latitude : Int32
  longitude : Int32
  elevation : Int32
  deriving DecidableEq

structure Geometry where
  refpoint : ReferencePoint
  approach : MapGroup
  egress : MapGroup
  barrier : Fin maxbarriers → Barrier
  deriving DecidableEq

/-- `map_group_direction` -/
inductive Direction where
  | approach | egress
  deriving DecidableEq

/-- The `map` structure; no payload is a null `pblob`. -/
structure MapMessage where
  intersectionid : UInt64
  attributes : UInt8
  geometry : Fin maxgeometries → Geometry
  payload : Option Bytes
  deriving DecidableEq

namespace Geometry

def group (geometry : Geometry) : Direction → MapGroup
  | .approach => geometry.approach
  | .egress => geometry.egress

def setGroup (geometry : Geometry) (group : MapGroup) : Direction → Geometry
  | .approach => { geometry with approach := group }
  | .egress => { geometry with egress := group }

end Geometry

section Clear

/-- `map_clear` does not reset the signal group. -/
def Connection.clear (connection : Connection) : Connection :=
  { connection with lanenumber := 0, maneuver := 0, connectionID := 0 }

def MapLane.clear (lane : MapLane) : MapLane where
  number := 0
  type := vehicle
  attributes := 0
  width := 0
  node := fun _ => .zero
  referencelane := ⟨0, 0, 0, 0⟩
  connection := fun c => (lane.connection c).clear

def MapGroup.clear (group : MapGroup) : MapGroup := ⟨0, fun l => (group.lane l).clear⟩

def Geometry.clear (geometry : Geometry) : Geometry where
  refpoint := ⟨0, 0, 0⟩
  approach := geometry.approach.clear
  egress := geometry.egress.clear
  barrier := fun _ => ⟨0, 0, fun _ => .zero⟩

def MapMessage.clear (message : MapMessage) : MapMessage :=
  { message with
    intersectionid := 0
    attributes := 0
    geometry := fun g => (message.geometry g).clear }

end Clear

section Crc

/-- One pass of the inner loop of `initialize_crc_table` over `crc` and `c`. -/
def crcTableStep (s : BitVec 16 × BitVec 16) : BitVec 16 × BitVec 16 :=
  (if (s.1 ^^^ s.2).msb then s.1 <<< 1 ^^^ 0x1021 else s.1 <<< 1, s.2 <<< 1)

def crcTable (i : BitVec 16) : BitVec 16 := (crcTableStep^[8] (0, i <<< 8)).1

def crcUpdate (crc : BitVec 16) (c : UInt8) : BitVec 16 :=
  crc <<< 8 ^^^ crcTable (crc >>> 8 ^^^ c.toBitVec.setWidth 16)

def crcCcitt (blob : Bytes) : BitVec 16 := blob.foldl crcUpdate 0

end Crc

section Encode

/-- The message attributes, flag by flag. -/
def encodeAttributes (attributes : UInt8) : UInt8 :=
  (if attributes &&& 1 ≠ 0 then 0x01 else 0) ||| (if attributes &&& 2 ≠ 0 then 0x02 else 0) |||
    (if attributes &&& 4 ≠ 0 then 0x04 else 0) ||| (if attributes &&& 8 ≠ 0 then 0x08 else 0)

/-- Byte `j` of the intersection id: the cast to `unsigned char` binds tighter than the shift. -/
def encodeIntersectionId (intersectionid : UInt64) (j : ℕ) : UInt8 :=
  let masked := UInt8.ofNat (intersectionid.toNat &&& (0xff000000 >>> (8 * j)))
  UInt8.ofNat (masked.toNat >>> (8 * (3 - j)))

def encodeRefpoint (attributes : UInt8) (refpoint : ReferencePoint) : Bytes :=
  [3, if hasElevation attributes then 10 else 8] ++ dwordBytes refpoint.latitude.toInt ++
    dwordBytes refpoint.longitude.toInt ++
    if hasElevation attributes then wordBytes refpoint.elevation.toInt else []

/-- A width field, which no zero width gets. -/
def encodeWidth (width : UInt16) : Bytes :=
  if width ≠ 0 then [8, 2] ++ wordBytes width.toNat else []

/-- The node list of a lane or a barrier behind its length. -/
def encodeNodes (attributes : UInt8) (nodes : Nodes) : Bytes :=
  [9, UInt8.ofNat (encodeNodelist nodes attributes).length] ++ encodeNodelist nodes attributes

def encodeReferencelane (lane : ReferenceLane) : Bytes :=
  [11, 3, lane.lanenumber] ++ wordBytes lane.lateraloffset.toInt

/-- The length byte says two, three bytes follow. -/
def encodeConnection (connection : Connection) : Bytes :=
  [10, 2, connection.lanenumber, lowByte connection.maneuver.toNat, connection.connectionID]

def encodeLane (attributes : UInt8) (lane : MapLane) : Bytes :=
  [5, 2, lane.number, lane.type] ++ ([6, 2] ++ wordBytes lane.attributes.toNat) ++
    encodeWidth lane.width ++
    (if lane.referencelane.lanenumber ≠ 0 then encodeReferencelane lane.referencelane
      else encodeNodes attributes lane.node) ++
    (List.finRange maxconnections).flatMap fun c =>
      if (lane.connection c).lanenumber ≠ 0 then encodeConnection (lane.connection c) else []

def Direction.code : Direction → UInt8
  | .approach => 1
  | .egress => 2

def encodeGroup (attributes : UInt8) (d : Direction) (group : MapGroup) : Bytes :=
  if (group.lane 0).number ≠ 0 then
    [4, 1, d.code] ++ encodeWidth group.width ++
      (List.finRange maxlanes).flatMap fun l =>
        if (group.lane l).number ≠ 0 then encodeLane attributes (group.lane l) else []
  else []

def encodeBarrier (attributes : UInt8) (barrier : Barrier) : Bytes :=
  [4, 1, 3] ++ ([7, 2] ++ wordBytes barrier.attributes.toNat) ++ encodeWidth barrier.width ++
    encodeNodes attributes barrier.node

def encodeGeometry (attributes : UInt8) (geometry : Geometry) : Bytes :=
  encodeRefpoint attributes geometry.refpoint ++
    encodeGroup attributes .approach geometry.approach ++
    encodeGroup attributes .egress geometry.egress ++
    (List.finRange maxbarriers).flatMap fun b =>
      if ((geometry.barrier b).node 0).Listed then encodeBarrier attributes (geometry.barrier b)
      else []

/-- The fields between the header and the end of the blob. -/
def encodeFields (message : MapMessage) : Bytes :=
  [1, 1, encodeAttributes message.attributes] ++
    ([2, 4] ++ (List.range 4).map (encodeIntersectionId message.intersectionid)) ++
    (List.finRange maxgeometries).flatMap fun g =>
      if (message.geometry g).refpoint.latitude ≠ 0 then
        encodeGeometry message.attributes (message.geometry g)
      else []

/-- The bytes that `map_encode` writes, with the size that it records in the header. -/
def encodedBlob (message : MapMessage) (content_version : UInt8) : Bytes :=
  let fields := encodeFields message ++ [255]
  let blob := [0x87, content_version] ++ wordBytes fields.length ++ fields
  blob ++ wordBytes (crcCcitt blob).toNat

/-- `map_encode` with its return value; `none` is a write past the 1024 bytes it allocates. -/
def mapEncode (message : MapMessage) (content_version : UInt8) : Option (ℕ × MapMessage) :=
  let blob := encodedBlob message content_version
  if blob.length ≤ 1024 then some (1, { message with payload := some blob }) else none

end Encode

namespace MapMessage

def group (message : MapMessage) (p : Fin maxgeometries × Direction) : MapGroup :=
  (message.geometry p.1).group p.2

def setGeometry (message : MapMessage) (g : Fin maxgeometries) (geometry : Geometry) :
    MapMessage :=
  { message with geometry := Function.update message.geometry g geometry }

def setGroup (message : MapMessage) (p : Fin maxgeometries × Direction) (group : MapGroup) :
    MapMessage :=
  message.setGeometry p.1 ((message.geometry p.1).setGroup group p.2)

def lane (message : MapMessage) (p : (Fin maxgeometries × Direction) × Fin maxlanes) : MapLane :=
  (message.group p.1).lane p.2

def setLane (message : MapMessage) (p : (Fin maxgeometries × Direction) × Fin maxlanes)
    (lane : MapLane) : MapMessage :=
  message.setGroup p.1 { message.group p.1 with
    lane := Function.update (message.group p.1).lane p.2 lane }

def barrier (message : MapMessage) (p : Fin maxgeometries × Fin maxbarriers) : Barrier :=
  (message.geometry p.1).barrier p.2

def setBarrier (message : MapMessage) (p : Fin maxgeometries × Fin maxbarriers)
    (barrier : Barrier) : MapMessage :=
  message.setGeometry p.1 { message.geometry p.1 with
    barrier := Function.update (message.geometry p.1).barrier p.2 barrier }

end MapMessage

/-- The variables of `map_decode`; a pointer is the place it points at, `none` is `NULL`. -/
structure Decoder where
  message : MapMessage
  g : ℕ
  b : ℕ
  geometry : Option (Fin maxgeometries)
  group : Option (Fin maxgeometries × Direction)
  barrier : Option (Fin maxgeometries × Fin maxbarriers)
  lane : Option ((Fin maxgeometries × Direction) × Fin maxlanes)

namespace Decoder

abbrev Read := StateT Bytes Option

/-- `pblob[i++]`; `none` is a read past the blob. -/
def next : Read UInt8
  | [] => none
  | byte :: rest => some (byte, rest)

/-- `i += pblob[i++]` -/
def skip : Read Unit := do
  let length ← next
  modify (·.drop length.toNat)

/-- An array index or a pointer that must be good. -/
def need {α : Type} (x : Option α) : Read α := fun blob => x.map (·, blob)

/-- `value |= pblob[i++] << (8*(1-j))` for both bytes. -/
def orWord (value : UInt16) : Read UInt16 := do
  let high ← next
  let low ← next
  return value ||| UInt16.ofNat (high.toNat <<< 8) ||| UInt16.ofNat low.toNat

/-- Two bytes with a sign. -/
def signedWord : Read ℤ := do
  let high ← next
  let low ← next
  return signedByte high * 0x100 + low.toNat

/-- Four bytes with a sign. -/
def signedDword : Read ℤ := do
  let b3 ← next
  let b2 ← next
  let b1 ← next
  let b0 ← next
  return signedByte b3 * 256 ^ 3 + b2.toNat * 256 ^ 2 + b1.toNat * 256 + b0.toNat

/-- `intersectionid |= pblob[i++] << (8*(3-j))`: the shift is of an `int`, widened with its sign. -/
def orIntersectionId (intersectionid : UInt64) : List ℕ → Read UInt64
  | [] => return intersectionid
  | j :: js => do
    let byte ← next
    let shifted := (BitVec.ofNat 32 (byte.toNat <<< (8 * (3 - j)))).signExtend 64
    orIntersectionId (intersectionid ||| .ofBitVec shifted) js

def decodeAttributes (s : Decoder) : Read Decoder := do
  let _ ← next
  let attributes ← next
  return { s with message.attributes := attributes }

def decodeIntersectionId (s : Decoder) : Read Decoder := do
  let _ ← next
  let intersectionid ← orIntersectionId s.message.intersectionid (List.range 4)
  return { s with message.intersectionid := intersectionid }

def decodeRefpoint (s : Decoder) : Read Decoder := do
  let _ ← next
  let g ← need (if h : s.g < maxgeometries then some ⟨s.g, h⟩ else none)
  let latitude ← signedDword
  let longitude ← signedDword
  let old := s.message.geometry g
  let elevation ← if hasElevation s.message.attributes then Int32.ofInt <$> signedWord
    else pure old.refpoint.elevation
  let refpoint := ⟨.ofInt latitude, .ofInt longitude, elevation⟩
  return { s with
    message := s.message.setGeometry g { old with refpoint := refpoint }
    g := s.g + 1
    geometry := some g }

def decodeFlag (s : Decoder) : Read Decoder := do
  let _ ← next
  let flag ← next
  match flag.toNat with
  | 1 => return { s with group := some (← need s.geometry, .approach), barrier := none }
  | 2 => return { s with group := some (← need s.geometry, .egress), barrier := none }
  | 3 =>
    let g ← need s.geometry
    let b ← need (if h : s.b < maxbarriers then some (⟨s.b, h⟩ : Fin maxbarriers) else none)
    return { s with barrier := some (g, b), b := s.b + 1, group := none }
  | _ => return s

def decodeLane (s : Decoder) : Read Decoder := do
  match s.group with
  | none => return { s with lane := none }
  | some p =>
    match (List.finRange maxlanes).find? fun l => ((s.message.group p).lane l).number = 0 with
    | none =>
      skip
      return { s with lane := none }
    | some l =>
      let _ ← next
      let number ← next
      let type ← next
      return { s with
        message := s.message.setLane (p, l) { s.message.lane (p, l) with number, type }
        lane := some (p, l) }

def decodeLaneAttributes (s : Decoder) : Read Decoder := do
  match s.lane with
  | none =>
    skip
    return s
  | some p =>
    let _ ← next
    let attributes ← orWord (s.message.lane p).attributes
    return { s with message := s.message.setLane p { s.message.lane p with attributes } }

def decodeBarrierAttributes (s : Decoder) : Read Decoder := do
  match s.barrier with
  | none =>
    skip
    return s
  | some p =>
    let _ ← next
    let attributes ← orWord (s.message.barrier p).attributes
    return { s with message := s.message.setBarrier p { s.message.barrier p with attributes } }

def decodeWidth (s : Decoder) : Read Decoder := do
  match s.lane, s.barrier with
  | some p, _ =>
    let _ ← next
    let width ← orWord (s.message.lane p).width
    return { s with message := s.message.setLane p { s.message.lane p with width } }
  | none, some p =>
    let _ ← next
    let width ← orWord (s.message.barrier p).width
    return { s with message := s.message.setBarrier p { s.message.barrier p with width } }
  | none, none =>
    skip
    return s

def decodeNodeList (s : Decoder) : Read Decoder := do
  match s.lane, s.barrier with
  | some p, _ =>
    if (s.message.lane p).type ≠ computed then
      let node ← fun blob => decodeNodelist (s.message.lane p).node blob s.message.attributes
      return { s with message := s.message.setLane p { s.message.lane p with node } }
    else
      skip
      return s
  | none, some p =>
    let node ← fun blob => decodeNodelist (s.message.barrier p).node blob s.message.attributes
    return { s with message := s.message.setBarrier p { s.message.barrier p with node } }
  | none, none =>
    skip
    return s

/-- The connection that `map_decode` fills, with its place. -/
def decodeConnection (s : Decoder) : Read Decoder := do
  match s.lane with
  | none =>
    skip
    return s
  | some p =>
    let lane := s.message.lane p
    let free := (List.finRange maxconnections).find? fun c => (lane.connection c).lanenumber = 0
    match if lane.type ≠ pedestrian then free else none with
    | none =>
      skip
      return s
    | some c =>
      let _ ← next
      let lanenumber ← next
      let maneuver ← next
      let connectionID ← next
      let connection := { lane.connection c with
        lanenumber, maneuver := .ofNat maneuver.toNat, connectionID }
      return { s with message := s.message.setLane p { lane with
        connection := Function.update lane.connection c connection } }

def decodeReferencelane (s : Decoder) : Read Decoder := do
  match s.lane with
  | none =>
    skip
    return s
  | some p =>
    let lane := s.message.lane p
    if lane.type = computed then
      let _ ← next
      let lanenumber ← next
      let lateraloffset ← Int16.ofInt <$> signedWord
      let referencelane := { lane.referencelane with lanenumber, lateraloffset }
      return { s with message := s.message.setLane p { lane with referencelane } }
    else
      skip
      return s

/-- The `switch` of the loop of `map_decode`; any other value is passed over. -/
def decodeField (s : Decoder) : ℕ → Read Decoder
  | 1 => s.decodeAttributes
  | 2 => s.decodeIntersectionId
  | 3 => s.decodeRefpoint
  | 4 => s.decodeFlag
  | 5 => s.decodeLane
  | 6 => s.decodeLaneAttributes
  | 7 => s.decodeBarrierAttributes
  | 8 => s.decodeWidth
  | 9 => s.decodeNodeList
  | 10 => s.decodeConnection
  | 11 => s.decodeReferencelane
  | _ => return s

/-- One pass of the loop. -/
def step (s : Decoder) : Read Decoder := do
  let tag ← next
  s.decodeField tag.toNat

/-- The condition of the loop; past the end of the blob it reads what is not there. -/
def more : Bytes → Bool
  | [] => true
  | byte :: rest => byte ≠ 255 ∧ 2 < rest.length + 1

def reader : RecordReader Decoder := ⟨more, step⟩

def start (message : MapMessage) : Decoder := ⟨message, 0, 0, none, none, none, none⟩

end Decoder

/-- `map_decode` with its return value; `none` is undefined behaviour: a read past the blob, an
index past an array, or a null geometry. -/
def mapDecode (message : MapMessage) : Option (ℕ × MapMessage) :=
  match message.payload with
  | none => some (0, message)
  | some blob =>
    (Decoder.reader.run blob.length (.start message.clear) (blob.drop 4)).map fun s =>
      (1, s.message)

end V2IHub.Map
