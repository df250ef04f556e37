import Mathlib.Data.Rat.Floor
import Mathlib.Tactic
import V2IHub.Foundation.SignedBytes

/-! `BsmConverter` with exact numbers, for both revisions of J2735 that there is code for. -/
namespace V2IHub.Utils.BsmConverter
open Foundation

/-- What both directions deal with. The id is an `int32_t`. -/
@[ext] structure VehicleData where
  TemporaryId : BitVec 32
  Latitude : ℚ
  Longitude : ℚ
  Elevation_m : ℚ
  Speed_mps : ℚ
  Heading : ℚ
  SteeringWheelAngle : ℚ
  IsLocationValid : Bool
  IsElevationValid : Bool
  IsSpeedValid : Bool
  IsHeadingValid : Bool
  IsSteeringWheelAngleValid : Bool
deriving DecidableEq

/-- `MsgCount` and `SecondMark` are not read back. -/
structure DecodedBsmMessage extends VehicleData where
  MsgCount : UInt8
  SecondMark : ℤ
deriving DecidableEq

/-- A new object. -/
def DecodedBsmMessage.new : DecodedBsmMessage :=
  ⟨⟨0, 0, 0, 0, 0, 0, 0, false, false, false, false, false⟩, 0, 0⟩

/-- The conversion of a `double` to an integer type: the language says nothing of a number whose
integral part is not one of the type. -/
def convert (lo hi : ℤ) (x : ℚ) : Option ℤ :=
  let n := if 0 ≤ x then ⌊x⌋ else ⌈x⌉
  if lo ≤ n ∧ n ≤ hi then some n else none

def toInt8 : ℚ → Option ℤ := convert (-128) 127

def toInt16 : ℚ → Option ℤ := convert (-32768) 32767

def toUInt16 : ℚ → Option ℤ := convert 0 65535

def toInt32 : ℚ → Option ℤ := convert (-2147483648) 2147483647

/-- The integers of the message. -/
structure Encoded where
  lat : ℤ
  Long : ℤ
  elev : ℤ
  speed : ℤ
  heading : ℤ
  angle : ℤ
deriving DecidableEq

section Encode
variable (decoded : VehicleData)

def encodeLatitude : Option ℤ :=
  if decoded.IsLocationValid then toInt32 (decoded.Latitude * 10000000) else some 900000001

def encodeLongitude : Option ℤ :=
  if decoded.IsLocationValid then toInt32 (decoded.Longitude * 10000000) else some 1800000001

/-- The ends of the range are assigned first, for elevations outside of it, but what stays is the last
assignment, which is made for all. -/
def encodeElevation : Option ℤ :=
  if decoded.IsElevationValid then toInt16 (decoded.Elevation_m * 10) else some (-4095)

def encodeSpeed : Option ℤ :=
  if decoded.IsSpeedValid then toInt16 (decoded.Speed_mps * 50) else some 8191

/-- The ends of the range are overwritten here too. -/
def encodeHeading : Option ℤ :=
  if decoded.IsHeadingValid then toUInt16 (decoded.Heading * 80) else some 28800

/-- The factor is that of the heading; the ends are overwritten. -/
def encodeAngle : Option ℤ :=
  if decoded.IsSteeringWheelAngleValid then toInt8 (decoded.SteeringWheelAngle * 80) else some 127

def encode : Option Encoded := do
  let lat ← encodeLatitude decoded
  let long ← encodeLongitude decoded
  let elev ← encodeElevation decoded
  let speed ← encodeSpeed decoded
  let heading ← encodeHeading decoded
  let angle ← encodeAngle decoded
  pure ⟨lat, long, elev, speed, heading, angle⟩

end Encode

/-- `BSMcoreData` of the revision from 2016, without the members that are always the same. -/
structure CoreData extends Encoded where
  msgCnt : ℤ
  id : BitVec 32
  secMark : ℤ
deriving DecidableEq

/-- From revision 63 on. -/
def toBasicSafetyMessage (decoded : DecodedBsmMessage) : Option CoreData :=
  (encode decoded.toVehicleData).map fun e => ⟨e, 0, decoded.TemporaryId, decoded.SecondMark⟩

/-- The 38 bytes of `blob1`; the accuracy is all ones, and what follows the angle is zero. -/
def blobOf (msgCount : UInt8) (id secondMark : ℤ) (e : Encoded) : Bytes :=
  [msgCount] ++ dwordBytes id ++ wordBytes secondMark ++
    dwordBytes e.lat ++ dwordBytes e.Long ++ wordBytes e.elev ++ [255, 255, 255, 255] ++
    wordBytes e.speed ++ wordBytes e.heading ++ [lowByte e.angle] ++ List.replicate 12 0

/-- Before revision 63. -/
def toBlob (decoded : DecodedBsmMessage) : Option Bytes :=
  (encode decoded.toVehicleData).map
    (blobOf decoded.MsgCount decoded.TemporaryId.toInt decoded.SecondMark)

section Decode

/-- The part of `ToDecodedBsmMessage` that both revisions share, behind the reading. -/
def setFields (temporaryId : BitVec 32) (e : Encoded) (decoded : DecodedBsmMessage) :
    DecodedBsmMessage :=
  let decoded := { decoded with
    IsLocationValid := false
    IsElevationValid := false
    IsSpeedValid := false
    IsHeadingValid := false
    IsSteeringWheelAngleValid := false
    TemporaryId := temporaryId }
  let decoded := if e.lat ≠ 900000001 ∧ e.Long ≠ 1800000001 then
      { decoded with
        Latitude := e.lat / 10000000
        Longitude := e.Long / 10000000
        IsLocationValid := true }
    else decoded
  let decoded := if e.elev ≠ -4095 then
      { decoded with Elevation_m := e.elev / 10, IsElevationValid := true }
    else decoded
  let decoded := if e.speed ≠ 8191 then
      { decoded with Speed_mps := e.speed / 50, IsSpeedValid := true }
    else decoded
  let decoded := if e.heading ≠ 28800 then
      { decoded with Heading := e.heading / 80, IsHeadingValid := true }
    else decoded
  if e.angle ≠ 127 then
    { decoded with SteeringWheelAngle := e.angle * (3 / 2), IsSteeringWheelAngleValid := true }
  else decoded

/-- The members are `long`, the variables that they are read into are not. -/
def toDecodedBsmMessage (bsm : CoreData) : DecodedBsmMessage → DecodedBsmMessage :=
  setFields bsm.id
    { lat := bsm.lat.bmod (2 ^ 32)
      Long := bsm.Long.bmod (2 ^ 32)
      elev := bsm.elev.bmod (2 ^ 16)
      speed := bsm.speed % 2 ^ 16
      heading := bsm.heading % 2 ^ 16
      angle := bsm.angle.bmod (2 ^ 16) }

def byteAt (buf : Bytes) (i : ℕ) : UInt8 := buf.getD i 0

/-- `(int32_t) ntohl` -/
def int32At (buf : Bytes) (i : ℕ) : ℤ :=
  signedByte (byteAt buf i) * 256 ^ 3 + (byteAt buf (i + 1)).toNat * 256 ^ 2 +
    (byteAt buf (i + 2)).toNat * 256 + (byteAt buf (i + 3)).toNat

/-- `ntohs` -/
def uint16At (buf : Bytes) (i : ℕ) : ℤ := (byteAt buf i).toNat * 256 + (byteAt buf (i + 1)).toNat

def int16At (buf : Bytes) (i : ℕ) : ℤ :=
  signedByte (byteAt buf i) * 256 + (byteAt buf (i + 1)).toNat

/-- The angle is read as two bytes in the order of the host, the low one first. -/
def fromBlob (buf : Bytes) : DecodedBsmMessage → DecodedBsmMessage :=
  setFields (BitVec.ofInt 32 (int32At buf 1))
    { lat := int32At buf 7
      Long := int32At buf 11
      elev := int16At buf 15
      speed := uint16At buf 21 % 0x2000
      heading := uint16At buf 23
      angle := (byteAt buf 25).toNat + signedByte (byteAt buf 26) * 256 }

end Decode

/-- The revision of the standard that the code is built for. -/
inductive Spec where
  | r41 | r63
deriving DecidableEq

/-- There and back, into a new object. -/
def convertBack (spec : Spec) (decoded : DecodedBsmMessage) : Option DecodedBsmMessage :=
  match spec with
  | .r41 => (toBlob decoded).map fun buf => fromBlob buf .new
  | .r63 => (toBasicSafetyMessage decoded).map fun bsm => toDecodedBsmMessage bsm .new

section Convert
variable {lo hi n : ℤ} {x : ℚ}

theorem convert_of_nonneg (hx : 0 ≤ x) :
    convert lo hi x = some n ↔ (lo ≤ n ∧ n ≤ hi) ∧ (n : ℚ) ≤ x ∧ x < n + 1 := by
  rw [← Int.floor_eq_iff, convert, if_pos hx]
  constructor
  · intro h
    split_ifs at h with hrange
    obtain rfl := Option.some.inj h
    exact ⟨hrange, rfl⟩
  · rintro ⟨hrange, rfl⟩
    rw [if_pos hrange]

theorem convert_of_neg (hx : x < 0) :
    convert lo hi x = some n ↔ (lo ≤ n ∧ n ≤ hi) ∧ (n : ℚ) - 1 < x ∧ x ≤ n := by
  rw [← Int.ceil_eq_iff, convert, if_neg (not_le.mpr hx)]
  constructor
  · intro h
    split_ifs at h with hrange
    obtain rfl := Option.some.inj h
    exact ⟨hrange, rfl⟩
  · rintro ⟨hrange, rfl⟩
    rw [if_pos hrange]

/-- A whole number is converted, if it is one of the type. -/
theorem convert_intCast (lo hi n : ℤ) :
    convert lo hi n = if lo ≤ n ∧ n ≤ hi then some n else none := by
  simp [convert]

theorem convert_range (h : convert lo hi x = some n) : lo ≤ n ∧ n ≤ hi := by
  rw [convert] at h
  split_ifs at h with _ hrange hrange
  all_goals
    obtain rfl := Option.some.inj h
    exact hrange

end Convert

section Read
variable {d : VehicleData} {e : Encoded}

theorem encode_eq_some_iff : encode d = some e ↔
    encodeLatitude d = some e.lat ∧ encodeLongitude d = some e.Long ∧
      encodeElevation d = some e.elev ∧ encodeSpeed d = some e.speed ∧
        encodeHeading d = some e.heading ∧ encodeAngle d = some e.angle := by
  obtain ⟨lat, long, elev, speed, heading, angle⟩ := e
  simp only [encode, Option.bind_eq_bind, Option.bind_eq_some_iff, Option.pure_def,
    Option.some.injEq, Encoded.mk.injEq]
  constructor
  · rintro ⟨_, hlat, _, hlong, _, helev, _, hspeed, _, hheading, _, hangle, rfl, rfl, rfl, rfl, rfl,
      rfl⟩
    exact ⟨hlat, hlong, helev, hspeed, hheading, hangle⟩
  · rintro ⟨hlat, hlong, helev, hspeed, hheading, hangle⟩
    exact ⟨_, hlat, _, hlong, _, helev, _, hspeed, _, hheading, _, hangle, rfl, rfl, rfl, rfl, rfl,
      rfl⟩

/-- The integers are ones of the variables that they are assigned to. -/
structure InTypes (e : Encoded) : Prop where
  lat : -2147483648 ≤ e.lat ∧ e.lat ≤ 2147483647
  Long : -2147483648 ≤ e.Long ∧ e.Long ≤ 2147483647
  elev : -32768 ≤ e.elev ∧ e.elev ≤ 32767
  speed : -32768 ≤ e.speed ∧ e.speed ≤ 32767
  heading : 0 ≤ e.heading ∧ e.heading ≤ 65535
  angle : -128 ≤ e.angle ∧ e.angle ≤ 127

theorem range_of_ite {valid : Bool} {lo hi unavailable n : ℤ} {x : ℚ}
    (h : (if valid = true then convert lo hi x else some unavailable) = some n)
    (hrange : lo ≤ unavailable ∧ unavailable ≤ hi) : lo ≤ n ∧ n ≤ hi := by
  cases valid with
  | true => exact convert_range h
  | false =>
    obtain rfl := Option.some.inj h
    exact hrange

theorem encode_inTypes (h : encode d = some e) : InTypes e := by
  obtain ⟨hlat, hlong, helev, hspeed, hheading, hangle⟩ := encode_eq_some_iff.mp h
  exact ⟨range_of_ite hlat (by norm_num), range_of_ite hlong (by norm_num),
    range_of_ite helev (by norm_num), range_of_ite hspeed (by norm_num),
    range_of_ite hheading (by norm_num), range_of_ite hangle (by norm_num)⟩

/-- What is read of the integers: the speed without its sign, and before revision 63 in 13 bits; the
byte of the angle then without its sign. -/
def Encoded.readBack (e : Encoded) : Spec → Encoded
  | .r41 => { e with speed := e.speed % 65536 % 8192, angle := e.angle % 256 }
  | .r63 => { e with speed := e.speed % 65536 }

theorem toDecodedBsmMessage_eq (h : InTypes e) (msgCnt secMark : ℤ) (id : BitVec 32)
    (decoded : DecodedBsmMessage) :
    toDecodedBsmMessage ⟨e, msgCnt, id, secMark⟩ decoded =
      setFields id (e.readBack .r63) decoded := by
  obtain ⟨lat, long, elev, speed, heading, angle⟩ := e
  obtain ⟨hlat, hlong, helev, hspeed, hheading, hangle⟩ := h
  simp only at hlat hlong helev hspeed hheading hangle
  have hlat' : lat.bmod (2 ^ 32) = lat := Int.bmod_eq_of_le (by omega) (by omega)
  have hlong' : long.bmod (2 ^ 32) = long := Int.bmod_eq_of_le (by omega) (by omega)
  have helev' : elev.bmod (2 ^ 16) = elev := Int.bmod_eq_of_le (by omega) (by omega)
  have hheading' : heading % 2 ^ 16 = heading := by omega
  have hangle' : angle.bmod (2 ^ 16) = angle := Int.bmod_eq_of_le (by omega) (by omega)
  simp only [toDecodedBsmMessage, hlat', hlong', helev', hheading', hangle', Encoded.readBack]
  rfl

theorem uword_joined (v : ℤ) :
    ((lowByte (v / 256)).toNat : ℤ) * 256 + (lowByte v).toNat = v % 65536 := by
  have hlow := lowByte_toNat v
  have hhigh := lowByte_toNat (v / 256)
  omega

theorem fromBlob_eq (h : InTypes e) (msgCount : UInt8) (id : BitVec 32) (secondMark : ℤ)
    (decoded : DecodedBsmMessage) :
    fromBlob (blobOf msgCount id.toInt secondMark e) decoded =
      setFields id (e.readBack .r41) decoded := by
  have hid := dword_joined (BitVec.le_toInt id) BitVec.toInt_lt
  have hlat := dword_joined h.lat.1 (Int.lt_add_one_of_le h.lat.2)
  have hlong := dword_joined h.Long.1 (Int.lt_add_one_of_le h.Long.2)
  have helev := word_joined h.elev.1 (Int.lt_add_one_of_le h.elev.2)
  have hheading : e.heading % 65536 = e.heading := by
    have := h.heading
    omega
  -- the byte behind the angle, which is read as its high byte
  have hzero : signedByte ((List.replicate 12 (0 : UInt8)).getD 0 0) = 0 := rfl
  simp only [fromBlob, blobOf, dwordBytes, wordBytes, List.cons_append, List.nil_append,
    int32At, int16At, uint16At, byteAt, List.getD_cons_succ, List.getD_cons_zero, hid, hlat, hlong,
    helev, uword_joined, hheading, hzero, BitVec.ofInt_toInt, zero_mul, add_zero]
  rw [lowByte_toNat]
  rfl

/-- Nothing else happens to the integers on their way. -/
theorem convertBack_eq (spec : Spec) (d : DecodedBsmMessage) :
    convertBack spec d = (encode d.toVehicleData).map fun e =>
      setFields d.TemporaryId (e.readBack spec) .new := by
  cases hencode : encode d.toVehicleData with
  | none => cases spec <;> simp [convertBack, toBlob, toBasicSafetyMessage, hencode]
  | some e =>
    have htypes := encode_inTypes hencode
    cases spec with
    | r41 =>
      simp only [convertBack, toBlob, hencode, Option.map_some]
      exact congrArg some (fromBlob_eq htypes _ _ _ _)
    | r63 =>
      simp only [convertBack, toBasicSafetyMessage, hencode, Option.map_some]
      exact congrArg some (toDecodedBsmMessage_eq htypes _ _ _ _)

end Read

section RoundTrip

/-- On the grid of the standard and inside of its ranges, as far as the flags say that there is a
value. -/
structure OnGrid (d : VehicleData) : Prop where
  location : d.IsLocationValid = true → ∃ k m : ℤ, d.Latitude * 10000000 = k ∧
    d.Longitude * 10000000 = m ∧ (-900000000 ≤ k ∧ k ≤ 900000000) ∧
      -1799999999 ≤ m ∧ m ≤ 1800000000
  elevation : d.IsElevationValid = true → ∃ k : ℤ, d.Elevation_m * 10 = k ∧ -4095 ≤ k ∧ k ≤ 61439
  speed : d.IsSpeedValid = true → ∃ k : ℤ, d.Speed_mps * 50 = k ∧ 0 ≤ k ∧ k ≤ 8190
  heading : d.IsHeadingValid = true → ∃ k : ℤ, d.Heading * 80 = k ∧ 0 ≤ k ∧ k ≤ 28799
  angle : d.IsSteeringWheelAngleValid = true →
    ∃ k : ℤ, d.SteeringWheelAngle = k * (3 / 2) ∧ -126 ≤ k ∧ k ≤ 126

/-- What the conversion gives back: a value without its flag only if it is 0, elevations that fit into
16 bits, and no angle but 0. -/
structure Restored (d : VehicleData) : Prop where
  location : d.IsLocationValid = false → d.Latitude = 0 ∧ d.Longitude = 0
  elevation : d.IsElevationValid = false → d.Elevation_m = 0
  elevationValid : d.IsElevationValid = true → -4095 < d.Elevation_m * 10 ∧
    d.Elevation_m * 10 ≤ 32767
  speed : d.IsSpeedValid = false → d.Speed_mps = 0
  heading : d.IsHeadingValid = false → d.Heading = 0
  angle : d.SteeringWheelAngle = 0

variable {d : VehicleData} {e : Encoded}

theorem setFields_new (id : BitVec 32) (e : Encoded) :
    (setFields id e .new).toVehicleData =
      { TemporaryId := id
        Latitude := if e.lat ≠ 900000001 ∧ e.Long ≠ 1800000001 then e.lat / 10000000 else 0
        Longitude := if e.lat ≠ 900000001 ∧ e.Long ≠ 1800000001 then e.Long / 10000000 else 0
        Elevation_m := if e.elev ≠ -4095 then e.elev / 10 else 0
        Speed_mps := if e.speed ≠ 8191 then e.speed / 50 else 0
        Heading := if e.heading ≠ 28800 then e.heading / 80 else 0
        SteeringWheelAngle := if e.angle ≠ 127 then e.angle * (3 / 2) else 0
        IsLocationValid := decide (e.lat ≠ 900000001 ∧ e.Long ≠ 1800000001)
        IsElevationValid := decide (e.elev ≠ -4095)
        IsSpeedValid := decide (e.speed ≠ 8191)
        IsHeadingValid := decide (e.heading ≠ 28800)
        IsSteeringWheelAngleValid := decide (e.angle ≠ 127) } := by
  unfold setFields
  split_ifs <;> simp_all [DecodedBsmMessage.new]

/-- A number on the grid comes back, and without its flag there comes 0. -/
theorem restored_iff {valid : Bool} {value scale : ℚ} {lo hi unavailable : ℤ} (hscale : scale ≠ 0)
    (hgrid : valid = true → ∃ k : ℤ, value * scale = k ∧ (lo ≤ k ∧ k ≤ hi) ∧ k ≠ unavailable) :
    ∃ n : ℤ, (if valid = true then convert lo hi (value * scale) else some unavailable) = some n ∧
      ((if n ≠ unavailable then (n : ℚ) / scale else 0) = value ∧
        decide (n ≠ unavailable) = valid ↔ (valid = false → value = 0)) := by
  cases valid with
  | false => exact ⟨unavailable, rfl, by simp [eq_comm]⟩
  | true =>
    obtain ⟨k, hk, hrange, hne⟩ := hgrid rfl
    refine ⟨k, ?_, ?_⟩
    · rw [if_pos rfl, hk, convert_intCast, if_pos hrange]
    · rw [if_pos hne, ← hk, mul_div_cancel_right₀ _ hscale]
      simp [hne]

theorem location_restored (h : OnGrid d) :
    ∃ lat long : ℤ, encodeLatitude d = some lat ∧ encodeLongitude d = some long ∧
      (((if lat ≠ 900000001 ∧ long ≠ 1800000001 then (lat : ℚ) / 10000000 else 0) = d.Latitude ∧
        (if lat ≠ 900000001 ∧ long ≠ 1800000001 then (long : ℚ) / 10000000 else 0) = d.Longitude ∧
          decide (lat ≠ 900000001 ∧ long ≠ 1800000001) = d.IsLocationValid) ↔
        (d.IsLocationValid = false → d.Latitude = 0 ∧ d.Longitude = 0)) := by
  cases hvalid : d.IsLocationValid with
  | false =>
    refine ⟨900000001, 1800000001, by simp [encodeLatitude, hvalid],
      by simp [encodeLongitude, hvalid], ?_⟩
    simp [eq_comm]
  | true =>
    obtain ⟨k, m, hk, hm, hkrange, hmrange⟩ := h.location hvalid
    have hne : k ≠ 900000001 ∧ m ≠ 1800000001 := by omega
    refine ⟨k, m, ?_, ?_, ?_⟩
    · rw [encodeLatitude, if_pos hvalid, toInt32, hk, convert_intCast, if_pos (by omega)]
    · rw [encodeLongitude, if_pos hvalid, toInt32, hm, convert_intCast, if_pos (by omega)]
    · rw [if_pos hne, if_pos hne, ← hk, ← hm, mul_div_cancel_right₀ _ (by norm_num),
        mul_div_cancel_right₀ _ (by norm_num)]
      simp [hne]

/-- The elevations that do not fit, and the lowest one, which stands for an unknown elevation. -/
theorem elevation_restored (h : OnGrid d) :
    (∃ n : ℤ, encodeElevation d = some n ∧
      (if n ≠ -4095 then (n : ℚ) / 10 else 0) = d.Elevation_m ∧
        decide (n ≠ -4095) = d.IsElevationValid) ↔
      (d.IsElevationValid = false → d.Elevation_m = 0) ∧
        (d.IsElevationValid = true → -4095 < d.Elevation_m * 10 ∧
          d.Elevation_m * 10 ≤ 32767) := by
  cases hvalid : d.IsElevationValid with
  | false =>
    have hencode : encodeElevation d = some (-4095) := by simp [encodeElevation, hvalid]
    simp [hencode, eq_comm (a := (0 : ℚ))]
  | true =>
    obtain ⟨k, hk, hlow, hhigh⟩ := h.elevation hvalid
    rw [encodeElevation, if_pos hvalid, toInt16, hk, convert_intCast]
    constructor
    · rintro ⟨n, hn, -, hne⟩
      split_ifs at hn with hrange
      obtain rfl := Option.some.inj hn
      rw [decide_eq_true_eq] at hne
      refine ⟨nofun, fun _ => ⟨?_, ?_⟩⟩
      · exact_mod_cast show -4095 < k by omega
      · exact_mod_cast hrange.2
    · rintro ⟨-, hrange⟩
      obtain ⟨hrange, hle⟩ := hrange rfl
      have hlt : -4095 < k := by exact_mod_cast hrange
      have hle' : k ≤ 32767 := by exact_mod_cast hle
      have hne : k ≠ -4095 := by omega
      refine ⟨k, if_pos (by omega), ?_, by simpa using hne⟩
      rw [if_pos hne, ← hk, mul_div_cancel_right₀ _ (by norm_num)]

/-- The byte of the angle, as it is read. -/
def Spec.readAngle : Spec → ℤ → ℤ
  | .r41, n => n % 256
  | .r63, n => n

/-- The factors of the two directions are different, so that no angle but 0 comes back. -/
theorem angle_restored (spec : Spec) (h : OnGrid d) :
    (∃ n : ℤ, encodeAngle d = some n ∧
      (if spec.readAngle n ≠ 127 then (spec.readAngle n : ℚ) * (3 / 2) else 0) =
        d.SteeringWheelAngle ∧
        decide (spec.readAngle n ≠ 127) = d.IsSteeringWheelAngleValid) ↔
      d.SteeringWheelAngle = 0 := by
  cases hvalid : d.IsSteeringWheelAngleValid with
  | false =>
    have hread : spec.readAngle 127 = 127 := by cases spec <;> rfl
    have hencode : encodeAngle d = some 127 := by simp [encodeAngle, hvalid]
    simp [hencode, hread, eq_comm (a := (0 : ℚ))]
  | true =>
    obtain ⟨k, hk, -⟩ := h.angle hvalid
    have hscaled : d.SteeringWheelAngle * 80 = (120 * k : ℤ) := by
      rw [hk]
      push_cast
      ring
    rw [encodeAngle, if_pos hvalid, toInt8, hscaled, convert_intCast]
    constructor
    · rintro ⟨n, hn, hvalue, hne⟩
      split_ifs at hn with hrange
      obtain rfl := Option.some.inj hn
      rw [decide_eq_true_eq] at hne
      rw [if_pos hne, hk] at hvalue
      have hsame : spec.readAngle (120 * k) = k := by
        have := mul_right_cancel₀ (show (3 / 2 : ℚ) ≠ 0 by norm_num) hvalue
        exact_mod_cast this
      have hzero : k = 0 := by
        cases spec <;> simp only [Spec.readAngle] at hsame <;> omega
      rw [hk, hzero]
      norm_num
    · intro hzero
      have hk0 : k = 0 := by
        rw [hzero] at hk
        have := mul_eq_zero.mp hk.symm
        rcases this with h | h
        · exact_mod_cast h
        · norm_num at h
      subst hk0
      refine ⟨0, by norm_num, ?_, ?_⟩ <;> cases spec <;> simp [Spec.readAngle, hzero]

theorem speed_range (h : OnGrid d) {n : ℤ} (hn : encodeSpeed d = some n) : 0 ≤ n ∧ n ≤ 8191 := by
  cases hvalid : d.IsSpeedValid with
  | false =>
    simp only [encodeSpeed, hvalid, Bool.false_eq_true, if_false, Option.some.injEq] at hn
    omega
  | true =>
    obtain ⟨k, hk, hrange⟩ := h.speed hvalid
    rw [encodeSpeed, if_pos hvalid, toInt16, hk, convert_intCast, if_pos (by omega)] at hn
    obtain rfl := Option.some.inj hn
    omega

theorem speed_restored (h : OnGrid d) : ∃ n : ℤ, encodeSpeed d = some n ∧
    ((if n ≠ 8191 then (n : ℚ) / 50 else 0) = d.Speed_mps ∧ decide (n ≠ 8191) = d.IsSpeedValid ↔
      (d.IsSpeedValid = false → d.Speed_mps = 0)) := by
  refine restored_iff (by norm_num) fun hvalid => ?_
  obtain ⟨k, hk, hrange⟩ := h.speed hvalid
  exact ⟨k, hk, by omega, by omega⟩

theorem heading_restored (h : OnGrid d) : ∃ n : ℤ, encodeHeading d = some n ∧
    ((if n ≠ 28800 then (n : ℚ) / 80 else 0) = d.Heading ∧ decide (n ≠ 28800) = d.IsHeadingValid ↔
      (d.IsHeadingValid = false → d.Heading = 0)) := by
  refine restored_iff (by norm_num) fun hvalid => ?_
  obtain ⟨k, hk, hrange⟩ := h.heading hvalid
  exact ⟨k, hk, by omega, by omega⟩

/-- A message on the grid comes back the same, exactly if nothing of it is lost. -/
theorem roundTrip_iff (spec : Spec) {d : DecodedBsmMessage} (h : OnGrid d.toVehicleData) :
    (∃ d', convertBack spec d = some d' ∧ d'.toVehicleData = d.toVehicleData) ↔
      Restored d.toVehicleData := by
  obtain ⟨lat, long, hlat, hlong, hlocation⟩ := location_restored h
  obtain ⟨speed, hspeed, hspeedIff⟩ := speed_restored h
  obtain ⟨heading, hheading, hheadingIff⟩ := heading_restored h
  have helevation := elevation_restored h
  have hangle := angle_restored spec h
  have hspeedRange := speed_range h hspeed
  have hread : ∀ elev angle, Encoded.readBack ⟨lat, long, elev, speed, heading, angle⟩ spec =
      ⟨lat, long, elev, speed, heading, spec.readAngle angle⟩ := by
    intro elev angle
    have hsign : speed % 65536 = speed := by omega
    have hbits : speed % 8192 = speed := by omega
    cases spec <;> simp only [Encoded.readBack, Spec.readAngle, hsign, hbits]
  simp only [convertBack_eq, Option.map_eq_some_iff]
  constructor
  · rintro ⟨d', ⟨e, hencode, rfl⟩, hsame⟩
    obtain ⟨helat, helong, heelev, hespeed, heheading, heangle⟩ := encode_eq_some_iff.mp hencode
    obtain ⟨_, _, elev, _, _, angle⟩ := e
    obtain rfl := Option.some.inj (hlat.symm.trans helat)
    obtain rfl := Option.some.inj (hlong.symm.trans helong)
    obtain rfl := Option.some.inj (hspeed.symm.trans hespeed)
    obtain rfl := Option.some.inj (hheading.symm.trans heheading)
    rw [hread, setFields_new] at hsame
    have hfields := VehicleData.ext_iff.mp hsame
    simp only at hfields
    obtain ⟨-, hlatitude, hlongitude, helev, hspeed', hheading', hangle', hvalid, helevValid,
      hspeedValid, hheadingValid, hangleValid⟩ := hfields
    exact {
      location := hlocation.mp ⟨hlatitude, hlongitude, hvalid⟩
      elevation := (helevation.mp ⟨elev, heelev, helev, helevValid⟩).1
      elevationValid := (helevation.mp ⟨elev, heelev, helev, helevValid⟩).2
      speed := hspeedIff.mp ⟨hspeed', hspeedValid⟩
      heading := hheadingIff.mp ⟨hheading', hheadingValid⟩
      angle := hangle.mp ⟨angle, heangle, hangle', hangleValid⟩ }
  · intro hrestored
    obtain ⟨hlatitude, hlongitude, hvalid⟩ := hlocation.mpr hrestored.location
    obtain ⟨elev, heelev, helev, helevValid⟩ :=
      helevation.mpr ⟨hrestored.elevation, hrestored.elevationValid⟩
    obtain ⟨hspeed', hspeedValid⟩ := hspeedIff.mpr hrestored.speed
    obtain ⟨hheading', hheadingValid⟩ := hheadingIff.mpr hrestored.heading
    obtain ⟨angle, heangle, hangle', hangleValid⟩ := hangle.mpr hrestored.angle
    refine ⟨_, ⟨⟨lat, long, elev, speed, heading, angle⟩,
      encode_eq_some_iff.mpr ⟨hlat, hlong, heelev, hspeed, hheading, heangle⟩, rfl⟩, ?_⟩
    rw [hread, setFields_new]
    exact VehicleData.ext rfl hlatitude hlongitude helev hspeed' hheading' hangle' hvalid
      helevValid hspeedValid hheadingValid hangleValid

end RoundTrip

section Clamps

/-- Outside of the range, in units of the field, what is encoded is one of the values that may stand
for it. -/
def Clamped (encoded : Option ℤ) (value : ℚ) (low high : ℤ) (atLow atHigh : List ℤ) : Prop :=
  (value < low → ∃ n ∈ atLow, encoded = some n) ∧ (high < value → ∃ n ∈ atHigh, encoded = some n)

/-- A field from 0, with the unavailable value right above its range. -/
theorem clamped_iff {lo hi high : ℤ} (value : ℚ) (hlo : lo ≤ 0) (hhigh : 0 ≤ high)
    (hhi : high + 1 ≤ hi) :
    Clamped (convert lo hi value) value 0 high [0, high + 1] [high, high + 1] ↔
      -1 < value ∧ value < high + 2 := by
  have hhigh' : (0 : ℚ) ≤ high := by exact_mod_cast hhigh
  constructor
  · rintro ⟨hbelow, habove⟩
    constructor
    · by_contra hle
      have hneg : value < 0 := by linarith [not_lt.mp hle]
      obtain ⟨n, hn, hconvert⟩ := hbelow (by exact_mod_cast hneg)
      obtain ⟨-, hlt, hle'⟩ := (convert_of_neg hneg).mp hconvert
      have hpos : (0 : ℚ) ≤ n := by
        rcases List.mem_pair.mp hn with rfl | rfl
        · norm_num
        · push_cast
          linarith
      linarith [not_lt.mp hle]
    · by_contra hle
      have hge : (high : ℚ) + 2 ≤ value := not_lt.mp hle
      obtain ⟨n, hn, hconvert⟩ := habove (by linarith)
      obtain ⟨-, -, hlt⟩ := (convert_of_nonneg (by linarith)).mp hconvert
      have hle' : (n : ℚ) ≤ high + 1 := by
        rcases List.mem_pair.mp hn with rfl | rfl
        · linarith
        · push_cast
          linarith
      linarith
  · rintro ⟨hbelow, habove⟩
    constructor
    · intro hneg
      have hneg' : value < 0 := by exact_mod_cast hneg
      refine ⟨0, by simp, (convert_of_neg hneg').mpr ⟨by omega, ?_, ?_⟩⟩
      · push_cast
        linarith
      · push_cast
        linarith
    · intro hlt
      by_cases hnext : value < high + 1
      · exact ⟨high, by simp, (convert_of_nonneg (by linarith)).mpr ⟨by omega, hlt.le, hnext⟩⟩
      · refine ⟨high + 1, by simp, (convert_of_nonneg (by linarith)).mpr ⟨by omega, ?_, ?_⟩⟩
        · push_cast
          exact not_lt.mp hnext
        · push_cast
          linarith

/-- The lowest elevation also stands for an unknown one; the schema goes on to -4096. -/
theorem toInt16_clamped_iff {value : ℚ} :
    Clamped (toInt16 value) value (-4095) 61439 [-4095, -4096] [61439, -4095, -4096] ↔
      -4097 < value ∧ value ≤ 61439 := by
  constructor
  · rintro ⟨hbelow, habove⟩
    constructor
    · by_contra hle
      have hlow : value < (-4095 : ℤ) := by
        push_cast
        linarith [not_lt.mp hle]
      obtain ⟨n, hn, hconvert⟩ := hbelow hlow
      obtain ⟨-, hlt, -⟩ := (convert_of_neg (by linarith [not_lt.mp hle])).mp hconvert
      rcases List.mem_pair.mp hn with rfl | rfl
      all_goals
        push_cast at hlt
        linarith [not_lt.mp hle]
    · by_contra hle
      have hhigh : (61439 : ℤ) < value := by
        push_cast
        exact not_le.mp hle
      obtain ⟨n, -, hconvert⟩ := habove hhigh
      obtain ⟨⟨-, hrange⟩, -, hlt⟩ :=
        (convert_of_nonneg (by linarith [not_le.mp hle])).mp hconvert
      have hrange' : (n : ℚ) ≤ 32767 := by exact_mod_cast hrange
      linarith [not_le.mp hle]
  · rintro ⟨hlow, hhigh⟩
    constructor
    · intro hbelow
      push_cast at hbelow
      by_cases hnext : -4096 < value
      · refine ⟨-4095, by simp, (convert_of_neg (by linarith)).mpr ⟨by omega, ?_, ?_⟩⟩
        · push_cast
          linarith
        · push_cast
          linarith
      · refine ⟨-4096, by simp, (convert_of_neg (by linarith)).mpr ⟨by omega, ?_, ?_⟩⟩
        · push_cast
          linarith
        · push_cast
          linarith [not_lt.mp hnext]
    · intro habove
      push_cast at habove
      exact absurd hhigh (not_le.mpr habove)

/-- No angle outside of the range fits into the byte. -/
theorem toInt8_clamped_iff {angle : ℚ} :
    Clamped (toInt8 (angle * 80)) (angle * (2 / 3)) (-126) 126 [-126, 127] [126, 127] ↔
      -126 ≤ angle * (2 / 3) ∧ angle * (2 / 3) ≤ 126 := by
  constructor
  · rintro ⟨hbelow, habove⟩
    constructor
    · by_contra hlt
      obtain ⟨n, -, hconvert⟩ := hbelow (by exact_mod_cast not_le.mp hlt)
      obtain ⟨⟨hrange, -⟩, -, hle⟩ :=
        (convert_of_neg (by linarith [not_le.mp hlt])).mp hconvert
      have hrange' : (-128 : ℚ) ≤ n := by exact_mod_cast hrange
      obtain ⟨-, hstep, -⟩ := (convert_of_neg (by linarith [not_le.mp hlt])).mp hconvert
      linarith [not_le.mp hlt]
    · by_contra hlt
      obtain ⟨n, -, hconvert⟩ := habove (by exact_mod_cast not_le.mp hlt)
      obtain ⟨⟨-, hrange⟩, -, hstep⟩ :=
        (convert_of_nonneg (by linarith [not_le.mp hlt])).mp hconvert
      have hrange' : (n : ℚ) ≤ 127 := by exact_mod_cast hrange
      linarith [not_le.mp hlt]
  · rintro ⟨hlow, hhigh⟩
    refine ⟨fun hbelow => absurd hlow (not_le.mpr (by exact_mod_cast hbelow)),
      fun habove => absurd hhigh (not_le.mpr (by exact_mod_cast habove))⟩

end Clamps

/-- What the conversion is for: a message on the grid comes back, and out of range each field has the
nearest end of its range or the unavailable value. -/
structure Meets (spec : Spec) (d : DecodedBsmMessage) : Prop where
  roundTrip : OnGrid d.toVehicleData →
    ∃ d', convertBack spec d = some d' ∧ d'.toVehicleData = d.toVehicleData
  elevation : d.IsElevationValid = true → Clamped (encodeElevation d.toVehicleData)
    (d.Elevation_m * 10) (-4095) 61439 [-4095, -4096] [61439, -4095, -4096]
  speed : d.IsSpeedValid = true → Clamped (encodeSpeed d.toVehicleData)
    (d.Speed_mps * 50) 0 8190 [0, 8191] [8190, 8191]
  heading : d.IsHeadingValid = true → Clamped (encodeHeading d.toVehicleData)
    (d.Heading * 80) 0 28799 [0, 28800] [28799, 28800]
  angle : d.IsSteeringWheelAngleValid = true → Clamped (encodeAngle d.toVehicleData)
    (d.SteeringWheelAngle * (2 / 3)) (-126) 126 [-126, 127] [126, 127]

/-- The messages for which it does that. -/
structure Convertible (d : VehicleData) : Prop where
  restored : OnGrid d → Restored d
  elevation : d.IsElevationValid = true → -4097 < d.Elevation_m * 10 ∧ d.Elevation_m * 10 ≤ 61439
  speed : d.IsSpeedValid = true → -1 < d.Speed_mps * 50 ∧ d.Speed_mps * 50 < 8192
  heading : d.IsHeadingValid = true → -1 < d.Heading * 80 ∧ d.Heading * 80 < 28801
  angle : d.IsSteeringWheelAngleValid = true →
    -126 ≤ d.SteeringWheelAngle * (2 / 3) ∧ d.SteeringWheelAngle * (2 / 3) ≤ 126

theorem elevation_clamped_iff {d : VehicleData} (hvalid : d.IsElevationValid = true) :
    Clamped (encodeElevation d) (d.Elevation_m * 10) (-4095) 61439 [-4095, -4096]
        [61439, -4095, -4096] ↔
      -4097 < d.Elevation_m * 10 ∧ d.Elevation_m * 10 ≤ 61439 := by
  rw [encodeElevation, if_pos hvalid]
  exact toInt16_clamped_iff

theorem speed_clamped_iff {d : VehicleData} (hvalid : d.IsSpeedValid = true) :
    Clamped (encodeSpeed d) (d.Speed_mps * 50) 0 8190 [0, 8191] [8190, 8191] ↔
      -1 < d.Speed_mps * 50 ∧ d.Speed_mps * 50 < 8192 := by
  have hlo : (-32768 : ℤ) ≤ 0 := by norm_num
  have hhi : (8190 + 1 : ℤ) ≤ 32767 := by norm_num
  have h := clamped_iff (d.Speed_mps * 50) hlo (by norm_num) hhi
  rw [encodeSpeed, if_pos hvalid]
  norm_num at h
  exact h

theorem heading_clamped_iff {d : VehicleData} (hvalid : d.IsHeadingValid = true) :
    Clamped (encodeHeading d) (d.Heading * 80) 0 28799 [0, 28800] [28799, 28800] ↔
      -1 < d.Heading * 80 ∧ d.Heading * 80 < 28801 := by
  have hlo : (0 : ℤ) ≤ 0 := by norm_num
  have hhi : (28799 + 1 : ℤ) ≤ 65535 := by norm_num
  have h := clamped_iff (d.Heading * 80) hlo (by norm_num) hhi
  rw [encodeHeading, if_pos hvalid]
  norm_num at h
  exact h

theorem angle_clamped_iff {d : VehicleData} (hvalid : d.IsSteeringWheelAngleValid = true) :
    Clamped (encodeAngle d) (d.SteeringWheelAngle * (2 / 3)) (-126) 126 [-126, 127] [126, 127] ↔
      -126 ≤ d.SteeringWheelAngle * (2 / 3) ∧ d.SteeringWheelAngle * (2 / 3) ≤ 126 := by
  rw [encodeAngle, if_pos hvalid]
  exact toInt8_clamped_iff

/-- The conversion does what it is for exactly on these messages, in both revisions. -/
theorem meets_iff (spec : Spec) (d : DecodedBsmMessage) :
    Meets spec d ↔ Convertible d.toVehicleData := by
  constructor
  · intro h
    exact {
      restored := fun hgrid => (roundTrip_iff spec hgrid).mp (h.roundTrip hgrid)
      elevation := fun hvalid => (elevation_clamped_iff hvalid).mp (h.elevation hvalid)
      speed := fun hvalid => (speed_clamped_iff hvalid).mp (h.speed hvalid)
      heading := fun hvalid => (heading_clamped_iff hvalid).mp (h.heading hvalid)
      angle := fun hvalid => (angle_clamped_iff hvalid).mp (h.angle hvalid) }
  · intro h
    exact {
      roundTrip := fun hgrid => (roundTrip_iff spec hgrid).mpr (h.restored hgrid)
      elevation := fun hvalid => (elevation_clamped_iff hvalid).mpr (h.elevation hvalid)
      speed := fun hvalid => (speed_clamped_iff hvalid).mpr (h.speed hvalid)
      heading := fun hvalid => (heading_clamped_iff hvalid).mpr (h.heading hvalid)
      angle := fun hvalid => (angle_clamped_iff hvalid).mpr (h.angle hvalid) }

section Sample

/-- A steering wheel turned by one step. -/
def sampleAngle : DecodedBsmMessage :=
  { DecodedBsmMessage.new with SteeringWheelAngle := 3 / 2, IsSteeringWheelAngleValid := true }

/-- An elevation inside of the range that does not fit into 16 bits. -/
def sampleElevation : DecodedBsmMessage :=
  { DecodedBsmMessage.new with Elevation_m := 4000, IsElevationValid := true }

theorem sampleAngle_onGrid : OnGrid sampleAngle.toVehicleData where
  location := nofun
  elevation := nofun
  speed := nofun
  heading := nofun
  angle := fun _ => ⟨1, by norm_num [sampleAngle], by norm_num⟩

/-- One and a half degrees come back as 180, and 4000 metres not at all. -/
theorem sample_not_restored :
    (convertBack .r63 sampleAngle).map (fun d => d.SteeringWheelAngle) = some 180 ∧
      convertBack .r63 sampleElevation = none ∧
      ¬ ∀ (spec : Spec) (d : DecodedBsmMessage), Meets spec d := by
  have hangle : (convertBack .r63 sampleAngle).map (fun d => d.SteeringWheelAngle) = some 180 := by
    decide +kernel
  refine ⟨hangle, by decide +kernel, fun hall => ?_⟩
  obtain ⟨d', hback, hsame⟩ := (hall .r63 sampleAngle).roundTrip sampleAngle_onGrid
  rw [hback, Option.map_some, Option.some_inj] at hangle
  have hvalue : d'.SteeringWheelAngle = 3 / 2 := congrArg VehicleData.SteeringWheelAngle hsame
  rw [hvalue] at hangle
  norm_num at hangle

end Sample

end V2IHub.Utils.BsmConverter
