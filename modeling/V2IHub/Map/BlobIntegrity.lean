import V2IHub.Map.BlobLimits

/-! The check sum of a MAP blob, and what `blob_initialize` makes of a blob that `map_encode`
wrote. -/
namespace V2IHub.Map
open V2IHub.Foundation

/-- The polynomial without its leading bit. -/
def ccittPoly : BitVec 16 := 0x1021

/-- `initialize_crc_table` -/
def initializeCrcTable : Vector (BitVec 16) 256 := Vector.ofFn fun i => crcTable (BitVec.ofNat 16 i)

/-- The statics of the check sum, at the start of the program or later. -/
structure CrcStatics where
  crc_table_initialized : Bool
  crc_table : Vector (BitVec 16) 256
  filled : crc_table_initialized = true → crc_table = initializeCrcTable

namespace CrcStatics

/-- What the loader leaves. -/
def start : CrcStatics := ⟨false, Vector.replicate 256 0, fun h => by cases h⟩

/-- `if (!crc_table_initialized) initialize_crc_table();` -/
def ready (statics : CrcStatics) : CrcStatics :=
  if statics.crc_table_initialized then statics else ⟨true, initializeCrcTable, fun _ => rfl⟩

def crcUpdate (statics : CrcStatics) (crc : BitVec 16) (c : UInt8) : BitVec 16 × CrcStatics :=
  let short_c := 0x00ff &&& c.toBitVec.setWidth 16
  let statics := statics.ready
  let tmp := crc >>> 8 ^^^ short_c
  (crc <<< 8 ^^^ statics.crc_table.toList.getD tmp.toNat 0, statics)

/-- The loop of `crc_ccitt`. -/
def crcLoop (statics : CrcStatics) (crc : BitVec 16) : Bytes → BitVec 16 × CrcStatics
  | [] => (crc, statics)
  | c :: rest =>
    let (crc, statics) := statics.crcUpdate crc c
    statics.crcLoop crc rest

def crcCcitt (statics : CrcStatics) (blob : Bytes) : BitVec 16 × CrcStatics :=
  statics.crcLoop 0 blob

end CrcStatics

/-- `bblob` -/
structure Blob where
  messageid : UInt8
  version : UInt8
  pblob : Option Bytes
  size : ℕ
deriving DecidableEq

/-- `blob_initialize` of the bytes from `pblob` on; `none` is a read past them. -/
def blobInitialize (pblob : Bytes) : Option Blob :=
  match pblob with
  | [] => none
  | messageid :: rest =>
    if messageid = 0 then some ⟨0, 0, none, 0⟩
    else
      match rest with
      | version :: high :: low :: _ =>
        let size := high.toNat * 0x100 + low.toNat + 6
        if pblob.length < size then none
        else if crcCcitt (pblob.take size) ≠ 0 then some ⟨0, 0, some pblob, size⟩
        else some ⟨messageid, version, some pblob, size⟩
      | _ => none

section Crc

/-- A pass over `crc` and `c` shifts their sum. -/
theorem crcTableStep_iterate (n : ℕ) (crc c : BitVec 16) :
    (crcTableStep^[n] (crc, c)).1 ^^^ (crcTableStep^[n] (crc, c)).2 =
        crcShifts ccittPoly n (crc ^^^ c) ∧
      (crcTableStep^[n] (crc, c)).2 = c <<< n := by
  induction n with
  | zero => exact ⟨rfl, by simp⟩
  | succ n ih =>
    obtain ⟨hsum, hshift⟩ := ih
    simp only [Function.iterate_succ_apply', crcShifts, ← hsum, crcShift]
    generalize crcTableStep^[n] (crc, c) = s at *
    refine ⟨?_, ?_⟩
    · simp only [crcTableStep, BitVec.shiftLeft_xor_distrib]
      cases (s.1 ^^^ s.2).msb
      · simp
      · simp only [if_true, ccittPoly]
        ac_rfl
    · simp only [crcTableStep, hshift, BitVec.shiftLeft_add]

theorem crcTable_eq (byte : BitVec 8) :
    crcTable (byte.setWidth 16) = crcShifts ccittPoly 8 (topByte 16 byte) := by
  obtain ⟨hsum, hshift⟩ := crcTableStep_iterate 8 0 (byte.setWidth 16 <<< 8)
  have hgone : byte.setWidth 16 <<< 8 <<< 8 = (0 : BitVec 16) := by
    rw [← BitVec.shiftLeft_add]
    exact BitVec.shiftLeft_eq_zero (by decide)
  rw [hshift, hgone, BitVec.ofNat_eq_ofNat, BitVec.xor_zero, BitVec.zero_xor] at hsum
  exact hsum

theorem crcUpdate_eq (crc : BitVec 16) (c : UInt8) :
    crcUpdate crc c = crcByte ccittPoly crc c := by
  have hindex : crc >>> 8 ^^^ c.toBitVec.setWidth 16 =
      ((crc >>> (16 - 8)).setWidth 8 ^^^ c.toBitVec).setWidth 16 := by
    apply BitVec.eq_of_getLsbD_eq
    intro i hi
    by_cases h : i < 8
    · simp [h, hi]
    · have hhigh : ¬ 8 + i < 16 := by omega
      simp [h, hi, BitVec.getLsbD_of_ge crc (8 + i) (by omega)]
  rw [crcByte_eq (by decide), crcUpdate, hindex, crcTable_eq]

theorem crcCcitt_eq (blob : Bytes) : crcCcitt blob = crcOf ccittPoly blob := by
  have hstep : crcUpdate = crcByte ccittPoly := by
    funext crc c
    exact crcUpdate_eq crc c
  rw [crcCcitt, hstep, crcOf]

namespace CrcStatics

theorem ready_table (statics : CrcStatics) : statics.ready.crc_table = initializeCrcTable := by
  unfold ready
  split_ifs with h
  · exact statics.filled h
  · rfl

theorem crcUpdate_fst (statics : CrcStatics) (crc : BitVec 16) (c : UInt8) :
    (statics.crcUpdate crc c).1 = Map.crcUpdate crc c := by
  have hbyte : 0x00ff &&& c.toBitVec.setWidth 16 = c.toBitVec.setWidth 16 := by
    apply BitVec.eq_of_toNat_eq
    have hc := c.toNat_lt
    rw [BitVec.and_comm, BitVec.toNat_and, BitVec.toNat_setWidth]
    exact (Nat.and_two_pow_sub_one_eq_mod _ 8).trans (by simp)
  have hlt : (crc >>> 8 ^^^ c.toBitVec.setWidth 16).toNat < 256 := by
    have hcrc := crc.isLt
    have hc := c.toNat_lt
    rw [BitVec.toNat_xor]
    apply Nat.xor_lt_two_pow (n := 8)
    · rw [BitVec.toNat_ushiftRight, Nat.shiftRight_eq_div_pow]
      omega
    · simp
      omega
  have hentry : initializeCrcTable.toList.getD (crc >>> 8 ^^^ c.toBitVec.setWidth 16).toNat 0 =
      crcTable (crc >>> 8 ^^^ c.toBitVec.setWidth 16) := by
    rw [List.getD_eq_getElem?_getD, Vector.getElem?_toList, initializeCrcTable,
      Vector.getElem?_ofFn, dif_pos hlt, Option.getD_some, BitVec.ofNat_toNat,
      BitVec.setWidth_eq]
  simp only [crcUpdate, Map.crcUpdate, hbyte, ready_table, hentry]

theorem crcCcitt_fst (statics : CrcStatics) (blob : Bytes) :
    (statics.crcCcitt blob).1 = Map.crcCcitt blob := by
  unfold crcCcitt Map.crcCcitt
  generalize (0 : BitVec 16) = crc
  induction blob generalizing statics crc with
  | nil => rfl
  | cons c rest ih =>
    rw [crcLoop, List.foldl_cons, ← crcUpdate_fst statics]
    exact ih _ _

end CrcStatics

/-- The check sum behind the bytes, the high byte first, takes the remainder to zero. -/
theorem crcCcitt_append_self (blob : Bytes) :
    crcCcitt (blob ++ wordBytes (crcCcitt blob).toNat) = 0 := by
  have hcrc := crcCcitt_eq blob
  have hlt := (crcCcitt blob).isLt
  have hhigh : lowByte ((crcCcitt blob).toNat / 256 : ℤ) =
      .ofBitVec ((crcCcitt blob >>> (16 - 8)).setWidth 8) := by
    apply UInt8.toNat_inj.mp
    have hbyte := lowByte_toNat ((crcCcitt blob).toNat / 256 : ℤ)
    simp only [UInt8.toNat_ofBitVec, BitVec.toNat_setWidth, BitVec.toNat_ushiftRight,
      Nat.shiftRight_eq_div_pow]
    omega
  have hlow : lowByte (crcCcitt blob).toNat =
      .ofBitVec ((crcCcitt blob <<< 8 >>> (16 - 8)).setWidth 8) := by
    apply UInt8.toNat_inj.mp
    have hbyte := lowByte_toNat (crcCcitt blob).toNat
    simp only [UInt8.toNat_ofBitVec, BitVec.toNat_setWidth, BitVec.toNat_ushiftRight,
      BitVec.toNat_shiftLeft, Nat.shiftRight_eq_div_pow, Nat.shiftLeft_eq]
    omega
  rw [crcCcitt_eq (blob ++ _), crcOf_append, ← hcrc, wordBytes, hhigh, hlow, List.foldl_cons,
    List.foldl_cons, List.foldl_nil, crcByte_topByte (by decide), crcByte_topByte (by decide),
    ← BitVec.shiftLeft_add]
  exact BitVec.shiftLeft_eq_zero (by decide)

end Crc

section Encoded
variable {message message' : MapMessage} {content_version : UInt8} {r : ℕ}

theorem blobInitialize_encodedBlob (hlen : (encodedBlob message content_version).length ≤ 1024) :
    blobInitialize (encodedBlob message content_version) =
      some ⟨0x87, content_version, some (encodedBlob message content_version),
        (encodedBlob message content_version).length⟩ := by
  have hcrc : crcCcitt (encodedBlob message content_version) = 0 := crcCcitt_append_self _
  have hsize : (encodedBlob message content_version).length =
      (encodeFields message ++ [255]).length + 6 := by
    simp only [encodedBlob, List.length_append, List.length_cons, List.length_nil,
      wordBytes_length]
    omega
  generalize hfields : encodeFields message ++ [255] = fields at hsize
  have hblob : ∃ rest, encodedBlob message content_version =
      0x87 :: content_version :: lowByte (fields.length / 256 : ℤ) :: lowByte fields.length ::
        rest := by
    simp only [encodedBlob, hfields]
    exact ⟨_, rfl⟩
  obtain ⟨rest, hblob⟩ := hblob
  have hhigh := lowByte_toNat (fields.length / 256 : ℤ)
  have hlow := lowByte_toNat (fields.length : ℤ)
  have hjoined : (lowByte (fields.length / 256 : ℤ)).toNat * 0x100 +
      (lowByte (fields.length : ℤ)).toNat + 6 = (encodedBlob message content_version).length := by
    omega
  have hwhole : blobInitialize (encodedBlob message content_version) =
      if crcCcitt ((encodedBlob message content_version).take
          (encodedBlob message content_version).length) ≠ 0 then
        some ⟨0, 0, some (encodedBlob message content_version),
          (encodedBlob message content_version).length⟩
      else some ⟨0x87, content_version, some (encodedBlob message content_version),
        (encodedBlob message content_version).length⟩ := by
    rw [← hjoined, hblob]
    simp only [blobInitialize]
    rw [if_neg (by decide), if_neg (by rw [hjoined, hblob]; exact lt_irrefl _)]
  rw [hwhole, List.take_length, hcrc, if_neg (not_not.mpr rfl)]

/-- The check sum is the remainder of the bits by the polynomial, whenever the table is made, and
two more bytes take it to zero; so `blob_initialize` accepts what `map_encode` wrote, with its own
number, the version given and its whole size. -/
theorem blobInitialize_mapEncode (statics : CrcStatics) (bytes : Bytes)
    (h : mapEncode message content_version = some (r, message')) :
    (statics.crcCcitt bytes).1 = crcOf 0x1021 bytes ∧
      (statics.crcCcitt (bytes ++ wordBytes (statics.crcCcitt bytes).1.toNat)).1 = 0 ∧
      ∃ blob, message'.payload = some blob ∧
        blobInitialize blob = some ⟨0x87, content_version, some blob, blob.length⟩ := by
  simp only [CrcStatics.crcCcitt_fst]
  refine ⟨crcCcitt_eq bytes, crcCcitt_append_self bytes, encodedBlob message content_version, ?_⟩
  simp only [mapEncode] at h
  split_ifs at h with hlen
  obtain ⟨-, rfl⟩ := Prod.mk.inj (Option.some.inj h)
  exact ⟨rfl, blobInitialize_encodedBlob hlen⟩

end Encoded

theorem blobInitialize_mapEncode_free :
    (encodedBlob freeMessage 1).length = 16 ∧
      (CrcStatics.start.crcCcitt (cstr "MAP")).1 = crcOf 0x1021 (cstr "MAP") ∧
      blobInitialize (encodedBlob freeMessage 1) =
        some ⟨0x87, 1, some (encodedBlob freeMessage 1), 16⟩ := by
  have hlen : (encodedBlob freeMessage 1).length = 16 := by decide +kernel
  have hencode : mapEncode freeMessage 1 =
      some (1, { freeMessage with payload := some (encodedBlob freeMessage 1) }) := by
    rw [mapEncode, if_pos (by rw [hlen]; decide)]
  obtain ⟨hcrc, -, blob, hpayload, hblob⟩ :=
    blobInitialize_mapEncode CrcStatics.start (cstr "MAP") hencode
  cases hpayload
  rw [hlen] at hblob
  exact ⟨hlen, hcrc, hblob⟩

end V2IHub.Map
