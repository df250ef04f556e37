import V2IHub.Framing.MsgFramer
import V2IHub.Json.Fields

/-! The routed message: its header fields, its JSON text and the parser of that text. -/
namespace V2IHub.Api
open Foundation Json

structure IvpDsrcMetadata where
  channel : BitVec 32
  psid : BitVec 32
deriving DecidableEq

/-- A pointer that may be `NULL` is an `Option`. -/
structure IvpMessage where
  type : Option Bytes
  subtype : Option Bytes
  source : Option Bytes
  sourceId : BitVec 32
  encoding : Option Bytes
  timestamp : BitVec 64
  flags : BitVec 32
  dsrcMetadata : Option IvpDsrcMetadata
  payload : Option CJson

def IVPMSG_FIELD_HEADER : Bytes := cstr "header"
def IVPMSG_FIELD_PAYLOAD : Bytes := cstr "payload"
def IVPMSG_HFIELD_TYPE : Bytes := cstr "type"
def IVPMSG_HFIELD_SUBTYPE : Bytes := cstr "subtype"
def IVPMSG_HFIELD_SOURCE : Bytes := cstr "source"
def IVPMSG_HFIELD_SOURCEID : Bytes := cstr "sourceId"
def IVPMSG_HFIELD_ENCODING : Bytes := cstr "encoding"
def IVPMSG_HFIELD_FLAGS : Bytes := cstr "flags"
def IVPMSG_HFIELD_DSRCMETADATA : Bytes := cstr "dsrcMetadata"
def IVPMSG_HFIELD_DSRCMETADATA_CHANNEL : Bytes := cstr "channel"
def IVPMSG_HFIELD_DSRCMETADATA_PSID : Bytes := cstr "psid"
def IVPMSG_HFIELD_TIMESTAMP : Bytes := cstr "timestamp"

namespace IvpMessage

/-- `ivpMsg_create`; `now` is the time in milliseconds that `ivpMsg_refreshTimestamp` reads. -/
def create (now : BitVec 64) (type subtype encoding : Option Bytes) (flags : BitVec 32)
    (payload : Option CJson) : IvpMessage where
  type := type
  subtype := subtype
  source := none
  sourceId := 0
  encoding := encoding
  timestamp := now
  flags := flags
  dsrcMetadata := none
  payload := payload

def addDsrcMetadata (msg : IvpMessage) (channel psid : BitVec 32) : IvpMessage :=
  { msg with dsrcMetadata := some ⟨channel, psid⟩ }

/-- `ivpMsg_parse`; `fresh` is what `malloc` leaves in the metadata before it is filled. -/
def parse (fresh : IvpDsrcMetadata) (jsonmsg : Bytes) : Option IvpMessage :=
  match CJson.parse jsonmsg with
  | none => none
  | some root =>
    match root.getObjectItem IVPMSG_FIELD_HEADER with
    | none => none
    | some header => some {
        type := header.tryGetStr IVPMSG_HFIELD_TYPE
        subtype := header.tryGetStr IVPMSG_HFIELD_SUBTYPE
        source := header.tryGetStr IVPMSG_HFIELD_SOURCE
        sourceId := header.tryGetUnsignedInt IVPMSG_HFIELD_SOURCEID 0
        encoding := header.tryGetStr IVPMSG_HFIELD_ENCODING
        timestamp := header.tryGetInt64 IVPMSG_HFIELD_TIMESTAMP 0
        flags := header.tryGetUnsignedInt IVPMSG_HFIELD_FLAGS 0
        dsrcMetadata := (header.getObjectItem IVPMSG_HFIELD_DSRCMETADATA).map fun dsrcMetadata =>
          { channel := dsrcMetadata.tryGetInt IVPMSG_HFIELD_DSRCMETADATA_CHANNEL fresh.channel
            psid := dsrcMetadata.tryGetInt IVPMSG_HFIELD_DSRCMETADATA_PSID fresh.psid }
        payload := root.getObjectItem IVPMSG_FIELD_PAYLOAD }

end IvpMessage

/-- The conversion of an `unsigned int` or `uint64_t` argument to the `double` parameter of
`cJSON_CreateNumber`. -/
def unsignedDouble {w : ℕ} (x : BitVec w) : ℚ := Binary64.round x.toNat

def signedDouble {w : ℕ} (x : BitVec w) : ℚ := Binary64.round x.toInt

inductive IvpMsgFormatOptions where
  | none
  | formatted
deriving DecidableEq

/-- `options & IvpMsg_FormatOptions_formatted` -/
def IvpMsgFormatOptions.isFormatted : IvpMsgFormatOptions → Bool
  | none => false
  | formatted => true

namespace IvpDsrcMetadata

def toJson (d : IvpDsrcMetadata) : CJson :=
  let dsrcMetadata := CJson.object []
  let dsrcMetadata := dsrcMetadata.addItemToObject IVPMSG_HFIELD_DSRCMETADATA_CHANNEL
    (CJson.createNumber (signedDouble d.channel))
  dsrcMetadata.addItemToObject IVPMSG_HFIELD_DSRCMETADATA_PSID
    (CJson.createNumber (signedDouble d.psid))

end IvpDsrcMetadata

namespace IvpMessage

def header (msg : IvpMessage) : CJson :=
  let header := CJson.object []
  let header := header.addOptional IVPMSG_HFIELD_TYPE (msg.type.map CJson.string)
  let header := header.addOptional IVPMSG_HFIELD_SUBTYPE (msg.subtype.map CJson.string)
  let header := header.addOptional IVPMSG_HFIELD_SOURCE (msg.source.map CJson.string)
  let header := header.addOptional IVPMSG_HFIELD_SOURCEID
    (if msg.sourceId ≠ 0 then some (CJson.createNumber (unsignedDouble msg.sourceId)) else none)
  let header := header.addOptional IVPMSG_HFIELD_ENCODING (msg.encoding.map CJson.string)
  let header := header.addItemToObject IVPMSG_HFIELD_TIMESTAMP
    (CJson.createNumber (unsignedDouble msg.timestamp))
  let header := header.addItemToObject IVPMSG_HFIELD_FLAGS
    (CJson.createNumber (unsignedDouble msg.flags))
  header.addOptional IVPMSG_HFIELD_DSRCMETADATA (msg.dsrcMetadata.map IvpDsrcMetadata.toJson)

def toJson (msg : IvpMessage) : CJson :=
  let root := CJson.object []
  let root := root.addItemToObject IVPMSG_FIELD_HEADER msg.header
  root.addOptional IVPMSG_FIELD_PAYLOAD msg.payload

/-- `ivpMsg_createJsonString` -/
def createJsonString (msg : IvpMessage) (options : IvpMsgFormatOptions) : Bytes :=
  msg.toJson.print options.isFormatted

end IvpMessage

section Numbers

theorem reparsed_unsigned {w : ℕ} {x : BitVec w} (hx : x.toNat < 2 ^ 53) :
    (CJson.createNumber (unsignedDouble x)).reparsed = .number x.toNat x.toNat := by
  have h := reparsed_createNumber (z := x.toNat) (by rw [Nat.abs_cast]; exact_mod_cast hx)
  rw [unsignedDouble, Binary64.round_natCast hx]
  exact_mod_cast h

theorem reparsed_signed (x : BitVec 32) :
    (CJson.createNumber (signedDouble x)).reparsed = .number x.toInt x.toInt := by
  have hlow := x.le_toInt
  have hhigh := x.toInt_lt
  have habs : |x.toInt| < 2 ^ 53 := by
    rw [abs_lt]
    norm_num at hlow hhigh ⊢
    constructor <;> omega
  rw [signedDouble, Binary64.round_intCast habs]
  exact reparsed_createNumber habs

/-- The `valueint` of a created number that is not negative. -/
theorem createNumber_unsigned (x : BitVec 32) :
    CJson.createNumber (unsignedDouble x) = .number x.toNat x.toNat := by
  have hx : x.toNat < 2 ^ 53 := x.isLt.trans (by norm_num)
  have hint : Binary64.toInt64 (Binary64.add ((x.toNat : ℤ) : ℚ) (1 / 2)) = x.toNat := by
    rw [createNumber_valueint (by rw [Nat.abs_cast]; omega), if_pos (Int.natCast_nonneg _)]
  rw [Int.cast_natCast] at hint
  rw [unsignedDouble, Binary64.round_natCast hx, CJson.createNumber, hint]

end Numbers

namespace IvpMessage

/-- The header as a table of fields. -/
def headerFields (msg : IvpMessage) : List Field :=
  [(IVPMSG_HFIELD_TYPE, msg.type.map CJson.string),
   (IVPMSG_HFIELD_SUBTYPE, msg.subtype.map CJson.string),
   (IVPMSG_HFIELD_SOURCE, msg.source.map CJson.string),
   (IVPMSG_HFIELD_SOURCEID,
    if msg.sourceId ≠ 0 then some (CJson.createNumber (unsignedDouble msg.sourceId)) else none),
   (IVPMSG_HFIELD_ENCODING, msg.encoding.map CJson.string),
   (IVPMSG_HFIELD_TIMESTAMP, some (CJson.createNumber (unsignedDouble msg.timestamp))),
   (IVPMSG_HFIELD_FLAGS, some (CJson.createNumber (unsignedDouble msg.flags))),
   (IVPMSG_HFIELD_DSRCMETADATA, msg.dsrcMetadata.map IvpDsrcMetadata.toJson)]

theorem header_eq (msg : IvpMessage) : msg.header = ofFields msg.headerFields := by
  have hempty : CJson.object [] = ofFields [] := rfl
  simp only [header, hempty, addOptional_ofFields, addItemToObject_ofFields, List.nil_append,
    List.cons_append, headerFields]

theorem header_distinct (msg : IvpMessage) :
    DistinctNames ((msg.headerFields.map Field.reparsed).map Prod.fst) := by
  simp only [headerFields, List.map_cons, List.map_nil, Field.reparsed]
  decide

/-- What `ivpMsg_parse` finds in the header that was written. -/
theorem header_lookup {msg : IvpMessage} {name : Bytes} {value : Option CJson}
    (h : (name, value) ∈ msg.headerFields) (hname : cstringAt name = name) :
    msg.header.reparsed.getObjectItem name = value.map CJson.reparsed := by
  rw [header_eq]
  exact reparsed_lookup (header_distinct msg) h hname

theorem header_string {msg : IvpMessage} {name : Bytes} {value : Option Bytes}
    (h : (name, value.map CJson.string) ∈ msg.headerFields) (hname : cstringAt name = name) :
    msg.header.reparsed.tryGetStr name = value.map cstringAt := by
  rw [CJson.tryGetStr, CJson.stringField, header_lookup h hname]
  cases value <;> rfl

theorem header_sourceId (msg : IvpMessage) :
    msg.header.reparsed.tryGetUnsignedInt IVPMSG_HFIELD_SOURCEID 0 = msg.sourceId := by
  have hlt : msg.sourceId.toNat < 2 ^ 53 := msg.sourceId.isLt.trans (by norm_num)
  have hmem : (IVPMSG_HFIELD_SOURCEID, if msg.sourceId ≠ 0
      then some (CJson.createNumber (unsignedDouble msg.sourceId)) else none) ∈
        msg.headerFields := by simp [headerFields]
  have hfield := header_lookup hmem (by decide)
  rw [CJson.tryGetUnsignedInt, CJson.tryGetBits, CJson.intField, hfield]
  by_cases h0 : msg.sourceId = 0
  · simp [h0]
  · rw [if_pos h0, Option.map_some, reparsed_unsigned hlt]
    simp

theorem header_flags (msg : IvpMessage) :
    msg.header.reparsed.tryGetUnsignedInt IVPMSG_HFIELD_FLAGS 0 = msg.flags := by
  have hlt : msg.flags.toNat < 2 ^ 53 := msg.flags.isLt.trans (by norm_num)
  have hmem : (IVPMSG_HFIELD_FLAGS, some (CJson.createNumber (unsignedDouble msg.flags))) ∈
      msg.headerFields := by simp [headerFields]
  have hfield := header_lookup hmem (by decide)
  rw [CJson.tryGetUnsignedInt, CJson.tryGetBits, CJson.intField, hfield, Option.map_some,
    reparsed_unsigned hlt]
  simp

theorem header_timestamp {msg : IvpMessage} (hlt : msg.timestamp.toNat < 2 ^ 53) :
    msg.header.reparsed.tryGetInt64 IVPMSG_HFIELD_TIMESTAMP 0 = msg.timestamp := by
  have hmem : (IVPMSG_HFIELD_TIMESTAMP,
      some (CJson.createNumber (unsignedDouble msg.timestamp))) ∈ msg.headerFields := by
    simp [headerFields]
  have hfield := header_lookup hmem (by decide)
  rw [CJson.tryGetInt64, CJson.tryGetBits, CJson.intField, hfield, Option.map_some,
    reparsed_unsigned hlt]
  simp

theorem header_dsrcMetadata (msg : IvpMessage) :
    msg.header.reparsed.getObjectItem IVPMSG_HFIELD_DSRCMETADATA =
      msg.dsrcMetadata.map fun d => d.toJson.reparsed := by
  have hmem : (IVPMSG_HFIELD_DSRCMETADATA, msg.dsrcMetadata.map IvpDsrcMetadata.toJson) ∈
      msg.headerFields := by simp [headerFields]
  rw [header_lookup hmem (by decide)]
  cases msg.dsrcMetadata <;> rfl

end IvpMessage

namespace IvpDsrcMetadata

def fields (d : IvpDsrcMetadata) : List Field :=
  [(IVPMSG_HFIELD_DSRCMETADATA_CHANNEL, some (CJson.createNumber (signedDouble d.channel))),
   (IVPMSG_HFIELD_DSRCMETADATA_PSID, some (CJson.createNumber (signedDouble d.psid)))]

theorem toJson_eq (d : IvpDsrcMetadata) : d.toJson = ofFields d.fields := rfl

theorem toJson_int {d : IvpDsrcMetadata} {name : Bytes} {x out : BitVec 32}
    (h : (name, some (CJson.createNumber (signedDouble x))) ∈ d.fields)
    (hname : cstringAt name = name) : d.toJson.reparsed.tryGetInt name out = x := by
  have hd : DistinctNames ((d.fields.map Field.reparsed).map Prod.fst) := by
    simp only [fields, List.map_cons, List.map_nil, Field.reparsed]
    decide
  rw [CJson.tryGetInt, CJson.tryGetBits, CJson.intField, toJson_eq, reparsed_lookup hd h hname,
    Option.map_some, reparsed_signed]
  simp

end IvpDsrcMetadata

namespace IvpMessage

def rootFields (msg : IvpMessage) : List Field :=
  [(IVPMSG_FIELD_HEADER, some msg.header), (IVPMSG_FIELD_PAYLOAD, msg.payload)]

theorem toJson_eq (msg : IvpMessage) : msg.toJson = ofFields msg.rootFields := by
  have hempty : CJson.object [] = ofFields [] := rfl
  simp only [toJson, hempty, addOptional_ofFields, addItemToObject_ofFields, List.nil_append,
    List.cons_append, rootFields]

theorem root_lookup {msg : IvpMessage} {name : Bytes} {value : Option CJson}
    (h : (name, value) ∈ msg.rootFields) (hname : cstringAt name = name) :
    msg.toJson.reparsed.getObjectItem name = value.map CJson.reparsed := by
  have hd : DistinctNames ((msg.rootFields.map Field.reparsed).map Prod.fst) := by
    simp only [rootFields, List.map_cons, List.map_nil, Field.reparsed]
    decide
  rw [toJson_eq]
  exact reparsed_lookup hd h hname

/-- What a message becomes on the wire: the timestamp is read back from its digits. -/
def received (msg : IvpMessage) : IvpMessage where
  type := msg.type.map cstringAt
  subtype := msg.subtype.map cstringAt
  source := msg.source.map cstringAt
  sourceId := msg.sourceId
  encoding := msg.encoding.map cstringAt
  timestamp := msg.header.reparsed.tryGetInt64 IVPMSG_HFIELD_TIMESTAMP 0
  flags := msg.flags
  dsrcMetadata := msg.dsrcMetadata
  payload := msg.payload.map CJson.reparsed

theorem parse_createJsonString (fresh : IvpDsrcMetadata) (msg : IvpMessage)
    (options : IvpMsgFormatOptions) :
    parse fresh (msg.createJsonString options) = some msg.received := by
  have hheader : msg.toJson.reparsed.getObjectItem IVPMSG_FIELD_HEADER =
      some msg.header.reparsed := by
    have hmem : (IVPMSG_FIELD_HEADER, some msg.header) ∈ msg.rootFields := by simp [rootFields]
    exact root_lookup hmem (by decide)
  have hpayload : msg.toJson.reparsed.getObjectItem IVPMSG_FIELD_PAYLOAD =
      msg.payload.map CJson.reparsed := root_lookup (by simp [rootFields]) (by decide)
  have htype : msg.header.reparsed.tryGetStr IVPMSG_HFIELD_TYPE = msg.type.map cstringAt :=
    header_string (by simp [headerFields]) (by decide)
  have hsubtype : msg.header.reparsed.tryGetStr IVPMSG_HFIELD_SUBTYPE = msg.subtype.map cstringAt :=
    header_string (by simp [headerFields]) (by decide)
  have hsource : msg.header.reparsed.tryGetStr IVPMSG_HFIELD_SOURCE = msg.source.map cstringAt :=
    header_string (by simp [headerFields]) (by decide)
  have hencoding : msg.header.reparsed.tryGetStr IVPMSG_HFIELD_ENCODING = msg.encoding.map cstringAt :=
    header_string (by simp [headerFields]) (by decide)
  have hmeta : ∀ d : IvpDsrcMetadata,
      (⟨d.toJson.reparsed.tryGetInt IVPMSG_HFIELD_DSRCMETADATA_CHANNEL fresh.channel,
        d.toJson.reparsed.tryGetInt IVPMSG_HFIELD_DSRCMETADATA_PSID fresh.psid⟩ :
          IvpDsrcMetadata) = d := by
    intro d
    rw [IvpDsrcMetadata.toJson_int (x := d.channel) (by simp [IvpDsrcMetadata.fields]) (by decide),
      IvpDsrcMetadata.toJson_int (x := d.psid) (by simp [IvpDsrcMetadata.fields]) (by decide)]
  simp only [parse, createJsonString, parse_print, hheader, hpayload, htype, hsubtype, hsource,
    hencoding, header_sourceId, header_flags, header_dsrcMetadata, Option.map_map, received]
  congr 2
  cases msg.dsrcMetadata with
  | none => rfl
  | some d => simp [hmeta]

/-- The strings of a message are C strings. -/
def NulFree (msg : IvpMessage) : Prop :=
  ∀ s ∈ [msg.type, msg.subtype, msg.source, msg.encoding].flatMap Option.toList, 0 ∉ s

/-- `ivpMsg_parse` undoes `ivpMsg_createJsonString`, and the text can be framed. -/
theorem wire_roundTrip (fresh : IvpDsrcMetadata) (msg : IvpMessage) (options : IvpMsgFormatOptions)
    (hstrings : msg.NulFree) (htime : msg.timestamp.toNat < 2 ^ 53)
    (hpayload : ∀ p ∈ msg.payload, ∀ fmt, CJson.parse (p.print fmt) = some p) :
    parse fresh (msg.createJsonString options) = some msg ∧
      Framing.Frameable (msg.createJsonString options) := by
  have hself : ∀ {o : Option Bytes}, o ∈ [msg.type, msg.subtype, msg.source, msg.encoding] →
      o.map cstringAt = o := by
    intro o ho
    cases o with
    | none => rfl
    | some s =>
      have hs : 0 ∉ s := hstrings s (List.mem_flatMap.mpr ⟨some s, ho, by simp⟩)
      rw [Option.map_some, cstringAt_of_not_mem hs]
  have hp : msg.payload.map CJson.reparsed = msg.payload := by
    cases hv : msg.payload with
    | none => rfl
    | some p =>
      have h := hpayload p hv true
      rw [parse_print] at h
      exact h
  constructor
  · rw [parse_createJsonString, received, header_timestamp htime, hp, hself (by simp),
      hself (by simp), hself (by simp), hself (by simp)]
  · have hvisible := print_printable options.isFormatted msg.toJson
    refine ⟨fun h => ?_, fun h => ?_, fun h => ?_⟩ <;>
      exact absurd (hvisible _ h) (by decide)

/-- A broadcast message with every kind of header field but a subtype. -/
def sampleBsm : IvpMessage where
  type := some (cstr "J2735")
  subtype := none
  source := some (cstr "DSRC\t1")
  sourceId := 7
  encoding := some (cstr "asn.1")
  timestamp := 1500000000123
  flags := 1
  dsrcMetadata := some ⟨172, -1⟩
  payload := some (.object [(cstr "data", .array [.string (cstr "00\"14"), .null, .bool true])])

theorem wire_roundTrip_sampleBsm :
    parse ⟨0, 0⟩ (sampleBsm.createJsonString .formatted) = some sampleBsm ∧
      Framing.Frameable (sampleBsm.createJsonString .formatted) := by
  refine wire_roundTrip ⟨0, 0⟩ sampleBsm .formatted ?_ (by decide) ?_
  · unfold NulFree
    decide
  · intro p hp fmt
    obtain rfl : _ = p := Option.some.inj hp
    rw [parse_print]
    rfl

end IvpMessage

end V2IHub.Api
