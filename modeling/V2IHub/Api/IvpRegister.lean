import V2IHub.Api.IvpConfig

/-! Manifests, the message types they declare, and the other requests of a plugin:
subscription, status and event log. -/
namespace V2IHub.Api
open Foundation Json

def IVP_IVPMSGTYPE_FIELD_TYPE : Bytes := cstr "type"
def IVP_IVPMSGTYPE_FIELD_SUBTYPE : Bytes := cstr "subtype"
def IVP_IVPMSGTYPE_FIELD_DESCRIPTION : Bytes := cstr "description"

structure IvpMessageTypeEntry where
  type : Option Bytes
  subtype : Option Bytes
  description : Option Bytes
deriving DecidableEq

namespace IvpMsgType

/-- The loop of `ivpMsgType_validateCollection`. -/
def validateEntries (checked : List CJson) : List CJson → IvpError
  | [] => IVP_ERROR_INITIALIZER
  | item :: items =>
    match item.stringField IVP_IVPMSGTYPE_FIELD_TYPE with
    | none => IvpError.createError .fatal .msgTypeCollectionMissingType 0
    | some type =>
      match item.stringField IVP_IVPMSGTYPE_FIELD_SUBTYPE with
      | none => IvpError.createError .fatal .msgTypeCollectionMissingSubType 0
      | some subtype =>
        if IvpConfig.wrongType item IVP_IVPMSGTYPE_FIELD_DESCRIPTION then
          IvpError.createError .fatal .msgTypeCollectionFormat 0
        else if checked.any fun c => c.stringField IVP_IVPMSGTYPE_FIELD_TYPE = some type &&
            c.stringField IVP_IVPMSGTYPE_FIELD_SUBTYPE = some subtype then
          IvpError.createError .fatal .msgTypeCollectionDuplicate 0
        else validateEntries (checked ++ [item]) items

def validateCollection (collection : Option CJson) : IvpError :=
  match collection with
  | none => IVP_ERROR_INITIALIZER
  | some (.array items) => validateEntries [] items
  | some _ => IvpError.createError .fatal .msgTypeCollectionFormat 0

/-- `ivpMsgType_getEntryCount` and the entries it counts. -/
def getEntries (collection : Option CJson) : Option (List CJson) := IvpConfig.getItems collection

/-- The body of `ivpMsgType_getEntry`. -/
def getEntry (item : CJson) : IvpMessageTypeEntry where
  type := item.stringField IVP_IVPMSGTYPE_FIELD_TYPE
  subtype := item.stringField IVP_IVPMSGTYPE_FIELD_SUBTYPE
  description := item.stringField IVP_IVPMSGTYPE_FIELD_DESCRIPTION

/-- One iteration of the loop of `ivpMsgType_validateCollection` without an error. -/
theorem validateEntries_cons {checked items : List CJson} {item : CJson}
    (h : (validateEntries checked (item :: items)).isNone = true) :
    (getEntry item).type.isSome ∧ (getEntry item).subtype.isSome ∧
      (validateEntries (checked ++ [item]) items).isNone = true := by
  rw [validateEntries] at h
  cases htype : item.stringField IVP_IVPMSGTYPE_FIELD_TYPE with
  | none => simp [htype] at h
  | some type =>
    cases hsubtype : item.stringField IVP_IVPMSGTYPE_FIELD_SUBTYPE with
    | none => simp [htype, hsubtype] at h
    | some subtype =>
      simp only [htype, hsubtype] at h
      split_ifs at h <;> try exact absurd ((IvpError.createError_isNone _ _ _).mp h) (by decide)
      exact ⟨by simp [getEntry, htype], by simp [getEntry, hsubtype], h⟩

theorem validateEntries_fields {checked items : List CJson}
    (h : (validateEntries checked items).isNone = true) :
    ∀ json ∈ items, (getEntry json).type.isSome ∧ (getEntry json).subtype.isSome := by
  induction items generalizing checked with
  | nil => simp
  | cons item items ih =>
    obtain ⟨htype, hsubtype, h⟩ := validateEntries_cons h
    intro json hjson
    rcases List.mem_cons.mp hjson with rfl | hjson
    · exact ⟨htype, hsubtype⟩
    · exact ih h json hjson

theorem validateCollection_getEntries {collection : Option CJson}
    (h : (validateCollection collection).isNone = true) :
    ∃ items, getEntries collection = some items ∧ (validateEntries [] items).isNone = true := by
  cases collection with
  | none => exact ⟨[], rfl, rfl⟩
  | some json =>
    cases json with
    | array items => exact ⟨items, rfl, h⟩
    | _ => simp [validateCollection] at h

end IvpMsgType

structure IvpManifest where
  name : Option Bytes
  description : Option Bytes
  version : Option Bytes
  coreIpAddr : Option Bytes
  corePort : BitVec 32
  configuration : Option CJson
  messageTypes : Option CJson

namespace IvpRegister

def createMsgFromJson (now : BitVec 64) (manifest : CJson) : IvpMessage :=
  IvpMessage.create now (some IVPMSG_TYPE_APIRESV_REGISTER) none (some (cstr "JSON")) 0
    (some manifest)

def isRegistrationMsg (msg : IvpMessage) : Bool := msg.hasType IVPMSG_TYPE_APIRESV_REGISTER

/-- `ivpRegister_getManifestFromJson` -/
def getManifestFromJson (manifest : CJson) : IvpManifest where
  name := manifest.stringField (cstr "name")
  description := manifest.stringField (cstr "description")
  version := manifest.stringField (cstr "version")
  coreIpAddr := manifest.stringField (cstr "coreIpAddr")
  corePort := manifest.tryGetInt (cstr "corePort") 0
  configuration := manifest.getObjectItem (cstr "configuration")
  messageTypes := manifest.getObjectItem (cstr "messageTypes")

/-- `ivpRegister_validateManifest` -/
def validateManifest (manifest : IvpManifest) : IvpError :=
  if manifest.name = none ∨ manifest.name = some [] then
    IvpError.createError .fatal .pluginNoName 0
  else
    let configError := IvpConfig.validate manifest.configuration
    if !configError.isNone then configError
    else
      let messageTypeErr := IvpMsgType.validateCollection manifest.messageTypes
      if !messageTypeErr.isNone then messageTypeErr
      else IVP_ERROR_INITIALIZER

theorem validateManifest_isNone {manifest : IvpManifest}
    (h : (validateManifest manifest).isNone = true) :
    (∃ name, manifest.name = some name ∧ name ≠ []) ∧
      (IvpConfig.validate manifest.configuration).isNone = true ∧
      (IvpMsgType.validateCollection manifest.messageTypes).isNone = true := by
  unfold validateManifest at h
  by_cases hname : manifest.name = none ∨ manifest.name = some []
  · simp [hname] at h
  · rw [if_neg hname] at h
    obtain ⟨name, hn⟩ := Option.ne_none_iff_exists'.mp fun hn => hname (.inl hn)
    refine ⟨⟨name, hn, fun h => hname (.inr (h ▸ hn))⟩, ?_⟩
    cases hconfig : (IvpConfig.validate manifest.configuration).isNone with
    | false => simp [hconfig] at h
    | true =>
      cases htypes : (IvpMsgType.validateCollection manifest.messageTypes).isNone with
      | false => simp [hconfig, htypes] at h
      | true => exact ⟨rfl, rfl⟩

end IvpRegister

namespace IvpSubscribe

def createMsg (now : BitVec 64) (filter : Option CJson) : IvpMessage :=
  IvpMessage.create now (some IVPMSG_TYPE_APIRESV_SUBSCRIBE) none none 0 filter

def isSubscribeMsg (msg : IvpMessage) : Bool := msg.hasType IVPMSG_TYPE_APIRESV_SUBSCRIBE

/-- The entries of the filter; anything but an array counts as empty. -/
def getFilterEntries (msg : IvpMessage) : List CJson :=
  match msg.payload with
  | some (.array items) => items
  | _ => []

/-- `ivpSubscribe_getFilterEntry`: type, subtype and flag mask. -/
def getFilterEntry (entry : CJson) : Option Bytes × Option Bytes × BitVec 32 :=
  (entry.stringField (cstr "type"), entry.stringField (cstr "subtype"),
    entry.tryGetUnsignedInt (cstr "flagmask") 0)

end IvpSubscribe

structure IvpPluginStatusItem where
  key : Option Bytes
  value : Option Bytes
deriving DecidableEq

namespace IvpPluginStatus

def isStatusMsg (msg : IvpMessage) : Bool := msg.hasType IVPMSG_TYPE_APIRESV_STATUS

/-- `ivpPluginStatus_getItemCount` and the items it counts. -/
def getItems (collection : Option CJson) : Option (List CJson) := IvpConfig.getItems collection

/-- `ivpPluginStatus_getItem` -/
def getItem (item : CJson) : IvpPluginStatusItem where
  key := item.stringField (cstr "key")
  value := item.stringField (cstr "value")

def IVP_PLUGIN_STATUS_FIELD_KEY : Bytes := cstr "key"
def IVP_PLUGIN_STATUS_FIELD_VALUE : Bytes := cstr "value"

def createMsg (now : BitVec 64) (collection : Option CJson) : IvpMessage :=
  IvpMessage.create now (some IVPMSG_TYPE_APIRESV_STATUS) none (some IVP_ENCODING_JSON) 0 collection

def itemObject (key value : Option Bytes) : CJson :=
  let item := CJson.object []
  let item := item.addOptional IVP_PLUGIN_STATUS_FIELD_KEY (key.map CJson.string)
  item.addOptional IVP_PLUGIN_STATUS_FIELD_VALUE (value.map CJson.string)

/-- `ivpPluginStatus_addStatusItem` -/
def addStatusItem (collection : Option CJson) (key value : Option Bytes) : CJson :=
  match collection.getD (.array []) with
  | .array items =>
    if value.isSome || key.isSome then .array (items ++ [itemObject key value])
    else .array items
  | other => other

/-- An item that a plugin sends, as the core reads it. -/
theorem getItem_itemObject (key value : Option Bytes) :
    getItem (itemObject key value).reparsed = ⟨key.map cstringAt, value.map cstringAt⟩ := by
  let fields : List Field := [(IVP_PLUGIN_STATUS_FIELD_KEY, key.map CJson.string),
    (IVP_PLUGIN_STATUS_FIELD_VALUE, value.map CJson.string)]
  have hfields : itemObject key value = ofFields fields := by
    cases key <;> cases value <;> rfl
  have hnames : DistinctNames ((fields.map Field.reparsed).map Prod.fst) := by
    simp only [fields, List.map_cons, List.map_nil, Field.reparsed]
    decide
  have hlookup : ∀ name v, (name, v) ∈ fields → cstringAt name = name →
      (itemObject key value).reparsed.getObjectItem name = v.map CJson.reparsed :=
    fun name v hmem hname => hfields ▸ reparsed_lookup hnames hmem hname
  have hkey := hlookup IVP_PLUGIN_STATUS_FIELD_KEY (key.map CJson.string) (by simp [fields])
    (by decide)
  have hvalue := hlookup IVP_PLUGIN_STATUS_FIELD_VALUE (value.map CJson.string) (by simp [fields])
    (by decide)
  rw [getItem]
  congr 1
  · change CJson.stringField _ IVP_PLUGIN_STATUS_FIELD_KEY = _
    cases key <;> simp [CJson.stringField, hkey, CJson.reparsed]
  · change CJson.stringField _ IVP_PLUGIN_STATUS_FIELD_VALUE = _
    cases value <;> simp [CJson.stringField, hvalue, CJson.reparsed]

/-- A status message with one item, as the core receives it. -/
theorem received_createMsg (now : BitVec 64) (key : Bytes) (value : Option Bytes) :
    isStatusMsg (createMsg now (addStatusItem none (some key) value)).received = true ∧
      getItems (createMsg now (addStatusItem none (some key) value)).received.payload =
        some [(itemObject (some key) value).reparsed] := by
  have hadd : addStatusItem none (some key) value = .array [itemObject (some key) value] := by
    simp [addStatusItem]
  constructor
  · rw [isStatusMsg, IvpMessage.hasType]
    have htype : (createMsg now (addStatusItem none (some key) value)).received.type =
        some (cstringAt IVPMSG_TYPE_APIRESV_STATUS) := rfl
    rw [htype]
    decide
  · rw [hadd]
    rfl

end IvpPluginStatus

structure IvpEventLogEntry where
  level : BitVec 32
  description : Option Bytes
deriving DecidableEq

namespace IvpEventLog

def isEventLogMsg (msg : IvpMessage) : Bool := msg.hasType IVPMSG_TYPE_APIRESV_EVENTLOG

/-- `ivpEventLog_getEventLogEntry`; `fresh` is what the uninitialised local `level` holds. -/
def getEventLogEntry (fresh : BitVec 32) (payload : CJson) : IvpEventLogEntry where
  level := payload.tryGetInt (cstr "level") fresh
  description := payload.stringField (cstr "description")

end IvpEventLog
end V2IHub.Api
