import V2IHub.Api.IvpMessage

/-! Error messages of the plugin API. -/
namespace V2IHub.Api
open Foundation Json

def IVPMSG_TYPE_APIRESV_SUBSCRIBE : Bytes := cstr "__subscribe"
def IVPMSG_TYPE_APIRESV_REGISTER : Bytes := cstr "__register"
def IVPMSG_TYPE_APIRESV_ERROR : Bytes := cstr "__error"
def IVPMSG_TYPE_APIRESV_STATUS : Bytes := cstr "__status"
def IVPMSG_TYPE_APIRESV_CONFIG : Bytes := cstr "__config"
def IVPMSG_TYPE_APIRESV_EVENTLOG : Bytes := cstr "__eventLog"

def IVP_ENCODING_JSON : Bytes := cstr "json"

/-- `msg->type != NULL && strcmp(msg->type, type) == 0` -/
def IvpMessage.hasType (msg : IvpMessage) (type : Bytes) : Bool := msg.type = some type

inductive IvpLogLevel where
  | debug
  | info
  | warn
  | error
  | fatal
deriving DecidableEq

def IvpLogLevel.code : IvpLogLevel → BitVec 32
  | debug => 0
  | info => 1
  | warn => 2
  | error => 3
  | fatal => 4

inductive IvpErrorNumber where
  | none
  | manifestLoad
  | manifestParse
  | manifestExtract
  | pluginNoName
  | configFormat
  | configDuplicateKey
  | configMissingKey
  | configMissingDefault
  | connectFail
  | connectionDropped
  | configKeyDoesntExist
  | messageParse
  | assert
  | msgTypeCollectionFormat
  | msgTypeCollectionMissingType
  | msgTypeCollectionMissingSubType
  | msgTypeCollectionDuplicate
deriving DecidableEq

def IvpErrorNumber.code : IvpErrorNumber → BitVec 32
  | none => 0
  | manifestLoad => 1
  | manifestParse => 2
  | manifestExtract => 3
  | pluginNoName => 4
  | configFormat => 5
  | configDuplicateKey => 6
  | configMissingKey => 7
  | configMissingDefault => 8
  | connectFail => 9
  | connectionDropped => 10
  | configKeyDoesntExist => 11
  | messageParse => 12
  | assert => 13
  | msgTypeCollectionFormat => 14
  | msgTypeCollectionMissingType => 15
  | msgTypeCollectionMissingSubType => 16
  | msgTypeCollectionDuplicate => 17

/-- The enumerations are kept as the integers they are on the wire, where any value can
arrive. -/
structure IvpError where
  level : BitVec 32
  error : BitVec 32
  sysErrNo : BitVec 32
deriving DecidableEq

def IVP_ERROR_INITIALIZER : IvpError := ⟨IvpLogLevel.debug.code, IvpErrorNumber.none.code, 0⟩

def IVP_ERROR_FIELD_LEVEL : Bytes := cstr "level"
def IVP_ERROR_FIELD_ERROR : Bytes := cstr "error"
def IVP_ERROR_FIELD_SYSTEM_ERROR_NUMBER : Bytes := cstr "error"

namespace IvpError

/-- `ivpError_createError` -/
def createError (level : IvpLogLevel) (error : IvpErrorNumber) (sysErrNo : BitVec 32) : IvpError :=
  ⟨level.code, error.code, sysErrNo⟩

/-- `error.error == IvpError_none` -/
def isNone (err : IvpError) : Bool := err.error = IvpErrorNumber.none.code

def isErrMsg (msg : IvpMessage) : Bool := msg.hasType IVPMSG_TYPE_APIRESV_ERROR

def toJson (err : IvpError) : CJson :=
  let payload := CJson.object []
  let payload := payload.addItemToObject IVP_ERROR_FIELD_LEVEL
    (CJson.createNumber (unsignedDouble err.level))
  let payload := payload.addItemToObject IVP_ERROR_FIELD_ERROR
    (CJson.createNumber (unsignedDouble err.error))
  payload.addItemToObject IVP_ERROR_FIELD_SYSTEM_ERROR_NUMBER
    (CJson.createNumber (signedDouble err.sysErrNo))

/-- `ivpError_createMsg` -/
def createMsg (now : BitVec 64) (err : IvpError) : IvpMessage :=
  IvpMessage.create now (some IVPMSG_TYPE_APIRESV_ERROR) none (some IVP_ENCODING_JSON) 0
    (some err.toJson)

/-- `ivpError_getError` on a message of that type. -/
def getError (msg : IvpMessage) : IvpError :=
  match msg.payload with
  | none => IVP_ERROR_INITIALIZER
  | some payload =>
    { level := payload.tryGetInt IVP_ERROR_FIELD_LEVEL 0
      error := payload.tryGetInt IVP_ERROR_FIELD_ERROR 0
      sysErrNo := payload.tryGetInt IVP_ERROR_FIELD_SYSTEM_ERROR_NUMBER 0 }

@[simp] theorem createError_isNone (level : IvpLogLevel) (error : IvpErrorNumber)
    (sysErrNo : BitVec 32) :
    (createError level error sysErrNo).isNone = true ↔ error = .none := by
  cases error <;> simp [isNone, createError, IvpErrorNumber.code]

/-- The parsed payload. Its third member has the name of the second, so that a lookup finds
the error number for both. -/
theorem toJson_reparsed (err : IvpError) :
    err.toJson.reparsed = .object [(IVP_ERROR_FIELD_LEVEL, .number err.level.toNat err.level.toNat),
      (IVP_ERROR_FIELD_ERROR, .number err.error.toNat err.error.toNat),
      (IVP_ERROR_FIELD_SYSTEM_ERROR_NUMBER, .number err.sysErrNo.toInt err.sysErrNo.toInt)] := by
  have hlevel : err.level.toNat < 2 ^ 53 := err.level.isLt.trans (by norm_num)
  have herror : err.error.toNat < 2 ^ 53 := err.error.isLt.trans (by norm_num)
  have hnames : cstringAt IVP_ERROR_FIELD_LEVEL = IVP_ERROR_FIELD_LEVEL ∧
      cstringAt IVP_ERROR_FIELD_ERROR = IVP_ERROR_FIELD_ERROR ∧
      cstringAt IVP_ERROR_FIELD_SYSTEM_ERROR_NUMBER = IVP_ERROR_FIELD_SYSTEM_ERROR_NUMBER := by
    decide
  simp only [toJson, CJson.addItemToObject, List.nil_append, List.cons_append, CJson.reparsed,
    CJson.reparsedMembers, hnames, reparsed_unsigned hlevel, reparsed_unsigned herror,
    reparsed_signed]

/-- What a client reads from an error message: the level and number that were sent, and the
number again in the place of the system error. -/
theorem getError_received (now : BitVec 64) (err : IvpError) :
    isErrMsg (createMsg now err).received = true ∧
      getError (createMsg now err).received = ⟨err.level, err.error, err.error⟩ := by
  have hpayload : (createMsg now err).received.payload = some err.toJson.reparsed := rfl
  have hlevel : CJson.sameName IVP_ERROR_FIELD_LEVEL IVP_ERROR_FIELD_LEVEL = true := by decide
  have hskip : CJson.sameName IVP_ERROR_FIELD_LEVEL IVP_ERROR_FIELD_ERROR = false := by decide
  have hfind : CJson.sameName IVP_ERROR_FIELD_ERROR IVP_ERROR_FIELD_ERROR = true := by decide
  have hsys : IVP_ERROR_FIELD_SYSTEM_ERROR_NUMBER = IVP_ERROR_FIELD_ERROR := rfl
  have htype : (createMsg now err).received.type = some (cstringAt IVPMSG_TYPE_APIRESV_ERROR) := rfl
  constructor
  · rw [isErrMsg, IvpMessage.hasType, htype]
    decide
  · simp [getError, hpayload, toJson_reparsed, CJson.tryGetInt, CJson.tryGetBits, CJson.intField,
      CJson.getObjectItem, hsys, hlevel, hskip, hfind]

/-- The second and third members have one name and the lookup stops at the second. -/
theorem getError_createMsg (now : BitVec 64) (err : IvpError) :
    getError (createMsg now err) = ⟨err.level, err.error, err.error⟩ := by
  have hlevel : CJson.sameName IVP_ERROR_FIELD_LEVEL IVP_ERROR_FIELD_LEVEL = true := by decide
  have hskip : CJson.sameName IVP_ERROR_FIELD_LEVEL IVP_ERROR_FIELD_ERROR = false := by decide
  have hfind : CJson.sameName IVP_ERROR_FIELD_ERROR IVP_ERROR_FIELD_ERROR = true := by decide
  have hsys : IVP_ERROR_FIELD_SYSTEM_ERROR_NUMBER = IVP_ERROR_FIELD_ERROR := rfl
  have hpayload : (createMsg now err).payload = some err.toJson := rfl
  simp [getError, hpayload, toJson, CJson.addItemToObject, CJson.tryGetInt, CJson.tryGetBits,
    CJson.intField, CJson.getObjectItem, hsys, hlevel, hskip, hfind, createNumber_unsigned]

/-- An error record survives its message if the two error numbers agree. -/
theorem getError_createMsg_iff (now : BitVec 64) (err : IvpError) :
    isErrMsg (createMsg now err) = true ∧ (getError (createMsg now err) = err ↔
      err.sysErrNo = err.error) := by
  constructor
  · simp [isErrMsg, IvpMessage.hasType, createMsg, IvpMessage.create]
  · rw [getError_createMsg]
    constructor
    · intro h
      exact (congrArg IvpError.sysErrNo h).symm
    · intro h
      cases err
      simp_all

/-- `errno` 5 beside a lost connection comes back as 9. -/
theorem getError_createMsg_sysErrNo_lost :
    getError (createMsg 0 (createError .error .connectFail 5)) ≠
      createError .error .connectFail 5 := by
  rw [getError_createMsg]
  decide

end IvpError
end V2IHub.Api
