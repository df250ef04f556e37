import V2IHub.Client.ConfigValue
import V2IHub.Foundation.Machine

/-! `DmsPlugin`: the messages of a sign, what is put on the sign, and the flags about it. -/
namespace V2IHub.Dms
open Foundation Foundation.DecimalText Client

structure SignMessage where
  DmsText : Bytes
  IsDmsTextInitialized : Bool

/-- Where the controller sends to, as text. -/
structure Address where
  INTip : Bytes
  INTport : Bytes
deriving DecidableEq

/-- The texts in the changeable memory of a sign, and the one that it displays. A blank sign
displays the empty text. -/
structure Sign where
  memory : ℤ → Bytes
  display : Bytes

/-- What comes of putting a text on the sign: if the requests to clear the memory and to set the
text have their effect, and the statuses read after each request. -/
structure Assignment where
  cleared : Bool
  statusUnused : ℤ
  statusModify : ℤ
  stored : Bool
  statusValid : ℤ

/-- The statuses are the ones expected: unused, modifying and valid. -/
def Assignment.succeeds (outcome : Assignment) : Bool :=
  outcome.statusUnused = 1 ∧ outcome.statusModify = 2 ∧ outcome.statusValid = 4

/-- What comes of an activation; it may have its effect without an answer. -/
inductive Activation where
  | done
  | unanswered
  | failed
deriving DecidableEq

/-- The plugin and its configuration, with the sign at each address. -/
structure DmsPlugin where
  _isSignMessagesInitialized : Bool
  _isDmsControllerInitialized : Bool
  _enableDms : Bool
  _dmsIpAddress : Bytes
  _dmsPort : ℕ
  _dmsController : Address
  _signMessages : OrderedMap ℤ SignMessage
  _msgIdRequested : ℤ
  _msgIdShown : ℤ
  config : ConfigValues
  signs : Address → Sign

namespace DmsPlugin

/-- With the blanking message. -/
def new (config : ConfigValues) (signs : Address → Sign) : DmsPlugin where
  _isSignMessagesInitialized := false
  _isDmsControllerInitialized := false
  _enableDms := false
  _dmsIpAddress := []
  _dmsPort := 0
  _dmsController := ⟨[], []⟩
  _signMessages := OrderedMap.empty.insert 0 ⟨[], false⟩
  _msgIdRequested := 0
  _msgIdShown := -1
  config := config
  signs := signs

/-- The sign at the current address. -/
def sign (s : DmsPlugin) : Sign := s.signs s._dmsController

def setSign (s : DmsPlugin) (sign : Sign) : DmsPlugin :=
  { s with signs := fun address => if address = s._dmsController then sign else s.signs address }

/-- The texts in memory behind the requests of `AssignMessageOnSign`, which ends at the first
status that is not the expected one. -/
def assignMemory (memory : ℤ → Bytes) (messageNumber : ℤ) (message : Bytes) (outcome : Assignment) :
    ℤ → Bytes := fun number =>
  if number ≠ messageNumber then memory number
  else if outcome.stored ∧ outcome.statusUnused = 1 ∧ outcome.statusModify = 2 then message
  else if outcome.cleared then []
  else memory number

/-- Without an activation behind it, as it is called. -/
def assignMessageOnSign (s : DmsPlugin) (messageNumber : ℤ) (message : Bytes)
    (outcome : Assignment) : Bool × DmsPlugin :=
  let s := if s._msgIdRequested = messageNumber then { s with _msgIdShown := -1 } else s
  if messageNumber = 0 then (false, s)
  else
    (outcome.succeeds, s.setSign { s.sign with
      memory := assignMemory s.sign.memory messageNumber message outcome })

/-- Memory type 7 blanks the sign, under the message number 1. -/
def activateMessage (s : DmsPlugin) (messageNumber : ℤ) (outcome : Activation) :
    Bool × DmsPlugin :=
  let display := if messageNumber = 0 then [] else s.sign.memory messageNumber
  let messageNumber := if messageNumber = 0 then 1 else messageNumber
  match outcome with
  | .done => (true, { s.setSign { s.sign with display } with _msgIdShown := messageNumber })
  | .unanswered => (false, s.setSign { s.sign with display })
  | .failed => (false, s)

def showSignMessage (s : DmsPlugin) (msgId : ℤ) (outcome : Activation) : Bool × DmsPlugin :=
  if s._isSignMessagesInitialized = false then (false, s)
  else if s._signMessages.find msgId = none then (false, s)
  else if s._enableDms then s.activateMessage msgId outcome
  else (true, s)

def setRequestedMessage (s : DmsPlugin) (msgId : ℤ) (outcome : Activation) : DmsPlugin :=
  let s := { s with _msgIdRequested := msgId }
  if s._msgIdRequested = s._msgIdShown then s
  else
    match s.showSignMessage msgId outcome with
    | (true, s) => { s with _msgIdShown := msgId }
    | (false, s) => s

def setMessage (s : DmsPlugin) (messageId : ℤ) (message : SignMessage) : DmsPlugin :=
  { s with _signMessages := s._signMessages.insert messageId message }

/-- A new text, or another one than before. -/
def setText (s : DmsPlugin) (messageId : ℤ) (text : Bytes) : DmsPlugin :=
  let unset := { s.setMessage messageId ⟨text, false⟩ with _isSignMessagesInitialized := false }
  match s._signMessages.find messageId with
  | none => unset
  | some message => if message.DmsText ≠ text then unset else s

/-- Puts the text of a message on the sign if it is not there yet. -/
def sendText (s : DmsPlugin) (messageId : ℤ) (outcome : Assignment) : Bool × DmsPlugin :=
  match s._signMessages.find messageId with
  | none => (true, s)
  | some message =>
    if message.IsDmsTextInitialized then (true, s)
    else
      match s.assignMessageOnSign messageId message.DmsText outcome with
      | (true, s) => (true, s.setMessage messageId { message with IsDmsTextInitialized := true })
      | (false, s) => (false, s)

def addSignMessage (s : DmsPlugin) (messageId : ℤ) (text : Bytes) (sendToSign : Bool)
    (outcome : Assignment) : Bool × DmsPlugin :=
  let s := s.setText messageId text
  if ¬ (s._enableDms ∧ s._isDmsControllerInitialized ∧ sendToSign) then (true, s)
  else if messageId = 0 then (true, s.setMessage 0 ⟨text, true⟩)
  else s.sendText messageId outcome

/-- The loop of `InitializeSignMessages`, which ends at the first failure. -/
def initializeLoop (outcomes : ℤ → Assignment) : List ℤ → DmsPlugin → Bool × DmsPlugin
  | [], s => (true, s)
  | messageId :: rest, s =>
    if messageId = 0 then initializeLoop outcomes rest s
    else
      match s.sendText messageId (outcomes messageId) with
      | (true, s) => initializeLoop outcomes rest s
      | (false, s) => (false, s)

def initializeSignMessages (s : DmsPlugin) (outcomes : ℤ → Assignment) : Bool × DmsPlugin :=
  if s._enableDms then initializeLoop outcomes (s._signMessages.entries.map Prod.fst) s
  else (false, s)

/-- `snprintf` into six characters. -/
def portText (port : ℕ) : Bytes := (formatInt (BitVec.ofNat 32 port).toInt).take 5

def messageKey (messageId : ℤ) : Bytes := cstr "Message " ++ padded 2 messageId.toNat

def updateEnable (s : DmsPlugin) : DmsPlugin :=
  { s with _enableDms := (s.config.getBool (cstr "Enable DMS")).getD s._enableDms }

def updateAddress (s : DmsPlugin) : DmsPlugin :=
  let ipAddress := s._dmsIpAddress
  let port := s._dmsPort
  let s := { s with
    _dmsIpAddress := (s.config.find (cstr "DMS IP Address")).getD s._dmsIpAddress
    _dmsPort := (s.config.getUInt32 (cstr "DMS Port")).getD s._dmsPort }
  if s._dmsIpAddress ≠ ipAddress ∨ s._dmsPort ≠ port then
    { s with
      _dmsController := ⟨s._dmsIpAddress, portText s._dmsPort⟩
      _isDmsControllerInitialized := true }
  else s

/-- The loop over the messages. A key without a value leaves `message` as it was. -/
def updateMessages (outcomes : ℤ → Assignment) :
    List ℤ → Bytes → Bool → DmsPlugin → DmsPlugin
  | [], _, _, s => s
  | messageId :: rest, message, sendToSign, s =>
    let message := (s.config.find (messageKey messageId)).getD message
    match s.addSignMessage messageId message sendToSign (outcomes messageId) with
    | (sent, s) => updateMessages outcomes rest message (sendToSign && sent) s

def MESSAGE_IDS : List ℤ := [1, 2, 3, 4]

def updateConfig (s : DmsPlugin) (outcomes : ℤ → Assignment) : DmsPlugin :=
  updateMessages outcomes MESSAGE_IDS [] true s.updateEnable.updateAddress

def FORCE_MESSAGE_ID : Bytes := cstr "Force Message ID"

def setConfigValue (s : DmsPlugin) (key value : Bytes) : DmsPlugin :=
  { s with config := s.config.insert key value }

/-- The message that a new value of `Force Message ID` asks for. -/
def forcedMessage (s : DmsPlugin) : ℤ :=
  let forceMessageId := (s.config.getInt FORCE_MESSAGE_ID).getD (-1)
  if forceMessageId ≠ -1 then forceMessageId else 0

def onConfigChanged (s : DmsPlugin) (key value : Bytes) (outcomes : ℤ → Assignment)
    (outcome : Activation) : DmsPlugin :=
  let s := s.setConfigValue key value
  if key = FORCE_MESSAGE_ID then s.setRequestedMessage s.forcedMessage outcome
  else s.updateConfig outcomes

/-- One pass of the loop of `Main`. -/
def mainPass (s : DmsPlugin) (outcomes : ℤ → Assignment) (outcome : Activation) : DmsPlugin :=
  if s._isSignMessagesInitialized then
    if s._msgIdRequested ≠ s._msgIdShown then s.setRequestedMessage s._msgIdRequested outcome
    else s
  else
    match s.initializeSignMessages outcomes with
    | (done, s) => { s with _isSignMessagesInitialized := done }

/-- What the plugin is called for, and what comes of its requests to the sign. -/
inductive Act where
  | registered (outcomes : ℤ → Assignment)
  | configChanged (key value : Bytes) (outcomes : ℤ → Assignment) (outcome : Activation)
  | messageReceived (msgId : ℤ) (outcome : Activation)
  | mainPass (outcomes : ℤ → Assignment) (outcome : Activation)

def step (s : DmsPlugin) : Act → DmsPlugin
  | .registered outcomes => s.updateConfig outcomes
  | .configChanged key value outcomes outcome => s.onConfigChanged key value outcomes outcome
  | .messageReceived msgId outcome => s.setRequestedMessage msgId outcome
  | .mainPass outcomes outcome => s.mainPass outcomes outcome

def machine : Machine DmsPlugin Act := ⟨fun s a => some (s.step a)⟩

end DmsPlugin
end V2IHub.Dms
