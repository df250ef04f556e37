import V2IHub.Api.IvpRegister

/-! The plugin side of a connection: what the receive thread of the API does with the messages
of the core. -/
namespace V2IHub.Client
open Foundation Json Api

inductive IvpPluginState where
  | disconnected
  | connected
  | registered
  | error
deriving DecidableEq

/-- The calls into the plugin's own code. -/
inductive IvpCallback where
  | onMsgReceived (msg : IvpMessage)
  | onStateChange (state : IvpPluginState)
  | onError (err : IvpError)
  | onConfigChanged (key value : Bytes)

/-- `callbacks` and `sent` record the calls into the plugin and the bodies of the frames sent. -/
structure IvpPlugin where
  state : IvpPluginState
  jsonManifest : CJson
  config : Option CJson
  filter : Option CJson
  callbacks : List IvpCallback
  sent : List Bytes

namespace IvpPlugin

/-- `ivp_create`, once the manifest has been read. -/
def create (jsonManifest : CJson) : Option IvpPlugin :=
  let manifest := IvpRegister.getManifestFromJson jsonManifest
  if (IvpRegister.validateManifest manifest).isNone then
    some {
      state := .disconnected
      jsonManifest := jsonManifest
      config := manifest.configuration
      filter := none
      callbacks := []
      sent := [] }
  else none

def call (plugin : IvpPlugin) (callback : IvpCallback) : IvpPlugin :=
  { plugin with callbacks := plugin.callbacks ++ [callback] }

def onError (plugin : IvpPlugin) (err : IvpError) : IvpPlugin :=
  if err.isNone then plugin
  else if IvpLogLevel.fatal.code ≤ err.level then
    { plugin with state := .error }.call (.onError err)
  else plugin.call (.onError err)

def onStateChange (plugin : IvpPlugin) (state : IvpPluginState) : IvpPlugin :=
  if plugin.state = state then plugin
  else { plugin with state := state }.call (.onStateChange state)

/-- `ivp_broadcastMessage` on a working socket. -/
def broadcastMessage (plugin : IvpPlugin) (msg : IvpMessage) : IvpPlugin :=
  if plugin.state = .connected ∨ plugin.state = .registered then
    { plugin with sent := plugin.sent ++ [msg.createJsonString .none] }
  else plugin

/-- The loop of `ivp_onMessageReceived` over the items of a configuration message. -/
def updateConfig (plugin : IvpPlugin) : List CJson → Option IvpPlugin
  | [] => some plugin
  | json :: items =>
    let item := IvpConfig.getItem json
    match item.key, item.value with
    | none, _ => none
    | some _, none => updateConfig plugin items
    | some key, some value =>
      match IvpConfig.updateValueInCollection plugin.config key value with
      | none => none
      | some config =>
        updateConfig ({ plugin with config := config }.call (.onConfigChanged key value)) items

/-- The end of the handling of a configuration message, which is also the answer to a
registration. -/
def confirmRegistration (now : BitVec 64) (plugin : IvpPlugin) : IvpPlugin :=
  if plugin.state = .connected then
    let plugin := plugin.onStateChange .registered
    plugin.broadcastMessage (IvpSubscribe.createMsg now plugin.filter)
  else plugin

/-- `ivp_onMessageReceived`; `none` is a failed assertion. -/
def onMessageReceived (now : BitVec 64) (plugin : IvpPlugin) (msg : IvpMessage) :
    Option IvpPlugin :=
  if IvpError.isErrMsg msg then some (plugin.onError (IvpError.getError msg))
  else if IvpConfig.isConfigMsg msg then
    match IvpConfig.getItems msg.payload with
    | none => none
    | some items => (plugin.updateConfig items).map (confirmRegistration now)
  else some (plugin.call (.onMsgReceived msg))

/-- The body of the inner loop of `ivp_receive`; `fresh` is for the parser. -/
def receive (now : BitVec 64) (fresh : IvpDsrcMetadata) (plugin : IvpPlugin) (rawmsg : Bytes) :
    Option IvpPlugin :=
  match IvpMessage.parse fresh rawmsg with
  | some msg => plugin.onMessageReceived now msg
  | none => some (plugin.onError (IvpError.createError .warn .messageParse 0))

/-- What a plugin does with the frames that reach it. -/
def receiveAll (now : BitVec 64) (fresh : IvpDsrcMetadata) (plugin : IvpPlugin) :
    List Bytes → Option IvpPlugin
  | [] => some plugin
  | rawmsg :: rawmsgs =>
    match plugin.receive now fresh rawmsg with
    | some plugin => receiveAll now fresh plugin rawmsgs
    | none => none

/-- The connection is up: the plugin registers. -/
def connect (now : BitVec 64) (plugin : IvpPlugin) : IvpPlugin :=
  let plugin := plugin.onStateChange .connected
  plugin.broadcastMessage (IvpRegister.createMsgFromJson now plugin.jsonManifest)

/-- The value that `ivp_getCopyOfConfigurationValue` returns; `NULL` is `some none`. -/
def getCopyOfConfigurationValue (plugin : IvpPlugin) (key : Bytes) : Option (Option Bytes) :=
  match plugin.config with
  | none => some none
  | some config => IvpConfig.getCopyOfValueFromCollection config key

section Fields
variable (plugin : IvpPlugin) (state : IvpPluginState) (msg : IvpMessage) (now : BitVec 64)

@[simp] theorem onStateChange_config : (plugin.onStateChange state).config = plugin.config := by
  unfold onStateChange
  split_ifs <;> rfl

@[simp] theorem onStateChange_jsonManifest :
    (plugin.onStateChange state).jsonManifest = plugin.jsonManifest := by
  unfold onStateChange
  split_ifs <;> rfl

@[simp] theorem broadcastMessage_config :
    (plugin.broadcastMessage msg).config = plugin.config := by
  unfold broadcastMessage
  split_ifs <;> rfl

@[simp] theorem broadcastMessage_jsonManifest :
    (plugin.broadcastMessage msg).jsonManifest = plugin.jsonManifest := by
  unfold broadcastMessage
  split_ifs <;> rfl

@[simp] theorem confirmRegistration_config :
    (plugin.confirmRegistration now).config = plugin.config := by
  unfold confirmRegistration
  split_ifs <;> simp

@[simp] theorem confirmRegistration_jsonManifest :
    (plugin.confirmRegistration now).jsonManifest = plugin.jsonManifest := by
  unfold confirmRegistration
  split_ifs <;> simp

@[simp] theorem connect_config : (plugin.connect now).config = plugin.config := by simp [connect]

@[simp] theorem connect_jsonManifest :
    (plugin.connect now).jsonManifest = plugin.jsonManifest := by simp [connect]

end Fields

/-- A message of the core as the plugin handles it after it was printed and parsed. -/
theorem receive_createJsonString (now : BitVec 64) (fresh : IvpDsrcMetadata) (plugin : IvpPlugin)
    (msg : IvpMessage) :
    plugin.receive now fresh (msg.createJsonString .none) =
      plugin.onMessageReceived now msg.received := by
  rw [receive, IvpMessage.parse_createJsonString]

end IvpPlugin
end V2IHub.Client
