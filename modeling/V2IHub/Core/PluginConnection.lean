import V2IHub.Core.Plugin

/-! The handlers that a `PluginConnection` runs for the messages of its plugin. -/
namespace V2IHub.Core
open Foundation Api Json Router Program CoreException

section Handlers
variable {D : Type} (db : Database D)

def CoreState.write (s : CoreState D) (raw : Bytes) : CoreState D :=
  { s with socket := s.socket ++ [raw] }

/-- `PluginConnection::onMessageReceived` on a writable socket. -/
def onMessageReceived (msg : IvpMessage) : CoreProgram D Unit :=
  modify fun s => s.write (msg.createJsonString .none)

def onConfigChanged (key value : Bytes) : CoreProgram D Unit := do
  let collection ← deref (IvpConfig.addItemToCollection none (cstringAt key)
    (some (cstringAt value)) none)
  let s ← get
  onMessageReceived (IvpConfig.createMsg s.clock (some collection))

/-- The answer to a request that failed: only the level of the error is set. -/
def sendError (level : IvpLogLevel) : CoreProgram D Unit := do
  let error := { IVP_ERROR_INITIALIZER with level := level.code }
  let s ← get
  onMessageReceived (IvpError.createMsg s.clock error)

/-- The `std::string` made of a pointer. -/
def stdString (p : Option Bytes) : CoreProgram D Bytes :=
  match p with
  | some s => pure s
  | none => throw (logicError (cstr "basic_string::_M_construct null not valid"))

def manifestConfigEntries : List CJson → CoreProgram D (List PluginConfigurationParameterEntry)
  | [] => pure []
  | json :: items => do
    let item := IvpConfig.getItem json
    let key ← stdString item.key
    let defaultValue ← stdString item.defaultValue
    let entries ← manifestConfigEntries items
    pure (.create key defaultValue (item.description.getD []) :: entries)

def manifestMessageTypes : List CJson → CoreProgram D (List MessageTypeEntry)
  | [] => pure []
  | json :: items => do
    let entry := IvpMsgType.getEntry json
    let type ← stdString entry.type
    let subtype ← stdString entry.subtype
    let entries ← manifestMessageTypes items
    pure (⟨0, type, subtype, entry.description.getD []⟩ :: entries)

/-- `fresh` is what the uninitialised `info.pluginInfo.id` holds. -/
def registrationInformation (fresh : BitVec 32) (manifest : IvpManifest) :
    CoreProgram D RegistrationInformation := do
  let items ← deref (IvpConfig.getItems manifest.configuration)
  let configDefaultEntries ← manifestConfigEntries items
  let entries ← deref (IvpMsgType.getEntries manifest.messageTypes)
  let messageTypeEntries ← manifestMessageTypes entries
  pure ⟨⟨fresh, manifest.name.getD [], manifest.description.getD [], manifest.version.getD []⟩,
    configDefaultEntries, messageTypeEntries⟩

/-- The collection of the values that are not the default. -/
def changedValues (collection : Option CJson) :
    List (Bytes × PluginConfigurationParameterEntry) → CoreProgram D (Option CJson)
  | [] => pure collection
  | (_, entry) :: entries =>
    if entry.value ≠ entry.defaultValue then do
      let collection ← deref (IvpConfig.addItemToCollection collection (cstringAt entry.key)
        (some (cstringAt entry.value)) none)
      changedValues (some collection) entries
    else changedValues collection entries

def sendConfigValues (configEntries : ConfigMap) : CoreProgram D Unit := do
  let collection ← changedValues none configEntries.entries
  let s ← get
  onMessageReceived (IvpConfig.createMsg s.clock collection)

def processRegistrationMessage (fresh : BitVec 32) (msg : IvpMessage) : CoreProgram D Unit := do
  let payload ← deref msg.payload
  let manifest := IvpRegister.getManifestFromJson payload
  if (IvpRegister.validateManifest manifest).isNone then do
    let info ← registrationInformation fresh manifest
    tryCatch
      (do
        registerPlugin db info
        let configEntries ← getAllConfigValues
        sendConfigValues configEntries)
      isPluginException fun _ => sendError .fatal
  else pure ()

/-- The filter entries of a subscription; those without a type are skipped. -/
def filterEntries (msg : IvpMessage) : List MessageFilterEntry :=
  (IvpSubscribe.getFilterEntries msg).filterMap fun json =>
    let (type, subtype, flagmask) := IvpSubscribe.getFilterEntry json
    type.map fun type => ⟨type, subtype.getD [], flagmask⟩

def processSubscribeMessage (msg : IvpMessage) : CoreProgram D Unit :=
  tryCatch (subscribeForMessages (filterEntries msg)) isPluginException fun _ => sendError .error

def GLOBAL_SOURCE : Bytes := cstr "_global"

/-- One iteration of the loop of `processConfigMessage`. -/
def processConfigItem (msg : IvpMessage) (json : CJson)
    (globalParams : List PluginConfigurationParameterEntry) :
    CoreProgram D (List PluginConfigurationParameterEntry) := do
  let item := IvpConfig.getItem json
  let key ← deref item.key
  let value ← deref item.value
  let source ← deref msg.source
  if source = GLOBAL_SOURCE then do
    let defaultValue ← stdString item.defaultValue
    let description := item.description.getD (cstr "Global system parameter")
    pure (globalParams ++ [{ PluginConfigurationParameterEntry.create key defaultValue description
      with value := value }])
  else do
    setConfigValue db key value
    pure globalParams

/-- The end of `processConfigMessage`, which is reached for every source. -/
def initializeGlobalParams (globalParams : List PluginConfigurationParameterEntry) :
    CoreProgram D Unit :=
  tryCatch (query (db.initializePluginConfigParameters 0 globalParams)) isDbException fun e =>
    throw (pluginException
      (cstr "Unable to add global plugin configuration parameter [" ++ e.what ++ cstr "]"))

def collectStatusItems (removeItems : List Bytes) (updateItems : OrderedMap Bytes Bytes) :
    List CJson → CoreProgram D (List Bytes × OrderedMap Bytes Bytes)
  | [] => pure (removeItems, updateItems)
  | json :: items =>
    let item := IvpPluginStatus.getItem json
    match item.value with
    | none => do
      let key ← deref item.key
      collectStatusItems (if key = [] then removeItems else removeItems ++ [key]) updateItems items
    | some value => collectStatusItems removeItems (updateItems.insert (item.key.getD []) value) items

def processStatusMessage (msg : IvpMessage) : CoreProgram D Unit := do
  let items ← deref (IvpPluginStatus.getItems msg.payload)
  let (removeItems, updateItems) ← collectStatusItems [] .empty items
  tryCatch
    (do
      setStatusItems db updateItems
      removeStatusItems db removeItems)
    isPluginException fun _ => pure ()

def processEventLogMessage (fresh : BitVec 32) (msg : IvpMessage) : CoreProgram D Unit := do
  let payload ← deref msg.payload
  let eventLogEntry := IvpEventLog.getEventLogEntry fresh payload
  let description ← deref eventLogEntry.description
  assert (description ≠ [])
  addEventLogEntry db eventLogEntry.level description

def routeMessage (msg : IvpMessage) : CoreProgram D Unit :=
  tryCatch (sendMessageToRouter msg) isPluginException fun _ => sendError .error

end Handlers

section ConfigMonitor
variable {D : Type} (db : Database D)

def setConfigEntry (key : Bytes) (entry : PluginConfigurationParameterEntry) : CoreProgram D Unit :=
  modify fun s => { s with
    plugin := { s.plugin with mConfigValues := s.plugin.mConfigValues.insert key entry } }

def replaceConfigEntry (key : Bytes) (entry newEntry : PluginConfigurationParameterEntry) :
    CoreProgram D Unit :=
  if newEntry.value ≠ entry.value then do
    setConfigEntry key newEntry
    onConfigChanged newEntry.key newEntry.value
  else pure ()

/-- The loop over the known values; what the database has beyond them is returned. -/
def updateConfigValues (configMap : ConfigMap) :
    List (Bytes × PluginConfigurationParameterEntry) → CoreProgram D ConfigMap
  | [] => pure configMap
  | (key, entry) :: entries =>
    match configMap.find key with
    | none => updateConfigValues configMap entries
    | some newEntry => do
      replaceConfigEntry key entry newEntry
      updateConfigValues (configMap.erase key) entries

/-- The loop over the values that were not known. -/
def addConfigValues (newEntries : ConfigMap) : CoreProgram D Unit :=
  forEach newEntries.entries fun (key, entry) => do
    setConfigEntry key entry
    onConfigChanged entry.key entry.value

/-- One pass of `configMonitorThreadEntry`. -/
def configMonitorPass : CoreProgram D Unit := do
  let s ← get
  if s.plugin.mRegistered then do
    let configMap ← tryCatch
      (do
        let configMap ← getPluginConfigParameters db s.plugin.mInfo.pluginInfo.id
        pure (some configMap))
      isDbException fun _ => pure none
    match configMap with
    | none => pure ()
    | some configMap => do
      let newEntries ← updateConfigValues configMap s.plugin.mConfigValues.entries
      addConfigValues newEntries
  else pure ()

end ConfigMonitor
end V2IHub.Core
