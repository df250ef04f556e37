import V2IHub.Api.IvpRegister
import V2IHub.Foundation.OrderedMap
import V2IHub.Foundation.Program
import V2IHub.Router.Delivery

/-! The `Plugin` object of the core: registration, configuration values, status, event log and
routing, over an arbitrary database layer. -/
namespace V2IHub.Core
open Foundation Api Json Router

structure PluginEntry where
  id : BitVec 32
  name : Bytes
  description : Bytes
  version : Bytes
deriving DecidableEq

structure PluginConfigurationParameterEntry where
  id : BitVec 32
  pluginId : BitVec 32
  key : Bytes
  value : Bytes
  defaultValue : Bytes
  description : Bytes
deriving DecidableEq

def PluginConfigurationParameterEntry.create (key defaultValue description : Bytes) :
    PluginConfigurationParameterEntry where
  id := 0
  pluginId := 0
  key := key
  value := defaultValue
  defaultValue := defaultValue
  description := description

structure MessageTypeEntry where
  id : BitVec 32
  type : Bytes
  subtype : Bytes
  description : Bytes
deriving DecidableEq

structure PluginStatusItem where
  key : Bytes
  value : Bytes
deriving DecidableEq

structure RegistrationInformation where
  pluginInfo : PluginEntry
  configDefaultEntries : List PluginConfigurationParameterEntry
  messageTypeEntries : List MessageTypeEntry
deriving DecidableEq

abbrev ConfigMap := OrderedMap Bytes PluginConfigurationParameterEntry

/-- A call of the database layer: it returns or throws a `DbException`. -/
abbrev Query (D α : Type) := D → Except Bytes α × D

/-- The operations of the database contexts that a plugin uses. The first returns the `id`
that it leaves in the entry. -/
structure Database (D : Type) where
  insertOrUpdatePlugin : PluginEntry → Query D (BitVec 32)
  initializePluginConfigParameters :
    BitVec 32 → List PluginConfigurationParameterEntry → Query D Unit
  selectPluginConfigParameters : BitVec 32 → Query D (List PluginConfigurationParameterEntry)
  updatePluginConfigParameterValue : PluginConfigurationParameterEntry → Query D Unit
  insertMessageType : MessageTypeEntry → Query D MessageTypeEntry
  mapPluginToMessageType : BitVec 32 → BitVec 32 → Query D Unit
  setPluginStatus : BitVec 32 → Bytes → Query D Unit
  setPluginStatusItems : BitVec 32 → List PluginStatusItem → Query D Unit
  removePluginStatusItems : BitVec 32 → List Bytes → Query D Unit
  removeAllPluginStatusItems : BitVec 32 → Query D Unit
  addEventLogEntry : Bytes → Bytes → BitVec 32 → Query D Unit

/-- A database where every call succeeds. -/
def quietDatabase : Database Unit where
  insertOrUpdatePlugin _ _ := (.ok 1, ())
  initializePluginConfigParameters _ _ _ := (.ok (), ())
  selectPluginConfigParameters _ _ := (.ok [], ())
  updatePluginConfigParameterValue _ _ := (.ok (), ())
  insertMessageType entry _ := (.ok { entry with id := 1 }, ())
  mapPluginToMessageType _ _ _ := (.ok (), ())
  setPluginStatus _ _ _ := (.ok (), ())
  setPluginStatusItems _ _ _ := (.ok (), ())
  removePluginStatusItems _ _ _ := (.ok (), ())
  removeAllPluginStatusItems _ _ := (.ok (), ())
  addEventLogEntry _ _ _ _ := (.ok (), ())

inductive CoreException where
  | dbException (what : Bytes)
  | pluginException (what : Bytes)
  | pluginNotRegisteredException (what : Bytes)
  | unknownConfigurationKeyException (what : Bytes)
  | logicError (what : Bytes)
deriving DecidableEq

namespace CoreException

def isDbException : CoreException → Bool
  | dbException _ => true
  | _ => false

/-- `catch (PluginException &e)`, which catches the derived classes too. -/
def isPluginException : CoreException → Bool
  | pluginException _ => true
  | pluginNotRegisteredException _ => true
  | unknownConfigurationKeyException _ => true
  | _ => false

def what : CoreException → Bytes
  | dbException what => what
  | pluginException what => what
  | pluginNotRegisteredException what => what
  | unknownConfigurationKeyException what => what
  | logicError what => what

end CoreException

structure Plugin where
  mRegistered : Bool
  mInfo : RegistrationInformation
  mConfigValues : ConfigMap
  pluginName : Bytes

/-- A new plugin; `id` is what the uninitialised member of `mInfo` holds. -/
def Plugin.new (id : BitVec 32) : Plugin where
  mRegistered := false
  mInfo := ⟨⟨id, [], [], []⟩, [], []⟩
  mConfigValues := .empty
  pluginName := []

/-- What the operations of one plugin work on. `filter` is its entry in the router, `routed`
what it broadcast, and `socket` the bodies of the frames written to it. -/
structure CoreState (D : Type) where
  db : D
  clock : BitVec 64
  clientNames : Finset Bytes
  plugin : Plugin
  filter : Option (List MessageFilterEntry)
  routed : List IvpMessage
  socket : List Bytes

abbrev CoreProgram (D α : Type) := Program (CoreState D) CoreException α

def LogLevel_Info : BitVec 32 := 1
def LogLevel_Warning : BitVec 32 := 2

def IVP_STATUS_RUNNING : Bytes := cstr "Running"
def IVP_STATUS_STOPPED_DISCONENCTED : Bytes := cstr "Stopped / Disconnected"

section Operations
variable {D α : Type} (db : Database D)
open Program CoreException

def query (q : Query D α) : CoreProgram D α := fun s =>
  match q s.db with
  | (.ok a, d) => (.ok a, { s with db := d })
  | (.error what, d) => (.throws (dbException what), { s with db := d })

/-- The loop of `ConfigContext::getPluginConfigParameters` over the rows it selected. -/
def ConfigMap.ofRows (rows : List PluginConfigurationParameterEntry) : ConfigMap :=
  rows.foldl (fun results row => results.insert row.key { row with description := [] }) .empty

def getPluginConfigParameters (pluginId : BitVec 32) : CoreProgram D ConfigMap := do
  let rows ← query (db.selectPluginConfigParameters pluginId)
  pure (.ofRows rows)

/-- `try { q } catch (DbException &e) { LOG(..); }` -/
def tryQuery (q : Query D Unit) : CoreProgram D Unit :=
  tryCatch (query q) isDbException fun _ => pure ()

/-- The test at the head of most operations. -/
def requireRegistered (what : Bytes) : CoreProgram D Unit := do
  let s ← get
  if s.plugin.mRegistered then pure () else throw (pluginNotRegisteredException what)

def subscribeForMessages (filter : List MessageFilterEntry) : CoreProgram D Unit := do
  requireRegistered (cstr "Unable to subscribe for messages, plugin is not registered")
  modify fun s => { s with filter := some filter }

/-- An operation that logs a failure of the database and goes on. -/
def registeredQuery (what : Bytes) (q : PluginEntry → Query D Unit) : CoreProgram D Unit := do
  requireRegistered what
  let s ← get
  tryQuery (q s.plugin.mInfo.pluginInfo)

def setPluginStatus (status : Bytes) : CoreProgram D Unit :=
  registeredQuery (cstr "Unable to set plugin status, plugin is not registered") fun info =>
    db.setPluginStatus info.id status

def setStatusItems (statusItems : OrderedMap Bytes Bytes) : CoreProgram D Unit :=
  registeredQuery (cstr "Unable to set plugin status items, plugin is not registered") fun info =>
    db.setPluginStatusItems info.id (statusItems.entries.map fun e => ⟨e.1, e.2⟩)

def removeStatusItems (itemKeys : List Bytes) : CoreProgram D Unit :=
  registeredQuery (cstr "Unable to remove plugin status items, plugin is not registered")
    fun info => db.removePluginStatusItems info.id itemKeys

def addEventLogEntry (level : BitVec 32) (description : Bytes) : CoreProgram D Unit :=
  registeredQuery (cstr "Unable to add Event Log entry, plugin is not registered") fun info =>
    db.addEventLogEntry info.name description level

def sendMessageToRouter (msg : IvpMessage) : CoreProgram D Unit := do
  requireRegistered (cstr "Unable to send message, plugin is not registered")
  modify fun s =>
    let info := s.plugin.mInfo.pluginInfo
    let msg := { msg with source := some (cstringAt info.name), sourceId := info.id }
    { s with routed := s.routed ++ [msg] }

def getAllConfigValues : CoreProgram D ConfigMap := do
  requireRegistered (cstr "Unable to get configuration value, plugin is not registered")
  let s ← get
  pure s.plugin.mConfigValues

def setConfigValue (key value : Bytes) : CoreProgram D Unit := do
  requireRegistered (cstr "Unable to set configuration value, plugin is not registered")
  let s ← get
  match s.plugin.mConfigValues.find key with
  | none => throw (unknownConfigurationKeyException
      (cstr "Unknown configuration key '" ++ key ++ cstr "'"))
  | some item => tryQuery (db.updatePluginConfigParameterValue { item with value := value })

/-- The loop of `registerPlugin` over the message types; the entries are filled in. -/
def insertMessageTypes (pluginId : BitVec 32) :
    List MessageTypeEntry → CoreProgram D (List MessageTypeEntry)
  | [] => pure []
  | entry :: entries => do
    let entry ← query (db.insertMessageType entry)
    query (db.mapPluginToMessageType pluginId entry.id)
    let entries ← insertMessageTypes pluginId entries
    pure (entry :: entries)

/-- The `try` block of `registerPlugin`. -/
def registerInDatabase (info : RegistrationInformation) :
    CoreProgram D (RegistrationInformation × ConfigMap) := do
  let id ← query (db.insertOrUpdatePlugin info.pluginInfo)
  query (db.initializePluginConfigParameters id info.configDefaultEntries)
  let configMap ← getPluginConfigParameters db id
  let messageTypeEntries ← insertMessageTypes db id info.messageTypeEntries
  pure (⟨{ info.pluginInfo with id := id }, info.configDefaultEntries, messageTypeEntries⟩,
    configMap)

def Plugin.registered (p : Plugin) (info : RegistrationInformation) (configMap : ConfigMap) :
    Plugin :=
  { p with
    mInfo := info
    mConfigValues := configMap
    mRegistered := true
    pluginName := info.pluginInfo.name }

/-- The end of `registerPlugin`. -/
def announceRegistration : CoreProgram D Unit := do
  addEventLogEntry db LogLevel_Info (cstr "Plugin registered")
  setPluginStatus db IVP_STATUS_RUNNING
  let s ← get
  sendMessageToRouter (IvpMessage.create s.clock none none none 0 none)

/-- What `registerPlugin` does once the name is reserved. -/
def registerReserved (info : RegistrationInformation) : CoreProgram D Unit := do
  let stored ← tryCatch (registerInDatabase db info) isDbException fun e =>
    throw (pluginException (cstr "Unable to register plugin with database [" ++ e.what ++ cstr "]"))
  modify fun s => { s with plugin := s.plugin.registered stored.1 stored.2 }
  announceRegistration db

def registerPlugin (info : RegistrationInformation) : CoreProgram D Unit := do
  let s ← get
  if info.pluginInfo.name = [] then
    throw (pluginException (cstr "Plugin's name field is empty"))
  else if info.pluginInfo.name ∈ s.clientNames then
    throw (pluginException (cstr "Another plugin is registered with the same name."))
  else do
    modify fun s => { s with clientNames := insert info.pluginInfo.name s.clientNames }
    registerReserved db info

def logDestruction : CoreProgram D Unit := do
  let s ← get
  if s.plugin.mRegistered then addEventLogEntry db LogLevel_Warning (cstr "Plugin deconstructing")
  else pure ()

def stopPlugin : CoreProgram D Unit :=
  tryCatch
    (do
      subscribeForMessages []
      setPluginStatus db IVP_STATUS_STOPPED_DISCONENCTED)
    isPluginException fun _ => pure ()

/-- `Plugin::~Plugin` with the destructor of its base class. -/
def destroyPlugin : CoreProgram D Unit := do
  modify fun s => { s with clientNames := s.clientNames.erase s.plugin.mInfo.pluginInfo.name }
  logDestruction db
  stopPlugin db
  let s ← get
  tryQuery (db.removeAllPluginStatusItems s.plugin.mInfo.pluginInfo.id)
  modify fun s => { s with filter := none }

end Operations
end V2IHub.Core
