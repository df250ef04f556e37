import Mathlib.Data.List.DropRight
import V2IHub.Command.Session
import V2IHub.Foundation.JsonAssembly
import V2IHub.Messages.Message

/-! The telemetry of `CommandPlugin`: `GetTelemetry` compares a poll with the one before and puts
together, plugin by plugin, the text of what is new. -/
namespace V2IHub.Command
open V2IHub.Foundation V2IHub.Foundation.DecimalText V2IHub.Foundation.JsonText V2IHub.Messages

/-- The data types whose updates consist of names and values. -/
inductive DataType where
  | list
  | state
  | status
  | config
deriving DecidableEq

def DataType.text : DataType → Bytes
  | list => cstr "List"
  | state => cstr "State"
  | status => cstr "Status"
  | config => cstr "Config"

/-- What the plugin keeps for one data type; `have` of the source is that the last poll worked. -/
structure Telemetry where
  haveData : Bool
  json : Bytes
  pluginsJSON : OrderedMap Bytes Bytes
  pluginsUpdatesJSON : OrderedMap Bytes Bytes
  pluginsRemoveJSON : OrderedMap Bytes Bytes

def Telemetry.initial : Telemetry := ⟨false, [], .empty, .empty, .empty⟩

/-- A path with `ATTRIBUTE_PATH_CHARACTER` between its fragments. -/
def attributePath (path : Bytes) : Path :=
  let parts := path.splitOn 124
  if parts.getLast? = some [] then parts.dropLast else parts

def isSpace (b : UInt8) : Bool := b = 32 || 9 ≤ b && b ≤ 13

/-- `boost::algorithm::trim` -/
def trim (text : Bytes) : Bytes := (text.dropWhile isSpace).rdropWhile isSpace

/-- `tmpTree`: the plugin alone, under a name that is taken for a path. -/
def pluginTree (name : Bytes) (plugin : PTree) : PTree :=
  if plugin.children.isEmpty then PTree.empty.put (fragments name) plugin.data
  else PTree.empty.change (fun _ => plugin) (fragments name)

def pluginJSON (fmt : Format) (name : Bytes) (plugin : PTree) : Option Bytes :=
  (fmt.write (pluginTree name plugin)).map trim

/-- The loops set a comma before every element but the first. -/
def commas (texts : List Bytes) : Bytes := [44].intercalate texts

/-- The name/value pairs that the old tree does not have. -/
def changedPairs (old : Option PTree) (entries : List (Bytes × PTree)) : List (Bytes × Bytes) :=
  (entries.filter fun nvp =>
    (old.bind fun tree => tree.dataAt (attributePath nvp.1)) ≠ some nvp.2.data).map
      fun nvp => (nvp.1, nvp.2.data)

/-- The configuration variables with a pair that the old tree does not have. -/
def changedConfigs (old : Option PTree) (entries : List (Bytes × PTree)) :
    List (Bytes × List (Bytes × Bytes)) :=
  (entries.map fun cfg =>
    (cfg.1, changedPairs (old.bind fun tree => tree.getChild (attributePath cfg.1)) cfg.2.children))
  |>.filter fun cfg => cfg.2 ≠ []

def pairText (nvp : Bytes × Bytes) : Bytes :=
  cstr "\"" ++ nvp.1 ++ cstr "\": \"" ++ escapeQuotes nvp.2 ++ cstr "\""

def configText (cfg : Bytes × List (Bytes × Bytes)) : Bytes :=
  cstr "\"" ++ cfg.1 ++ cstr "\": \x7b" ++ commas (cfg.2.map pairText) ++ cstr "\x7d"

/-- The value of the plugin in `pluginsUpdatesJSON`. -/
def pluginUpdate (dataType : DataType) (name : Bytes) (plugin oldPlugin : PTree) : Bytes :=
  let old := oldPlugin.getChild (attributePath name)
  cstr "\"" ++ name ++
    match dataType with
    | .list | .state =>
      cstr "\": \x7b" ++ commas ((changedPairs old plugin.children).map pairText) ++ cstr "\x7d"
    | .status => cstr "\": \"" ++ plugin.data ++ cstr "\""
    | .config =>
      cstr "\": \x7b" ++ commas ((changedConfigs old plugin.children).map configText) ++ cstr "\x7d"

section Poll
variable (fmt : Format)

/-- Compares the plugin with its text of the last poll, which becomes the new one. Returns the old
tree when they differ; nothing at all when a text cannot be written or read, and `GetTelemetry`
ends with an exception. -/
def comparePlugin (pluginsJSON : OrderedMap Bytes Bytes) (plugin : Bytes × PTree) :
    Option (Option PTree × OrderedMap Bytes Bytes) :=
  match pluginJSON fmt plugin.1 plugin.2 with
  | none => none
  | some pJSON =>
    match pluginsJSON.find plugin.1 with
    | none => some (some .empty, pluginsJSON.insert plugin.1 pJSON)
    | some oldJSON =>
      if oldJSON ≠ pJSON then
        (fmt.read oldJSON).map fun oldPlugin => (some oldPlugin, pluginsJSON.insert plugin.1 pJSON)
      else some (none, pluginsJSON.insert plugin.1 pJSON)

def pollPlugin (dataType : DataType) (t : Telemetry) (plugin : Bytes × PTree) : Option Telemetry :=
  (comparePlugin fmt t.pluginsJSON plugin).map fun r =>
    { t with
      pluginsJSON := r.2
      pluginsUpdatesJSON :=
        match r.1 with
        | none => t.pluginsUpdatesJSON
        | some oldPlugin =>
          t.pluginsUpdatesJSON.insert plugin.1 (pluginUpdate dataType plugin.1 plugin.2 oldPlugin) }

/-- The plugins that are gone move to the removes. -/
def Telemetry.removeOthers (t : Telemetry) (pluginNames : List Bytes) : Telemetry :=
  { t with
    pluginsJSON := t.pluginsJSON.filter fun e => e.1 ∈ pluginNames
    pluginsRemoveJSON := t.pluginsJSON.filter fun e => e.1 ∉ pluginNames }

/-- `GetOutput` of `TmxControl` -/
def outputJSON (tree : PTree) : Option Bytes :=
  if tree.children.isEmpty then some [] else fmt.write tree

/-- `poll` is the output of `TmxControl`, or nothing when its query failed. -/
def getTelemetry (dataType : DataType) (t : Telemetry) (poll : Option PTree) : Option Telemetry :=
  match poll with
  | none => some { t with haveData := false }
  | some tree => do
    let json ← outputJSON fmt tree
    let cleared := { t with haveData := true, json := json, pluginsUpdatesJSON := .empty }
    let polled ← tree.children.foldlM (pollPlugin fmt dataType) cleared
    some (polled.removeOthers (tree.children.map Prod.fst))

end Poll

/-- What is appended to the buffer of a session. -/
def buildUpdateTelemetry (dataType : DataType) (now : ℕ) (t : Telemetry) : Bytes :=
  if t.haveData = true ∧ t.pluginsUpdatesJSON.entries ≠ [] then
    2 :: cstr "\x7b\"header\":\x7b\"type\":\"Telemetry\",\"subtype\":\"" ++ dataType.text
      ++ cstr "\",\"encoding\":\"jsonstring\",\"timestamp\":\"" ++ decimal now
      ++ cstr "\",\"flags\":\"0\"\x7d,\"payload\":\x7b"
      ++ commas (t.pluginsUpdatesJSON.entries.map Prod.snd) ++ cstr "\x7d\x7d" ++ [3]
  else []

end V2IHub.Command
