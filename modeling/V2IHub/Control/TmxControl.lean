import V2IHub.Foundation.SqlPlaceholders

/-! The prepared statements of `TmxControl` and the parameters bound to them. -/
namespace V2IHub.Control
open Foundation Sql

section Queries

def CONFIG_QUERY : Bytes :=
  cstr "\tSELECT name, `key`, value, defaultValue, IVP.pluginConfigurationParameter.description " ++
  cstr "\tFROM IVP.pluginConfigurationParameter " ++
  cstr "\tLEFT JOIN IVP.plugin ON IVP.pluginConfigurationParameter.pluginId = IVP.plugin.id"

def CFG_UPDATE : Bytes := cstr "\tUPDATE IVP.pluginConfigurationParameter \tSET value = ?"

def CFG_INFO_UPDATE : Bytes :=
  cstr "\tUPDATE IVP.pluginConfigurationParameter \tSET defaultValue = ?, description = ?"

def CFG_INSERT : Bytes :=
  cstr "\tINSERT INTO IVP.pluginConfigurationParameter " ++
  cstr "\t( pluginId, `key`, value, defaultValue, description ) " ++
  cstr "\tSELECT id, ?, ?, ?, ? \tFROM IVP.plugin"

def CFG_KEY_NE : Bytes :=
  cstr "\tAND NOT EXISTS ( \tSELECT * FROM IVP.pluginConfigurationParameter " ++
  cstr "\tWHERE pluginId = IVP.plugin.id \tAND `key` = ? \t)"

def PLUGIN_UPDATE : Bytes :=
  cstr "\tUPDATE IVP.plugin \tSET description = ?, version = ? \tWHERE name = ?"

def PLUGIN_INSERT : Bytes :=
  cstr "\tINSERT INTO IVP.plugin ( name, description, version ) \tSELECT ?, ?, ? FROM DUAL " ++
  cstr "\tWHERE NOT EXISTS ( \tSELECT * FROM IVP.plugin \tWHERE name = ? \t)"

def IPLUGIN_UPDATE : Bytes :=
  cstr "\tUPDATE IVP.installedPlugin \tSET path = ?, exeName = ?, manifestName = ?"

def IPLUGIN_INSERT : Bytes :=
  cstr "\tINSERT INTO IVP.installedPlugin \t( pluginId, path, exeName, manifestName, " ++
  cstr "commandLineParameters, enabled, maxMessageInterval ) " ++
  cstr "\tSELECT id, ?, ?, ?, '', 0, 500000 \tFROM IVP.plugin"

def PLUGINID_NE : Bytes :=
  cstr "\tAND NOT EXISTS ( \tSELECT * FROM IVP.installedPlugin " ++
  cstr "\tWHERE pluginId = IVP.plugin.id \t)"

def PLUGIN_DELETE : Bytes := cstr "\tDELETE FROM IVP.plugin"
def IPLUGIN_DELETE : Bytes := cstr "\tDELETE FROM IVP.installedPlugin"

def LIST_QUERY : Bytes :=
  cstr "\tSELECT IVP.plugin.id, name, description, version, coalesce(enabled, -1), " ++
  cstr "\tpath, exeName, manifestName, \tmaxMessageInterval, commandLineParameters " ++
  cstr "\tFROM IVP.plugin " ++
  cstr "\tLEFT JOIN IVP.installedPlugin ON IVP.plugin.id = IVP.installedPlugin.pluginId"

def STATE_QUERY : Bytes :=
  cstr "\tSELECT name, `key`, value \tFROM IVP.pluginStatus " ++
  cstr "\tLEFT JOIN IVP.plugin ON IVP.pluginStatus.pluginId = IVP.plugin.id"

def MAX_UPDATE_STMT : Bytes := cstr "\tUPDATE IVP.installedPlugin \tSET maxMessageInterval = ?"
def ARGS_UPDATE_STMT : Bytes := cstr "\tUPDATE IVP.installedPlugin \tSET commandLineParameters = ?"

def MESSAGE_ACTIVITY_QUERY : Bytes :=
  cstr "\tSELECT IVP.plugin.name, IVP.messageType.type, IVP.messageType.subtype, " ++
  cstr "IVP.messageActivity.id, count, lastReceivedTimestamp, averageInterval " ++
  cstr "\tFROM IVP.messageActivity " ++
  cstr "\tINNER JOIN IVP.plugin ON IVP.messageActivity.pluginId = IVP.plugin.id " ++
  cstr "\tINNER JOIN IVP.messageType ON IVP.messageActivity.messageTypeId = IVP.messageType.id"

def INSTPLUGIN_DELETE_STMT : Bytes := cstr "\tDELETE FROM IVP.installedPlugin"
def PLUGIN_DELETE_STMT : Bytes := cstr "\tDELETE FROM IVP.plugin \tWHERE name = ?"

end Queries

/-- The alternatives of the two functions below, one for each plugin. -/
def nameConstraints (count : ℕ) : Bytes :=
  (List.range count).flatMap fun i =>
    (if 0 < i then cstr " OR " else []) ++ cstr "lower(name) like ?"

def add_constraint (query : Bytes) (plugins : List Bytes) (col : Bytes) : Bytes :=
  if 0 < plugins.length then
    query ++ cstr " WHERE " ++ col ++ cstr " IN ( " ++ cstr " SELECT id" ++
      cstr " FROM IVP.plugin" ++ cstr " WHERE " ++ nameConstraints plugins.length ++ cstr " )"
  else query

def add_subconstraint (query : Bytes) (plugins : List Bytes) : Bytes :=
  if 0 < plugins.length then query ++ cstr " WHERE " ++ nameConstraints plugins.length else query

/-- The default of the parameter `col`. -/
def pluginId : Bytes := cstr "pluginId"

/-- A statement when it is executed: its text and the calls of `setString` made before. -/
structure Statement where
  query : Bytes
  params : List (ℕ × Bytes)

/-- The loop that binds the plugins from parameter `k` on. -/
def bindPlugins (k : ℕ) (plugins : List Bytes) : List (ℕ × Bytes) :=
  (List.range plugins.length).map fun i => (i + k, plugins.getD i [])

structure ConfigItem where
  key : Bytes
  default : Bytes
  description : Bytes

/-- What `load_manifest` takes from the manifest and from its path. -/
structure Manifest where
  name : Bytes
  description : Bytes
  version : Bytes
  exeLocation : Bytes
  pluginPath : Bytes
  manifestFile : Bytes
  configuration : List ConfigItem

/-- The options of the command line, and what the operations find around them: whether they are
permitted, the manifest where it can be read, and whether the Debian package manager removes the
plugin. -/
structure Options where
  checkPerm : Bool
  key : Option Bytes
  value : Option Bytes
  defaultValue : Bytes
  description : Bytes
  maxMessageInterval : Bytes
  args : Bytes
  pluginRemove : Bytes
  manifest : Option Manifest
  debianPackage : Bool

namespace TmxControl
variable (opts : Options) (plugins : List Bytes)

def list : List Statement :=
  [⟨add_constraint LIST_QUERY plugins (cstr "IVP.plugin.id"), bindPlugins 1 plugins⟩]

def state : List Statement :=
  [⟨add_constraint STATE_QUERY plugins pluginId ++ cstr " AND `key` <> ''" ++
    cstr " AND substr(name, 1, 8) <> 'ivpcore.'", bindPlugins 1 plugins⟩]

def config : List Statement :=
  [⟨add_constraint CONFIG_QUERY plugins pluginId ++ cstr " ORDER BY name", bindPlugins 1 plugins⟩]

def messages : List Statement :=
  [⟨add_constraint MESSAGE_ACTIVITY_QUERY plugins pluginId ++
    cstr " ORDER BY IVP.plugin.name, IVP.messageType.type, IVP.messageType.subtype, " ++
    cstr "IVP.messageActivity.id", bindPlugins 1 plugins⟩]

def max_message_interval : List Statement :=
  if opts.checkPerm then
    [⟨add_constraint MAX_UPDATE_STMT plugins pluginId,
      (1, opts.maxMessageInterval) :: bindPlugins 2 plugins⟩]
  else []

def args : List Statement :=
  if opts.checkPerm then
    [⟨add_constraint ARGS_UPDATE_STMT plugins pluginId,
      (1, opts.args) :: bindPlugins 2 plugins⟩]
  else []

def set : List Statement :=
  if opts.checkPerm then
    match opts.key, opts.value with
    | some key, some val =>
      if key = [] then []
      else
        [⟨add_constraint CFG_UPDATE plugins pluginId ++ cstr " AND `key` = ?",
          (1, val) :: bindPlugins 2 plugins ++ [(plugins.length + 2, key)]⟩,
         ⟨add_constraint CFG_INSERT plugins (cstr "id") ++ CFG_KEY_NE,
          (1, key) :: (2, val) :: (3, opts.defaultValue) :: (4, opts.description) ::
            bindPlugins 5 plugins ++ [(plugins.length + 5, key)]⟩]
    | _, _ => []
  else []

/-- `query.replace(pos, len, str)` -/
def replace (query : Bytes) (pos len : ℕ) (str : Bytes) : Bytes :=
  query.take pos ++ str ++ query.drop (pos + len)

def reset : List Statement :=
  if opts.checkPerm then
    let query := replace (add_constraint CFG_UPDATE plugins pluginId) (CFG_UPDATE.length - 1) 1
      (cstr "defaultValue")
    match opts.key with
    | some key =>
      if key = [] then []
      else
        [⟨query ++ cstr " AND `key` = ?",
          bindPlugins 1 plugins ++ [(plugins.length + 1, key)]⟩]
    | none => []
  else []

def remove : List Statement :=
  if opts.checkPerm then
    [⟨add_constraint IPLUGIN_DELETE plugins pluginId, bindPlugins 1 plugins⟩,
     ⟨add_subconstraint PLUGIN_DELETE plugins, bindPlugins 1 plugins⟩]
  else []

def tolower (c : UInt8) : UInt8 := if 65 ≤ c ∧ c ≤ 90 then c + 32 else c

/-- The statements of `load_manifest` for one item of the configuration. -/
def load_manifest_item (self : List Bytes) (cfg : ConfigItem) : List Statement :=
  if cfg.key = [] then []
  else
    [⟨add_constraint CFG_INFO_UPDATE self (cstr "id") ++ cstr " AND `key` = ?",
      (1, cfg.default) :: (2, cfg.description) ::
        bindPlugins 3 self ++ [(self.length + 3, cfg.key)]⟩,
     ⟨add_constraint CFG_INSERT self (cstr "id") ++ CFG_KEY_NE,
      (1, cfg.key) :: (2, cfg.default) :: (3, cfg.default) :: (4, cfg.description) ::
        bindPlugins 5 self ++ [(self.length + 5, cfg.key)]⟩]

def load_manifest : List Statement :=
  if opts.checkPerm then
    match opts.manifest with
    | some m =>
      if m.name = [] then []
      else
        let self := [m.name.map tolower]
        [⟨PLUGIN_UPDATE, [(1, m.description), (2, m.version), (3, m.name)]⟩,
         ⟨PLUGIN_INSERT, [(1, m.name), (2, m.description), (3, m.version), (4, m.name)]⟩,
         ⟨add_constraint IPLUGIN_UPDATE self pluginId,
          (1, m.pluginPath) :: (2, m.exeLocation) :: (3, m.manifestFile) :: bindPlugins 4 self⟩,
         ⟨add_constraint IPLUGIN_INSERT self (cstr "id") ++ PLUGINID_NE,
          (1, m.pluginPath) :: (2, m.exeLocation) :: (3, m.manifestFile) :: bindPlugins 4 self⟩] ++
        m.configuration.flatMap (load_manifest_item self)
    | none => []
  else []

/-- The statement that deletes the installed plugin is executed as it was prepared. -/
def plugin_remove : List Statement :=
  if opts.checkPerm then
    let plugins := [opts.pluginRemove]
    let query := add_constraint INSTPLUGIN_DELETE_STMT plugins pluginId
    list plugins ++
      if opts.debianPackage then []
      else [⟨query, []⟩, ⟨PLUGIN_DELETE_STMT, [(1, opts.pluginRemove)]⟩]
  else []

end TmxControl

inductive Operation where
  | list
  | state
  | config
  | messages
  | max_message_interval
  | args
  | set
  | reset
  | remove
  | load_manifest
  | plugin_remove
  deriving DecidableEq

/-- The statements that an operation executes, unless the database throws an exception on the
way. -/
def statements (opts : Options) (plugins : List Bytes) : Operation → List Statement
  | .list => TmxControl.list plugins
  | .state => TmxControl.state plugins
  | .config => TmxControl.config plugins
  | .messages => TmxControl.messages plugins
  | .max_message_interval => TmxControl.max_message_interval opts plugins
  | .args => TmxControl.args opts plugins
  | .set => TmxControl.set opts plugins
  | .reset => TmxControl.reset opts plugins
  | .remove => TmxControl.remove opts plugins
  | .load_manifest => TmxControl.load_manifest opts
  | .plugin_remove => TmxControl.plugin_remove opts

end V2IHub.Control
