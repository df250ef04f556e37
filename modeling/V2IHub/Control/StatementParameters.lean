import V2IHub.Control.TmxControl

/-! Which value each placeholder of a statement gets. -/
namespace V2IHub.Control
open Foundation Sql

/-- What the placeholders of a statement call for: the values of columns, and the patterns of the
plugins in their order. -/
structure Request where
  columns : List (Bytes × Bytes)
  patterns : List Bytes

/-- The parameters are as many as the placeholders, and each has the value that its place calls
for. -/
def WellBound (r : Request) (s : Statement) : Prop :=
  ∃ values, assign r.columns (placeholders s.query) r.patterns = some values ∧
    s.params = numbered 1 values

theorem WellBound.placeholders_length {r : Request} {s : Statement} (h : WellBound r s) :
    (placeholders s.query).length = s.params.length := by
  obtain ⟨values, hassign, hparams⟩ := h
  rw [hparams, length_numbered, length_of_assign hassign]

section Texts
variable {plugins : List Bytes}

/-- Before the first name constraint. -/
def named : Lexer × Clause :=
  (.plain [], .conditions (some (.word (cstr "IVP.plugin"))) (some (.word (cstr "WHERE"))))

/-- Behind a name constraint. -/
def liked : Lexer × Clause :=
  (.plain [], .conditions (some (.word (cstr "like"))) (some (.symbol 63)))

theorem nameConstraints_succ (n : ℕ) :
    nameConstraints (n + 1) = cstr "lower(name) like ?" ++
      (List.replicate n (cstr " OR lower(name) like ?")).flatten := by
  have htail : ((List.range n).map Nat.succ).flatMap (fun i =>
      (if 0 < i then cstr " OR " else []) ++ cstr "lower(name) like ?") =
        (List.replicate n (cstr " OR lower(name) like ?")).flatten := by
    have hor : cstr " OR " ++ cstr "lower(name) like ?" = cstr " OR lower(name) like ?" := by decide
    rw [List.flatMap_map]
    simp only [Nat.succ_pos, if_true, hor]
    rw [List.flatMap_def, List.map_const', List.length_range]
  rw [nameConstraints, List.range_succ_eq_map, List.flatMap_cons, htail]
  rfl

theorem run_nameConstraints (hplugins : plugins ≠ []) :
    scanner.run named (nameConstraints plugins.length) =
      (liked, List.replicate plugins.length (some .pattern)) := by
  obtain ⟨p, rest, rfl⟩ := List.exists_cons_of_ne_nil hplugins
  have hfirst : scanner.run named (cstr "lower(name) like ?") = (liked, [some .pattern]) := by
    decide +kernel
  have hnext : scanner.run liked (cstr " OR lower(name) like ?") = (liked, [some .pattern]) := by
    decide +kernel
  have hrest := Transducer.run_repeat hnext rest.length
  rw [List.length_cons, nameConstraints_succ, Transducer.run_append_eq hfirst hrest]
  simp [List.replicate_succ]

theorem placeholders_constrained {front tail : Bytes} {before after : List (Option Role)}
    (hfront : scanner.run (.plain [], .start) front = (named, before))
    (htail : (scanner.run liked tail).2 = after) (hplugins : plugins ≠ []) :
    placeholders (front ++ nameConstraints plugins.length ++ tail) =
      before ++ List.replicate plugins.length (some .pattern) ++ after := by
  have hnames := Transducer.run_append_eq hfront (run_nameConstraints hplugins)
  have hall := Transducer.run_append_eq (b := tail) hnames rfl
  rw [placeholders, hall, ← htail]

/-- What `add_constraint` puts before the names of the plugins. -/
def constraintFront (query col : Bytes) : Bytes :=
  query ++ cstr " WHERE " ++ col ++ cstr " IN ( " ++ cstr " SELECT id" ++ cstr " FROM IVP.plugin" ++
    cstr " WHERE "

theorem add_constraint_eq (query col : Bytes) (hplugins : plugins ≠ []) :
    add_constraint query plugins col =
      constraintFront query col ++ nameConstraints plugins.length ++ cstr " )" :=
  if_pos (List.length_pos_iff.mpr hplugins)

theorem add_subconstraint_eq (query : Bytes) (hplugins : plugins ≠ []) :
    add_subconstraint query plugins =
      query ++ cstr " WHERE " ++ nameConstraints plugins.length ++ [] := by
  rw [List.append_nil]
  exact if_pos (List.length_pos_iff.mpr hplugins)

theorem bindPlugins_eq (k : ℕ) (plugins : List Bytes) :
    bindPlugins k plugins = numbered k plugins := by
  induction plugins generalizing k with
  | nil => rfl
  | cons p plugins ih =>
    rw [numbered, ← ih, bindPlugins, List.length_cons, List.range_succ_eq_map]
    simp [bindPlugins, Function.comp_def, Nat.add_right_comm, Nat.add_assoc]

end Texts

section Binding
variable {plugins : List Bytes}

def columnRoles (names : List Bytes) : List (Option Role) :=
  names.map fun name => some (.column name)

/-- The text leads to the names of the plugins, behind placeholders for these columns. -/
def Opens (front : Bytes) (names : List Bytes) : Prop :=
  scanner.run (.plain [], .start) front = (named, columnRoles names)

/-- The text has placeholders for these columns, behind the names of the plugins. -/
def Closes (tail : Bytes) (names : List Bytes) : Prop :=
  (scanner.run liked tail).2 = columnRoles names

/-- A statement with columns before the plugins and columns behind them. -/
theorem wellBound_constrained {front tail : Bytes} {columns : List (Bytes × Bytes)}
    (before after values values' : List Bytes) {params : List (ℕ × Bytes)}
    (hfront : Opens front before) (htail : Closes tail after) (hplugins : plugins ≠ [])
    (hbefore : (before.map fun name => columns.lookup name) = values.map some)
    (hafter : (after.map fun name => columns.lookup name) = values'.map some)
    (hparams : params = numbered 1 values ++ bindPlugins (values.length + 1) plugins ++
      numbered (values.length + 1 + plugins.length) values') :
    WellBound ⟨columns, plugins⟩ ⟨front ++ nameConstraints plugins.length ++ tail, params⟩ := by
  refine ⟨values ++ (plugins ++ values'), ?_, ?_⟩
  · have hend := assign_columns [] [] hafter
    rw [List.append_nil] at hend
    simp only [placeholders_constrained hfront htail hplugins, columnRoles]
    rw [List.append_assoc, assign_columns _ _ hbefore, assign_patterns, hend]
    simp [assign]
  · rw [hparams, bindPlugins_eq, numbered_append, numbered_append, List.append_assoc]
    simp only [Nat.add_comm 1, Nat.add_right_comm, List.append_assoc]

/-- What `wellBound_constrained` says of a query with the constraint and something behind it. -/
theorem wellBound_add_constraint {query col tail : Bytes} {columns : List (Bytes × Bytes)}
    (before after values values' : List Bytes) {params : List (ℕ × Bytes)}
    (hfront : Opens (constraintFront query col) before) (htail : Closes (cstr " )" ++ tail) after)
    (hplugins : plugins ≠ [])
    (hbefore : (before.map fun name => columns.lookup name) = values.map some)
    (hafter : (after.map fun name => columns.lookup name) = values'.map some)
    (hparams : params = numbered 1 values ++ bindPlugins (values.length + 1) plugins ++
      numbered (values.length + 1 + plugins.length) values') :
    WellBound ⟨columns, plugins⟩ ⟨add_constraint query plugins col ++ tail, params⟩ := by
  rw [add_constraint_eq query col hplugins, List.append_assoc _ (cstr " )")]
  exact wellBound_constrained before after values values' hfront htail hplugins hbefore hafter
    hparams

/-- The same with nothing behind the constraint. -/
theorem wellBound_add_constraint_end {query col : Bytes} {columns : List (Bytes × Bytes)}
    (before values : List Bytes) {params : List (ℕ × Bytes)}
    (hfront : Opens (constraintFront query col) before) (hplugins : plugins ≠ [])
    (hbefore : (before.map fun name => columns.lookup name) = values.map some)
    (hparams : params = numbered 1 values ++ bindPlugins (values.length + 1) plugins) :
    WellBound ⟨columns, plugins⟩ ⟨add_constraint query plugins col, params⟩ := by
  have htail : Closes (cstr " )" ++ []) [] := by
    rw [Closes, cstr_ofList]
    decide +kernel
  have hall : params = numbered 1 values ++ bindPlugins (values.length + 1) plugins ++
      numbered (values.length + 1 + plugins.length) [] := by
    rw [hparams, numbered, List.append_nil]
  have h := wellBound_add_constraint before [] values [] hfront htail hplugins hbefore rfl hall
  rwa [List.append_nil] at h

/-- A statement about one plugin, without a constraint. -/
theorem wellBound_plain {query : Bytes} {columns : List (Bytes × Bytes)}
    (names values : List Bytes) (hquery : placeholders query = columnRoles names)
    (hnames : (names.map fun name => columns.lookup name) = values.map some) :
    WellBound ⟨columns, []⟩ ⟨query, numbered 1 values⟩ := by
  refine ⟨values, ?_, rfl⟩
  have h := assign_columns [] [] hnames
  rw [List.append_nil] at h
  simp only [hquery, columnRoles]
  rw [h]
  simp [assign]

end Binding

/-- The statements are bound as the requests want, one after the other. -/
def AllBound : List Request → List Statement → Prop
  | _, [] => True
  | [], _ :: _ => False
  | r :: rs, s :: ss => WellBound r s ∧ AllBound rs ss

theorem allBound_nil (rs : List Request) : AllBound rs [] := by
  cases rs <;> trivial

theorem allBound_append {rs rs' : List Request} {ss ss' : List Statement}
    (h : List.Forall₂ WellBound rs ss) (h' : AllBound rs' ss') :
    AllBound (rs ++ rs') (ss ++ ss') := by
  induction h with
  | nil => exact h'
  | cons hfirst _ ih => exact ⟨hfirst, ih⟩

section Requests
variable (opts : Options) (plugins : List Bytes)

def configRequest (key value defaultValue description : Bytes) (patterns : List Bytes) : Request :=
  ⟨[(cstr "key", key), (cstr "value", value), (cstr "defaultValue", defaultValue),
    (cstr "description", description)], patterns⟩

def manifestItemRequests (self : List Bytes) (cfg : ConfigItem) : List Request :=
  if cfg.key = [] then []
  else List.replicate 2 (configRequest cfg.key cfg.default cfg.default cfg.description self)

def pluginRequest (m : Manifest) : Request :=
  ⟨[(cstr "name", m.name), (cstr "description", m.description), (cstr "version", m.version)], []⟩

def installedRequest (m : Manifest) (self : List Bytes) : Request :=
  ⟨[(cstr "path", m.pluginPath), (cstr "exeName", m.exeLocation),
    (cstr "manifestName", m.manifestFile)], self⟩

def manifestRequests (m : Manifest) : List Request :=
  let self := [m.name.map TmxControl.tolower]
  [pluginRequest m, pluginRequest m, installedRequest m self, installedRequest m self] ++
    m.configuration.flatMap (manifestItemRequests self)

/-- What the statements of an operation are for, one by one. -/
def requests : Operation → List Request
  | .list => [⟨[], plugins⟩]
  | .state => [⟨[], plugins⟩]
  | .config => [⟨[], plugins⟩]
  | .messages => [⟨[], plugins⟩]
  | .max_message_interval => [⟨[(cstr "maxMessageInterval", opts.maxMessageInterval)], plugins⟩]
  | .args => [⟨[(cstr "commandLineParameters", opts.args)], plugins⟩]
  | .set =>
    List.replicate 2 (configRequest (opts.key.getD []) (opts.value.getD []) opts.defaultValue
      opts.description plugins)
  | .reset => [⟨[(cstr "key", opts.key.getD [])], plugins⟩]
  | .remove => [⟨[], plugins⟩, ⟨[], plugins⟩]
  | .load_manifest => (opts.manifest.map manifestRequests).getD []
  | .plugin_remove =>
    [⟨[], [opts.pluginRemove]⟩, ⟨[], [opts.pluginRemove]⟩,
      ⟨[(cstr "name", opts.pluginRemove)], []⟩]

end Requests

/-- How the texts of the statements begin and end. -/
structure Scans : Prop where
  list : Opens (constraintFront LIST_QUERY (cstr "IVP.plugin.id")) []
  state : Opens (constraintFront STATE_QUERY pluginId) []
  config : Opens (constraintFront CONFIG_QUERY pluginId) []
  messages : Opens (constraintFront MESSAGE_ACTIVITY_QUERY pluginId) []
  max_message_interval :
    Opens (constraintFront MAX_UPDATE_STMT pluginId) [cstr "maxMessageInterval"]
  args : Opens (constraintFront ARGS_UPDATE_STMT pluginId) [cstr "commandLineParameters"]
  update : Opens (constraintFront CFG_UPDATE pluginId) [cstr "value"]
  insert : Opens (constraintFront CFG_INSERT (cstr "id"))
    [cstr "key", cstr "value", cstr "defaultValue", cstr "description"]
  info : Opens (constraintFront CFG_INFO_UPDATE (cstr "id"))
    [cstr "defaultValue", cstr "description"]
  /-- The placeholder of the new value is gone. -/
  reset : Opens (TmxControl.replace (constraintFront CFG_UPDATE pluginId) (CFG_UPDATE.length - 1) 1
    (cstr "defaultValue")) []
  installed_update : Opens (constraintFront IPLUGIN_UPDATE pluginId)
    [cstr "path", cstr "exeName", cstr "manifestName"]
  installed_insert : Opens (constraintFront IPLUGIN_INSERT (cstr "id"))
    [cstr "path", cstr "exeName", cstr "manifestName"]
  installed_delete : Opens (constraintFront IPLUGIN_DELETE pluginId) []
  plugin_delete : Opens (PLUGIN_DELETE ++ cstr " WHERE ") []
  end_state : Closes
    (cstr " )" ++ (cstr " AND `key` <> ''" ++ cstr " AND substr(name, 1, 8) <> 'ivpcore.'")) []
  end_config : Closes (cstr " )" ++ cstr " ORDER BY name") []
  end_messages : Closes (cstr " )" ++
    (cstr " ORDER BY IVP.plugin.name, IVP.messageType.type, IVP.messageType.subtype, " ++
      cstr "IVP.messageActivity.id")) []
  end_key : Closes (cstr " )" ++ cstr " AND `key` = ?") [cstr "key"]
  end_key_ne : Closes (cstr " )" ++ CFG_KEY_NE) [cstr "key"]
  end_pluginId_ne : Closes (cstr " )" ++ PLUGINID_NE) []
  plugin_update :
    placeholders PLUGIN_UPDATE = columnRoles [cstr "description", cstr "version", cstr "name"]
  plugin_insert : placeholders PLUGIN_INSERT =
    columnRoles [cstr "name", cstr "description", cstr "version", cstr "name"]

/-- The texts are short: they are run through the scanner. -/
theorem scans : Scans := by
  constructor
  all_goals
    simp only [Opens, Closes, constraintFront, LIST_QUERY, STATE_QUERY, CONFIG_QUERY,
      MESSAGE_ACTIVITY_QUERY, MAX_UPDATE_STMT, ARGS_UPDATE_STMT, CFG_UPDATE, CFG_INSERT,
      CFG_INFO_UPDATE, CFG_KEY_NE, IPLUGIN_UPDATE, IPLUGIN_INSERT, IPLUGIN_DELETE, PLUGIN_DELETE,
      PLUGINID_NE, PLUGIN_UPDATE, PLUGIN_INSERT]
    repeat rw [cstr_ofList]
    decide +kernel

section Operations
variable {opts : Options} {plugins : List Bytes}

theorem wellBound_set (key value defaultValue description : Bytes) (hplugins : plugins ≠ []) :
    WellBound (configRequest key value defaultValue description plugins)
      ⟨add_constraint CFG_UPDATE plugins pluginId ++ cstr " AND `key` = ?",
        (1, value) :: bindPlugins 2 plugins ++ [(plugins.length + 2, key)]⟩ :=
  wellBound_add_constraint [cstr "value"] [cstr "key"] [value] [key] (Scans.update scans)
    (Scans.end_key scans) hplugins rfl rfl (by simp [numbered, Nat.add_comm])

theorem wellBound_insert (key value defaultValue description : Bytes) (hplugins : plugins ≠ []) :
    WellBound (configRequest key value defaultValue description plugins)
      ⟨add_constraint CFG_INSERT plugins (cstr "id") ++ CFG_KEY_NE,
        (1, key) :: (2, value) :: (3, defaultValue) :: (4, description) ::
          bindPlugins 5 plugins ++ [(plugins.length + 5, key)]⟩ :=
  wellBound_add_constraint [cstr "key", cstr "value", cstr "defaultValue", cstr "description"]
    [cstr "key"] [key, value, defaultValue, description] [key] (Scans.insert scans)
    (Scans.end_key_ne scans) hplugins rfl rfl (by simp [numbered, Nat.add_comm])

theorem wellBound_info (key value defaultValue description : Bytes) (hplugins : plugins ≠ []) :
    WellBound (configRequest key value defaultValue description plugins)
      ⟨add_constraint CFG_INFO_UPDATE plugins (cstr "id") ++ cstr " AND `key` = ?",
        (1, defaultValue) :: (2, description) ::
          bindPlugins 3 plugins ++ [(plugins.length + 3, key)]⟩ :=
  wellBound_add_constraint [cstr "defaultValue", cstr "description"] [cstr "key"]
    [defaultValue, description] [key] (Scans.info scans) (Scans.end_key scans) hplugins rfl rfl
    (by simp [numbered, Nat.add_comm])

theorem allBound_list (hplugins : plugins ≠ []) :
    AllBound [⟨[], plugins⟩] (TmxControl.list plugins) :=
  ⟨wellBound_add_constraint_end [] [] (Scans.list scans) hplugins rfl rfl, trivial⟩

theorem allBound_state (hplugins : plugins ≠ []) :
    AllBound [⟨[], plugins⟩] (TmxControl.state plugins) := by
  refine ⟨?_, trivial⟩
  rw [List.append_assoc]
  exact wellBound_add_constraint [] [] [] [] (Scans.state scans) (Scans.end_state scans) hplugins
    rfl rfl (by simp [numbered])

theorem allBound_config (hplugins : plugins ≠ []) :
    AllBound [⟨[], plugins⟩] (TmxControl.config plugins) :=
  ⟨wellBound_add_constraint [] [] [] [] (Scans.config scans) (Scans.end_config scans) hplugins rfl
    rfl (by simp [numbered]), trivial⟩

theorem allBound_messages (hplugins : plugins ≠ []) :
    AllBound [⟨[], plugins⟩] (TmxControl.messages plugins) := by
  refine ⟨?_, trivial⟩
  rw [List.append_assoc]
  exact wellBound_add_constraint [] [] [] [] (Scans.messages scans) (Scans.end_messages scans)
    hplugins rfl rfl (by simp [numbered])

theorem allBound_max_message_interval (hplugins : plugins ≠ []) :
    AllBound (requests opts plugins .max_message_interval)
      (TmxControl.max_message_interval opts plugins) := by
  unfold TmxControl.max_message_interval
  split
  · exact ⟨wellBound_add_constraint_end [cstr "maxMessageInterval"] [opts.maxMessageInterval]
      (Scans.max_message_interval scans) hplugins rfl rfl, trivial⟩
  · trivial

theorem allBound_args (hplugins : plugins ≠ []) :
    AllBound (requests opts plugins .args) (TmxControl.args opts plugins) := by
  unfold TmxControl.args
  split
  · exact ⟨wellBound_add_constraint_end [cstr "commandLineParameters"] [opts.args]
      (Scans.args scans) hplugins rfl rfl, trivial⟩
  · trivial

theorem allBound_set (hplugins : plugins ≠ []) :
    AllBound (requests opts plugins .set) (TmxControl.set opts plugins) := by
  unfold TmxControl.set
  split
  · cases hkey : opts.key with
    | none => trivial
    | some key =>
      cases hval : opts.value with
      | none => trivial
      | some val =>
        simp only
        split
        · trivial
        · simp only [requests, hkey, hval, Option.getD_some]
          exact ⟨wellBound_set key val _ _ hplugins, wellBound_insert key val _ _ hplugins,
            trivial⟩
  · trivial

theorem replace_append {query rest str : Bytes} {pos len : ℕ} (h : pos + len ≤ query.length) :
    TmxControl.replace (query ++ rest) pos len str =
      TmxControl.replace query pos len str ++ rest := by
  have hpos : pos ≤ query.length := by omega
  rw [TmxControl.replace, TmxControl.replace, List.take_append_of_le_length hpos,
    List.drop_append_of_le_length h]
  simp only [List.append_assoc]

theorem allBound_reset (hplugins : plugins ≠ []) :
    AllBound (requests opts plugins .reset) (TmxControl.reset opts plugins) := by
  unfold TmxControl.reset
  split
  · cases hkey : opts.key with
    | none => trivial
    | some key =>
      simp only
      split
      · trivial
      · have hlen : CFG_UPDATE.length - 1 + 1 ≤ (constraintFront CFG_UPDATE pluginId).length := by
          decide +kernel
        refine ⟨?_, trivial⟩
        rw [add_constraint_eq CFG_UPDATE pluginId hplugins, List.append_assoc (constraintFront _ _),
          replace_append hlen, ← List.append_assoc, List.append_assoc _ (cstr " )")]
        exact wellBound_constrained [] [cstr "key"] [] [key] (Scans.reset scans)
          (Scans.end_key scans) hplugins rfl (by simp [hkey, List.lookup_cons])
          (by simp [numbered, Nat.add_comm])
  · trivial

theorem allBound_remove (hplugins : plugins ≠ []) :
    AllBound (requests opts plugins .remove) (TmxControl.remove opts plugins) := by
  unfold TmxControl.remove
  split
  · have hfirst : WellBound ⟨[], plugins⟩
        ⟨add_constraint IPLUGIN_DELETE plugins pluginId, bindPlugins 1 plugins⟩ :=
      wellBound_add_constraint_end [] [] (Scans.installed_delete scans) hplugins rfl rfl
    have hsecond : WellBound ⟨[], plugins⟩
        ⟨add_subconstraint PLUGIN_DELETE plugins, bindPlugins 1 plugins⟩ := by
      rw [add_subconstraint_eq PLUGIN_DELETE hplugins]
      exact wellBound_constrained [] [] [] [] (Scans.plugin_delete scans) rfl hplugins rfl rfl
        (by simp [numbered])
    exact ⟨hfirst, hsecond, trivial⟩
  · trivial

theorem forall₂_load_manifest_item (cfg : ConfigItem) (hplugins : plugins ≠ []) :
    List.Forall₂ WellBound (manifestItemRequests plugins cfg)
      (TmxControl.load_manifest_item plugins cfg) := by
  unfold manifestItemRequests TmxControl.load_manifest_item
  split
  · exact .nil
  · exact .cons (wellBound_info cfg.key cfg.default cfg.default cfg.description hplugins)
      (.cons (wellBound_insert cfg.key cfg.default cfg.default cfg.description hplugins) .nil)

theorem allBound_load_manifest_items (items : List ConfigItem) (hplugins : plugins ≠ []) :
    AllBound (items.flatMap (manifestItemRequests plugins))
      (items.flatMap (TmxControl.load_manifest_item plugins)) := by
  induction items with
  | nil => trivial
  | cons cfg items ih => exact allBound_append (forall₂_load_manifest_item cfg hplugins) ih

theorem wellBound_plugin_update (m : Manifest) :
    WellBound (pluginRequest m)
      ⟨PLUGIN_UPDATE, [(1, m.description), (2, m.version), (3, m.name)]⟩ :=
  wellBound_plain [cstr "description", cstr "version", cstr "name"]
    [m.description, m.version, m.name] (Scans.plugin_update scans) rfl

theorem wellBound_plugin_insert (m : Manifest) :
    WellBound (pluginRequest m)
      ⟨PLUGIN_INSERT, [(1, m.name), (2, m.description), (3, m.version), (4, m.name)]⟩ :=
  wellBound_plain [cstr "name", cstr "description", cstr "version", cstr "name"]
    [m.name, m.description, m.version, m.name] (Scans.plugin_insert scans) rfl

theorem wellBound_installed_update (m : Manifest) (hplugins : plugins ≠ []) :
    WellBound (installedRequest m plugins)
      ⟨add_constraint IPLUGIN_UPDATE plugins pluginId,
        (1, m.pluginPath) :: (2, m.exeLocation) :: (3, m.manifestFile) :: bindPlugins 4 plugins⟩ :=
  wellBound_add_constraint_end [cstr "path", cstr "exeName", cstr "manifestName"]
    [m.pluginPath, m.exeLocation, m.manifestFile] (Scans.installed_update scans) hplugins rfl rfl

theorem wellBound_installed_insert (m : Manifest) (hplugins : plugins ≠ []) :
    WellBound (installedRequest m plugins)
      ⟨add_constraint IPLUGIN_INSERT plugins (cstr "id") ++ PLUGINID_NE,
        (1, m.pluginPath) :: (2, m.exeLocation) :: (3, m.manifestFile) :: bindPlugins 4 plugins⟩ :=
  wellBound_add_constraint [cstr "path", cstr "exeName", cstr "manifestName"] []
    [m.pluginPath, m.exeLocation, m.manifestFile] [] (Scans.installed_insert scans)
    (Scans.end_pluginId_ne scans) hplugins rfl rfl (by simp [numbered])

theorem allBound_load_manifest :
    AllBound (requests opts plugins .load_manifest) (TmxControl.load_manifest opts) := by
  unfold TmxControl.load_manifest
  split
  · cases hmanifest : opts.manifest with
    | none => exact allBound_nil _
    | some m =>
      simp only
      split
      · exact allBound_nil _
      · have hself : [m.name.map TmxControl.tolower] ≠ [] := List.cons_ne_nil _ _
        simp only [requests, hmanifest, Option.map_some, Option.getD_some]
        refine allBound_append ?_ (allBound_load_manifest_items m.configuration hself)
        exact .cons (wellBound_plugin_update m) (.cons (wellBound_plugin_insert m)
          (.cons (wellBound_installed_update m hself)
            (.cons (wellBound_installed_insert m hself) .nil)))
  · exact allBound_nil _

/-- The placeholder of the first statement is left without a parameter. -/
theorem not_wellBound_plugin_remove (name : Bytes) :
    ¬ WellBound ⟨[], [name]⟩ ⟨add_constraint INSTPLUGIN_DELETE_STMT [name] pluginId, []⟩ := by
  rintro ⟨values, hassign, hparams⟩
  have hplugins : [name] ≠ [] := List.cons_ne_nil _ _
  obtain ⟨values', hassign', hparams'⟩ : WellBound ⟨[], [name]⟩
      ⟨add_constraint INSTPLUGIN_DELETE_STMT [name] pluginId, bindPlugins 1 [name]⟩ :=
    wellBound_add_constraint_end [] [] (Scans.installed_delete scans) hplugins rfl rfl
  simp only at hassign hassign' hparams hparams'
  rw [hassign] at hassign'
  obtain rfl := Option.some.inj hassign'
  rw [← hparams] at hparams'
  exact absurd hparams' (by simp [bindPlugins])

theorem allBound_plugin_remove_iff :
    AllBound (requests opts plugins .plugin_remove) (TmxControl.plugin_remove opts) ↔
      opts.checkPerm = false ∨ opts.debianPackage = true := by
  have hlist : AllBound [⟨[], [opts.pluginRemove]⟩] (TmxControl.list [opts.pluginRemove]) :=
    allBound_list (List.cons_ne_nil _ _)
  unfold TmxControl.plugin_remove
  cases hperm : opts.checkPerm
  · simp [allBound_nil]
  · cases hpackage : opts.debianPackage
    · simp only [if_true, Bool.false_eq_true, if_false, or_false, iff_false, reduceCtorEq]
      exact fun h => not_wellBound_plugin_remove opts.pluginRemove h.2.1
    · simp only [if_true, List.append_nil, or_true, iff_true]
      exact ⟨hlist.1, allBound_nil _⟩

end Operations

/-- Every statement has its parameters in their places, unless a plugin is removed and its
statements come to be executed. -/
theorem statements_bound_iff (opts : Options) {plugins : List Bytes} (op : Operation)
    (hplugins : plugins ≠ []) :
    AllBound (requests opts plugins op) (statements opts plugins op) ↔
      (op = .plugin_remove → opts.checkPerm = false ∨ opts.debianPackage = true) := by
  by_cases hremove : op = .plugin_remove
  · subst hremove
    exact ⟨fun h _ => allBound_plugin_remove_iff.mp h, fun h =>
      allBound_plugin_remove_iff.mpr (h rfl)⟩
  · refine iff_of_true ?_ fun h => absurd h hremove
    cases op with
    | list => exact allBound_list hplugins
    | state => exact allBound_state hplugins
    | config => exact allBound_config hplugins
    | messages => exact allBound_messages hplugins
    | max_message_interval => exact allBound_max_message_interval hplugins
    | args => exact allBound_args hplugins
    | set => exact allBound_set hplugins
    | reset => exact allBound_reset hplugins
    | remove => exact allBound_remove hplugins
    | load_manifest => exact allBound_load_manifest
    | plugin_remove => exact absurd rfl hremove

/-- A value is set, and a plugin removed that no package brought. -/
def sampleOptions : Options where
  checkPerm := true
  key := some (cstr "Frequency")
  value := some (cstr "1000")
  defaultValue := []
  description := []
  maxMessageInterval := []
  args := []
  pluginRemove := cstr "MapPlugin"
  manifest := none
  debianPackage := false

theorem allBound_set_sampleOptions :
    AllBound (requests sampleOptions [cstr "map%", cstr "spat%"] .set)
      (statements sampleOptions [cstr "map%", cstr "spat%"] .set) :=
  (statements_bound_iff sampleOptions .set (List.cons_ne_nil _ _)).mpr (by rintro ⟨⟩)

theorem not_allBound_plugin_remove_sampleOptions :
    ¬ AllBound (requests sampleOptions [cstr "%"] .plugin_remove)
      (statements sampleOptions [cstr "%"] .plugin_remove) :=
  fun h => not_wellBound_plugin_remove (cstr "MapPlugin") h.2.1

end V2IHub.Control
