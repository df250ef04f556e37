import V2IHub.Core.PluginConnection

/-! Which exceptions leave the operations of a plugin and the handlers of its connection, and
what of the state they leave alone. -/
namespace V2IHub.Core
open Foundation Api Json Program CoreException

section Operations
variable {D α : Type} (db : Database D)

abbrev ThrowsNothing (p : CoreProgram D α) : Prop := ThrowsOnly p fun _ => False

abbrev ThrowsPluginException (p : CoreProgram D α) : Prop :=
  ThrowsOnly p fun e => isPluginException e = true

theorem ThrowsNothing.weaken {p : CoreProgram D α} (h : ThrowsNothing p) {E : CoreException → Prop} :
    ThrowsOnly p E := h.mono fun _ => False.elim

theorem query_throws (q : Query D α) : ThrowsOnly (query q) fun e => isDbException e = true := by
  intro s _
  rcases hq : q s.db with ⟨what | a, d⟩ <;> simp [query, hq, isDbException]

theorem requireRegistered_bind (what : Bytes) (f : Unit → CoreProgram D α)
    (s : CoreState D) :
    (requireRegistered what >>= f) s =
      if s.plugin.mRegistered then f () s else (.throws (pluginNotRegisteredException what), s) := by
  cases h : s.plugin.mRegistered <;> simp [requireRegistered, bind_run, h]

theorem tryQuery_run (q : Query D Unit) (s : CoreState D) :
    tryQuery q s = (.ok (), { s with db := (q s.db).2 }) := by
  rcases hq : q s.db with ⟨what | a, d⟩ <;>
    simp [tryQuery, Program.tryCatch, query, hq, isDbException]

theorem registeredQuery_run {what : Bytes} {q : PluginEntry → Query D Unit} {s : CoreState D}
    (hreg : s.plugin.mRegistered = true) :
    registeredQuery what q s =
      (.ok (), { s with db := (q s.plugin.mInfo.pluginInfo s.db).2 }) := by
  rw [registeredQuery, requireRegistered_bind, if_pos hreg]
  simp [bind_run, tryQuery_run]

theorem registeredQuery_refused {what : Bytes} {q : PluginEntry → Query D Unit} {s : CoreState D}
    (hreg : s.plugin.mRegistered = false) :
    registeredQuery what q s = (.throws (pluginNotRegisteredException what), s) := by
  rw [registeredQuery, requireRegistered_bind, hreg]
  rfl

theorem tryQuery_throws (q : Query D Unit) : ThrowsNothing (tryQuery q) :=
  (query_throws q).tryCatch fun _ => throwsOnly_pure ()

theorem requireRegistered_throws (what : Bytes) :
    ThrowsPluginException (requireRegistered what : CoreProgram D Unit) := by
  intro s _
  cases h : s.plugin.mRegistered <;> simp [requireRegistered, bind_run, h, isPluginException]

theorem subscribeForMessages_throws (filter : List Router.MessageFilterEntry) :
    ThrowsPluginException (subscribeForMessages filter : CoreProgram D Unit) :=
  (requireRegistered_throws _).bind fun _ => throwsOnly_modify _

theorem registeredQuery_throws (what : Bytes) (q : PluginEntry → Query D Unit) :
    ThrowsPluginException (registeredQuery what q) :=
  (requireRegistered_throws _).bind fun _ => throwsOnly_get.bind fun _ =>
    (tryQuery_throws _).weaken

theorem sendMessageToRouter_throws (msg : IvpMessage) :
    ThrowsPluginException (sendMessageToRouter msg : CoreProgram D Unit) :=
  (requireRegistered_throws _).bind fun _ => throwsOnly_modify _

theorem getAllConfigValues_throws :
    ThrowsPluginException (getAllConfigValues : CoreProgram D ConfigMap) :=
  (requireRegistered_throws _).bind fun _ => throwsOnly_get.bind fun _ => throwsOnly_pure _

theorem getPluginConfigParameters_throws (pluginId : BitVec 32) :
    ThrowsOnly (getPluginConfigParameters db pluginId) fun e => isDbException e = true :=
  (query_throws _).bind fun _ => throwsOnly_pure _

theorem insertMessageTypes_throws (pluginId : BitVec 32) (entries : List MessageTypeEntry) :
    ThrowsOnly (insertMessageTypes db pluginId entries) fun e => isDbException e = true := by
  induction entries with
  | nil => exact throwsOnly_pure _
  | cons entry entries ih =>
    exact (query_throws _).bind fun _ => (query_throws _).bind fun _ => ih.bind fun _ =>
      throwsOnly_pure _

theorem registerInDatabase_throws (info : RegistrationInformation) :
    ThrowsOnly (registerInDatabase db info) fun e => isDbException e = true :=
  (query_throws _).bind fun _ => (query_throws _).bind fun _ =>
    (getPluginConfigParameters_throws db _).bind fun _ =>
    (insertMessageTypes_throws db _ _).bind fun _ => throwsOnly_pure _

theorem announceRegistration_throws : ThrowsPluginException (announceRegistration db) :=
  (registeredQuery_throws _ _).bind fun _ => (registeredQuery_throws _ _).bind fun _ =>
    throwsOnly_get.bind fun _ => sendMessageToRouter_throws _

theorem registerReserved_throws (info : RegistrationInformation) :
    ThrowsPluginException (registerReserved db info) := by
  refine ThrowsOnly.bind ((registerInDatabase_throws db info).tryCatch fun e =>
    throwsOnly_throw rfl) fun r => ?_
  exact (throwsOnly_modify _).bind fun _ => announceRegistration_throws db

theorem registerPlugin_throws (info : RegistrationInformation) :
    ThrowsPluginException (registerPlugin db info) := by
  refine throwsOnly_get.bind fun s => ?_
  split_ifs
  · exact throwsOnly_throw rfl
  · exact throwsOnly_throw rfl
  · exact (throwsOnly_modify _).bind fun _ => registerReserved_throws db info

end Operations

section Handlers
variable {D : Type} (db : Database D)

theorem onMessageReceived_throws (msg : IvpMessage) :
    ThrowsNothing (onMessageReceived msg : CoreProgram D Unit) := throwsOnly_modify _

theorem onConfigChanged_throws (key value : Bytes) :
    ThrowsNothing (onConfigChanged key value : CoreProgram D Unit) :=
  (throwsOnly_deref _).bind fun _ => throwsOnly_get.bind fun _ => onMessageReceived_throws _

theorem sendError_throws (level : IvpLogLevel) :
    ThrowsNothing (sendError level : CoreProgram D Unit) :=
  throwsOnly_get.bind fun _ => onMessageReceived_throws _

theorem stdString_throws {p : Option Bytes} (h : p.isSome) :
    ThrowsNothing (stdString p : CoreProgram D Bytes) := by
  obtain ⟨s, rfl⟩ := Option.isSome_iff_exists.mp h
  exact throwsOnly_pure s

theorem manifestConfigEntries_throws {items : List CJson}
    (h : ∀ json ∈ items, (IvpConfig.getItem json).key.isSome ∧
      (IvpConfig.getItem json).defaultValue.isSome) :
    ThrowsNothing (manifestConfigEntries items :
      CoreProgram D (List PluginConfigurationParameterEntry)) := by
  induction items with
  | nil => exact throwsOnly_pure _
  | cons json items ih =>
    have hjson := h json (by simp)
    exact (stdString_throws hjson.1).bind fun _ => (stdString_throws hjson.2).bind fun _ =>
      (ih fun json' hj => h json' (by simp [hj])).bind fun _ => throwsOnly_pure _

theorem manifestMessageTypes_throws {items : List CJson}
    (h : ∀ json ∈ items, (IvpMsgType.getEntry json).type.isSome ∧
      (IvpMsgType.getEntry json).subtype.isSome) :
    ThrowsNothing (manifestMessageTypes items : CoreProgram D (List MessageTypeEntry)) := by
  induction items with
  | nil => exact throwsOnly_pure _
  | cons json items ih =>
    have hjson := h json (by simp)
    exact (stdString_throws hjson.1).bind fun _ => (stdString_throws hjson.2).bind fun _ =>
      (ih fun json' hj => h json' (by simp [hj])).bind fun _ => throwsOnly_pure _

theorem registrationInformation_throws (fresh : BitVec 32) {manifest : IvpManifest}
    (h : (IvpRegister.validateManifest manifest).isNone = true) :
    ThrowsNothing (registrationInformation fresh manifest :
      CoreProgram D RegistrationInformation) := by
  obtain ⟨-, hconfig, htypes⟩ := IvpRegister.validateManifest_isNone h
  obtain ⟨items, hitems, hconfig⟩ := IvpConfig.validate_getItems hconfig
  obtain ⟨entries, hentries, htypes⟩ := IvpMsgType.validateCollection_getEntries htypes
  simp only [registrationInformation, hitems, hentries, deref_some_bind]
  exact (manifestConfigEntries_throws (IvpConfig.validateItems_fields hconfig)).bind fun _ =>
    (manifestMessageTypes_throws (IvpMsgType.validateEntries_fields htypes)).bind fun _ =>
      throwsOnly_pure _

theorem changedValues_throws (collection : Option CJson)
    (entries : List (Bytes × PluginConfigurationParameterEntry)) :
    ThrowsNothing (changedValues collection entries : CoreProgram D (Option CJson)) := by
  induction entries generalizing collection with
  | nil => exact throwsOnly_pure _
  | cons e entries ih =>
    rw [changedValues]
    split_ifs
    · exact (throwsOnly_deref _).bind fun _ => ih _
    · exact ih _

theorem sendConfigValues_throws (configEntries : ConfigMap) :
    ThrowsNothing (sendConfigValues configEntries : CoreProgram D Unit) :=
  (changedValues_throws _ _).bind fun _ => throwsOnly_get.bind fun _ => onMessageReceived_throws _

theorem processRegistrationMessage_throws (fresh : BitVec 32) (msg : IvpMessage) :
    ThrowsNothing (processRegistrationMessage db fresh msg) := by
  refine (throwsOnly_deref _).bind fun payload => ?_
  by_cases hvalid : (IvpRegister.validateManifest
      (IvpRegister.getManifestFromJson payload)).isNone = true
  · rw [if_pos hvalid]
    refine (registrationInformation_throws fresh hvalid).bind fun info => ?_
    refine ThrowsOnly.tryCatch ?_ fun _ => sendError_throws _
    exact (registerPlugin_throws db info).bind fun _ => getAllConfigValues_throws.bind fun _ =>
      (sendConfigValues_throws _).weaken
  · rw [if_neg hvalid]
    exact throwsOnly_pure _

theorem processSubscribeMessage_throws (msg : IvpMessage) :
    ThrowsNothing (processSubscribeMessage msg : CoreProgram D Unit) :=
  (subscribeForMessages_throws _).tryCatch fun _ => sendError_throws _

theorem routeMessage_throws (msg : IvpMessage) :
    ThrowsNothing (routeMessage msg : CoreProgram D Unit) :=
  (sendMessageToRouter_throws _).tryCatch fun _ => sendError_throws _

theorem collectStatusItems_throws (removeItems : List Bytes) (updateItems : OrderedMap Bytes Bytes)
    (items : List CJson) :
    ThrowsNothing (collectStatusItems removeItems updateItems items :
      CoreProgram D (List Bytes × OrderedMap Bytes Bytes)) := by
  induction items generalizing removeItems updateItems with
  | nil => exact throwsOnly_pure _
  | cons json items ih =>
    cases hvalue : (IvpPluginStatus.getItem json).value with
    | none =>
      simp only [collectStatusItems, hvalue]
      exact (throwsOnly_deref _).bind fun _ => ih _ _
    | some value =>
      simp only [collectStatusItems, hvalue]
      exact ih _ _

theorem processStatusMessage_throws (msg : IvpMessage) :
    ThrowsNothing (processStatusMessage db msg) := by
  refine (throwsOnly_deref _).bind fun _ => (collectStatusItems_throws _ _ _).bind fun items => ?_
  have hset : ThrowsPluginException (setStatusItems db items.2) := registeredQuery_throws _ _
  exact (hset.bind fun _ => registeredQuery_throws _ _).tryCatch fun _ => throwsOnly_pure ()

theorem replaceConfigEntry_throws (key : Bytes) (entry newEntry : PluginConfigurationParameterEntry) :
    ThrowsNothing (replaceConfigEntry key entry newEntry : CoreProgram D Unit) := by
  unfold replaceConfigEntry
  split_ifs
  · exact (throwsOnly_modify _).bind fun _ => onConfigChanged_throws _ _
  · exact throwsOnly_pure _

theorem updateConfigValues_throws (configMap : ConfigMap)
    (entries : List (Bytes × PluginConfigurationParameterEntry)) :
    ThrowsNothing (updateConfigValues configMap entries : CoreProgram D ConfigMap) := by
  induction entries generalizing configMap with
  | nil => exact throwsOnly_pure _
  | cons e entries ih =>
    cases hfind : configMap.find e.1 with
    | none =>
      simp only [updateConfigValues, hfind]
      exact ih _
    | some newEntry =>
      simp only [updateConfigValues, hfind]
      exact (replaceConfigEntry_throws _ _ _).bind fun _ => ih _

theorem configMonitorPass_throws : ThrowsNothing (configMonitorPass db) := by
  refine throwsOnly_get.bind fun s => ?_
  split_ifs
  · refine ThrowsOnly.bind (((getPluginConfigParameters_throws db _).bind fun _ =>
      throwsOnly_pure _).tryCatch fun _ => throwsOnly_pure none) fun configMap => ?_
    cases configMap with
    | none => exact throwsOnly_pure _
    | some configMap =>
      refine (updateConfigValues_throws _ _).bind fun newEntries => ?_
      exact throwsOnly_forEach fun e _ => (throwsOnly_modify _).bind fun _ =>
        onConfigChanged_throws _ _
  · exact throwsOnly_pure _

end Handlers

section Frame
variable {D γ : Type} (db : Database D) {g : CoreState D → γ}

theorem requireRegistered_preserves (what : Bytes) :
    Preserves g (requireRegistered what : CoreProgram D Unit) := by
  refine preserves_get.bind fun s => ?_
  split_ifs
  · exact preserves_pure _
  · exact preserves_throw _

theorem stdString_preserves (p : Option Bytes) :
    Preserves g (stdString p : CoreProgram D Bytes) := by
  cases p with
  | some s => exact preserves_pure _
  | none => exact preserves_throw _

theorem manifestConfigEntries_preserves (items : List CJson) :
    Preserves g (manifestConfigEntries items :
      CoreProgram D (List PluginConfigurationParameterEntry)) := by
  induction items with
  | nil => exact preserves_pure _
  | cons json items ih =>
    exact (stdString_preserves _).bind fun _ => (stdString_preserves _).bind fun _ =>
      ih.bind fun _ => preserves_pure _

theorem manifestMessageTypes_preserves (items : List CJson) :
    Preserves g (manifestMessageTypes items : CoreProgram D (List MessageTypeEntry)) := by
  induction items with
  | nil => exact preserves_pure _
  | cons json items ih =>
    exact (stdString_preserves _).bind fun _ => (stdString_preserves _).bind fun _ =>
      ih.bind fun _ => preserves_pure _

theorem registrationInformation_preserves (fresh : BitVec 32) (manifest : IvpManifest) :
    Preserves g (registrationInformation fresh manifest :
      CoreProgram D RegistrationInformation) :=
  (preserves_deref _).bind fun _ => (manifestConfigEntries_preserves _).bind fun _ =>
    (preserves_deref _).bind fun _ => (manifestMessageTypes_preserves _).bind fun _ =>
      preserves_pure _

variable (hg : ∀ s d, g { s with db := d } = g s)
include hg

theorem query_preserves {α : Type} (q : Query D α) : Preserves g (query q) := by
  intro s
  rcases hq : q s.db with ⟨what | a, d⟩ <;> simp [query, hq, hg]

theorem insertMessageTypes_preserves (pluginId : BitVec 32) (entries : List MessageTypeEntry) :
    Preserves g (insertMessageTypes db pluginId entries) := by
  induction entries with
  | nil => exact preserves_pure _
  | cons entry entries ih =>
    exact (query_preserves hg _).bind fun _ => (query_preserves hg _).bind fun _ => ih.bind fun _ =>
      preserves_pure _

theorem registerInDatabase_preserves (info : RegistrationInformation) :
    Preserves g (registerInDatabase db info) :=
  (query_preserves hg _).bind fun _ => (query_preserves hg _).bind fun _ =>
    ((query_preserves hg _).bind fun _ => preserves_pure _).bind fun _ =>
    (insertMessageTypes_preserves db hg _ _).bind fun _ => preserves_pure _

theorem registeredQuery_preserves (what : Bytes) (q : PluginEntry → Query D Unit) :
    Preserves g (registeredQuery what q) :=
  (requireRegistered_preserves _).bind fun _ => preserves_get.bind fun _ =>
    (query_preserves hg _).tryCatch fun _ => preserves_pure ()

theorem announceRegistration_preserves
    (hrouted : ∀ s routed, g { s with routed := routed } = g s) :
    Preserves g (announceRegistration db) := by
  refine (registeredQuery_preserves hg _ _).bind fun _ => (registeredQuery_preserves hg _ _).bind
    fun _ => preserves_get.bind fun _ => (requireRegistered_preserves _).bind fun _ =>
      preserves_modify fun s => ?_
  exact hrouted s _

end Frame
end V2IHub.Core
