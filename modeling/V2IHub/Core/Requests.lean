import V2IHub.Core.Robustness

/-! What the handlers of a plugin's requests leave alone. -/
namespace V2IHub.Core
open Foundation Api Json Program

section Queries
variable {D γ : Type} {g : CoreState D → γ} (db : Database D)

theorem collectStatusItems_preserves (removeItems : List Bytes)
    (updateItems : OrderedMap Bytes Bytes) (items : List CJson) :
    Preserves g (collectStatusItems removeItems updateItems items :
      CoreProgram D (List Bytes × OrderedMap Bytes Bytes)) := by
  induction items generalizing removeItems updateItems with
  | nil => exact preserves_pure _
  | cons json items ih =>
    simp only [collectStatusItems]
    cases (IvpPluginStatus.getItem json).value with
    | none => exact (preserves_deref _).bind fun key => ih _ _
    | some value => exact ih _ _

variable (hg : ∀ s d, g { s with db := d } = g s)
include hg

theorem setConfigValue_preserves (key value : Bytes) :
    Preserves g (setConfigValue db key value) := by
  apply (requireRegistered_preserves _).bind
  refine fun _ => preserves_get.bind fun s => ?_
  cases s.plugin.mConfigValues.find key with
  | none => exact preserves_throw _
  | some item => exact (query_preserves hg _).tryCatch fun _ => preserves_pure _

theorem handleConfig_preserves (msg : IvpMessage) (items : List CJson)
    (globalParams : List PluginConfigurationParameterEntry) :
    Preserves g (handleConfig db msg items globalParams) := by
  cases items with
  | nil =>
    apply Preserves.bind
    · exact (query_preserves hg _).tryCatch fun _ => preserves_throw _
    · exact fun _ => preserves_pure _
  | cons json items =>
    apply Preserves.bind
    · refine (preserves_deref _).bind fun key => (preserves_deref _).bind fun value =>
        (preserves_deref _).bind fun source => ?_
      split_ifs
      · exact (stdString_preserves _).bind fun _ => preserves_pure _
      · exact (setConfigValue_preserves db hg key value).bind fun _ => preserves_pure _
    · exact fun _ => preserves_pure _

theorem handleSlow_preserves (fresh : BitVec 32) (msg : IvpMessage) :
    Preserves g (handleSlow db fresh msg) := by
  unfold handleSlow
  split_ifs
  · refine (preserves_deref _).bind fun items =>
      (collectStatusItems_preserves _ _ _).bind fun r => ?_
    apply Preserves.tryCatch
    · exact (registeredQuery_preserves hg _ _).bind fun _ => registeredQuery_preserves hg _ _
    · exact fun _ => preserves_pure _
  · refine (preserves_deref _).bind fun payload => (preserves_deref _).bind fun description => ?_
    apply Preserves.bind
    · intro s
      unfold Program.assert
      split_ifs <;> rfl
    · exact fun _ => registeredQuery_preserves hg _ _
  · exact preserves_pure _

end Queries

/-- `g` depends on nothing that the core changes for a registered plugin, but for its
subscription and what it has routed. -/
structure IgnoresRequests {D γ : Type} (g : CoreState D → γ) : Prop where
  db : ∀ s d, g { s with db := d } = g s
  socket : ∀ s raws, g { s with socket := raws } = g s
  values : ∀ s m, g { s with plugin := { s.plugin with mConfigValues := m } } = g s

namespace IgnoresRequests
variable {D γ : Type} {g : CoreState D → γ} (h : IgnoresRequests g) (db : Database D)
include h

theorem onMessageReceived (msg : IvpMessage) :
    Preserves g (onMessageReceived msg : CoreProgram D Unit) :=
  preserves_modify fun s => h.socket s _

theorem sendError (level : IvpLogLevel) : Preserves g (sendError level : CoreProgram D Unit) :=
  preserves_get.bind fun _ => h.onMessageReceived _

theorem processSubscribeMessage (hfilter : ∀ s f, g { s with filter := f } = g s)
    (msg : IvpMessage) : Preserves g (processSubscribeMessage msg : CoreProgram D Unit) := by
  apply Preserves.tryCatch
  · exact (requireRegistered_preserves _).bind fun _ => preserves_modify fun s => hfilter s _
  · exact fun _ => h.sendError _

theorem onConfigChanged (key value : Bytes) :
    Preserves g (onConfigChanged key value : CoreProgram D Unit) :=
  (preserves_deref _).bind fun _ => preserves_get.bind fun _ => h.onMessageReceived _

theorem setConfigEntry (key : Bytes) (entry : PluginConfigurationParameterEntry) :
    Preserves g (setConfigEntry key entry : CoreProgram D Unit) :=
  preserves_modify fun s => h.values s _

theorem updateConfigValues (configMap : ConfigMap)
    (entries : List (Bytes × PluginConfigurationParameterEntry)) :
    Preserves g (updateConfigValues configMap entries : CoreProgram D ConfigMap) := by
  induction entries generalizing configMap with
  | nil => exact preserves_pure _
  | cons e entries ih =>
    obtain ⟨key, entry⟩ := e
    unfold Core.updateConfigValues
    cases configMap.find key with
    | none => exact ih _
    | some newEntry =>
      refine Preserves.bind ?_ fun _ => ih _
      unfold replaceConfigEntry
      split_ifs
      · exact (h.setConfigEntry _ _).bind fun _ => h.onConfigChanged _ _
      · exact preserves_pure _

theorem addConfigValues (newEntries : ConfigMap) :
    Preserves g (addConfigValues newEntries : CoreProgram D Unit) := by
  unfold Core.addConfigValues
  induction newEntries.entries with
  | nil => exact preserves_pure _
  | cons e entries ih =>
    refine Preserves.bind ?_ fun _ => ih
    exact (h.setConfigEntry _ _).bind fun _ => h.onConfigChanged _ _

theorem configMonitorPass : Preserves g (configMonitorPass db) := by
  refine preserves_get.bind fun s => ?_
  split_ifs
  · apply Preserves.bind
    · apply Preserves.tryCatch
      · exact ((query_preserves h.db _).bind fun _ => preserves_pure _).bind fun _ =>
          preserves_pure _
      · exact fun _ => preserves_pure _
    · intro configMap
      cases configMap with
      | none => exact preserves_pure _
      | some configMap =>
        exact (h.updateConfigValues _ _).bind fun _ => h.addConfigValues _
  · exact preserves_pure _

end IgnoresRequests
end V2IHub.Core
