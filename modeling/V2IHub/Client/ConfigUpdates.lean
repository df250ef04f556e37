import V2IHub.Client.IvpPlugin

/-! The configuration messages of the core as updates of the values that a plugin holds. -/
namespace V2IHub.Client
open Foundation Json Api

/-- A collection where every item has a key, as `ivpConfig_validate` leaves it. -/
def ConfigKeyed (config : Option CJson) : Prop :=
  ∃ items, IvpConfig.getItems config = some items ∧ IvpConfig.Keyed items

def configKeys (config : Option CJson) : List Bytes :=
  IvpConfig.keys ((IvpConfig.getItems config).getD [])

/-- A key and the value it gets. -/
abbrev Update := Bytes × Bytes

/-- The value of a key that had the value `v` before the updates. -/
def eventual (updates : List Update) (key : Bytes) (v : Option (Option Bytes)) :
    Option (Option Bytes) :=
  updates.foldl (fun v u => if u.1 = key then some (some u.2) else v) v

theorem eventual_append (us vs : List Update) (key : Bytes) (v : Option (Option Bytes)) :
    eventual (us ++ vs) key v = eventual vs key (eventual us key v) := List.foldl_append

theorem eventual_of_not_mem {us : List Update} {key : Bytes} (h : ∀ u ∈ us, u.1 ≠ key)
    (v : Option (Option Bytes)) : eventual us key v = v := by
  induction us with
  | nil => rfl
  | cons u us ih =>
    rw [eventual, List.foldl_cons, if_neg (h u (by simp))]
    exact ih fun w hw => h w (by simp [hw])

/-- When all updates of a key agree, their order does not matter. -/
theorem eventual_of_mem {us : List Update} {key value : Bytes} (hmem : (key, value) ∈ us)
    (h : ∀ u ∈ us, u.1 = key → u.2 = value) (v : Option (Option Bytes)) :
    eventual us key v = some (some value) := by
  induction us generalizing v with
  | nil => simp at hmem
  | cons u us ih =>
    have htail : ∀ w ∈ us, w.1 = key → w.2 = value := fun w hw => h w (by simp [hw])
    rw [eventual, List.foldl_cons]
    by_cases hin : (key, value) ∈ us
    · exact ih hin htail _
    · obtain rfl : (key, value) = u := by simpa [hin] using hmem
      rw [if_pos rfl]
      refine eventual_of_not_mem (fun w hw heq => hin ?_) _
      have hw2 := htail w hw heq
      rwa [← heq, ← hw2]

/-- `q` is the plugin `p` after the updates. -/
structure Applied (p q : IvpPlugin) (updates : List Update) : Prop where
  keyed : ConfigKeyed q.config
  keys : configKeys q.config = configKeys p.config
  manifest : q.jsonManifest = p.jsonManifest
  value : ∀ key ∈ configKeys p.config, q.getCopyOfConfigurationValue key =
    eventual updates key (p.getCopyOfConfigurationValue key)

theorem Applied.trans {p q r : IvpPlugin} {us vs : List Update} (h : Applied p q us)
    (h' : Applied q r vs) : Applied p r (us ++ vs) where
  keyed := h'.keyed
  keys := h'.keys.trans h.keys
  manifest := h'.manifest.trans h.manifest
  value := by
    intro key hkey
    rw [h'.value key (h.keys ▸ hkey), h.value key hkey, eventual_append]

/-- What the loop over a message does not look at. -/
theorem Applied.of_config {p q : IvpPlugin} (h : ConfigKeyed p.config) (hconfig : q.config = p.config)
    (hmanifest : q.jsonManifest = p.jsonManifest) : Applied p q [] where
  keyed := hconfig ▸ h
  keys := by rw [hconfig]
  manifest := hmanifest
  value := by
    intro key _
    simp [IvpPlugin.getCopyOfConfigurationValue, hconfig, eventual]

theorem updateValue_spec {config : Option CJson} (h : ConfigKeyed config) (key value : Bytes) :
    ∃ config', IvpConfig.updateValueInCollection config key value = some config' ∧
      ∀ p : IvpPlugin, p.config = config →
        Applied p { p with config := config' } [(key, value)] := by
  obtain ⟨items, hitems, hkeyed⟩ := h
  cases config with
  | none =>
    refine ⟨none, rfl, fun p hp => ⟨⟨items, hitems, hkeyed⟩, by rw [hp], rfl, ?_⟩⟩
    simp [hp, configKeys, IvpConfig.getItems, IvpConfig.keys]
  | some json =>
    cases json with
    | array items' =>
      obtain rfl : items' = items := by simpa [IvpConfig.getItems] using hitems
      obtain ⟨items'', hupdate, hkeyed', hkeys, hfind⟩ :=
        IvpConfig.updateItems_spec key value hkeyed
      refine ⟨some (.array items''), by simp [IvpConfig.updateValueInCollection, hupdate],
        fun p hp => ⟨⟨items'', rfl, hkeyed'⟩, ?_, rfl, ?_⟩⟩
      · simpa [hp, configKeys, IvpConfig.getItems] using hkeys
      · intro key' hkey'
        have hmem : key' ∈ IvpConfig.keys items' := by
          simpa [hp, configKeys, IvpConfig.getItems] using hkey'
        simp only [IvpPlugin.getCopyOfConfigurationValue, hp,
          IvpConfig.getCopyOfValueFromCollection, hfind, eventual, List.foldl_cons, List.foldl_nil]
        by_cases heq : key = key'
        · simp [heq, hmem]
        · simp [heq, Ne.symm heq]
    | _ => simp [IvpConfig.getItems] at hitems

/-- The item of a configuration message that carries an update. -/
def updateItemOf (u : Update) : IvpConfigItem := ⟨some u.1, some u.2, none, none⟩

theorem updateConfig_spec {plugin : IvpPlugin} {jsons : List CJson} {us : List Update}
    (h : ConfigKeyed plugin.config) (hjsons : jsons.map IvpConfig.getItem = us.map updateItemOf) :
    ∃ plugin', plugin.updateConfig jsons = some plugin' ∧ Applied plugin plugin' us := by
  induction jsons generalizing plugin us with
  | nil =>
    obtain rfl : us = [] := by simpa using hjsons.symm
    exact ⟨plugin, rfl, .of_config h rfl rfl⟩
  | cons json jsons ih =>
    cases us with
    | nil => simp at hjsons
    | cons u us =>
      simp only [List.map_cons, List.cons.injEq] at hjsons
      obtain ⟨hjson, hjsons⟩ := hjsons
      obtain ⟨config, hupdate, happly⟩ := updateValue_spec h u.1 u.2
      have hfirst := happly plugin rfl
      have hcall : Applied plugin
          (({ plugin with config := config } : IvpPlugin).call (.onConfigChanged u.1 u.2)) [u] :=
        ⟨hfirst.keyed, hfirst.keys, hfirst.manifest, hfirst.value⟩
      obtain ⟨plugin', hrest, happlied⟩ := ih hcall.keyed hjsons
      refine ⟨plugin', ?_, hcall.trans happlied⟩
      simp [IvpPlugin.updateConfig, hjson, updateItemOf, hupdate, hrest]

/-- The plugin takes a frame for these updates. -/
def Carries (raw : Bytes) (updates : List Update) : Prop :=
  ∀ (now : BitVec 64) (fresh : IvpDsrcMetadata) (plugin : IvpPlugin), ConfigKeyed plugin.config →
    ∃ plugin', plugin.receive now fresh raw = some plugin' ∧ Applied plugin plugin' updates

/-- The collection of a configuration message with these updates. -/
def updateCollection : List Update → Option CJson
  | [] => none
  | us => some (.array (us.map fun u => IvpConfig.itemObject u.1 (some u.2) none))

theorem carries_configMsg (clock : BitVec 64) (us : List Update) :
    Carries ((IvpConfig.createMsg clock (updateCollection us)).createJsonString .none)
      (us.map fun u => (cstringAt u.1, cstringAt u.2)) := by
  intro now fresh plugin h
  have htype : (IvpConfig.createMsg clock (updateCollection us)).received.type =
      some IVPMSG_TYPE_APIRESV_CONFIG := by
    have hname : cstringAt IVPMSG_TYPE_APIRESV_CONFIG = IVPMSG_TYPE_APIRESV_CONFIG := by decide
    rw [IvpMessage.received, IvpConfig.createMsg, IvpMessage.create, Option.map_some, hname]
  have herror : IvpError.isErrMsg (IvpConfig.createMsg clock (updateCollection us)).received =
      false := by
    rw [IvpError.isErrMsg, IvpMessage.hasType, htype]
    decide
  have hconfig : IvpConfig.isConfigMsg (IvpConfig.createMsg clock (updateCollection us)).received =
      true := by
    rw [IvpConfig.isConfigMsg, IvpMessage.hasType, htype]
    decide
  obtain ⟨jsons, hitems, hjsons⟩ : ∃ jsons,
      IvpConfig.getItems (IvpConfig.createMsg clock (updateCollection us)).received.payload =
        some jsons ∧
      jsons.map IvpConfig.getItem =
        (us.map fun u => (cstringAt u.1, cstringAt u.2)).map updateItemOf := by
    cases us with
    | nil => exact ⟨[], rfl, rfl⟩
    | cons u us =>
      refine ⟨((u :: us).map fun u => IvpConfig.itemObject u.1 (some u.2) none).map CJson.reparsed,
        ?_, ?_⟩
      · simp only [IvpMessage.received, IvpConfig.createMsg, IvpMessage.create, updateCollection,
          Option.map_some, CJson.reparsed, reparsedItems_map, IvpConfig.getItems]
      · rw [List.map_map, List.map_map, List.map_map]
        refine List.map_congr_left fun v _ => ?_
        exact IvpConfig.getItem_itemObject v.1 v.2
  obtain ⟨plugin', hupdate, happlied⟩ := updateConfig_spec h hjsons
  refine ⟨plugin'.confirmRegistration now, ?_, ?_⟩
  · rw [IvpPlugin.receive_createJsonString, IvpPlugin.onMessageReceived, herror, hconfig]
    simp [hitems, hupdate]
  · have hconfirm : Applied plugin' (plugin'.confirmRegistration now) [] :=
      .of_config happlied.keyed (by simp) (by simp)
    simpa using happlied.trans hconfirm

/-- Other messages carry no update. -/
theorem carries_other {msg : IvpMessage} (h : IvpConfig.isConfigMsg msg.received = false) :
    Carries (msg.createJsonString .none) [] := by
  intro now fresh plugin hkeyed
  rw [IvpPlugin.receive_createJsonString, IvpPlugin.onMessageReceived, h]
  by_cases herror : IvpError.isErrMsg msg.received = true
  · rw [if_pos herror]
    refine ⟨_, rfl, .of_config hkeyed ?_ ?_⟩ <;>
    · unfold IvpPlugin.onError
      split_ifs <;> rfl
  · rw [if_neg herror, if_neg Bool.false_ne_true]
    exact ⟨_, rfl, .of_config hkeyed rfl rfl⟩

/-- Frames under way, and the updates that they carry together. -/
inductive Pending : List Bytes → List Update → Prop where
  | nil : Pending [] []
  | cons {raw : Bytes} {raws : List Bytes} {us vs : List Update} :
      Carries raw us → Pending raws vs → Pending (raw :: raws) (us ++ vs)

theorem Pending.append {raws raws' : List Bytes} {us vs : List Update} (h : Pending raws us)
    (h' : Pending raws' vs) : Pending (raws ++ raws') (us ++ vs) := by
  induction h with
  | nil => exact h'
  | cons hraw _ ih =>
    rw [List.cons_append, List.append_assoc]
    exact .cons hraw ih

theorem Pending.single {raw : Bytes} {us : List Update} (h : Carries raw us) :
    Pending [raw] us := by
  simpa using Pending.cons h .nil

theorem Pending.receiveAll {raws : List Bytes} {us : List Update} (h : Pending raws us)
    (now : BitVec 64) (fresh : IvpDsrcMetadata) {plugin : IvpPlugin}
    (hkeyed : ConfigKeyed plugin.config) :
    ∃ plugin', plugin.receiveAll now fresh raws = some plugin' ∧ Applied plugin plugin' us := by
  induction h generalizing plugin with
  | nil => exact ⟨plugin, rfl, .of_config hkeyed rfl rfl⟩
  | cons hraw _ ih =>
    obtain ⟨next, hreceive, happlied⟩ := hraw now fresh plugin hkeyed
    obtain ⟨plugin', hrest, happlied'⟩ := ih happlied.keyed
    exact ⟨plugin', by simp [IvpPlugin.receiveAll, hreceive, hrest], happlied.trans happlied'⟩

end V2IHub.Client
