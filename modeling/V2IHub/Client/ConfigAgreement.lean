import V2IHub.Client.ConfigUpdates
import V2IHub.Client.Rejection
import V2IHub.Core.NameRegistry

/-! A plugin and the core over connections that come and go: when the values that the plugin
holds are those of the core. -/
namespace V2IHub.Client
open Foundation Json Api V2IHub.Core Program CoreException

section Messages
variable {D : Type}

/-- The updates of the message that answers a registration. -/
def carried (m : ConfigMap) : List Update :=
  (m.entries.filter fun e => e.2.value ≠ e.2.defaultValue).map fun e => (e.2.key, e.2.value)

/-- A frame with these updates, written as C strings. -/
def configFrame (clock : BitVec 64) (us : List Update) : Bytes :=
  (IvpConfig.createMsg clock
    (updateCollection (us.map fun u => (cstringAt u.1, cstringAt u.2)))).createJsonString .none

theorem addItemToCollection_update (us : List Update) (key value : Bytes) :
    (IvpConfig.addItemToCollection (updateCollection us) key (some value) none).map some =
      some (updateCollection (us ++ [(key, value)])) := by
  cases us with
  | nil => rfl
  | cons u us => simp [updateCollection, IvpConfig.addItemToCollection]

theorem changedValues_run (us : List Update)
    (entries : List (Bytes × PluginConfigurationParameterEntry)) (s : CoreState D) :
    changedValues (updateCollection us) entries s =
      (.ok (updateCollection (us ++
        ((entries.filter fun e => e.2.value ≠ e.2.defaultValue).map fun e =>
          (cstringAt e.2.key, cstringAt e.2.value)))), s) := by
  induction entries generalizing us with
  | nil => simp [changedValues]
  | cons e entries ih =>
    rw [changedValues]
    split_ifs with hchanged
    · have hadd := addItemToCollection_update us (cstringAt e.2.key) (cstringAt e.2.value)
      obtain ⟨collection, hcollection, hnext⟩ := Option.map_eq_some_iff.mp hadd
      rw [hcollection, deref_some_bind, hnext, ih]
      simp [hchanged]
    · rw [ih]
      simp [hchanged]

theorem sendConfigValues_run (m : ConfigMap) (s : CoreState D) :
    sendConfigValues m s = (.ok (), s.write (configFrame s.clock (carried m))) := by
  have h : changedValues none m.entries s = _ := changedValues_run [] m.entries s
  rw [sendConfigValues, bind_ok h, bind_ok (get_run s), List.nil_append]
  simp [onMessageReceived, configFrame, carried, Function.comp_def]

theorem configFrame_carries {clock : BitVec 64} {us : List Update}
    (h : ∀ u ∈ us, 0 ∉ u.1 ∧ 0 ∉ u.2) : Carries (configFrame clock us) us := by
  have hus : (us.map fun u => (cstringAt u.1, cstringAt u.2)) = us := by
    conv_rhs => rw [← List.map_id us]
    refine List.map_congr_left fun u hu => ?_
    rw [cstringAt_of_not_mem (h u hu).1, cstringAt_of_not_mem (h u hu).2]
    rfl
  have hcarries := carries_configMsg clock us
  rw [configFrame, hus]
  rwa [hus] at hcarries

end Messages

section Registration
variable {D : Type} (db : Database D)

/-- `processRegistrationMessage` up to the end of `registerPlugin`: whether it succeeded. -/
def beginRegistration (fresh : BitVec 32) (msg : IvpMessage) : CoreProgram D Bool := do
  let payload ← deref msg.payload
  let manifest := IvpRegister.getManifestFromJson payload
  if (IvpRegister.validateManifest manifest).isNone then do
    let info ← registrationInformation fresh manifest
    tryCatch
      (do
        registerPlugin db info
        pure true)
      isPluginException fun _ => do
        sendError .fatal
        pure false
  else pure false

/-- Every entry is filed under its key. -/
def KeyConsistent (m : ConfigMap) : Prop := ∀ key entry, m.find key = some entry → entry.key = key

theorem KeyConsistent.insert {m : ConfigMap} {key : Bytes}
    {entry : PluginConfigurationParameterEntry} (h : KeyConsistent m) (hkey : entry.key = key) :
    KeyConsistent (m.insert key entry) := by
  intro key' entry' hfind
  rw [OrderedMap.find_insert] at hfind
  split_ifs at hfind with heq
  · rw [← heq, ← Option.some.inj hfind, hkey]
  · exact h key' entry' hfind

theorem KeyConsistent.erase {m : ConfigMap} (h : KeyConsistent m) (key : Bytes) :
    KeyConsistent (m.erase key) := by
  intro key' entry hfind
  rw [OrderedMap.find_erase] at hfind
  split_ifs at hfind
  exact h key' entry hfind

theorem keyConsistent_ofRows (rows : List PluginConfigurationParameterEntry) :
    KeyConsistent (ConfigMap.ofRows rows) := by
  have hfold : ∀ m, KeyConsistent m → KeyConsistent (rows.foldl (fun results row =>
      results.insert row.key { row with description := [] }) m) := by
    induction rows with
    | nil => exact fun _ h => h
    | cons row rows ih =>
      exact fun m h => ih _ (h.insert rfl)
  exact hfold _ fun _ _ hfind => by simp [OrderedMap.find, OrderedMap.empty] at hfind

theorem carried_find {m : ConfigMap} (h : KeyConsistent m) {u : Update} (hu : u ∈ carried m) :
    ∃ entry, m.find u.1 = some entry ∧ entry.value = u.2 := by
  simp only [carried, List.mem_map, List.mem_filter] at hu
  obtain ⟨⟨key, entry⟩, ⟨hmem, -⟩, rfl⟩ := hu
  have hfind := OrderedMap.mem_entries_iff.mp hmem
  exact ⟨entry, by rwa [h key entry hfind], rfl⟩

theorem registerInDatabase_keys (info : RegistrationInformation) :
    Triple (fun _ => True) (registerInDatabase db info) (fun r _ => KeyConsistent r.2)
      fun _ _ => True :=
  triple_bind triple_const fun _ => triple_bind triple_const fun _ =>
    triple_bind (Q := fun m _ => KeyConsistent m)
      (triple_bind triple_const fun rows => triple_pure fun _ _ => keyConsistent_ofRows rows)
      fun _ => triple_bind triple_const fun _ => triple_pure fun _ h => h

/-- However a registration ends, the entries of the plugin are filed under their keys. -/
theorem registerPlugin_keys (info : RegistrationInformation) :
    Triple (fun s => KeyConsistent s.plugin.mConfigValues) (registerPlugin db info)
      (fun _ s => KeyConsistent s.plugin.mConfigValues)
      fun _ s => KeyConsistent s.plugin.mConfigValues := by
  have hdb : ∀ (s : CoreState D) (d : D), ({ s with db := d } : CoreState D).plugin = s.plugin :=
    fun _ _ => rfl
  refine triple_bind (triple_get (Q := fun _ s => KeyConsistent s.plugin.mConfigValues)
    fun _ h => h) fun s => ?_
  split_ifs
  · exact triple_throw fun _ h => h
  · exact triple_throw fun _ h => h
  · refine triple_bind (triple_modify (Q := fun _ s => KeyConsistent s.plugin.mConfigValues)
      fun _ h => h) fun _ => ?_
    refine triple_bind (Q := fun r s => KeyConsistent s.plugin.mConfigValues ∧ KeyConsistent r.2)
      (triple_tryCatch (E := fun _ s => KeyConsistent s.plugin.mConfigValues) ?_
        (fun _ _ => triple_throw fun _ h => h) fun _ _ _ h => h) fun r => ?_
    · refine triple_mono (triple_and ((registerInDatabase_preserves db hdb info).triple
        fun plugin => KeyConsistent plugin.mConfigValues) (registerInDatabase_keys db info))
        (fun _ h => ⟨h, trivial⟩) (fun _ _ h => h) fun _ _ h => h.1
    · refine triple_bind (triple_modify (Q := fun _ s => KeyConsistent s.plugin.mConfigValues)
        fun _ h => h.2) fun _ => ?_
      exact (announceRegistration_preserves db hdb fun _ _ => rfl).triple
        fun plugin => KeyConsistent plugin.mConfigValues

theorem errorMsg_carries (clock : BitVec 64) (err : IvpError) :
    Carries ((IvpError.createMsg clock err).createJsonString .none) [] := by
  refine carries_other ?_
  have htype : (IvpError.createMsg clock err).received.type =
      some (cstringAt IVPMSG_TYPE_APIRESV_ERROR) := rfl
  rw [IvpConfig.isConfigMsg, IvpMessage.hasType, htype]
  decide

/-- What a registration leaves for the rest of the connection: consistent entries, and no
update under way. -/
theorem beginRegistration_spec (fresh : BitVec 32) (msg : IvpMessage) (socket : List Bytes) :
    Triple (fun s => KeyConsistent s.plugin.mConfigValues ∧ s.socket = socket)
      (beginRegistration db fresh msg)
      (fun _ s => KeyConsistent s.plugin.mConfigValues ∧
        ∃ raws, s.socket = socket ++ raws ∧ Pending raws [])
      fun _ _ => True := by
  refine triple_bind (triple_deref (Q := fun _ s => KeyConsistent s.plugin.mConfigValues ∧
    s.socket = socket) fun _ _ h _ => h) fun payload => ?_
  dsimp only
  split_ifs
  · refine triple_bind (triple_mono ((registrationInformation_preserves (g := id) fresh _).triple
      fun s => KeyConsistent s.plugin.mConfigValues ∧ s.socket = socket) (fun _ => id)
      (fun _ _ => id) fun _ _ _ => trivial) fun info => ?_
    refine triple_tryCatch (E := fun _ s => KeyConsistent s.plugin.mConfigValues ∧
      s.socket = socket) ?_ (fun _ _ => ?_) fun _ _ _ _ => trivial
    · refine triple_bind (triple_and (registerPlugin_keys db info)
        ((registerPlugin_socket db info).triple fun sent => sent = socket)) fun _ => ?_
      exact triple_pure fun s h => ⟨h.1, [], by simpa using h.2, .nil⟩
    · intro s h
      exact ⟨h.1, [_], congrArg (· ++ _) h.2, .single (errorMsg_carries s.clock _)⟩
  · exact triple_pure fun s h => ⟨h.1, [], by simpa using h.2, .nil⟩

end Registration

/-- How far the core is with the registration of the connection. Between two steps of it the
configuration monitor may run. -/
inductive LinkPhase where
  | down
  | connected
  | refused
  | registered
  | snapshot (configEntries : ConfigMap)
  | settled
deriving DecidableEq

def LinkPhase.isDown : LinkPhase → Bool
  | down => true
  | _ => false

/-- The values that `processRegistrationMessage` is about to send. -/
def LinkPhase.configEntries : LinkPhase → Option ConfigMap
  | snapshot configEntries => some configEntries
  | _ => none

/-- The core, the plugin, and in `core.socket` the frames under way to the plugin. -/
structure ConfigLink (D : Type) where
  core : CoreState D
  client : IvpPlugin
  phase : LinkPhase

/-- `change` is a change that a pass of the configuration monitor finds; what it finds is up to
the database. The monitor holds `mConfigValueLock`, so that the change and its message are one
step. `route` is any other message that the router has for the plugin. -/
inductive LinkAct (D : Type) where
  | connect (now : BitVec 64) (id : BitVec 32)
  | register (now : BitVec 64) (fresh : BitVec 32)
  | getAllConfigValues
  | sendConfigValues
  | change (key : Bytes) (entry : PluginConfigurationParameterEntry)
  | route (msg : IvpMessage)
  | deliver (now : BitVec 64) (fresh : IvpDsrcMetadata)
  | disconnect
  | environment (db : D) (clock : BitVec 64) (clientNames : Finset Bytes)

namespace ConfigLink
variable {D : Type} (db : Database D)

/-- The body of the loops of `configMonitorThreadEntry`. -/
def changeEntry (key : Bytes) (entry : PluginConfigurationParameterEntry) :
    CoreProgram D Unit := do
  setConfigEntry key entry
  onConfigChanged entry.key entry.value

def connect (l : ConfigLink D) (now : BitVec 64) (id : BitVec 32) : Option (ConfigLink D) :=
  if l.phase.isDown ∧ l.client.state ≠ .error then
    some {
      core := { l.core with plugin := .new id, filter := none, socket := [] }
      client := l.client.connect now
      phase := .connected }
  else none

/-- The core handles the registration that the plugin sends when it connects. -/
def register (l : ConfigLink D) (now : BitVec 64) (fresh : BitVec 32) : Option (ConfigLink D) :=
  match l.phase with
  | .connected =>
    let msg := (IvpRegister.createMsgFromJson now l.client.jsonManifest).received
    match beginRegistration db fresh msg l.core with
    | (.ok true, s) => some { l with core := s, phase := .registered }
    | (.ok false, s) => some { l with core := s, phase := .refused }
    | _ => none
  | _ => none

def snapshot (l : ConfigLink D) : Option (ConfigLink D) :=
  match l.phase with
  | .registered =>
    match Core.getAllConfigValues l.core with
    | (.ok configEntries, s) => some { l with core := s, phase := .snapshot configEntries }
    | _ => none
  | _ => none

def send (l : ConfigLink D) : Option (ConfigLink D) :=
  match l.phase with
  | .snapshot configEntries =>
    match Core.sendConfigValues configEntries l.core with
    | (.ok _, s) => some { l with core := s, phase := .settled }
    | _ => none
  | _ => none

def change (l : ConfigLink D) (key : Bytes) (entry : PluginConfigurationParameterEntry) :
    Option (ConfigLink D) :=
  if l.phase.isDown = false ∧ l.core.plugin.mRegistered ∧ entry.key = key ∧
      (l.core.plugin.mConfigValues.find key).map (·.value) ≠ some entry.value then
    match changeEntry key entry l.core with
    | (.ok _, s) => some { l with core := s }
    | _ => none
  else none

def deliver (l : ConfigLink D) (now : BitVec 64) (fresh : IvpDsrcMetadata) :
    Option (ConfigLink D) :=
  match l.core.socket with
  | raw :: socket =>
    match l.client.receive now fresh raw with
    | some client => some { l with core := { l.core with socket := socket }, client := client }
    | none => none
  | [] => none

/-- The connection breaks: what is under way is lost and the core drops its side. -/
def disconnect (l : ConfigLink D) : Option (ConfigLink D) :=
  if l.phase.isDown then none
  else
    match destroyPlugin db l.core with
    | (.ok _, s) => some {
        core := { s with socket := [] }
        client := l.client.onStateChange .disconnected
        phase := .down }
    | _ => none

def step (l : ConfigLink D) : LinkAct D → Option (ConfigLink D)
  | .connect now id => l.connect now id
  | .register now fresh => l.register db now fresh
  | .getAllConfigValues => l.snapshot
  | .sendConfigValues => l.send
  | .change key entry => l.change key entry
  | .route msg =>
    if IvpConfig.isConfigMsg msg.received then none
    else some { l with core := l.core.write (msg.createJsonString .none) }
  | .deliver now fresh => l.deliver now fresh
  | .disconnect => l.disconnect db
  | .environment d clock clientNames =>
    some { l with core := { l.core with db := d, clock := clock, clientNames := clientNames } }

def machine : Machine (ConfigLink D) (LinkAct D) := ⟨step db⟩

/-- The plugin was created and has not connected yet. -/
def start (d : D) (clock : BitVec 64) (clientNames : Finset Bytes) (client : IvpPlugin) :
    ConfigLink D where
  core :=
    { db := d
      clock := clock
      clientNames := clientNames
      plugin := .new 0
      filter := none
      routed := []
      socket := [] }
  client := client
  phase := .down

/-- Keys and values are C strings. -/
def NulFree (us : List Update) : Prop := ∀ u ∈ us, 0 ∉ u.1 ∧ 0 ∉ u.2

/-- When the answer to a registration is sent, what it carries is still what the core has, and
for a key that it leaves out the plugin has, or is about to get, the value of the core. -/
structure AnswerFits (l : ConfigLink D) (configEntries : ConfigMap) : Prop where
  nulFree : NulFree (carried configEntries)
  fresh : ∀ u ∈ carried configEntries, u.1 ∈ configKeys l.client.config →
    ∀ entry ∈ l.core.plugin.mConfigValues.find u.1, entry.value = u.2
  omitted : ∀ key ∈ configKeys l.client.config, key ∉ (carried configEntries).map Prod.fst →
    ∀ entry ∈ l.core.plugin.mConfigValues.find key,
      ∀ client ∈ l.client.receiveAll 0 ⟨0, 0⟩ l.core.socket,
        client.getCopyOfConfigurationValue key = some (some entry.value)

/-- The steps that keep the values together. -/
def KeepsUp (l : ConfigLink D) : LinkAct D → Prop
  | .sendConfigValues => ∀ configEntries ∈ l.phase.configEntries, l.AnswerFits configEntries
  | .change key entry => NulFree [(key, entry.value)]
  | _ => True

instance (us : List Update) : Decidable (NulFree us) :=
  inferInstanceAs (Decidable (∀ u ∈ us, _ ∧ _))

theorem answerFits_iff {l : ConfigLink D} {configEntries : ConfigMap} :
    (NulFree (carried configEntries) ∧
        (∀ u ∈ carried configEntries, (∃ key ∈ configKeys l.client.config, key = u.1) →
          ∀ entry ∈ l.core.plugin.mConfigValues.find u.1, entry.value = u.2) ∧
        ∀ key ∈ configKeys l.client.config, (∀ u ∈ carried configEntries, u.1 ≠ key) →
          ∀ entry ∈ l.core.plugin.mConfigValues.find key,
            ∀ client ∈ l.client.receiveAll 0 ⟨0, 0⟩ l.core.socket,
              client.getCopyOfConfigurationValue key = some (some entry.value)) ↔
      l.AnswerFits configEntries := by
  constructor
  · rintro ⟨hnul, hfresh, homitted⟩
    refine ⟨hnul, fun u hu hkey => hfresh u hu ⟨u.1, hkey, rfl⟩, fun key hkey hnot => ?_⟩
    exact homitted key hkey fun u hu heq => hnot (heq ▸ List.mem_map_of_mem hu)
  · rintro ⟨hnul, hfresh, homitted⟩
    refine ⟨hnul, ?_, fun key hkey hnot => homitted key hkey ?_⟩
    · rintro u hu ⟨key, hkey, rfl⟩
      exact hfresh u hu hkey
    · intro hmem
      obtain ⟨u, hu, rfl⟩ := List.mem_map.mp hmem
      exact hnot u hu rfl

instance (l : ConfigLink D) (configEntries : ConfigMap) : Decidable (l.AnswerFits configEntries) :=
  decidable_of_iff _ answerFits_iff

instance (l : ConfigLink D) : (a : LinkAct D) → Decidable (l.KeepsUp a)
  | .sendConfigValues =>
    inferInstanceAs (Decidable (∀ configEntries ∈ l.phase.configEntries, l.AnswerFits configEntries))
  | .change key entry => inferInstanceAs (Decidable (NulFree [(key, entry.value)]))
  | .connect .. | .register .. | .getAllConfigValues | .route .. | .deliver .. | .disconnect
  | .environment .. => isTrue trivial

/-- For every key the plugin will have the value of the core once it has handled what is under
way. -/
def WillAgree (l : ConfigLink D) (keys : List Bytes) (updates : List Update) : Prop :=
  ∀ key ∈ keys, ∀ entry, l.core.plugin.mConfigValues.find key = some entry →
    eventual updates key (l.client.getCopyOfConfigurationValue key) = some (some entry.value)

structure Tracked (keys : List Bytes) (l : ConfigLink D) : Prop where
  keyed : ConfigKeyed l.client.config
  sameKeys : configKeys l.client.config = keys
  entries : KeyConsistent l.core.plugin.mConfigValues
  snapshot : ∀ configEntries, l.phase = .snapshot configEntries → KeyConsistent configEntries
  pending : ∃ updates, Pending l.core.socket updates ∧
    (l.phase = .settled → l.WillAgree keys updates)

section Steps
variable {keys : List Bytes} {l t : ConfigLink D}

theorem connect_tracked {now : BitVec 64} {id : BitVec 32} (h : l.Tracked keys)
    (ht : l.connect now id = some t) : t.Tracked keys := by
  unfold connect at ht
  split_ifs at ht
  obtain rfl := Option.some.inj ht
  refine ⟨by simpa using h.keyed, by simpa using h.sameKeys, ?_, by simp, [], .nil, by simp⟩
  intro key entry hfind
  simp [Plugin.new, OrderedMap.find, OrderedMap.empty] at hfind

theorem register_tracked {now : BitVec 64} {fresh : BitVec 32} (h : l.Tracked keys)
    (ht : l.register db now fresh = some t) : t.Tracked keys := by
  obtain ⟨us, hpending, -⟩ := h.pending
  unfold register at ht
  cases hphase : l.phase with
  | connected =>
    simp only [hphase] at ht
    have hspec := beginRegistration_spec db fresh
      (IvpRegister.createMsgFromJson now l.client.jsonManifest).received l.core.socket l.core
      ⟨h.entries, rfl⟩
    rcases hr : beginRegistration db fresh
      (IvpRegister.createMsgFromJson now l.client.jsonManifest).received l.core with
      ⟨ok | e | _, s⟩ <;> rw [hr] at hspec ht
    · obtain ⟨hentries, raws, hsocket, hraws⟩ := hspec
      have hnext : Pending s.socket us := by
        rw [hsocket]
        simpa using hpending.append hraws
      cases ok with
      | true =>
        obtain rfl := Option.some.inj ht
        exact ⟨h.keyed, h.sameKeys, hentries, by simp, us, hnext, by simp⟩
      | false =>
        obtain rfl := Option.some.inj ht
        exact ⟨h.keyed, h.sameKeys, hentries, by simp, us, hnext, by simp⟩
    · simp at ht
    · simp at ht
  | _ => simp [hphase] at ht

theorem snapshot_tracked (h : l.Tracked keys) (ht : l.snapshot = some t) : t.Tracked keys := by
  obtain ⟨us, hpending, -⟩ := h.pending
  unfold ConfigLink.snapshot at ht
  cases hphase : l.phase with
  | registered =>
    simp only [hphase, Core.getAllConfigValues] at ht
    rw [requireRegistered_bind] at ht
    cases hreg : l.core.plugin.mRegistered with
    | false => simp [hreg] at ht
    | true =>
      simp only [hreg, if_true, bind_run, get_run, pure_run, Option.some.injEq] at ht
      subst ht
      refine ⟨h.keyed, h.sameKeys, h.entries, ?_, us, hpending, by simp⟩
      rintro configEntries ⟨⟩
      exact h.entries
  | _ => simp [hphase] at ht

theorem send_tracked (h : l.Tracked keys) (hguard : l.KeepsUp .sendConfigValues)
    (ht : l.send = some t) : t.Tracked keys := by
  obtain ⟨us, hpending, -⟩ := h.pending
  unfold send at ht
  cases hphase : l.phase with
  | snapshot configEntries =>
    obtain ⟨hnul, hcarried, homitted⟩ : l.AnswerFits configEntries :=
      hguard configEntries (by rw [hphase]; rfl)
    simp only [hphase, sendConfigValues_run, Option.some.injEq] at ht
    subst ht
    have hframe : Carries (configFrame l.core.clock (carried configEntries))
        (carried configEntries) := configFrame_carries hnul
    refine ⟨h.keyed, h.sameKeys, h.entries, by simp, us ++ carried configEntries,
      hpending.append (.single hframe), fun _ key hkey entry hentry => ?_⟩
    have hmemkeys : key ∈ configKeys l.client.config := h.sameKeys ▸ hkey
    rw [eventual_append]
    by_cases hmem : ∃ u ∈ carried configEntries, u.1 = key
    · have hvalue : ∀ u ∈ carried configEntries, u.1 = key → u.2 = entry.value :=
        fun u hu heq => (hcarried u hu (heq ▸ hmemkeys) entry (heq ▸ hentry)).symm
      obtain ⟨u, hu, heq⟩ := hmem
      refine eventual_of_mem ?_ hvalue _
      rw [← heq, ← hvalue u hu heq]
      exact hu
    · rw [eventual_of_not_mem fun u hu heq => hmem ⟨u, hu, heq⟩]
      obtain ⟨client, hreceive, happlied⟩ := hpending.receiveAll 0 ⟨0, 0⟩ h.keyed
      rw [← happlied.value key hmemkeys]
      exact homitted key hmemkeys (by simpa using hmem) entry hentry client hreceive
  | _ => simp [hphase] at ht

/-- An answer that does not fit leaves the plugin with another value, once it has handled all
that is under way. -/
theorem send_disagrees {configEntries : ConfigMap} (h : l.Tracked keys)
    (hphase : l.phase = .snapshot configEntries) (hnul : NulFree (carried configEntries))
    (hfits : ¬ l.AnswerFits configEntries) (ht : l.send = some t) :
    ∃ client, t.client.receiveAll 0 ⟨0, 0⟩ t.core.socket = some client ∧
      ∃ key ∈ keys, ∃ entry, t.core.plugin.mConfigValues.find key = some entry ∧
        client.getCopyOfConfigurationValue key ≠ some (some entry.value) := by
  obtain ⟨us, hpending, -⟩ := h.pending
  simp only [send, hphase, sendConfigValues_run, Option.some.injEq] at ht
  subst ht
  have hframe : Carries (configFrame l.core.clock (carried configEntries))
      (carried configEntries) := configFrame_carries hnul
  obtain ⟨client, hreceive, happlied⟩ :=
    (hpending.append (.single hframe)).receiveAll 0 ⟨0, 0⟩ h.keyed
  refine ⟨client, hreceive, ?_⟩
  by_contra! hagree
  refine hfits ⟨hnul, fun u hu hkey entry hentry => ?_, fun key hkey hnot entry hentry before
    hbefore => ?_⟩
  · have hvalue := hagree u.1 (h.sameKeys ▸ hkey) entry hentry
    have hunique : ∀ w ∈ carried configEntries, w.1 = u.1 → w.2 = u.2 := by
      intro w hw heq
      obtain ⟨entryW, hfindW, hvalueW⟩ := carried_find (h.snapshot _ hphase) hw
      obtain ⟨entryU, hfindU, hvalueU⟩ := carried_find (h.snapshot _ hphase) hu
      rw [heq, hfindU] at hfindW
      rw [← hvalueW, ← hvalueU, Option.some.inj hfindW]
    rw [happlied.value _ hkey, eventual_append, eventual_of_mem hu hunique] at hvalue
    exact (Option.some.inj (Option.some.inj hvalue)).symm
  · have hvalue := hagree key (h.sameKeys ▸ hkey) entry hentry
    rw [happlied.value _ hkey, eventual_append, eventual_of_not_mem fun u hu heq =>
      hnot (List.mem_map.mpr ⟨u, hu, heq⟩)] at hvalue
    obtain ⟨client', hreceive', happlied'⟩ := hpending.receiveAll 0 ⟨0, 0⟩ h.keyed
    obtain rfl : client' = before := Option.some.inj (hreceive'.symm.trans hbefore)
    rw [happlied'.value _ hkey, hvalue]

theorem changeEntry_run (key : Bytes) (entry : PluginConfigurationParameterEntry)
    (s : CoreState D) :
    changeEntry key entry s = (.ok (), { s with
      plugin := { s.plugin with mConfigValues := s.plugin.mConfigValues.insert key entry }
      socket := s.socket ++ [configFrame s.clock [(entry.key, entry.value)]] }) := rfl

theorem change_tracked {key : Bytes} {entry : PluginConfigurationParameterEntry}
    (h : l.Tracked keys) (hguard : l.KeepsUp (.change key entry))
    (ht : l.change key entry = some t) : t.Tracked keys := by
  obtain ⟨us, hpending, hagree⟩ := h.pending
  unfold change at ht
  split_ifs at ht with hcond
  obtain ⟨-, -, rfl, -⟩ := hcond
  rw [changeEntry_run] at ht
  obtain rfl := Option.some.inj ht
  have hframe : Carries (configFrame l.core.clock [(entry.key, entry.value)])
      [(entry.key, entry.value)] := configFrame_carries hguard
  refine ⟨h.keyed, h.sameKeys, h.entries.insert rfl, h.snapshot, us ++ [(entry.key, entry.value)],
    hpending.append (.single hframe), fun hsettled key hkey entry' hentry' => ?_⟩
  rw [eventual_append]
  simp only [OrderedMap.find_insert] at hentry'
  split_ifs at hentry' with heq
  · rw [← Option.some.inj hentry', ← heq]
    exact eventual_of_mem (by simp) (by simp) _
  · rw [eventual_of_not_mem (by simpa using heq)]
    exact hagree hsettled key hkey entry' hentry'

theorem deliver_tracked {now : BitVec 64} {fresh : IvpDsrcMetadata} (h : l.Tracked keys)
    (ht : l.deliver now fresh = some t) : t.Tracked keys := by
  obtain ⟨us, hpending, hagree⟩ := h.pending
  unfold deliver at ht
  cases hsocket : l.core.socket with
  | nil => simp [hsocket] at ht
  | cons raw socket =>
    rw [hsocket] at hpending
    cases hpending with
    | cons hraw hrest =>
      obtain ⟨client, hreceive, happlied⟩ := hraw now fresh l.client h.keyed
      simp only [hsocket, hreceive, Option.some.injEq] at ht
      subst ht
      refine ⟨happlied.keyed, happlied.keys.trans h.sameKeys, h.entries, h.snapshot, _, hrest,
        fun hsettled key hkey entry hentry => ?_⟩
      rw [happlied.value key (h.sameKeys ▸ hkey), ← eventual_append]
      exact hagree hsettled key hkey entry hentry

theorem disconnect_tracked (h : l.Tracked keys) (ht : l.disconnect db = some t) :
    t.Tracked keys := by
  unfold disconnect at ht
  split_ifs at ht
  obtain ⟨d, hd⟩ := destroyPlugin_run db l.core
  rw [hd] at ht
  obtain rfl := Option.some.inj ht
  exact ⟨by simpa using h.keyed, by simpa using h.sameKeys, h.entries, by simp, [], .nil, by simp⟩

theorem step_tracked {a : LinkAct D} (h : l.Tracked keys) (hguard : l.KeepsUp a)
    (ht : l.step db a = some t) : t.Tracked keys := by
  cases a with
  | connect now id => exact connect_tracked h ht
  | register now fresh => exact register_tracked db h ht
  | getAllConfigValues => exact snapshot_tracked h ht
  | sendConfigValues => exact send_tracked h hguard ht
  | change key entry => exact change_tracked h hguard ht
  | route msg =>
    simp only [step] at ht
    split_ifs at ht with hconfig
    obtain rfl := Option.some.inj ht
    obtain ⟨us, hpending, hagree⟩ := h.pending
    have hframe := carries_other (Bool.eq_false_iff.mpr hconfig)
    refine ⟨h.keyed, h.sameKeys, h.entries, h.snapshot, us, ?_, hagree⟩
    simpa [CoreState.write] using hpending.append (.single hframe)
  | deliver now fresh => exact deliver_tracked h ht
  | disconnect => exact disconnect_tracked db h ht
  | environment d clock clientNames =>
    obtain rfl := Option.some.inj ht
    exact ⟨h.keyed, h.sameKeys, h.entries, h.snapshot, h.pending⟩

end Steps

section Runs
variable {manifest : CJson} {client : IvpPlugin} {d : D} {clock : BitVec 64}
  {clientNames : Finset Bytes}

def manifestKeys (manifest : CJson) : List Bytes :=
  configKeys (IvpRegister.getManifestFromJson manifest).configuration

theorem start_tracked (hclient : IvpPlugin.create manifest = some client) :
    (start d clock clientNames client).Tracked (manifestKeys manifest) := by
  unfold IvpPlugin.create at hclient
  dsimp only at hclient
  split_ifs at hclient with hvalid
  obtain rfl := Option.some.inj hclient
  obtain ⟨-, hconfig, -⟩ := IvpRegister.validateManifest_isNone hvalid
  obtain ⟨items, hitems, hvalidItems⟩ := IvpConfig.validate_getItems hconfig
  refine ⟨⟨items, hitems, fun item hitem => ?_⟩, rfl, ?_, by simp [start], [], .nil,
    by simp [start]⟩
  · exact (IvpConfig.validateItems_fields hvalidItems item hitem).1
  · intro key entry hfind
    simp [start, Plugin.new, OrderedMap.find, OrderedMap.empty] at hfind

/-- In a run of such steps, once the plugin has handled everything that the core sent after the
registration, it has the values of the core for all keys of its manifest. -/
theorem config_agreement (hclient : IvpPlugin.create manifest = some client)
    {as : List (LinkAct D)} {t : ConfigLink D}
    (hok : (machine db).Obeys KeepsUp (start d clock clientNames client) as)
    (hrun : (machine db).run (start d clock clientNames client) as = some t)
    (hsettled : t.phase = .settled) (hhandled : t.core.socket = []) :
    ∀ key ∈ manifestKeys manifest, ∀ entry, t.core.plugin.mConfigValues.find key = some entry →
      t.client.getCopyOfConfigurationValue key = some (some entry.value) := by
  have hstep : ∀ l a t, Tracked (manifestKeys manifest) l → KeepsUp l a →
      (machine db).step l a = some t → Tracked (manifestKeys manifest) t :=
    fun _ _ _ h hguard ht => step_tracked db h hguard ht
  have h := Machine.obeys_invariant hstep (start_tracked hclient) hok hrun
  obtain ⟨us, hpending, hagree⟩ := h.pending
  rw [hhandled] at hpending
  cases hpending
  exact hagree hsettled

end Runs

section Samples

/-- A database that has these rows of parameters, and where every call succeeds. -/
def tableDatabase : Database (List PluginConfigurationParameterEntry) where
  insertOrUpdatePlugin _ rows := (.ok 1, rows)
  initializePluginConfigParameters _ _ rows := (.ok (), rows)
  selectPluginConfigParameters _ rows := (.ok rows, rows)
  updatePluginConfigParameterValue _ rows := (.ok (), rows)
  insertMessageType entry rows := (.ok { entry with id := 1 }, rows)
  mapPluginToMessageType _ _ rows := (.ok (), rows)
  setPluginStatus _ _ rows := (.ok (), rows)
  setPluginStatusItems _ _ rows := (.ok (), rows)
  removePluginStatusItems _ _ rows := (.ok (), rows)
  removeAllPluginStatusItems _ rows := (.ok (), rows)
  addEventLogEntry _ _ _ rows := (.ok (), rows)

def rateManifest : CJson :=
  .object [(cstr "name", .string (cstr "Map")), (cstr "configuration", .array [.object
    [(cstr "key", .string (cstr "Rate")), (cstr "default", .string (cstr "1"))]])]

/-- The row of the parameter with this value; the default is 1. -/
def rateRow (value : Bytes) : PluginConfigurationParameterEntry :=
  ⟨1, 1, cstr "Rate", value, cstr "1", []⟩

/-- The plugin connects and handles the answer to its registration. -/
def session : List (LinkAct (List PluginConfigurationParameterEntry)) :=
  [.connect 0 0, .register 0 0, .getAllConfigValues, .sendConfigValues, .deliver 0 ⟨0, 0⟩]

/-- A session, and one more after the value was reset to its default. -/
def resetWhileAway : List (LinkAct (List PluginConfigurationParameterEntry)) :=
  session ++ [.disconnect, .environment [rateRow (cstr "1")] 0 ∅] ++ session

def rateClient : IvpPlugin where
  state := .disconnected
  jsonManifest := rateManifest
  config := (IvpRegister.getManifestFromJson rateManifest).configuration
  filter := none
  callbacks := []
  sent := []

theorem config_agreement_session :
    ∃ t, (machine tableDatabase).run (start [rateRow (cstr "7")] 0 ∅ rateClient) session = some t ∧
      t.client.getCopyOfConfigurationValue (cstr "Rate") = some (some (cstr "7")) := by
  have hclient : IvpPlugin.create rateManifest = some rateClient := rfl
  obtain ⟨t, ht⟩ : ∃ t, (machine tableDatabase).run
      (start [rateRow (cstr "7")] 0 ∅ rateClient) session = some t :=
    Option.isSome_iff_exists.mp (by decide +kernel)
  have hend : ((machine tableDatabase).run (start [rateRow (cstr "7")] 0 ∅ rateClient)
      session).all (fun t => t.phase = .settled ∧ t.core.socket = [] ∧
        t.core.plugin.mConfigValues.find (cstr "Rate") = some (rateRow (cstr "7"))) = true := by
    decide +kernel
  simp only [ht, Option.all_some, decide_eq_true_eq] at hend
  obtain ⟨hsettled, hhandled, hfind⟩ := hend
  have hagree := config_agreement tableDatabase hclient (by decide +kernel) ht hsettled hhandled
  exact ⟨t, ht, hagree (cstr "Rate") (by decide +kernel) _ hfind⟩

/-- The second answer leaves the parameter out, and the plugin keeps the old value. -/
theorem resetWhileAway_stale :
    ∃ t, IvpPlugin.create rateManifest = some rateClient ∧
      (machine tableDatabase).run (start [rateRow (cstr "7")] 0 ∅ rateClient) resetWhileAway =
        some t ∧
      t.phase = .settled ∧ t.core.socket = [] ∧
      ¬ ∀ key ∈ manifestKeys rateManifest, ∀ entry,
        t.core.plugin.mConfigValues.find key = some entry →
        t.client.getCopyOfConfigurationValue key = some (some entry.value) := by
  obtain ⟨t, ht⟩ : ∃ t, (machine tableDatabase).run
      (start [rateRow (cstr "7")] 0 ∅ rateClient) resetWhileAway = some t :=
    Option.isSome_iff_exists.mp (by decide +kernel)
  have hend : ((machine tableDatabase).run (start [rateRow (cstr "7")] 0 ∅ rateClient)
      resetWhileAway).all (fun t => t.phase = .settled ∧ t.core.socket = [] ∧
        t.core.plugin.mConfigValues.find (cstr "Rate") = some (rateRow (cstr "1")) ∧
        t.client.getCopyOfConfigurationValue (cstr "Rate") = some (some (cstr "7"))) = true := by
    decide +kernel
  simp only [ht, Option.all_some, decide_eq_true_eq] at hend
  obtain ⟨hsettled, hhandled, hfind, hvalue⟩ := hend
  refine ⟨t, rfl, ht, hsettled, hhandled, fun hagree => ?_⟩
  have hsame := (hagree (cstr "Rate") (by decide +kernel) _ hfind).symm.trans hvalue
  revert hsame
  decide +kernel

end Samples
end ConfigLink
end V2IHub.Client
