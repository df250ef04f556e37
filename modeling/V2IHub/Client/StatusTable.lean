import V2IHub.Client.IvpPlugin
import V2IHub.Core.NameRegistry

/-! The status items of a plugin: what `PluginClient` caches, sends and removes, against the
table that the core keeps. -/
namespace V2IHub.Client
open Foundation Json Api
open V2IHub.Core

/-- The rows of the table `pluginStatus` for one plugin; the row without a key is the status of
the plugin itself. -/
abbrev StatusRows := OrderedMap Bytes Bytes

/-- `DELETE .. AND key > ''` -/
def removeAllItems (rows : StatusRows) : StatusRows :=
  match rows.find [] with
  | none => .empty
  | some status => OrderedMap.empty.insert [] status

/-- A database that keeps the status table and where every call succeeds. -/
def statusDatabase : Database StatusRows where
  insertOrUpdatePlugin _ rows := (.ok 1, rows)
  initializePluginConfigParameters _ _ rows := (.ok (), rows)
  selectPluginConfigParameters _ rows := (.ok [], rows)
  updatePluginConfigParameterValue _ rows := (.ok (), rows)
  insertMessageType entry rows := (.ok { entry with id := 1 }, rows)
  mapPluginToMessageType _ _ rows := (.ok (), rows)
  setPluginStatus _ status rows := (.ok (), rows.insert [] status)
  setPluginStatusItems _ items rows :=
    (.ok (), items.foldl (fun rows item => rows.insert item.key item.value) rows)
  removePluginStatusItems _ keys rows := (.ok (), keys.foldl OrderedMap.erase rows)
  removeAllPluginStatusItems _ rows := (.ok (), removeAllItems rows)
  addEventLogEntry _ _ _ rows := (.ok (), rows)

/-- The item of the table under a key. -/
def statusItem (rows : StatusRows) (key : Bytes) : Option Bytes :=
  if key = [] then none else rows.find key

/-- Both ends of a connection. The frames in `client.sent` are those under way to the core,
`wanted` has for each key the text of the last `SetStatus` that no `RemoveStatus` followed, and
`delivered` only those sent since the core registered the plugin. -/
structure StatusLink where
  client : IvpPlugin
  statusMap : OrderedMap Bytes Bytes
  core : CoreState StatusRows
  wanted : OrderedMap Bytes Bytes
  delivered : OrderedMap Bytes Bytes

/-- `text` is what `SetStatus` makes of the value, and `mute` the configured `MuteStatus`. -/
inductive StatusAct where
  | setStatus (now : BitVec 64) (mute : Bool) (key text : Bytes)
  | removeStatus (now : BitVec 64) (key : Bytes)
  | connect (id : BitVec 32)
  | register (info : RegistrationInformation) (configMap : ConfigMap)
  | confirm
  | process (fresh : IvpDsrcMetadata)
  | lose

namespace IvpPlugin

/-- `ivp_setStatusItem` and `ivp_removeStatusItem` -/
def sendStatusItem (plugin : IvpPlugin) (now : BitVec 64) (key : Bytes) (value : Option Bytes) :
    IvpPlugin :=
  if key = [] then plugin
  else plugin.broadcastMessage
    (IvpPluginStatus.createMsg now (IvpPluginStatus.addStatusItem none (some key) value))

end IvpPlugin

namespace StatusLink

/-- `PluginClient::SetStatus` -/
def setStatus (s : StatusLink) (now : BitVec 64) (mute : Bool) (key text : Bytes) : StatusLink :=
  if mute then s
  else if s.statusMap.find key = some text then s
  else { s with
    statusMap := s.statusMap.insert key text
    client := s.client.sendStatusItem now key (some (cstringAt text)) }

/-- `PluginClient::RemoveStatus` -/
def removeStatus (s : StatusLink) (now : BitVec 64) (key : Bytes) : StatusLink :=
  { s with client := s.client.sendStatusItem now key none }

/-- The slow processor of the core takes the next frame. -/
def process (s : StatusLink) (fresh : IvpDsrcMetadata) : Option StatusLink :=
  match s.client.sent with
  | [] => none
  | rawmsg :: rest =>
    let s := { s with client := { s.client with sent := rest } }
    match IvpMessage.parse fresh rawmsg with
    | none => some s
    | some msg =>
      if IvpPluginStatus.isStatusMsg msg then
        some { s with core := (processStatusMessage statusDatabase msg s.core).2 }
      else some s

/-- The connection ends: what is under way is lost and the core deletes the plugin. -/
def lose (s : StatusLink) : StatusLink :=
  { s with
    client := { s.client.onStateChange .disconnected with sent := [] }
    core := (destroyPlugin statusDatabase s.core).2
    delivered := .empty }

/-- A key is a C string. -/
def machine : Machine StatusLink StatusAct where
  step s
    | .setStatus now mute key text =>
      let t := s.setStatus now mute key text
      if 0 ∈ key then none
      else some { t with
        wanted := s.wanted.insert key text
        delivered := if t.client.sent = s.client.sent then s.delivered
          else s.delivered.insert key (cstringAt text) }
    | .removeStatus now key =>
      if 0 ∈ key then none
      else some { s.removeStatus now key with
        wanted := s.wanted.erase key
        delivered := s.delivered.erase key }
    | .connect id =>
      if s.client.state = .disconnected then
        some { s with
          client := { s.client.onStateChange .connected with sent := [] }
          core := { s.core with plugin := .new id } }
      else none
    | .register info configMap =>
      if s.client.state = .connected ∧ s.core.plugin.mRegistered = false then
        some { s with
          core := { s.core with plugin := s.core.plugin.registered info configMap }
          delivered := .empty }
      else none
    | .confirm =>
      if s.client.state = .connected ∧ s.core.plugin.mRegistered = true then
        some { s with client := s.client.onStateChange .registered }
      else none
    | .process fresh => s.process fresh
    | .lose => if s.client.state = .disconnected then none else some s.lose

/-- A plugin that has not connected yet. -/
def init : StatusLink where
  client := ⟨.disconnected, .object [], none, none, [], []⟩
  statusMap := .empty
  core := ⟨.empty, 0, ∅, .new 0, none, [], []⟩
  wanted := .empty
  delivered := .empty

/-- The table of the core is what the plugin asked for, once all is processed. -/
def Agrees (s : StatusLink) : Prop :=
  s.client.state = .registered → s.client.sent = [] →
    ∀ key, statusItem s.core.db key = s.wanted.find key

/-- While the client is registered, a `SetStatus` repeats the text that the key has, or it is not
muted, has a key and a text that is a C string, and the text is not cached. And when the client
becomes registered, each item set was sent since the core registered the plugin. -/
def Resends (s : StatusLink) : StatusAct → Prop
  | .setStatus _ mute key text => s.client.state = .registered →
      s.wanted.find key = some text ∨
        mute = false ∧ key ≠ [] ∧ 0 ∉ text ∧ s.statusMap.find key ≠ some text
  | .confirm => s.delivered = s.wanted
  | _ => True

instance decidableResends (s : StatusLink) (a : StatusAct) : Decidable (Resends s a) := by
  cases a <;> simp only [Resends] <;> infer_instance

end StatusLink

/-- An item that is set or, without a value, removed. -/
structure StatusChange where
  now : BitVec 64
  key : Bytes
  value : Option Bytes
  key_ne : key ≠ []
  key_cstring : 0 ∉ key
  value_cstring : ∀ text, value = some text → 0 ∉ text

namespace StatusChange

def message (c : StatusChange) : IvpMessage :=
  IvpPluginStatus.createMsg c.now (IvpPluginStatus.addStatusItem none (some c.key) c.value)

def frame (c : StatusChange) : Bytes := c.message.createJsonString .none

def apply (rows : StatusRows) (c : StatusChange) : StatusRows :=
  match c.value with
  | none => rows.erase c.key
  | some text => rows.insert c.key text

/-- The table once all changes are processed. -/
def settle (rows : StatusRows) (changes : List StatusChange) : StatusRows := changes.foldl apply rows

theorem statusItem_apply (rows : StatusRows) (c : StatusChange) (key : Bytes) :
    statusItem (apply rows c) key = if c.key = key then c.value else statusItem rows key := by
  by_cases h : c.key = key
  · have hne : key ≠ [] := h ▸ c.key_ne
    cases hv : c.value with
    | none => simp [statusItem, apply, hv, OrderedMap.find_erase, h]
    | some text => simp [statusItem, apply, hv, OrderedMap.find_insert, h, hne]
  · cases hv : c.value with
    | none => simp [statusItem, apply, hv, OrderedMap.find_erase, h]
    | some text => simp [statusItem, apply, hv, OrderedMap.find_insert, h]

theorem statusItem_settle_append (rows : StatusRows) (changes : List StatusChange)
    (c : StatusChange) (key : Bytes) :
    statusItem (settle rows (changes ++ [c])) key =
      if c.key = key then c.value else statusItem (settle rows changes) key := by
  rw [settle, List.foldl_append]
  exact statusItem_apply _ c key

/-- A first change that is dropped leaves no item behind. -/
theorem statusItem_settle_tail {rows : StatusRows} {c : StatusChange}
    {changes : List StatusChange} {key : Bytes} (hrows : statusItem rows key = none)
    (h : statusItem (settle rows (c :: changes)) key = none) :
    statusItem (settle rows changes) key = none := by
  induction changes using List.reverseRecOn with
  | nil => exact hrows
  | append_singleton changes d ih =>
    rw [← List.cons_append] at h
    rw [statusItem_settle_append] at h ⊢
    split_ifs at h ⊢ with hkey
    · exact h
    · exact ih h

theorem collectStatusItems_run (c : StatusChange) (core : CoreState StatusRows) :
    collectStatusItems [] .empty
        [(IvpPluginStatus.itemObject (some c.key) c.value).reparsed] core =
      (.ok (match c.value with
        | none => ([c.key], .empty)
        | some text => ([], OrderedMap.empty.insert c.key text)), core) := by
  have hitem := IvpPluginStatus.getItem_itemObject (some c.key) c.value
  rw [Option.map_some, cstringAt_of_not_mem c.key_cstring] at hitem
  simp only [collectStatusItems, hitem]
  cases hv : c.value with
  | none => simp [c.key_ne]
  | some text => simp [cstringAt_of_not_mem (c.value_cstring text hv)]

/-- What the core does with the frame. -/
theorem processStatusMessage_run (c : StatusChange) (core : CoreState StatusRows) :
    (processStatusMessage statusDatabase c.message.received core).2 =
      if core.plugin.mRegistered then { core with db := apply core.db c } else core := by
  have hitems := (IvpPluginStatus.received_createMsg c.now c.key c.value).2
  rw [processStatusMessage, message, hitems, Program.deref_some_bind,
    Program.bind_ok (collectStatusItems_run c core)]
  cases hreg : core.plugin.mRegistered with
  | false =>
    cases hv : c.value <;>
      simp [Program.tryCatch, setStatusItems, Program.bind_run, registeredQuery_refused hreg,
        CoreException.isPluginException]
  | true =>
    cases hv : c.value <;>
      simp [Program.tryCatch, setStatusItems, removeStatusItems, Program.bind_run,
        registeredQuery_run, hreg, statusDatabase, apply, hv, OrderedMap.empty, OrderedMap.insert,
        OrderedMap.insertEntry]

end StatusChange

theorem statusItem_removeAllItems (rows : StatusRows) (key : Bytes) :
    statusItem (removeAllItems rows) key = none := by
  by_cases hkey : key = []
  · simp [statusItem, hkey]
  · rw [statusItem, if_neg hkey, removeAllItems]
    cases rows.find [] with
    | none => rfl
    | some status => rw [OrderedMap.find_insert, if_neg (Ne.symm hkey)]; rfl

/-- No item survives the plugin. -/
theorem statusItem_destroyPlugin (core : CoreState StatusRows) (key : Bytes) :
    statusItem (destroyPlugin statusDatabase core).2.db key = none := by
  rw [destroyPlugin, Program.bind_ok (Program.modify_run _ _)]
  obtain ⟨d, hlog⟩ := logDestruction_run statusDatabase
    { core with clientNames := core.clientNames.erase core.plugin.mInfo.pluginInfo.name }
  rw [Program.bind_ok hlog]
  obtain ⟨d', filter, hstop⟩ := stopPlugin_run statusDatabase { core with
    db := d
    clientNames := core.clientNames.erase core.plugin.mInfo.pluginInfo.name }
  rw [Program.bind_ok hstop, Program.bind_ok (Program.get_run _),
    Program.bind_ok (tryQuery_run _ _)]
  exact statusItem_removeAllItems d' key

namespace StatusLink
open StatusChange

/-- What every run under the condition keeps. -/
structure Tracked (s : StatusLink) (changes : List StatusChange) : Prop where
  sent : s.client.sent = changes.map frame
  state : s.client.state ≠ .error
  down : s.client.state = .disconnected → changes = [] ∧ ∀ key, statusItem s.core.db key = none
  unregistered : s.core.plugin.mRegistered = false → ∀ key, statusItem s.core.db key = none
  removed : ∀ key, s.wanted.find key = none → statusItem (settle s.core.db changes) key = none
  delivered : s.client.state ≠ .disconnected → s.core.plugin.mRegistered = true →
    ∀ key text, s.delivered.find key = some text →
      0 ∉ text ∧ statusItem (settle s.core.db changes) key = some text
  registered : s.client.state = .registered →
    s.core.plugin.mRegistered = true ∧ ∀ key, s.delivered.find key = s.wanted.find key

theorem Tracked.agrees {s : StatusLink} {changes : List StatusChange} (h : s.Tracked changes) :
    s.Agrees := by
  intro hstate hsent key
  have hnil : changes = [] := List.map_eq_nil_iff.mp (h.sent.symm.trans hsent)
  subst hnil
  obtain ⟨hreg, hsame⟩ := h.registered hstate
  cases hwant : s.wanted.find key with
  | none => exact h.removed key hwant
  | some text =>
    exact (h.delivered (by simp [hstate]) hreg key text ((hsame key).trans hwant)).2

theorem init_tracked : init.Tracked [] where
  sent := rfl
  state := by decide
  down := fun _ => ⟨rfl, fun key => by simp [statusItem, init, OrderedMap.find, OrderedMap.empty]⟩
  unregistered := fun _ key => by simp [statusItem, init, OrderedMap.find, OrderedMap.empty]
  removed := fun key _ => by simp [settle, statusItem, init, OrderedMap.find, OrderedMap.empty]
  delivered := fun h => absurd rfl h
  registered := fun h => by simp [init] at h

/-- A change goes out while the client is connected. -/
theorem sendStatusItem_sent {plugin : IvpPlugin} (c : StatusChange) (hstate : plugin.state ≠ .error) :
    (plugin.sendStatusItem c.now c.key c.value).sent =
      if plugin.state = .disconnected then plugin.sent else plugin.sent ++ [c.frame] := by
  rw [IvpPlugin.sendStatusItem, if_neg c.key_ne, IvpPlugin.broadcastMessage]
  cases hs : plugin.state <;> simp_all [frame, message]

theorem sendStatusItem_state (plugin : IvpPlugin) (now : BitVec 64) (key : Bytes)
    (value : Option Bytes) : (plugin.sendStatusItem now key value).state = plugin.state := by
  unfold IvpPlugin.sendStatusItem IvpPlugin.broadcastMessage
  split_ifs <;> rfl

section Steps
variable {s t : StatusLink} {changes : List StatusChange}

/-- Nothing goes out. -/
theorem Tracked.keep (h : s.Tracked changes) (hsent : t.client.sent = s.client.sent)
    (hstate : t.client.state = s.client.state) (hcore : t.core = s.core)
    (hdelivered : ∀ key text, t.delivered.find key = some text → s.delivered.find key = some text)
    (hwanted : ∀ key, t.wanted.find key = none →
      s.wanted.find key = none ∨ statusItem (settle s.core.db changes) key = none)
    (hreg : s.client.state = .registered → ∀ key, t.delivered.find key = t.wanted.find key) :
    t.Tracked changes where
  sent := hsent.trans h.sent
  state := hstate ▸ h.state
  down hs := by
    rw [hcore]
    exact h.down (hstate.symm.trans hs)
  unregistered hr := by
    rw [hcore] at hr ⊢
    exact h.unregistered hr
  removed key hkey := by
    rw [hcore]
    exact (hwanted key hkey).elim (h.removed key) id
  delivered hs hr key text hkey := by
    rw [hcore] at hr ⊢
    exact h.delivered (hstate ▸ hs) hr key text (hdelivered key text hkey)
  registered hs := by
    rw [hstate] at hs
    rw [hcore]
    exact ⟨(h.registered hs).1, hreg hs⟩

/-- A change goes out. -/
theorem Tracked.send (h : s.Tracked changes) (c : StatusChange)
    (hup : s.client.state ≠ .disconnected) (hsent : t.client.sent = s.client.sent ++ [c.frame])
    (hstate : t.client.state = s.client.state) (hcore : t.core = s.core)
    (hdelivered : ∀ key, t.delivered.find key =
      if c.key = key then c.value else s.delivered.find key)
    (hwanted : ∀ key, t.wanted.find key = none →
      if c.key = key then c.value = none else s.wanted.find key = none)
    (hreg : s.client.state = .registered → ∀ key, t.delivered.find key = t.wanted.find key) :
    t.Tracked (changes ++ [c]) where
  sent := by rw [hsent, h.sent, List.map_append, List.map_singleton]
  state := hstate ▸ h.state
  down hs := absurd (hstate.symm.trans hs) hup
  unregistered hr := by
    rw [hcore] at hr ⊢
    exact h.unregistered hr
  removed key hkey := by
    have hkey := hwanted key hkey
    rw [hcore, statusItem_settle_append]
    split_ifs at hkey ⊢
    · exact hkey
    · exact h.removed key hkey
  delivered _ hr key text hkey := by
    rw [hdelivered] at hkey
    rw [hcore] at hr ⊢
    rw [statusItem_settle_append]
    split_ifs at hkey ⊢
    · exact ⟨c.value_cstring text hkey, hkey⟩
    · exact h.delivered hup hr key text hkey
  registered hs := by
    rw [hstate] at hs
    rw [hcore]
    exact ⟨(h.registered hs).1, hreg hs⟩

/-- What `SetStatus` sends, and when. -/
theorem setStatus_cases {now : BitVec 64} {mute : Bool} {key text : Bytes} (hkey : 0 ∉ key)
    (hstate : s.client.state ≠ .error) (ht : t = s.setStatus now mute key text) :
    t.client.state = s.client.state ∧ t.core = s.core ∧
      ((t.client.sent = s.client.sent ∧
          (s.client.state = .disconnected ∨ mute = true ∨ key = [] ∨
            s.statusMap.find key = some text)) ∨
        (s.client.state ≠ .disconnected ∧ ∃ c : StatusChange, c.key = key ∧
          c.value = some (cstringAt text) ∧ t.client.sent = s.client.sent ++ [c.frame])) := by
  subst ht
  unfold setStatus
  by_cases hmute : mute = true
  · rw [if_pos hmute]
    exact ⟨rfl, rfl, .inl ⟨rfl, .inr (.inl hmute)⟩⟩
  by_cases hcached : s.statusMap.find key = some text
  · rw [if_neg hmute, if_pos hcached]
    exact ⟨rfl, rfl, .inl ⟨rfl, .inr (.inr (.inr hcached))⟩⟩
  rw [if_neg hmute, if_neg hcached]
  refine ⟨sendStatusItem_state _ _ _ _, rfl, ?_⟩
  by_cases hne : key = []
  · exact .inl ⟨by simp [IvpPlugin.sendStatusItem, hne], .inr (.inr (.inl hne))⟩
  let c : StatusChange := ⟨now, key, some (cstringAt text), hne, hkey, by
    rintro _ ⟨⟩
    exact zero_notMem_cstringAt text⟩
  have hsent := sendStatusItem_sent c hstate
  by_cases hdown : s.client.state = .disconnected
  · rw [if_pos hdown] at hsent
    exact .inl ⟨hsent, .inl hdown⟩
  · rw [if_neg hdown] at hsent
    exact .inr ⟨hdown, c, rfl, rfl, hsent⟩

theorem step_setStatus {now : BitVec 64} {mute : Bool} {key text : Bytes} (h : s.Tracked changes)
    (hguard : Resends s (.setStatus now mute key text))
    (ht : machine.step s (.setStatus now mute key text) = some t) :
    ∃ changes', t.Tracked changes' := by
  simp only [machine, Option.ite_none_left_eq_some, Option.some.injEq] at ht
  obtain ⟨hkey, rfl⟩ := ht
  obtain ⟨hstate, hcore, ⟨hsent, hwhy⟩ | ⟨hup, c, hckey, hcvalue, hsent⟩⟩ :=
    setStatus_cases hkey h.state (rfl : s.setStatus now mute key text = _)
  · refine ⟨changes, h.keep hsent hstate hcore ?_ ?_ ?_⟩
    · simp [hsent]
    · intro key' hnone
      rw [OrderedMap.find_insert] at hnone
      split_ifs at hnone
      exact .inl hnone
    · intro hreg key'
      have hsame := (h.registered hreg).2
      have hrepeat : s.wanted.find key = some text := by
        rcases hguard hreg with hrepeat | ⟨hmute, hne, -, hcached⟩
        · exact hrepeat
        · simp [hreg, hmute, hne, hcached] at hwhy
      simp only [hsent, if_pos, OrderedMap.find_insert, hsame]
      split_ifs with hkey'
      · rw [← hkey', hrepeat]
      · rfl
  · have hne : (s.setStatus now mute key text).client.sent ≠ s.client.sent := by simp [hsent]
    refine ⟨changes ++ [c], h.send c hup hsent hstate hcore ?_ ?_ ?_⟩
    · intro key'
      simp only [if_neg hne, OrderedMap.find_insert, hckey, hcvalue]
      split_ifs <;> rfl
    · intro key' hnone
      rw [OrderedMap.find_insert] at hnone
      split_ifs at hnone with hkey'
      rwa [if_neg (hckey ▸ hkey')]
    · intro hreg key'
      obtain ⟨hr, hsame⟩ := h.registered hreg
      have htext : 0 ∉ text := by
        rcases hguard hreg with hrepeat | ⟨-, -, htext, -⟩
        · exact (h.delivered hup hr key text ((hsame key).trans hrepeat)).1
        · exact htext
      simp only [if_neg hne, OrderedMap.find_insert, cstringAt_of_not_mem htext, hsame]
      split_ifs <;> rfl

theorem step_removeStatus {now : BitVec 64} {key : Bytes} (h : s.Tracked changes)
    (ht : machine.step s (.removeStatus now key) = some t) : ∃ changes', t.Tracked changes' := by
  simp only [machine, Option.ite_none_left_eq_some, Option.some.injEq] at ht
  obtain ⟨hkey, rfl⟩ := ht
  have hstate := sendStatusItem_state s.client now key none
  have hsame : s.client.state = .registered → ∀ key',
      (s.delivered.erase key).find key' = (s.wanted.erase key).find key' := by
    intro hreg key'
    rw [OrderedMap.find_erase, OrderedMap.find_erase, (h.registered hreg).2]
  by_cases hquiet : key = [] ∨ s.client.state = .disconnected
  · refine ⟨changes, h.keep ?_ hstate rfl ?_ ?_ hsame⟩
    · rcases hquiet with hne | hdown
      · simp [removeStatus, IvpPlugin.sendStatusItem, hne]
      · simp [removeStatus, IvpPlugin.sendStatusItem, IvpPlugin.broadcastMessage, hdown]
    · intro key' text hfind
      rw [OrderedMap.find_erase] at hfind
      split_ifs at hfind
      exact hfind
    · intro key' hnone
      rw [OrderedMap.find_erase] at hnone
      split_ifs at hnone with hkey'
      · right
        rcases hquiet with hne | hdown
        · simp [statusItem, ← hkey', hne]
        · obtain ⟨rfl, hrows⟩ := h.down hdown
          exact hrows key'
      · exact .inl hnone
  · obtain ⟨hne, hup⟩ := not_or.mp hquiet
    let c : StatusChange := ⟨now, key, none, hne, hkey, by simp⟩
    have hsent := sendStatusItem_sent c h.state
    rw [if_neg hup] at hsent
    refine ⟨changes ++ [c], h.send c hup hsent hstate rfl ?_ ?_ hsame⟩
    · intro key'
      simp only [OrderedMap.find_erase, c]
      split_ifs <;> rfl
    · intro key' hnone
      rw [OrderedMap.find_erase] at hnone
      split_ifs at hnone ⊢ with hkey'
      · rfl
      · exact hnone

theorem onStateChange_state (plugin : IvpPlugin) (state : IvpPluginState) :
    (plugin.onStateChange state).state = state := by
  unfold IvpPlugin.onStateChange
  split_ifs with h
  · exact h
  · rfl

theorem onStateChange_sent (plugin : IvpPlugin) (state : IvpPluginState) :
    (plugin.onStateChange state).sent = plugin.sent := by
  unfold IvpPlugin.onStateChange
  split_ifs <;> rfl

theorem step_connect {id : BitVec 32} (h : s.Tracked changes)
    (ht : machine.step s (.connect id) = some t) : t.Tracked [] := by
  simp only [machine, Option.ite_none_right_eq_some, Option.some.injEq] at ht
  obtain ⟨hdown, rfl⟩ := ht
  obtain ⟨rfl, hrows⟩ := h.down hdown
  have hstate := onStateChange_state s.client .connected
  exact {
    sent := rfl
    state := by simp [hstate]
    down := fun hs => by simp [hstate] at hs
    unregistered := fun _ => hrows
    removed := fun key _ => hrows key
    delivered := fun _ hr => by simp [Plugin.new] at hr
    registered := fun hs => by simp [hstate] at hs }

theorem step_register {info : RegistrationInformation} {configMap : ConfigMap}
    (h : s.Tracked changes) (ht : machine.step s (.register info configMap) = some t) :
    t.Tracked changes := by
  simp only [machine, Option.ite_none_right_eq_some, Option.some.injEq] at ht
  obtain ⟨⟨hup, -⟩, rfl⟩ := ht
  exact {
    sent := h.sent
    state := h.state
    down := h.down
    unregistered := fun hr => by simp [Plugin.registered] at hr
    removed := h.removed
    delivered := fun _ _ key text hkey => by simp [OrderedMap.find, OrderedMap.empty] at hkey
    registered := fun hs => by simp [hup] at hs }

theorem step_confirm (h : s.Tracked changes) (hguard : Resends s .confirm)
    (ht : machine.step s .confirm = some t) : t.Tracked changes := by
  simp only [machine, Option.ite_none_right_eq_some, Option.some.injEq] at ht
  obtain ⟨⟨hup, hreg⟩, rfl⟩ := ht
  have hguard : s.delivered = s.wanted := hguard
  have hstate := onStateChange_state s.client .registered
  exact {
    sent := (onStateChange_sent _ _).trans h.sent
    state := by simp [hstate]
    down := fun hs => by simp [hstate] at hs
    unregistered := h.unregistered
    removed := h.removed
    delivered := fun _ hr => h.delivered (by simp [hup]) hr
    registered := fun _ => ⟨hreg, fun key => by rw [hguard]⟩ }

/-- The core takes a frame: it changes the table, or drops it before the registration. -/
theorem process_cons {fresh : IvpDsrcMetadata} {c : StatusChange}
    (hsent : s.client.sent = (c :: changes).map frame) (ht : s.process fresh = some t) :
    t = { s with
      client := { s.client with sent := changes.map frame }
      core := if s.core.plugin.mRegistered then { s.core with db := apply s.core.db c }
        else s.core } := by
  have hmsg := (IvpPluginStatus.received_createMsg c.now c.key c.value).1
  change IvpPluginStatus.isStatusMsg c.message.received = true at hmsg
  simp only [process, hsent, List.map_cons, frame, IvpMessage.parse_createJsonString, hmsg,
    if_true, processStatusMessage_run, Option.some.injEq] at ht
  exact ht.symm

theorem step_process {fresh : IvpDsrcMetadata} (h : s.Tracked changes)
    (ht : machine.step s (.process fresh) = some t) : ∃ changes', t.Tracked changes' := by
  cases changes with
  | nil =>
    have hsent := h.sent
    simp [machine, process, hsent] at ht
  | cons c changes =>
    have hup : s.client.state ≠ .disconnected := fun hs => by simpa using (h.down hs).1
    have ht := process_cons h.sent ht
    cases hreg : s.core.plugin.mRegistered with
    | false =>
      have hrows := h.unregistered hreg
      rw [hreg, if_neg Bool.false_ne_true] at ht
      subst ht
      exact ⟨changes, {
        sent := rfl
        state := h.state
        down := fun hs => absurd hs hup
        unregistered := h.unregistered
        removed := fun key hkey => statusItem_settle_tail (hrows key) (h.removed key hkey)
        delivered := fun _ hr => by simp [hreg] at hr
        registered := h.registered }⟩
    | true =>
      rw [hreg, if_pos rfl] at ht
      subst ht
      exact ⟨changes, {
        sent := rfl
        state := h.state
        down := fun hs => absurd hs hup
        unregistered := fun hr => by simp [hreg] at hr
        removed := h.removed
        delivered := h.delivered
        registered := h.registered }⟩

theorem step_lose (ht : machine.step s .lose = some t) : t.Tracked [] := by
  simp only [machine, Option.ite_none_left_eq_some, Option.some.injEq] at ht
  obtain ⟨-, rfl⟩ := ht
  have hstate := onStateChange_state s.client .disconnected
  have hrows := statusItem_destroyPlugin s.core
  exact {
    sent := rfl
    state := by simp [lose, hstate]
    down := fun _ => ⟨rfl, hrows⟩
    unregistered := fun _ => hrows
    removed := fun key _ => hrows key
    delivered := fun hs => absurd hstate hs
    registered := fun hs => by simp [lose, hstate] at hs }

theorem step_tracked (a : StatusAct) (h : ∃ changes, s.Tracked changes) (hguard : Resends s a)
    (ht : machine.step s a = some t) : ∃ changes, t.Tracked changes := by
  obtain ⟨changes, h⟩ := h
  cases a with
  | setStatus now mute key text => exact step_setStatus h hguard ht
  | removeStatus now key => exact step_removeStatus h ht
  | connect id => exact ⟨_, step_connect h ht⟩
  | register info configMap => exact ⟨_, step_register h ht⟩
  | confirm => exact ⟨_, step_confirm h hguard ht⟩
  | process fresh => exact step_process h ht
  | lose => exact ⟨_, step_lose ht⟩

end Steps

def sampleRegistration : List StatusAct :=
  [.connect 0, .register ⟨⟨1, cstr "Map", [], []⟩, [], []⟩ .empty, .confirm]

def sampleKey : Bytes := cstr "Speed"

/-- The item is set, changed and removed, the connection is lost, and it is set again. -/
def sampleActs : List StatusAct :=
  sampleRegistration ++
    ([.setStatus 0 false sampleKey (cstr "10"), .process ⟨0, 0⟩,
      .setStatus 0 false sampleKey (cstr "20"), .removeStatus 0 sampleKey, .process ⟨0, 0⟩,
      .lose] : List StatusAct) ++
    sampleRegistration ++
    ([.setStatus 0 false sampleKey (cstr "30"), .process ⟨0, 0⟩] : List StatusAct)

/-- The item is set before and after the connection is lost. -/
def lostActs : List StatusAct :=
  sampleRegistration ++
    ([.setStatus 0 false sampleKey (cstr "10"), .process ⟨0, 0⟩, .lose] : List StatusAct) ++
    sampleRegistration ++ ([.setStatus 0 false sampleKey (cstr "10")] : List StatusAct)

end StatusLink
end V2IHub.Client
