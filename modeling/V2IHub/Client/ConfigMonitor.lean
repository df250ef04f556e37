import V2IHub.Client.ConfigSteps

/-! What one pass of the configuration monitor of the core leaves in the cached values, and
which calls of `onConfigChanged` it makes. -/
namespace V2IHub.Client.ConfigLink
open Foundation Json Api V2IHub.Core Program CoreException

section Calls
variable {D : Type} {s : CoreState D} {calls : List (Bytes × PluginConfigurationParameterEntry)}
  {key : Bytes}

/-- The state after these entries were cached and announced, in this order. -/
def announced (s : CoreState D) (calls : List (Bytes × PluginConfigurationParameterEntry)) :
    CoreState D :=
  calls.foldl (fun s e => changed s e.1 e.2) s

theorem forEach_changeEntry (s : CoreState D)
    (calls : List (Bytes × PluginConfigurationParameterEntry)) :
    forEach calls (fun e => changeEntry e.1 e.2) s = (.ok (), announced s calls) := by
  induction calls generalizing s with
  | nil => rfl
  | cons e calls ih =>
    rw [forEach, bind_ok (changeEntry_run e.1 e.2 s)]
    exact ih (changed s e.1 e.2)

theorem announced_append (s : CoreState D)
    (calls calls' : List (Bytes × PluginConfigurationParameterEntry)) :
    announced s (calls ++ calls') = announced (announced s calls) calls' :=
  List.foldl_append

theorem announced_socket (s : CoreState D)
    (calls : List (Bytes × PluginConfigurationParameterEntry)) :
    (announced s calls).socket =
      s.socket ++ calls.map fun e => configFrame s.clock [(e.2.key, e.2.value)] := by
  induction calls generalizing s with
  | nil => simp [announced]
  | cons e calls ih =>
    have htail := ih (changed s e.1 e.2)
    rw [announced] at htail
    rw [announced, List.foldl_cons, htail]
    simp [changed]

theorem announced_find_of_not_mem (h : key ∉ calls.map Prod.fst) :
    (announced s calls).plugin.mConfigValues.find key = s.plugin.mConfigValues.find key := by
  induction calls generalizing s with
  | nil => rfl
  | cons e calls ih =>
    simp only [List.map_cons, List.mem_cons, not_or] at h
    have htail := ih (s := changed s e.1 e.2) h.2
    rw [changed_find_of_ne (Ne.symm h.1)] at htail
    exact htail

theorem announced_find_of_mem {entry : PluginConfigurationParameterEntry}
    (hnodup : (calls.map Prod.fst).Nodup) (h : (key, entry) ∈ calls) :
    (announced s calls).plugin.mConfigValues.find key = some entry := by
  induction calls generalizing s with
  | nil => simp at h
  | cons e calls ih =>
    rw [List.map_cons, List.nodup_cons] at hnodup
    rcases List.mem_cons.mp h with rfl | h
    · have hkept := announced_find_of_not_mem (s := changed s key entry) hnodup.1
      exact hkept.trans ((OrderedMap.find_insert ..).trans (if_pos rfl))
    · exact ih (s := changed s e.1 e.2) hnodup.2 h

end Calls

section Loops
variable {D : Type} {s : CoreState D}
  {entries : List (Bytes × PluginConfigurationParameterEntry)}

/-- What the first loop replaces: the entries that the snapshot has with another value. -/
def replacedEntries (snapshot : ConfigMap)
    (entries : List (Bytes × PluginConfigurationParameterEntry)) :
    List (Bytes × PluginConfigurationParameterEntry) :=
  entries.filterMap fun e =>
    match snapshot.find e.1 with
    | some newEntry => if newEntry.value ≠ e.2.value then some (e.1, newEntry) else none
    | none => none

theorem replacedEntries_cons_of_none {snapshot : ConfigMap}
    {e : Bytes × PluginConfigurationParameterEntry} (h : snapshot.find e.1 = none) :
    replacedEntries snapshot (e :: entries) = replacedEntries snapshot entries := by
  simp [replacedEntries, h]

theorem replacedEntries_cons_of_some {snapshot : ConfigMap}
    {e : Bytes × PluginConfigurationParameterEntry}
    {newEntry : PluginConfigurationParameterEntry} (h : snapshot.find e.1 = some newEntry) :
    replacedEntries snapshot (e :: entries) =
      (if newEntry.value ≠ e.2.value then [(e.1, newEntry)] else []) ++
        replacedEntries snapshot entries := by
  by_cases hvalue : newEntry.value = e.2.value <;>
    simp [replacedEntries, h, hvalue]

theorem mem_replacedEntries {snapshot : ConfigMap} {key : Bytes}
    {newEntry : PluginConfigurationParameterEntry} :
    (key, newEntry) ∈ replacedEntries snapshot entries ↔
      snapshot.find key = some newEntry ∧
        ∃ entry, (key, entry) ∈ entries ∧ newEntry.value ≠ entry.value := by
  induction entries with
  | nil => simp [replacedEntries]
  | cons e entries ih =>
    cases hfind : snapshot.find e.1 with
    | none =>
      rw [replacedEntries_cons_of_none hfind, ih]
      grind
    | some other =>
      rw [replacedEntries_cons_of_some hfind, List.mem_append, ih]
      grind

theorem replacedEntries_keys_sublist (snapshot : ConfigMap)
    (entries : List (Bytes × PluginConfigurationParameterEntry)) :
    ((replacedEntries snapshot entries).map Prod.fst).Sublist (entries.map Prod.fst) := by
  induction entries with
  | nil => exact .slnil
  | cons e entries ih =>
    cases hfind : snapshot.find e.1 with
    | none => exact (replacedEntries_cons_of_none hfind).symm ▸ ih.cons _
    | some newEntry =>
      rw [replacedEntries_cons_of_some hfind]
      split_ifs
      · exact ih.cons_cons _
      · exact ih.cons _

/-- An entry that is passed is taken out of the snapshot, which the later ones do not see. -/
theorem replacedEntries_erase {snapshot : ConfigMap} {key : Bytes}
    (h : key ∉ entries.map Prod.fst) :
    replacedEntries (snapshot.erase key) entries = replacedEntries snapshot entries := by
  refine List.filterMap_congr fun e he => ?_
  have hne : key ≠ e.1 := by
    rintro rfl
    exact h (List.mem_map_of_mem he)
  rw [OrderedMap.find_erase, if_neg hne]

theorem replaceConfigEntry_run (key : Bytes) (entry newEntry : PluginConfigurationParameterEntry)
    (s : CoreState D) :
    replaceConfigEntry key entry newEntry s =
      (.ok (), announced s (if newEntry.value ≠ entry.value then [(key, newEntry)] else [])) := by
  unfold replaceConfigEntry
  split_ifs
  · exact changeEntry_run key newEntry s
  · rfl

theorem updateConfigValues_run (configMap : ConfigMap) (hnodup : (entries.map Prod.fst).Nodup) :
    ∃ rest, updateConfigValues configMap entries s =
        (.ok rest, announced s (replacedEntries configMap entries)) ∧
      ∀ key, rest.find key =
        if key ∈ entries.map Prod.fst then none else configMap.find key := by
  induction entries generalizing configMap s with
  | nil => exact ⟨configMap, rfl, by simp⟩
  | cons e entries ih =>
    obtain ⟨key, entry⟩ := e
    rw [List.map_cons, List.nodup_cons] at hnodup
    obtain ⟨hhead, htail⟩ := hnodup
    cases hnew : configMap.find key with
    | none =>
      obtain ⟨rest, hrun, hrest⟩ := @ih s configMap htail
      refine ⟨rest, ?_, fun key' => ?_⟩
      · rw [replacedEntries_cons_of_none hnew, ← hrun]
        simp only [updateConfigValues, hnew]
      · rw [hrest key', List.map_cons]
        by_cases heq : key' = key
        · simp [heq, hnew]
        · simp only [List.mem_cons, heq, false_or]
    | some newEntry =>
      have hreplace := replaceConfigEntry_run key entry newEntry s
      obtain ⟨rest, hrun, hrest⟩ := @ih _ (configMap.erase key) htail
      refine ⟨rest, ?_, fun key' => ?_⟩
      · simp only [updateConfigValues, hnew]
        rw [bind_ok hreplace, hrun, replacedEntries_cons_of_some hnew, announced_append,
          replacedEntries_erase hhead]
      · rw [hrest key', OrderedMap.find_erase, List.map_cons]
        by_cases heq : key' = key
        · simp [heq]
        · simp only [List.mem_cons, heq, false_or, if_neg (Ne.symm heq)]

end Loops

section Pass
variable {D : Type} (db : Database D)

/-- The calls of `onConfigChanged` are one for each key of the snapshot that the cache does not
have or has with another value, and no others. -/
structure Announces (cache snapshot : ConfigMap)
    (calls : List (Bytes × PluginConfigurationParameterEntry)) : Prop where
  once : (calls.map Prod.fst).Nodup
  changes : ∀ key entry, (key, entry) ∈ calls ↔
    snapshot.find key = some entry ∧ (cache.find key).map (·.value) ≠ some entry.value

/-- The cache has the values of the snapshot, and what it had for the keys beyond. -/
structure Merged (cache snapshot cache' : ConfigMap) : Prop where
  values : ∀ key entry, snapshot.find key = some entry →
    (cache'.find key).map (·.value) = some entry.value
  others : ∀ key, snapshot.find key = none → cache'.find key = cache.find key

theorem Announces.merged {s : CoreState D} {snapshot : ConfigMap}
    {calls : List (Bytes × PluginConfigurationParameterEntry)}
    (h : Announces s.plugin.mConfigValues snapshot calls) :
    Merged s.plugin.mConfigValues snapshot (announced s calls).plugin.mConfigValues := by
  have hkept : ∀ key, (∀ entry, (key, entry) ∉ calls) →
      (announced s calls).plugin.mConfigValues.find key = s.plugin.mConfigValues.find key := by
    intro key hkey
    refine announced_find_of_not_mem fun hmem => ?_
    obtain ⟨⟨_, entry⟩, hcall, rfl⟩ := List.mem_map.mp hmem
    exact hkey entry hcall
  constructor
  · intro key entry hfind
    by_cases hsame : (s.plugin.mConfigValues.find key).map (·.value) = some entry.value
    · rw [hkept key fun entry' hcall => ?_, hsame]
      obtain ⟨hfind', hdiffers⟩ := (h.changes key entry').mp hcall
      obtain rfl := Option.some.inj (hfind.symm.trans hfind')
      exact hdiffers hsame
    · rw [announced_find_of_mem h.once ((h.changes key entry).mpr ⟨hfind, hsame⟩)]
      rfl
  · intro key hfind
    refine hkept key fun entry hcall => ?_
    have hfind' := ((h.changes key entry).mp hcall).1
    simp [hfind] at hfind'

/-- What both loops announce together: the second takes what is left of the snapshot after the
first. -/
theorem announces_of_rest {cache snapshot rest : ConfigMap}
    (hrest : ∀ key, rest.find key =
      if key ∈ cache.entries.map Prod.fst then none else snapshot.find key) :
    Announces cache snapshot (replacedEntries snapshot cache.entries ++ rest.entries) := by
  constructor
  · rw [List.map_append, List.nodup_append]
    refine ⟨(replacedEntries_keys_sublist snapshot cache.entries).nodup cache.nodup_keys,
      rest.nodup_keys, fun key hkey key' hkey' heq => ?_⟩
    have hold := (replacedEntries_keys_sublist snapshot cache.entries).subset hkey
    have hrest' := hrest key'
    rw [← heq, if_pos hold, heq] at hrest'
    have hfound := OrderedMap.isSome_find_iff.mpr hkey'
    simp [hrest'] at hfound
  · intro key entry
    simp only [List.mem_append, mem_replacedEntries, OrderedMap.mem_entries_iff, hrest,
      ← OrderedMap.isSome_find_iff]
    cases hcache : cache.find key with
    | none => simp
    | some old => simp [ne_comm]

/-- A pass over a snapshot makes the calls of `onConfigChanged` that the changes ask for, each
with the entry cached first, and does nothing else but read the database. -/
theorem configMonitorPass_announces (s : CoreState D) (d : D)
    (rows : List PluginConfigurationParameterEntry) (hreg : s.plugin.mRegistered = true)
    (hquery : db.selectPluginConfigParameters s.plugin.mInfo.pluginInfo.id s.db = (.ok rows, d)) :
    ∃ calls t, Announces s.plugin.mConfigValues (.ofRows rows) calls ∧
      configMonitorPass db s = (.ok (), t) ∧
      forEach calls (fun e => changeEntry e.1 e.2) { s with db := d } = (.ok (), t) ∧
      t.socket = s.socket ++ calls.map (fun e => configFrame s.clock [(e.1, e.2.value)]) ∧
      Merged s.plugin.mConfigValues (.ofRows rows) t.plugin.mConfigValues := by
  obtain ⟨rest, hupdate, hrest⟩ := updateConfigValues_run (s := { s with db := d })
    (ConfigMap.ofRows rows) s.plugin.mConfigValues.nodup_keys
  have hcalls := announces_of_rest hrest
  generalize hlist : replacedEntries (ConfigMap.ofRows rows) s.plugin.mConfigValues.entries ++
    rest.entries = calls at hcalls
  have hpass : configMonitorPass db s = (.ok (), announced { s with db := d } calls) := by
    unfold configMonitorPass
    rw [bind_ok (get_run _), if_pos hreg]
    simp only [bind_run, Program.tryCatch, getPluginConfigParameters, query, hquery, pure_run,
      hupdate]
    rw [← hlist, announced_append]
    exact forEach_changeEntry _ _
  refine ⟨calls, _, hcalls, hpass, forEach_changeEntry _ calls, ?_,
    Announces.merged (s := { s with db := d }) hcalls⟩
  rw [announced_socket]
  congr 1
  refine List.map_congr_left fun e he => ?_
  have hfind := ((hcalls.changes e.1 e.2).mp he).1
  rw [keyConsistent_ofRows rows e.1 e.2 hfind]

/-- A cache with two values, and a database where one of them is another and there is a third. -/
def sampleState : CoreState Unit :=
  let plugin := Plugin.new 1
  let entry key value := PluginConfigurationParameterEntry.create (cstr key) (cstr value) []
  { db := (), clock := 0, clientNames := ∅, filter := none, routed := [], socket := []
    plugin := { plugin with
      mRegistered := true
      mConfigValues := .ofRows [entry "Frequency" "100", entry "Level" "debug"] } }

def sampleRows : List PluginConfigurationParameterEntry :=
  [.create (cstr "Level") (cstr "info") [], .create (cstr "Port") (cstr "5000") []]

def sampleDatabase : Database Unit :=
  { quietDatabase with selectPluginConfigParameters := fun _ _ => (.ok sampleRows, ()) }

theorem configMonitorPass_announces_sampleRows :
    ∃ calls t, Announces sampleState.plugin.mConfigValues (.ofRows sampleRows) calls ∧
      configMonitorPass sampleDatabase sampleState = (.ok (), t) ∧
      forEach calls (fun e => changeEntry e.1 e.2) { sampleState with db := () } = (.ok (), t) ∧
      t.socket = sampleState.socket ++
        calls.map (fun e => configFrame sampleState.clock [(e.1, e.2.value)]) ∧
      Merged sampleState.plugin.mConfigValues (.ofRows sampleRows) t.plugin.mConfigValues :=
  configMonitorPass_announces sampleDatabase sampleState () sampleRows rfl rfl

end Pass
end V2IHub.Client.ConfigLink
