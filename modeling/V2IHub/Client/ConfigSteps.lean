import V2IHub.Client.ConfigAgreement

/-! The handlers of the core as steps of a link: a registration that nothing interrupts, and a
pass of the configuration monitor. -/
namespace V2IHub.Client.ConfigLink
open Foundation Json Api V2IHub.Core Program CoreException

variable {D : Type} (db : Database D)

section Registration

theorem registerPlugin_registered (info : RegistrationInformation) :
    Triple (fun _ => True) (registerPlugin db info) (fun _ s => s.plugin.mRegistered = true)
      fun _ _ => True := by
  refine triple_bind triple_const fun s => ?_
  split_ifs
  · exact triple_throw fun _ _ => trivial
  · exact triple_throw fun _ _ => trivial
  · refine triple_bind triple_const fun _ => triple_bind triple_const fun stored => ?_
    refine triple_bind (triple_modify (Q := fun _ s => s.plugin.mRegistered = true)
      fun _ _ => rfl) fun _ => ?_
    exact triple_mono ((announceRegistration_preserves db (g := CoreState.plugin)
      (fun _ _ => rfl) fun _ _ => rfl).triple fun plugin => plugin.mRegistered = true)
      (fun _ => id) (fun _ _ => id) fun _ _ _ => trivial

theorem getAllConfigValues_run {s : CoreState D} (hreg : s.plugin.mRegistered = true) :
    Core.getAllConfigValues s = (.ok s.plugin.mConfigValues, s) := by
  rw [Core.getAllConfigValues, requireRegistered_bind, if_pos hreg]
  rfl

/-- What follows `registerPlugin` in `processRegistrationMessage`. -/
def answerRegistration (ok : Bool) : CoreProgram D Unit :=
  if ok then do
    let configEntries ← Core.getAllConfigValues
    sendConfigValues configEntries
  else pure ()

/-- Nothing throws once the plugin is registered, so that the answer may as well stand behind
the `try` block. -/
theorem processRegistrationMessage_eq (fresh : BitVec 32) (msg : IvpMessage) (s : CoreState D) :
    processRegistrationMessage db fresh msg s =
      (beginRegistration db fresh msg >>= answerRegistration) s := by
  unfold processRegistrationMessage beginRegistration
  cases msg.payload with
  | none => rfl
  | some payload =>
    simp only [deref_some_bind]
    split_ifs with hvalid
    · rcases hinfo : registrationInformation fresh (IvpRegister.getManifestFromJson payload) s with
        ⟨info | e | _, s'⟩
      · rw [bind_ok hinfo, bind_run, bind_ok hinfo]
        have hreg := registerPlugin_registered db info s' trivial
        rcases hr : registerPlugin db info s' with ⟨u | e | _, t⟩ <;> rw [hr] at hreg
        · simp [Program.tryCatch, bind_ok hr, bind_ok (getAllConfigValues_run hreg),
            sendConfigValues_run, answerRegistration]
        · cases hcatch : isPluginException e with
          | true =>
            simp [Program.tryCatch, bind_throws hr, hcatch, answerRegistration, sendError,
              onMessageReceived, bind_run]
          | false => simp [Program.tryCatch, bind_throws hr, hcatch]
        · simp [Program.tryCatch, bind_crash hr]
      · rw [bind_throws hinfo, bind_run, bind_throws hinfo]
      · rw [bind_crash hinfo, bind_run, bind_crash hinfo]
    · rfl

/-- A registration is the step `register`, and where that succeeds the two that send the
answer. -/
theorem processRegistrationMessage_steps {l : ConfigLink D} {now : BitVec 64} {fresh : BitVec 32}
    {t : CoreState D} (hphase : l.phase = .connected)
    (h : processRegistrationMessage db fresh
      (IvpRegister.createMsgFromJson now l.client.jsonManifest).received l.core = (.ok (), t)) :
    (machine db).run l [.register now fresh] = some { l with core := t, phase := .refused } ∨
      (machine db).run l [.register now fresh, .getAllConfigValues, .sendConfigValues] =
        some { l with core := t, phase := .settled } := by
  rw [processRegistrationMessage_eq, bind_run] at h
  rcases hr : beginRegistration db fresh
    (IvpRegister.createMsgFromJson now l.client.jsonManifest).received l.core with
    ⟨ok | e | _, s⟩ <;> simp only [hr] at h
  · cases ok with
    | false =>
      obtain rfl : s = t := congrArg Prod.snd h
      exact .inl (by simp [Machine.run, machine, step, register, hphase, hr])
    | true =>
      simp only [answerRegistration, if_true] at h
      rcases hall : (Core.getAllConfigValues : CoreProgram D ConfigMap) s with ⟨m | e | _, s'⟩
      · rw [bind_ok hall, sendConfigValues_run] at h
        obtain rfl : s'.write _ = t := congrArg Prod.snd h
        exact .inr (by simp [Machine.run, machine, step, register, hphase, hr,
          ConfigLink.snapshot, hall, send, sendConfigValues_run])
      · rw [bind_throws hall] at h
        simp at h
      · rw [bind_crash hall] at h
        simp at h
  · simp at h
  · simp at h

end Registration

section Monitor
variable {l : ConfigLink D} {s t : CoreState D}

/-- Changes take the core of the link from `s` to `t`. -/
def Reaches (l : ConfigLink D) (s t : CoreState D) : Prop :=
  ∃ changes : List (Bytes × PluginConfigurationParameterEntry),
    (machine db).run { l with core := s } (changes.map fun e => .change e.1 e.2) =
      some { l with core := t }

theorem Reaches.refl (l : ConfigLink D) (s : CoreState D) : Reaches db l s s := ⟨[], rfl⟩

theorem Reaches.trans {u : CoreState D} (h : Reaches db l s t) (h' : Reaches db l t u) :
    Reaches db l s u := by
  obtain ⟨changes, hrun⟩ := h
  obtain ⟨changes', hrun'⟩ := h'
  exact ⟨changes ++ changes', by rw [List.map_append]; exact Machine.run_append hrun hrun'⟩

def changed (s : CoreState D) (key : Bytes) (entry : PluginConfigurationParameterEntry) :
    CoreState D :=
  { s with
    plugin := { s.plugin with mConfigValues := s.plugin.mConfigValues.insert key entry }
    socket := s.socket ++ [configFrame s.clock [(entry.key, entry.value)]] }

theorem changed_find_of_ne {key key' : Bytes} (h : key ≠ key') (s : CoreState D)
    (entry : PluginConfigurationParameterEntry) :
    (changed s key entry).plugin.mConfigValues.find key' = s.plugin.mConfigValues.find key' :=
  (OrderedMap.find_insert ..).trans (if_neg h)

section Loops
variable (hup : l.phase.isDown = false)
include hup

theorem reaches_changed {key : Bytes} {entry : PluginConfigurationParameterEntry}
    (hreg : s.plugin.mRegistered = true) (hkey : entry.key = key)
    (hdiffers : (s.plugin.mConfigValues.find key).map (·.value) ≠ some entry.value) :
    Reaches db l s (changed s key entry) := by
  refine ⟨[(key, entry)], Machine.run_cons_eq_some.mpr ⟨_, ?_, rfl⟩⟩
  simp only [machine, step, change, hup, hreg, hkey, true_and]
  rw [if_pos hdiffers, changeEntry_run]
  rfl

theorem replaceConfigEntry_steps {key : Bytes}
    {entry newEntry : PluginConfigurationParameterEntry} (hreg : s.plugin.mRegistered = true)
    (hkey : newEntry.key = key) (hfind : s.plugin.mConfigValues.find key = some entry) :
    ∃ t, replaceConfigEntry key entry newEntry s = (.ok (), t) ∧ Reaches db l s t ∧
      t.plugin.mRegistered = true ∧
      ∀ key', key ≠ key' →
        t.plugin.mConfigValues.find key' = s.plugin.mConfigValues.find key' := by
  unfold replaceConfigEntry
  split_ifs with hvalue
  · refine ⟨changed s key newEntry, rfl, reaches_changed db hup hreg hkey ?_, hreg,
      fun key' hne => changed_find_of_ne hne s newEntry⟩
    simpa [hfind] using Ne.symm hvalue
  · exact ⟨s, rfl, .refl db l s, hreg, fun _ _ => rfl⟩

/-- The loop over the known values. What it leaves for the second loop is not known yet. -/
theorem updateConfigValues_steps {entries : List (Bytes × PluginConfigurationParameterEntry)}
    (hsorted : entries.Pairwise fun a b => a.1 < b.1) {configMap : ConfigMap}
    (hkeys : KeyConsistent configMap) (hreg : s.plugin.mRegistered = true)
    (hfind : ∀ e ∈ entries, s.plugin.mConfigValues.find e.1 = some e.2) :
    ∃ rest t, updateConfigValues configMap entries s = (.ok rest, t) ∧ Reaches db l s t ∧
      t.plugin.mRegistered = true ∧
      ∀ key entry, rest.find key = some entry → configMap.find key = some entry ∧
        key ∉ entries.map Prod.fst ∧
        t.plugin.mConfigValues.find key = s.plugin.mConfigValues.find key := by
  induction entries generalizing configMap s with
  | nil => exact ⟨configMap, s, rfl, .refl db l s, hreg, fun _ _ h => ⟨h, by simp, rfl⟩⟩
  | cons e entries ih =>
    obtain ⟨key, entry⟩ := e
    obtain ⟨hlt, hsorted⟩ := List.pairwise_cons.mp hsorted
    have htail : ∀ e ∈ entries, s.plugin.mConfigValues.find e.1 = some e.2 :=
      fun e he => hfind e (by simp [he])
    cases hnew : configMap.find key with
    | none =>
      obtain ⟨rest, t, hrun, hreaches, hreg', hrest⟩ := ih hsorted hkeys hreg htail
      refine ⟨rest, t, by simp [updateConfigValues, hnew, hrun], hreaches, hreg',
        fun key' entry' h => ?_⟩
      obtain ⟨hmap, hunknown, hsame⟩ := hrest key' entry' h
      have hne : key' ≠ key := by
        rintro rfl
        simp [hnew] at hmap
      exact ⟨hmap, by simpa [hne] using hunknown, hsame⟩
    | some newEntry =>
      obtain ⟨s', hreplace, hstep, hregs, hother⟩ := replaceConfigEntry_steps db hup hreg
        (hkeys key newEntry hnew) (hfind (key, entry) (by simp))
      have htail' : ∀ e ∈ entries, s'.plugin.mConfigValues.find e.1 = some e.2 :=
        fun e he => (hother e.1 (hlt e he).ne).trans (htail e he)
      obtain ⟨rest, t, hrun, hreaches, hreg', hrest⟩ := ih hsorted (hkeys.erase key) hregs htail'
      refine ⟨rest, t, by simp [updateConfigValues, hnew, bind_ok hreplace, hrun],
        hstep.trans db hreaches, hreg', fun key' entry' h => ?_⟩
      obtain ⟨hmap, hunknown, hsame⟩ := hrest key' entry' h
      rw [OrderedMap.find_erase] at hmap
      split_ifs at hmap with hne
      exact ⟨hmap, by simpa [Ne.symm hne] using hunknown, hsame.trans (hother key' hne)⟩

theorem addConfigValues_steps {entries : List (Bytes × PluginConfigurationParameterEntry)}
    (hsorted : entries.Pairwise fun a b => a.1 < b.1)
    (hkeys : ∀ e ∈ entries, e.2.key = e.1) (hreg : s.plugin.mRegistered = true)
    (hfind : ∀ e ∈ entries, s.plugin.mConfigValues.find e.1 = none) :
    ∃ t, forEach entries (fun e => changeEntry e.1 e.2) s = (.ok (), t) ∧ Reaches db l s t := by
  induction entries generalizing s with
  | nil => exact ⟨s, rfl, .refl db l s⟩
  | cons e entries ih =>
    obtain ⟨hlt, hsorted⟩ := List.pairwise_cons.mp hsorted
    have hhead : Reaches db l s (changed s e.1 e.2) :=
      reaches_changed db hup hreg (hkeys e (by simp)) (by simp [hfind e (by simp)])
    obtain ⟨t, hrun, hreaches⟩ := ih (s := changed s e.1 e.2) hsorted
      (fun e' he' => hkeys e' (by simp [he'])) hreg
      fun e' he' => (changed_find_of_ne (hlt e' he').ne s e.2).trans (hfind e' (by simp [he']))
    exact ⟨t, hrun, hhead.trans db hreaches⟩

/-- A pass of the configuration monitor is a run of changes, after what the database does. -/
theorem configMonitorPass_steps :
    ∃ d t, configMonitorPass db l.core = (.ok (), t) ∧
      Reaches db l { l.core with db := d } t := by
  unfold configMonitorPass
  rw [bind_ok (get_run _)]
  split_ifs with hreg
  · rcases hquery : db.selectPluginConfigParameters l.core.plugin.mInfo.pluginInfo.id l.core.db with
      ⟨what | rows, d⟩
    · refine ⟨d, { l.core with db := d }, ?_, .refl db l _⟩
      simp [bind_run, Program.tryCatch, getPluginConfigParameters, query, hquery, isDbException]
    · obtain ⟨rest, t, hupdate, hreaches, hreg', hrest⟩ := updateConfigValues_steps db hup
        (s := { l.core with db := d }) l.core.plugin.mConfigValues.sorted
        (keyConsistent_ofRows rows) hreg fun e he => OrderedMap.mem_entries_iff.mp he
      have hnew : ∀ e ∈ rest.entries, e.2.key = e.1 ∧
          t.plugin.mConfigValues.find e.1 = none := by
        intro e he
        obtain ⟨hmap, hunknown, hsame⟩ := hrest e.1 e.2 (OrderedMap.mem_entries_iff.mp he)
        refine ⟨keyConsistent_ofRows rows e.1 e.2 hmap, hsame.trans ?_⟩
        refine Option.eq_none_iff_forall_not_mem.mpr fun entry hentry => hunknown ?_
        exact List.mem_map.mpr ⟨(e.1, entry), OrderedMap.mem_entries_iff.mpr hentry, rfl⟩
      obtain ⟨u, hadd, hreaches'⟩ := addConfigValues_steps db hup rest.sorted
        (fun e he => (hnew e he).1) hreg' fun e he => (hnew e he).2
      refine ⟨d, u, ?_, hreaches.trans db hreaches'⟩
      simp only [bind_run, Program.tryCatch, getPluginConfigParameters, query, hquery, pure_run,
        hupdate]
      exact hadd
  · exact ⟨l.core.db, l.core, rfl, .refl db l l.core⟩

end Loops
end Monitor
end V2IHub.Client.ConfigLink
