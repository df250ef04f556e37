import V2IHub.Client.ConfigValue
import V2IHub.Foundation.Machine
import V2IHub.Utils.FrequencyThrottle

/-! The settings of `MapPlugin` against the configuration, over runs of changes. -/
namespace V2IHub.Map
open Foundation Messages Client Utils

def COHDA : Bytes := cstr "Cohda R63"
def FREQUENCY : Bytes := cstr "Frequency"
def MAP_FILES : Bytes := cstr "MAP_Files"

structure MapFile where
  contents : PTree

/-- `none` is the exception of a text that is no number. -/
def MapFile.getAction (mapFile : MapFile) : Option ℤ :=
  lexicalInt ((mapFile.contents.dataAt [cstr "Action"]).getD (cstr "-1"))

/-- `get_array<MapFile>("MapFiles")` -/
def getMapFiles (mapFiles : PTree) : List MapFile :=
  ((mapFiles.getChild [cstr "MapFiles"]).getD .empty).children.map fun c => ⟨c.2⟩

structure MapPlugin where
  _mapAction : ℤ
  _isMapFileNew : Bool
  _cohdaR63 : Bool
  _mapFiles : OrderedMap ℤ MapFile
  throttle : FrequencyThrottle ℤ

namespace MapPlugin

def new : MapPlugin := ⟨-1, false, false, .empty, .init 0⟩

/-- The loop over the map files, and if it comes to its end. -/
def addMapFiles : List MapFile → MapPlugin → Bool × MapPlugin
  | [], s => (true, s)
  | mapFile :: rest, s =>
    match mapFile.getAction with
    | none => (false, s)
    | some action =>
      if action < 0 then addMapFiles rest s
      else addMapFiles rest
        { s with _mapFiles := s._mapFiles.insert action mapFile, _isMapFileNew := true }

/-- The active action when its map was lost. -/
def repairAction (s : MapPlugin) : MapPlugin :=
  let s := if s._mapFiles.find s._mapAction = none then { s with _mapAction := -1 } else s
  match s._mapFiles.entries with
  | [] => s
  | e :: _ => if s._mapAction < 0 then { s with _mapAction := e.1 } else s

/-- The section of `UpdateConfigSettings` that holds `data_lock`. -/
def installMapFiles (s : MapPlugin) (rawMapFiles : PTree) : MapPlugin :=
  match addMapFiles (getMapFiles rawMapFiles) { s with _mapFiles := .empty } with
  | (true, s) => s.repairAction
  | (false, s) => s

/-- The frequency, from a variable that has no value before it is read. -/
def readFrequency (s : MapPlugin) (config : ConfigValues) (uninitialized : ℤ) : MapPlugin :=
  let gFrequency := (config.getInt FREQUENCY).getD uninitialized
  { s with throttle := s.throttle.setFrequency gFrequency }

def updateConfigSettings (readJson : Bytes → Option PTree) (s : MapPlugin) (config : ConfigValues)
    (uninitialized : ℤ) : MapPlugin :=
  let s := s.readFrequency config uninitialized
  let rawMapFiles := config.getTree MAP_FILES readJson
  if rawMapFiles.children = [] then s else s.installMapFiles rawMapFiles

end MapPlugin

/-- The tree of the current value of `MAP_Files`. -/
def currentMapFiles (readJson : Bytes → Option PTree) (config : ConfigValues) : PTree :=
  config.getTree MAP_FILES readJson

/-- A call of `OnConfigChanged`, and what `gFrequency` holds before it gets a value. -/
structure ConfigCall where
  key : Bytes
  value : Bytes
  uninitialized : ℤ

/-- The plugin while it is registered. -/
structure Registered where
  plugin : MapPlugin
  config : ConfigValues

/-- The actions of the map files that have one. -/
def actions (mapFiles : List MapFile) : List ℤ :=
  (mapFiles.filterMap MapFile.getAction).filter (0 ≤ ·)

/-- The map files before the first one whose action is no number. -/
def readable (mapFiles : List MapFile) : List MapFile :=
  mapFiles.takeWhile fun mapFile => mapFile.getAction.isSome

section Settings
variable {s t : MapPlugin} {mapFiles : List MapFile} {rawMapFiles : PTree}

/-- The active action is one with a map. -/
def MapPlugin.Settled (s : MapPlugin) : Prop :=
  s._mapFiles.entries ≠ [] → (s._mapFiles.find s._mapAction).isSome

/-- What the loop over the map files does to the plugin. -/
structure Adds (mapFiles : List MapFile) (s t : MapPlugin) : Prop where
  _cohdaR63 : t._cohdaR63 = s._cohdaR63
  throttle : t.throttle = s.throttle
  _mapAction : t._mapAction = s._mapAction
  _isMapFileNew : t._isMapFileNew =
    (s._isMapFileNew || decide (actions (readable mapFiles) ≠ []))
  find : ∀ action, (t._mapFiles.find action).isSome ↔
    (s._mapFiles.find action).isSome ∨ action ∈ actions (readable mapFiles)

theorem addMapFiles_adds (mapFiles : List MapFile) (s : MapPlugin) :
    Adds mapFiles s (MapPlugin.addMapFiles mapFiles s).2 := by
  induction mapFiles generalizing s with
  | nil => constructor <;> simp [MapPlugin.addMapFiles, readable, actions]
  | cons mapFile rest ih =>
    unfold MapPlugin.addMapFiles
    cases haction : mapFile.getAction with
    | none => constructor <;> simp [readable, actions, haction]
    | some action =>
      by_cases hneg : action < 0
      · have hactions : actions (readable (mapFile :: rest)) = actions (readable rest) := by
          simp [actions, readable, haction, hneg]
        obtain ⟨hcohda, hthrottle, hkept, hnew, hfind⟩ := ih s
        simp only [if_pos hneg]
        exact ⟨hcohda, hthrottle, hkept, hactions ▸ hnew, hactions ▸ hfind⟩
      · have hactions : actions (readable (mapFile :: rest)) = action :: actions (readable rest) := by
          simp [actions, readable, haction, not_lt.mp hneg]
        obtain ⟨hcohda, hthrottle, hkept, hnew, hfind⟩ := ih
          { s with _mapFiles := s._mapFiles.insert action mapFile, _isMapFileNew := true }
        simp only [if_neg hneg]
        refine ⟨hcohda, hthrottle, hkept, by simp [hnew, hactions], ?_⟩
        intro action'
        rw [hfind action', OrderedMap.find_insert, hactions]
        by_cases heq : action = action'
        · simp [heq]
        · simp [heq, Ne.symm heq]

theorem addMapFiles_done (mapFiles : List MapFile) (s : MapPlugin) :
    (MapPlugin.addMapFiles mapFiles s).1 = mapFiles.all fun f => f.getAction.isSome := by
  induction mapFiles generalizing s with
  | nil => rfl
  | cons mapFile rest ih =>
    unfold MapPlugin.addMapFiles
    cases haction : mapFile.getAction with
    | none => simp [haction]
    | some action =>
      simp only [List.all_cons, haction, Option.isSome_some, Bool.true_and]
      split_ifs <;> apply ih

/-- Only the active action changes, to one with a map. -/
theorem repairAction_eq (s : MapPlugin) (hkeys : ∀ action, (s._mapFiles.find action).isSome →
    0 ≤ action) :
    ∃ action, s.repairAction = { s with _mapAction := action } ∧ s.repairAction.Settled := by
  have hfirst : ∀ e entries, s._mapFiles.entries = e :: entries →
      (s._mapFiles.find e.1).isSome := by
    intro e entries hentries
    have hmem : (e.1, e.2) ∈ s._mapFiles.entries := by simp [hentries]
    rw [OrderedMap.mem_entries_iff.mp hmem]
    rfl
  unfold MapPlugin.repairAction
  by_cases hlost : s._mapFiles.find s._mapAction = none
  · simp only [hlost, ↓reduceIte]
    cases hentries : s._mapFiles.entries with
    | nil => exact ⟨-1, rfl, fun h => absurd hentries h⟩
    | cons e entries =>
      exact ⟨e.1, rfl, fun _ => hfirst e entries hentries⟩
  · have hsome := Option.isSome_iff_ne_none.mpr hlost
    have hkept : ¬ s._mapAction < 0 := not_lt.mpr (hkeys _ hsome)
    simp only [hlost, ↓reduceIte]
    cases hentries : s._mapFiles.entries with
    | nil => exact ⟨_, rfl, fun _ => hsome⟩
    | cons e entries =>
      simp only [hkept, ↓reduceIte]
      exact ⟨_, rfl, fun _ => hsome⟩

/-- The map files that a section leaves, and when their active action is repaired. -/
structure Installs (mapFiles : List MapFile) (s t : MapPlugin) : Prop where
  _cohdaR63 : t._cohdaR63 = s._cohdaR63
  throttle : t.throttle = s.throttle
  _isMapFileNew : t._isMapFileNew =
    (s._isMapFileNew || decide (actions (readable mapFiles) ≠ []))
  find : ∀ action, (t._mapFiles.find action).isSome ↔ action ∈ actions (readable mapFiles)
  settled : t.Settled ↔ (∀ f ∈ mapFiles, f.getAction.isSome) ∨ actions (readable mapFiles) = [] ∨
    s._mapAction ∈ actions (readable mapFiles)

theorem nonneg_of_mem_actions {action : ℤ} (h : action ∈ actions mapFiles) : 0 ≤ action := by
  simpa using (List.mem_filter.mp h).2

theorem installMapFiles_installs (s : MapPlugin) (rawMapFiles : PTree) :
    Installs (getMapFiles rawMapFiles) s (s.installMapFiles rawMapFiles) := by
  have hdone := addMapFiles_done (getMapFiles rawMapFiles) { s with _mapFiles := .empty }
  obtain ⟨hcohda, hthrottle, hkept, hnew, hfind⟩ :=
    addMapFiles_adds (getMapFiles rawMapFiles) { s with _mapFiles := .empty }
  simp only [show ∀ action, ((OrderedMap.empty : OrderedMap ℤ MapFile).find action).isSome = false
    from fun _ => rfl, Bool.false_eq_true, false_or] at hfind
  unfold MapPlugin.installMapFiles
  cases hadd : MapPlugin.addMapFiles (getMapFiles rawMapFiles) { s with _mapFiles := .empty } with
  | mk done t =>
    rw [hadd] at hdone hcohda hthrottle hkept hnew hfind
    cases done with
    | true =>
      have hall : ∀ f ∈ getMapFiles rawMapFiles, f.getAction.isSome := by
        simpa [List.all_eq_true] using hdone.symm
      obtain ⟨action, heq, hsettled⟩ :=
        repairAction_eq t fun action h => nonneg_of_mem_actions ((hfind action).mp h)
      simp only
      refine ⟨?_, ?_, ?_, ?_, iff_of_true hsettled (.inl hall)⟩
      all_goals rw [heq]
      · exact hcohda
      · exact hthrottle
      · exact hnew
      · exact hfind
    | false =>
      have hnot : ¬ ∀ f ∈ getMapFiles rawMapFiles, f.getAction.isSome := by
        intro h
        simp only [List.all_eq_true.mpr h] at hdone
        exact absurd hdone (by decide)
      refine ⟨hcohda, hthrottle, hnew, hfind, ?_⟩
      have hentries : t._mapFiles.entries = [] ↔
          actions (readable (getMapFiles rawMapFiles)) = [] := by
        rw [OrderedMap.entries_eq_nil_iff, List.eq_nil_iff_forall_not_mem]
        simp only [← hfind, Option.not_isSome_iff_eq_none]
      have haction : t._mapAction = s._mapAction := hkept
      simp only [MapPlugin.Settled, ne_eq, hentries, hfind, haction, hnot, false_or]
      tauto

theorem actions_readable_subset (mapFiles : List MapFile) :
    actions (readable mapFiles) ⊆ actions mapFiles :=
  (((List.takeWhile_sublist _).filterMap _).filter _).subset

/-- No action stands behind one that is no number, and if there is such a one, the active action
is still there. -/
def Legible (mapAction : ℤ) (mapFiles : List MapFile) : Prop :=
  actions mapFiles ⊆ actions (readable mapFiles) ∧
    ((∀ f ∈ mapFiles, f.getAction.isSome) ∨ actions mapFiles = [] ∨ mapAction ∈ actions mapFiles)

/-- When an update that reads map files leaves their actions, and the active one among them. -/
theorem legible_iff (h : Installs mapFiles s t) :
    ((∀ action, (t._mapFiles.find action).isSome ↔ action ∈ actions mapFiles) ∧ t.Settled) ↔
      Legible s._mapAction mapFiles := by
  have hsame : actions mapFiles ⊆ actions (readable mapFiles) →
      (actions (readable mapFiles) = [] ↔ actions mapFiles = []) ∧
        (s._mapAction ∈ actions (readable mapFiles) ↔ s._mapAction ∈ actions mapFiles) := by
    intro hsub
    have hmem : ∀ action, action ∈ actions (readable mapFiles) ↔ action ∈ actions mapFiles :=
      fun action => ⟨fun ha => actions_readable_subset _ ha, fun ha => hsub ha⟩
    simp only [List.eq_nil_iff_forall_not_mem, hmem, and_self]
  constructor
  · rintro ⟨hfind, hsettled⟩
    have hsub : actions mapFiles ⊆ actions (readable mapFiles) :=
      fun action ha => (h.find action).mp ((hfind action).mpr ha)
    obtain ⟨hnil, hmem⟩ := hsame hsub
    refine ⟨hsub, ?_⟩
    rw [← hnil, ← hmem]
    exact h.settled.mp hsettled
  · rintro ⟨hsub, hsettled⟩
    obtain ⟨hnil, hmem⟩ := hsame hsub
    rw [← hnil, ← hmem] at hsettled
    refine ⟨fun action => (h.find action).trans ?_, h.settled.mpr hsettled⟩
    exact ⟨fun ha => actions_readable_subset _ ha, fun ha => hsub ha⟩

/-- What an update reads. -/
theorem updateConfigSettings_spec (readJson : Bytes → Option PTree) (s : MapPlugin)
    (config : ConfigValues) (uninitialized : ℤ) :
    let t := s.updateConfigSettings readJson config uninitialized
    let tree := currentMapFiles readJson config
    t.throttle.frequency = (config.getInt FREQUENCY).getD uninitialized ∧
      t._cohdaR63 = s._cohdaR63 ∧ (tree.children = [] → (t.Settled ↔ s.Settled)) ∧
      (tree.children ≠ [] → ((∀ action, (t._mapFiles.find action).isSome ↔
        action ∈ actions (getMapFiles tree)) ∧ t.Settled ↔
          Legible s._mapAction (getMapFiles tree))) := by
  simp only [currentMapFiles, MapPlugin.updateConfigSettings]
  by_cases hempty : (config.getTree MAP_FILES readJson).children = []
  · rw [if_pos hempty]
    exact ⟨rfl, rfl, fun _ => Iff.rfl, fun h => absurd hempty h⟩
  · rw [if_neg hempty]
    have hinstalls := installMapFiles_installs (s.readFrequency config uninitialized)
      (config.getTree MAP_FILES readJson)
    have hlegible := legible_iff hinstalls
    refine ⟨?_, hinstalls._cohdaR63, fun h => absurd h hempty, fun _ => hlegible⟩
    rw [hinstalls.throttle]
    rfl

end Settings

namespace Registered
variable (readJson : Bytes → Option PTree)

/-- `OnConfigChanged`, with the value in place. -/
def onConfigChanged (r : Registered) (call : ConfigCall) : Registered :=
  let config := r.config.insert call.key call.value
  if call.key ≠ COHDA then
    { config, plugin := { r.plugin with _cohdaR63 := isTrueText call.value } }
  else { config, plugin := r.plugin.updateConfigSettings readJson config call.uninitialized }

/-- `OnStateChange` to registered. -/
def start (config : ConfigValues) (uninitialized : ℤ) : Registered :=
  { config, plugin := MapPlugin.new.updateConfigSettings readJson config uninitialized }

def machine : Machine Registered ConfigCall := ⟨fun r call => some (r.onConfigChanged readJson call)⟩

/-- The settings are those of the configuration. -/
structure Follows (r : Registered) : Prop where
  frequency : r.config.getInt FREQUENCY = some r.plugin.throttle.frequency
  mapFiles : (currentMapFiles readJson r.config).children ≠ [] →
    ∀ action, (r.plugin._mapFiles.find action).isSome ↔
      action ∈ actions (getMapFiles (currentMapFiles readJson r.config))
  mapAction : r.plugin.Settled
  cohdaR63 : r.plugin._cohdaR63 = r.config.isOn COHDA

/-- Every call of the sequence leaves the settings so. -/
def FollowsAll (r : Registered) (calls : List ConfigCall) : Prop :=
  ∀ before call after t, calls = before ++ call :: after →
    (machine readJson).run r (before ++ [call]) = some t → t.Follows readJson

/-- A call with another key than `Cohda R63`: its value reads as that of `Cohda R63`, and the
frequency and the actions of the configuration are left as the plugin has them. -/
structure Unchanging (r : Registered) (call : ConfigCall) (config : ConfigValues) : Prop where
  cohdaR63 : isTrueText call.value = r.config.isOn COHDA
  frequency : config.getInt FREQUENCY = some r.plugin.throttle.frequency
  mapFiles : (currentMapFiles readJson config).children ≠ [] →
    ∀ action, (r.plugin._mapFiles.find action).isSome ↔
      action ∈ actions (getMapFiles (currentMapFiles readJson config))
  mapAction : r.plugin.Settled

/-- A call with the key `Cohda R63`: its value reads as the last one of another key did, the
frequency is a number, and so are the actions. -/
structure Refreshing (r : Registered) (call : ConfigCall) : Prop where
  cohdaR63 : isTrueText call.value = r.plugin._cohdaR63
  frequency : (r.config.getInt FREQUENCY).isSome
  mapFiles : if (currentMapFiles readJson r.config).children = [] then r.plugin.Settled
    else Legible r.plugin._mapAction (getMapFiles (currentMapFiles readJson r.config))

def Careful (r : Registered) (call : ConfigCall) : Prop :=
  if call.key = COHDA then r.Refreshing readJson call
  else r.Unchanging readJson call (r.config.insert call.key call.value)

section Calls
variable {readJson} {r : Registered} {call : ConfigCall}

theorem follows_unchanging_iff (h : call.key ≠ COHDA) :
    (r.onConfigChanged readJson call).Follows readJson ↔
      r.Unchanging readJson call (r.config.insert call.key call.value) := by
  have hon : ConfigValues.isOn (r.config.insert call.key call.value) COHDA = r.config.isOn COHDA :=
    ConfigValues.isOn_insert_of_ne h
  rw [onConfigChanged, if_pos h]
  constructor
  · rintro ⟨hfrequency, hmapFiles, hmapAction, hcohda⟩
    exact ⟨hcohda.trans hon, hfrequency, hmapFiles, hmapAction⟩
  · rintro ⟨hcohda, hfrequency, hmapFiles, hmapAction⟩
    exact ⟨hfrequency, hmapFiles, hmapAction, hcohda.trans hon.symm⟩

theorem follows_refreshing_iff (h : call.key = COHDA) :
    (r.onConfigChanged readJson call).Follows readJson ↔ r.Refreshing readJson call := by
  have hon : ConfigValues.isOn (r.config.insert call.key call.value) COHDA = isTrueText call.value :=
    h ▸ ConfigValues.isOn_insert_self
  have hint : ConfigValues.getInt (r.config.insert call.key call.value) FREQUENCY =
      r.config.getInt FREQUENCY := ConfigValues.getInt_insert_of_ne (h ▸ by decide)
  have htree : currentMapFiles readJson (r.config.insert call.key call.value) =
      currentMapFiles readJson r.config := ConfigValues.getTree_insert_of_ne _ (h ▸ by decide)
  obtain ⟨hfrequency, hcohda, hempty, hfull⟩ := updateConfigSettings_spec readJson r.plugin
    (r.config.insert call.key call.value) call.uninitialized
  rw [htree] at hempty hfull
  rw [hint] at hfrequency
  have hnumber : r.config.getInt FREQUENCY = some ((r.config.getInt FREQUENCY).getD
      call.uninitialized) ↔ (r.config.getInt FREQUENCY).isSome := by
    cases r.config.getInt FREQUENCY <;> simp
  rw [onConfigChanged, if_neg (not_not.mpr h)]
  constructor
  · rintro ⟨hfollows, hmapFiles, hmapAction, hflag⟩
    simp only [hint, hfrequency, htree, hcohda, hon] at hfollows hmapFiles hmapAction hflag
    refine ⟨hflag.symm, hnumber.mp hfollows, ?_⟩
    by_cases hnil : (currentMapFiles readJson r.config).children = []
    · rw [if_pos hnil]
      exact (hempty hnil).mp hmapAction
    · rw [if_neg hnil]
      exact (hfull hnil).mp ⟨hmapFiles hnil, hmapAction⟩
  · rintro ⟨hflag, hsome, hmaps⟩
    by_cases hnil : (currentMapFiles readJson r.config).children = []
    · rw [if_pos hnil] at hmaps
      refine ⟨?_, ?_, (hempty hnil).mpr hmaps, ?_⟩
      · rw [hint, hfrequency]
        exact hnumber.mpr hsome
      · rw [htree]
        exact fun hne => absurd hnil hne
      · rw [hcohda, hon]
        exact hflag.symm
    · rw [if_neg hnil] at hmaps
      obtain ⟨hfind, hsettled⟩ := (hfull hnil).mpr hmaps
      refine ⟨?_, ?_, hsettled, ?_⟩
      · rw [hint, hfrequency]
        exact hnumber.mpr hsome
      · rw [htree]
        exact fun _ => hfind
      · rw [hcohda, hon]
        exact hflag.symm

theorem follows_iff (r : Registered) (call : ConfigCall) :
    (r.onConfigChanged readJson call).Follows readJson ↔ r.Careful readJson call := by
  unfold Careful
  split_ifs with h
  · exact follows_refreshing_iff h
  · exact follows_unchanging_iff h

end Calls

/-- After every call the settings are those of the configuration exactly when every call of the
run is a careful one. -/
theorem followsAll_iff (config : ConfigValues) (uninitialized : ℤ) (calls : List ConfigCall) :
    FollowsAll readJson (start readJson config uninitialized) calls ↔
      (machine readJson).Obeys (Careful readJson) (start readJson config uninitialized) calls := by
  have hguard : ∀ r call, (∀ t, (machine readJson).step r call = some t → t.Follows readJson) ↔
      Careful readJson r call := by
    intro r call
    rw [← follows_iff]
    simp only [machine, Option.some.injEq, forall_eq']
  rw [← Machine.obeys_congr hguard]
  exact Machine.obeys_iff_after.symm

def sampleConfig : ConfigValues := OrderedMap.empty.insert FREQUENCY (cstr "1000")

/-- A new frequency is not taken over. -/
theorem followsAll_fails : ¬ FollowsAll (fun _ => none) (start (fun _ => none) sampleConfig 0)
    [⟨FREQUENCY, cstr "500", 0⟩] := by
  intro h
  have hfollows := h [] ⟨FREQUENCY, cstr "500", 0⟩ [] _ rfl rfl
  exact absurd hfollows.frequency (by decide)

end Registered
end V2IHub.Map
