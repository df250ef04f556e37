import V2IHub.Command.Telemetry

/-! When the frames with updates and command responses, which are put together by hand, say to a
reader of JSON what they are about. -/
namespace V2IHub.Command
open V2IHub.Foundation V2IHub.Foundation.DecimalText V2IHub.Foundation.JsonText V2IHub.Messages

/-- One frame with a text that every reader takes for `value`. -/
def FaithfulFrame (frame : Bytes) (value : Value) : Prop :=
  ∃ content, frame = 2 :: (content ++ [3]) ∧ 2 ∉ content ∧ 3 ∉ content ∧
    read content = some value ∧ value.Unambiguous

/-- The value of a frame and its header. -/
def frameValue (type subtype : Bytes) (now : ℕ) (payload : Value) : Value :=
  .object [(cstr "header", .object [(cstr "type", .string type), (cstr "subtype", .string subtype),
      (cstr "encoding", .string (cstr "jsonstring")), (cstr "timestamp", .string (decimal now)),
      (cstr "flags", .string (cstr "0"))]),
    (cstr "payload", payload)]

section Changes
variable (fmt : Format)

/-- The plugins that a poll finds changed: each as it was polled, and the tree of the last poll. -/
abbrev Changes := OrderedMap Bytes (PTree × PTree)

def noteChange (s : OrderedMap Bytes Bytes × Changes) (plugin : Bytes × PTree) :
    Option (OrderedMap Bytes Bytes × Changes) :=
  (comparePlugin fmt s.1 plugin).map fun r =>
    (r.2,
      match r.1 with
      | none => s.2
      | some oldPlugin => s.2.insert plugin.1 (plugin.2, oldPlugin))

def pollChanges (t : Telemetry) (tree : PTree) : Option Changes :=
  (tree.children.foldlM (noteChange fmt) (t.pluginsJSON, .empty)).map Prod.snd

variable {fmt} {s s' : OrderedMap Bytes Bytes × Changes} {plugin : Bytes × PTree} {name : Bytes}

theorem comparePlugin_known {known known' : OrderedMap Bytes Bytes} {changed : Option PTree}
    (h : comparePlugin fmt known plugin = some (changed, known')) :
    ∃ pJSON, known' = known.insert plugin.1 pJSON := by
  unfold comparePlugin at h
  cases hjson : pluginJSON fmt plugin.1 plugin.2 with
  | none => simp [hjson] at h
  | some pJSON =>
    refine ⟨pJSON, ?_⟩
    cases hfind : known.find plugin.1 with
    | none => simp_all
    | some oldJSON =>
      simp only [hjson, hfind] at h
      split_ifs at h
      · obtain ⟨oldPlugin, -, hr⟩ := Option.map_eq_some_iff.mp h
        exact (Prod.mk.inj hr).2.symm
      · exact (Prod.mk.inj (Option.some.inj h)).2.symm

/-- Only what was known under this name is compared. -/
theorem comparePlugin_congr {known known' : OrderedMap Bytes Bytes}
    (h : known.find plugin.1 = known'.find plugin.1) :
    (comparePlugin fmt known plugin).map Prod.fst =
      (comparePlugin fmt known' plugin).map Prod.fst := by
  unfold comparePlugin
  rw [h]
  cases pluginJSON fmt plugin.1 plugin.2 with
  | none => rfl
  | some pJSON =>
    cases known'.find plugin.1 with
    | none => rfl
    | some oldJSON =>
      simp only
      split_ifs
      · simp only [Option.map_map, Function.comp_def]
      · rfl

theorem noteChange_other (h : noteChange fmt s plugin = some s') (hname : name ≠ plugin.1) :
    s'.1.find name = s.1.find name ∧ s'.2.find name = s.2.find name := by
  obtain ⟨⟨changed, known⟩, hcompare, rfl⟩ := Option.map_eq_some_iff.mp h
  obtain ⟨pJSON, rfl⟩ := comparePlugin_known hcompare
  refine ⟨by rw [OrderedMap.find_insert, if_neg hname.symm], ?_⟩
  cases changed with
  | none => rfl
  | some oldPlugin => exact (OrderedMap.find_insert _ _ _ _).trans (if_neg hname.symm)

theorem noteChanges_other {plugins : List (Bytes × PTree)}
    (h : plugins.foldlM (noteChange fmt) s = some s') (hname : name ∉ plugins.map Prod.fst) :
    s'.2.find name = s.2.find name := by
  induction plugins generalizing s with
  | nil =>
    obtain rfl : s = s' := by simpa using h
    rfl
  | cons plugin plugins ih =>
    rw [List.foldlM_cons] at h
    obtain ⟨u, hstep, hrest⟩ := Option.bind_eq_some_iff.mp h
    rw [List.map_cons, List.mem_cons, not_or] at hname
    exact (ih hrest hname.2).trans (noteChange_other hstep hname.1).2

theorem noteChanges_find {plugins : List (Bytes × PTree)}
    (hnodup : (plugins.map Prod.fst).Nodup) (h : plugins.foldlM (noteChange fmt) s = some s')
    (hmem : plugin ∈ plugins) (hnew : s.2.find plugin.1 = none) :
    ∃ changed, (comparePlugin fmt s.1 plugin).map Prod.fst = some changed ∧
      s'.2.find plugin.1 = changed.map fun oldPlugin => (plugin.2, oldPlugin) := by
  induction plugins generalizing s with
  | nil => simp at hmem
  | cons plugin' plugins ih =>
    rw [List.foldlM_cons] at h
    obtain ⟨u, hstep, hrest⟩ := Option.bind_eq_some_iff.mp h
    rw [List.map_cons, List.nodup_cons] at hnodup
    rcases List.mem_cons.mp hmem with rfl | hmem
    · obtain ⟨⟨changed, known⟩, hcompare, rfl⟩ := Option.map_eq_some_iff.mp hstep
      refine ⟨changed, by rw [hcompare]; rfl, ?_⟩
      rw [noteChanges_other hrest hnodup.1]
      cases changed with
      | none => exact hnew
      | some oldPlugin => exact (OrderedMap.find_insert _ _ _ _).trans (if_pos rfl)
    · have hne : plugin.1 ≠ plugin'.1 := by
        intro hc
        exact hnodup.1 (hc ▸ List.mem_map_of_mem hmem)
      obtain ⟨hknown, hshown⟩ := noteChange_other hstep hne
      obtain ⟨changed, hcompare, hfind⟩ := ih hnodup.2 hrest hmem (hshown.trans hnew)
      exact ⟨changed, (comparePlugin_congr hknown).symm.trans hcompare, hfind⟩

/-- A poll with distinct names shows each plugin exactly when its text differs from the last one,
or there is none. -/
theorem pollChanges_find {t : Telemetry} {tree : PTree} {changes : Changes}
    (hnodup : (tree.children.map Prod.fst).Nodup) (h : pollChanges fmt t tree = some changes)
    (hmem : plugin ∈ tree.children) :
    ∃ changed, (comparePlugin fmt t.pluginsJSON plugin).map Prod.fst = some changed ∧
      changes.find plugin.1 = changed.map fun oldPlugin => (plugin.2, oldPlugin) := by
  obtain ⟨s, hnotes, rfl⟩ := Option.map_eq_some_iff.mp h
  exact noteChanges_find hnodup hnotes hmem rfl

end Changes

section Strings

def pairsValue (pairs : List (Bytes × Bytes)) : Value :=
  .object (pairs.map fun nvp => (nvp.1, .string nvp.2))

/-- What the update of a plugin is meant to say. -/
def updateValue (dataType : DataType) (name : Bytes) (plugin oldPlugin : PTree) : Value :=
  let old := oldPlugin.getChild (attributePath name)
  match dataType with
  | .list | .state => pairsValue (changedPairs old plugin.children)
  | .status => .string plugin.data
  | .config =>
    .object ((changedConfigs old plugin.children).map fun cfg => (cfg.1, pairsValue cfg.2))

def updateFrameValue (dataType : DataType) (now : ℕ) (changes : Changes) : Value :=
  frameValue (cstr "Telemetry") dataType.text now
    (.object (changes.entries.map fun e => (e.1, updateValue dataType e.1 e.2.1 e.2.2)))

/-- Keys are written as they are; of a value only the quotes are escaped. -/
def PairsFit (pairs : List (Bytes × Bytes)) : Prop :=
  (pairs.map Prod.fst).Nodup ∧ ∀ nvp ∈ pairs, Plain nvp.1 ∧ Clean nvp.2

def UpdateFits (dataType : DataType) (name : Bytes) (plugin oldPlugin : PTree) : Prop :=
  let old := oldPlugin.getChild (attributePath name)
  match dataType with
  | .list | .state => PairsFit (changedPairs old plugin.children)
  | .status => Plain plugin.data
  | .config =>
    ((changedConfigs old plugin.children).map Prod.fst).Nodup ∧
      ∀ cfg ∈ changedConfigs old plugin.children, Plain cfg.1 ∧ PairsFit cfg.2

def ChangesFit (dataType : DataType) (changes : Changes) : Prop :=
  ∀ e ∈ changes.entries, Plain e.1 ∧ UpdateFits dataType e.1 e.2.1 e.2.2

/-- The names in the payload of a response. -/
def responseNames (data : List (Bytes × Bytes)) (arrayData : List (Bytes × Doc)) : List Bytes :=
  [cstr "id", cstr "status", cstr "command", cstr "reason"] ++ data.map Prod.fst
    ++ arrayData.map Prod.fst

/-- The texts of `arrayData` are put together by hand as well. -/
def responseValue (now : ℕ) (id command status reason : Bytes) (data : List (Bytes × Bytes))
    (arrayData : List (Bytes × Doc)) : Value :=
  frameValue (cstr "Command") (cstr "Execute") now
    (.object ([(cstr "id", .string id), (cstr "status", .string status),
        (cstr "command", .string command), (cstr "reason", .string reason)]
      ++ data.map (fun d => (d.1, .string d.2)) ++ arrayData.map fun d => (d.1, d.2.value)))

def ResponseFits (id command status reason : Bytes) (data : List (Bytes × Bytes))
    (arrayData : List (Bytes × Doc)) : Prop :=
  (Plain id ∧ Plain status ∧ Plain command ∧ Plain reason) ∧
    (∀ d ∈ data, Plain d.1 ∧ Plain d.2) ∧ (∀ d ∈ arrayData, Plain d.1 ∧ d.2.Sound) ∧
    (responseNames data arrayData).Nodup

end Strings

section Docs

def headerDoc (type subtype : Bytes) (now : ℕ) : Doc :=
  .object false [(cstr "type", .raw type), (cstr "subtype", .raw subtype),
    (cstr "encoding", .raw (cstr "jsonstring")), (cstr "timestamp", .raw (decimal now)),
    (cstr "flags", .raw (cstr "0"))]

def frameDoc (type subtype : Bytes) (now : ℕ) (payload : Doc) : Doc :=
  .object false [(cstr "header", headerDoc type subtype now), (cstr "payload", payload)]

theorem frameDoc_text (type subtype : Bytes) (now : ℕ) (payload : Doc) :
    (frameDoc type subtype now payload).text =
      cstr "\x7b\"header\":\x7b\"type\":\"" ++ type ++ cstr "\",\"subtype\":\"" ++ subtype
        ++ cstr "\",\"encoding\":\"jsonstring\",\"timestamp\":\"" ++ decimal now
        ++ cstr "\",\"flags\":\"0\"\x7d,\"payload\":" ++ payload.text ++ cstr "\x7d" := by
  rw [frameDoc, headerDoc]
  repeat rw [cstr_ofList]
  simp [Doc.membersText, Doc.nameText, Doc.text]

theorem frameDoc_value (type subtype : Bytes) (now : ℕ) (payload : Doc) :
    (frameDoc type subtype now payload).value = frameValue type subtype now payload.value := by
  simp [frameDoc, headerDoc, frameValue, Doc.value, Doc.membersValue]

theorem plain_decimal (now : ℕ) : Plain (decimal now) := by
  intro b hb
  have hdigit := decimal_isDigit now b hb
  simp only [isDigit, Bool.and_eq_true, decide_eq_true_eq, UInt8.le_iff_toNat_le] at hdigit
  rw [PlainByte, UInt8.le_iff_toNat_le, ne_eq, ne_eq, ← UInt8.toNat_inj, ← UInt8.toNat_inj]
  simp only [UInt8.toNat_ofNat] at hdigit ⊢
  omega

/-- The names and the fixed strings of a frame. -/
theorem plain_frameTexts :
    (Plain (cstr "header") ∧ Plain (cstr "payload")) ∧
      (Plain (cstr "type") ∧ Plain (cstr "subtype") ∧ Plain (cstr "encoding") ∧
        Plain (cstr "jsonstring")) ∧
      Plain (cstr "timestamp") ∧ Plain (cstr "flags") ∧ Plain (cstr "0") := by
  repeat rw [cstr_ofList]
  decide +kernel

theorem headerNames_nodup :
    [cstr "type", cstr "subtype", cstr "encoding", cstr "timestamp", cstr "flags"].Nodup := by
  repeat rw [cstr_ofList]
  decide +kernel

theorem header_ne_payload : cstr "header" ≠ cstr "payload" := by
  repeat rw [cstr_ofList]
  decide +kernel

/-- Nothing in the header can go wrong. -/
theorem frameDoc_sound_iff {type subtype : Bytes} (htype : Plain type) (hsubtype : Plain subtype)
    (now : ℕ) (payload : Doc) : (frameDoc type subtype now payload).Sound ↔ payload.Sound := by
  obtain ⟨⟨hheader, hpayload⟩, ⟨h₁, h₂, h₃, h₄⟩, h₅, h₆, h₇⟩ := plain_frameTexts
  have hsound : (headerDoc type subtype now).Sound := by
    rw [headerDoc, Doc.sound_object_iff]
    refine ⟨headerNames_nodup, ?_⟩
    simp [Doc.sound_raw_iff, plain_decimal, *]
  simp [frameDoc, Doc.sound_object_iff, header_ne_payload, hheader, hpayload, hsound]

theorem faithfulFrame_iff (d : Doc) : FaithfulFrame (2 :: (d.text ++ [3])) d.value ↔ d.Sound := by
  rw [Doc.Sound, ← d.read_text_iff]
  constructor
  · rintro ⟨content, hframe, -, -, hread, hnames⟩
    rw [List.cons.injEq, List.append_cancel_right_eq] at hframe
    rw [hframe.2]
    exact ⟨hread, hnames⟩
  · rintro ⟨hread, hnames⟩
    have hprint := d.printable_text (d.read_text_iff.mp hread)
    refine ⟨d.text, rfl, fun h => ?_, fun h => ?_, hread, hnames⟩
    · exact absurd (hprint 2 h) (by decide)
    · exact absurd (hprint 3 h) (by decide)

/-- A frame is faithful when its payload is sound. -/
theorem faithfulFrame_frameDoc_iff {type subtype : Bytes} (htype : Plain type)
    (hsubtype : Plain subtype) (now : ℕ) (payload : Doc) :
    FaithfulFrame (2 :: ((frameDoc type subtype now payload).text ++ [3]))
        (frameValue type subtype now payload.value) ↔ payload.Sound := by
  rw [← frameDoc_value, faithfulFrame_iff, frameDoc_sound_iff htype hsubtype]

end Docs

section Updates

def pairsDoc (pairs : List (Bytes × Bytes)) : Doc :=
  .object true (pairs.map fun nvp => (nvp.1, .escaped nvp.2))

def updateDoc (dataType : DataType) (name : Bytes) (plugin oldPlugin : PTree) : Doc :=
  let old := oldPlugin.getChild (attributePath name)
  match dataType with
  | .list | .state => pairsDoc (changedPairs old plugin.children)
  | .status => .raw plugin.data
  | .config =>
    .object true ((changedConfigs old plugin.children).map fun cfg => (cfg.1, pairsDoc cfg.2))

theorem pairText_eq (nvp : Bytes × Bytes) :
    pairText nvp = Doc.nameText true nvp.1 ++ (Doc.escaped nvp.2).text := by
  rw [pairText]
  repeat rw [cstr_ofList]
  simp [Doc.nameText, Doc.text]

/-- An object of the source: an opening brace, its members and a closing one. -/
theorem object_text (members : List (Bytes × Doc)) :
    (Doc.object true members).text =
      cstr "\x7b" ++ commas (members.map fun m => Doc.nameText true m.1 ++ m.2.text)
        ++ cstr "\x7d" := by
  repeat rw [cstr_ofList]
  simp [Doc.text_object, commas]

theorem pairsDoc_text (pairs : List (Bytes × Bytes)) :
    (pairsDoc pairs).text = cstr "\x7b" ++ commas (pairs.map pairText) ++ cstr "\x7d" := by
  rw [pairsDoc, object_text, List.map_map]
  congr 4
  funext nvp
  exact (pairText_eq nvp).symm

theorem configText_eq (cfg : Bytes × List (Bytes × Bytes)) :
    configText cfg = Doc.nameText true cfg.1 ++ (pairsDoc cfg.2).text := by
  rw [configText, pairsDoc_text]
  repeat rw [cstr_ofList]
  simp [Doc.nameText]

theorem pluginUpdate_eq (dataType : DataType) (name : Bytes) (plugin oldPlugin : PTree) :
    pluginUpdate dataType name plugin oldPlugin =
      Doc.nameText true name ++ (updateDoc dataType name plugin oldPlugin).text := by
  cases dataType
  case status =>
    rw [pluginUpdate, updateDoc]
    repeat rw [cstr_ofList]
    simp [Doc.nameText, Doc.text]
  case config =>
    simp only [pluginUpdate, updateDoc, object_text, List.map_map]
    have hconfigs : (fun m : Bytes × Doc => Doc.nameText true m.1 ++ m.2.text) ∘
        (fun cfg : Bytes × List (Bytes × Bytes) => (cfg.1, pairsDoc cfg.2)) = configText := by
      funext cfg
      exact (configText_eq cfg).symm
    rw [hconfigs]
    repeat rw [cstr_ofList]
    simp [Doc.nameText]
  all_goals
    simp only [pluginUpdate, updateDoc, pairsDoc_text]
    repeat rw [cstr_ofList]
    simp [Doc.nameText]

theorem pairsDoc_value (pairs : List (Bytes × Bytes)) :
    (pairsDoc pairs).value = pairsValue pairs := by
  simp [pairsDoc, pairsValue, Doc.value, Doc.membersValue_eq, Function.comp_def]

theorem updateDoc_value (dataType : DataType) (name : Bytes) (plugin oldPlugin : PTree) :
    (updateDoc dataType name plugin oldPlugin).value =
      updateValue dataType name plugin oldPlugin := by
  cases dataType
  case status => rw [updateDoc, updateValue, Doc.value]
  case config =>
    simp [updateDoc, updateValue, Doc.value, Doc.membersValue_eq, pairsDoc_value,
      Function.comp_def]
  all_goals exact pairsDoc_value _

theorem pairsDoc_sound_iff (pairs : List (Bytes × Bytes)) :
    (pairsDoc pairs).Sound ↔ PairsFit pairs := by
  rw [pairsDoc, Doc.sound_object_iff, PairsFit, List.map_map, List.forall_mem_map]
  simp only [Doc.sound_escaped_iff]
  rfl

theorem updateDoc_sound_iff (dataType : DataType) (name : Bytes) (plugin oldPlugin : PTree) :
    (updateDoc dataType name plugin oldPlugin).Sound ↔
      UpdateFits dataType name plugin oldPlugin := by
  cases dataType
  case status => exact Doc.sound_raw_iff
  case config =>
    rw [updateDoc, Doc.sound_object_iff, UpdateFits, List.map_map, List.forall_mem_map]
    simp only [pairsDoc_sound_iff]
    rfl
  all_goals exact pairsDoc_sound_iff _

end Updates


section Run
variable {fmt : Format} {dataType : DataType} {t t' : Telemetry} {shown : Changes}

/-- The entry of `pluginsUpdatesJSON` for a change. -/
def updateEntry (dataType : DataType) (e : Bytes × PTree × PTree) : Bytes × Bytes :=
  (e.1, pluginUpdate dataType e.1 e.2.1 e.2.2)

/-- The updates are the texts of these changes. -/
def Telemetry.Shows (t : Telemetry) (dataType : DataType) (shown : Changes) : Prop :=
  t.pluginsUpdatesJSON.entries = shown.entries.map (updateEntry dataType)

theorem pollPlugin_shows {plugin : Bytes × PTree} (h : t.Shows dataType shown)
    (hpoll : pollPlugin fmt dataType t plugin = some t') :
    ∃ shown', noteChange fmt (t.pluginsJSON, shown) plugin = some (t'.pluginsJSON, shown') ∧
      t'.Shows dataType shown' ∧ t'.haveData = t.haveData := by
  obtain ⟨⟨changed, pluginsJSON⟩, hcompare, rfl⟩ := Option.map_eq_some_iff.mp hpoll
  rw [noteChange, hcompare, Option.map_some]
  refine ⟨_, rfl, ?_, rfl⟩
  cases changed with
  | none => exact h
  | some oldPlugin =>
    have hinsert := OrderedMap.map_insertEntry
      (fun name p => pluginUpdate dataType name p.1 p.2) plugin.1 (plugin.2, oldPlugin)
      shown.entries
    rw [Telemetry.Shows] at h
    change OrderedMap.insertEntry plugin.1 (pluginUpdate dataType plugin.1 plugin.2 oldPlugin)
      t.pluginsUpdatesJSON.entries = _
    rw [h]
    exact hinsert.symm

theorem pollPlugins_show {plugins : List (Bytes × PTree)} (h : t.Shows dataType shown)
    (hpoll : plugins.foldlM (pollPlugin fmt dataType) t = some t') :
    ∃ shown', plugins.foldlM (noteChange fmt) (t.pluginsJSON, shown) =
        some (t'.pluginsJSON, shown') ∧
      t'.Shows dataType shown' ∧ t'.haveData = t.haveData := by
  induction plugins generalizing t shown with
  | nil =>
    obtain rfl : t = t' := by simpa using hpoll
    exact ⟨shown, rfl, h, rfl⟩
  | cons plugin plugins ih =>
    rw [List.foldlM_cons] at hpoll ⊢
    obtain ⟨u, hstep, hrest⟩ := Option.bind_eq_some_iff.mp hpoll
    obtain ⟨shown₁, hnote, hshows, hdata⟩ := pollPlugin_shows h hstep
    obtain ⟨shown', hnotes, hshows', hdata'⟩ := ih hshows hrest
    refine ⟨shown', ?_, hshows', hdata'.trans hdata⟩
    rw [hnote]
    exact hnotes

/-- After a poll, the updates are the texts of what it found changed. -/
theorem getTelemetry_shows {tree : PTree} (h : getTelemetry fmt dataType t (some tree) = some t') :
    ∃ changes, pollChanges fmt t tree = some changes ∧ t'.Shows dataType changes ∧
      t'.haveData = true := by
  rw [getTelemetry] at h
  obtain ⟨json, -, h⟩ := Option.bind_eq_some_iff.mp h
  obtain ⟨polled, hpoll, h⟩ := Option.bind_eq_some_iff.mp h
  obtain rfl := Option.some.inj h
  have hempty : Telemetry.Shows
      { t with haveData := true, json := json, pluginsUpdatesJSON := .empty } dataType .empty := rfl
  obtain ⟨changes, hnotes, hshows, hdata⟩ := pollPlugins_show hempty hpoll
  refine ⟨changes, ?_, hshows, hdata⟩
  rw [pollChanges, hnotes, Option.map_some]

def updatesDoc (dataType : DataType) (changes : Changes) : Doc :=
  .object true (changes.entries.map fun e => (e.1, updateDoc dataType e.1 e.2.1 e.2.2))

theorem updatesDoc_text (dataType : DataType) (changes : Changes) :
    (updatesDoc dataType changes).text =
      cstr "\x7b" ++ commas (changes.entries.map fun e => (updateEntry dataType e).2)
        ++ cstr "\x7d" := by
  rw [updatesDoc, object_text, List.map_map]
  congr 4
  funext e
  exact (pluginUpdate_eq dataType e.1 e.2.1 e.2.2).symm

theorem updatesDoc_value (dataType : DataType) (now : ℕ) (changes : Changes) :
    frameValue (cstr "Telemetry") dataType.text now (updatesDoc dataType changes).value =
      updateFrameValue dataType now changes := by
  simp [updatesDoc, updateFrameValue, Doc.value, Doc.membersValue_eq, updateDoc_value,
    Function.comp_def]

theorem updatesDoc_sound_iff (dataType : DataType) (changes : Changes) :
    (updatesDoc dataType changes).Sound ↔ ChangesFit dataType changes := by
  have hnames : ((changes.entries.map fun e =>
      (e.1, updateDoc dataType e.1 e.2.1 e.2.2)).map Prod.fst).Nodup := by
    rw [List.map_map]
    exact changes.nodup_keys
  rw [updatesDoc, Doc.sound_object_iff, ChangesFit, List.forall_mem_map]
  simp only [hnames, true_and, updateDoc_sound_iff]

theorem buildUpdateTelemetry_eq (now : ℕ) (hdata : t.haveData = true)
    (hshows : t.Shows dataType shown) (hne : shown.entries ≠ []) :
    buildUpdateTelemetry dataType now t =
      2 :: ((frameDoc (cstr "Telemetry") dataType.text now (updatesDoc dataType shown)).text
        ++ [3]) := by
  have hupdates : t.pluginsUpdatesJSON.entries ≠ [] := by
    rw [hshows]
    simpa using hne
  rw [buildUpdateTelemetry, if_pos ⟨hdata, hupdates⟩, hshows, List.map_map, frameDoc_text,
    updatesDoc_text]
  repeat rw [cstr_ofList]
  simp [Function.comp_def]

theorem plain_dataType (dataType : DataType) :
    Plain (cstr "Telemetry") ∧ Plain dataType.text := by
  cases dataType <;> rw [DataType.text] <;> repeat rw [cstr_ofList]
  all_goals decide +kernel

/-- The update says what was found changed exactly when the strings that it carries fit. -/
theorem buildUpdateTelemetry_faithful_iff (now : ℕ) (hdata : t.haveData = true)
    (hshows : t.Shows dataType shown) (hne : shown.entries ≠ []) :
    FaithfulFrame (buildUpdateTelemetry dataType now t) (updateFrameValue dataType now shown) ↔
      ChangesFit dataType shown := by
  rw [buildUpdateTelemetry_eq now hdata hshows hne, ← updatesDoc_value,
    faithfulFrame_frameDoc_iff (plain_dataType dataType).1 (plain_dataType dataType).2,
    updatesDoc_sound_iff]

end Run

section Response

def responseDoc (id command status reason : Bytes) (data : List (Bytes × Bytes))
    (arrayData : List (Bytes × Doc)) : Doc :=
  .object false ((cstr "id", .raw id) :: (cstr "status", .raw status) ::
    (cstr "command", .raw command) :: (cstr "reason", .raw reason) ::
    (data.map (fun d => (d.1, .raw d.2)) ++ arrayData))

theorem intercalate_cons (text : Bytes) (texts : List Bytes) :
    [44].intercalate (text :: texts) = text ++ texts.flatMap fun text => 44 :: text := by
  induction texts generalizing text with
  | nil => simp [List.intercalate]
  | cons text' texts ih =>
    rw [List.flatMap_cons, List.cons_append, ← ih]
    simp [List.intercalate]

/-- The source closes every string of `data` where the next one starts. -/
theorem quote_flatMap {α : Type} (f : α → Bytes) (l : List α) (rest : Bytes) :
    34 :: (l.flatMap (fun a => f a ++ [34]) ++ rest) =
      l.flatMap (fun a => 34 :: f a) ++ 34 :: rest := by
  induction l with
  | nil => rfl
  | cons a l ih => simp [← ih]

theorem buildCommandResponse_eq (now : ℕ) (id command status reason : Bytes)
    (data : List (Bytes × Bytes)) (arrayData : List (Bytes × Doc)) :
    buildCommandResponse now id command status reason data
        (arrayData.map fun d => (d.1, d.2.text)) =
      2 :: ((frameDoc (cstr "Command") (cstr "Execute") now
        (responseDoc id command status reason data arrayData)).text ++ [3]) := by
  have hdata := quote_flatMap (fun d : Bytes × Bytes => 44 :: 34 :: (d.1 ++ 34 :: 58 :: 34 :: d.2))
    data (arrayData.flatMap (fun d => 44 :: 34 :: (d.1 ++ 34 :: 58 :: d.2.text)) ++ [125, 125, 3])
  rw [frameDoc_text, responseDoc, Doc.text_object, buildCommandResponse, List.map_cons,
    intercalate_cons]
  repeat rw [cstr_ofList]
  simpa [Doc.nameText, Doc.text, List.flatMap_map] using hdata.symm

theorem responseDoc_value (now : ℕ) (id command status reason : Bytes)
    (data : List (Bytes × Bytes)) (arrayData : List (Bytes × Doc)) :
    frameValue (cstr "Command") (cstr "Execute") now
        (responseDoc id command status reason data arrayData).value =
      responseValue now id command status reason data arrayData := by
  simp [responseDoc, responseValue, Doc.value, Doc.membersValue_eq, Function.comp_def]

theorem plain_response :
    (Plain (cstr "Command") ∧ Plain (cstr "Execute")) ∧
      Plain (cstr "id") ∧ Plain (cstr "status") ∧ Plain (cstr "command") ∧
      Plain (cstr "reason") := by
  repeat rw [cstr_ofList]
  decide +kernel

theorem responseDoc_sound_iff (id command status reason : Bytes) (data : List (Bytes × Bytes))
    (arrayData : List (Bytes × Doc)) :
    (responseDoc id command status reason data arrayData).Sound ↔
      ResponseFits id command status reason data arrayData := by
  obtain ⟨-, hid, hstatus, hcommand, hreason⟩ := plain_response
  rw [responseDoc, Doc.sound_object_iff, ResponseFits]
  set members := (cstr "id", Doc.raw id) :: (cstr "status", Doc.raw status) ::
    (cstr "command", Doc.raw command) :: (cstr "reason", Doc.raw reason) ::
    (data.map (fun d => (d.1, Doc.raw d.2)) ++ arrayData) with hmembers
  have hnames : members.map Prod.fst = responseNames data arrayData := by
    simp [hmembers, responseNames, Function.comp_def]
  rw [hnames, hmembers]
  simp only [List.forall_mem_cons, List.forall_mem_append, List.forall_mem_map, Doc.sound_raw_iff,
    hid, hstatus, hcommand, hreason, true_and]
  tauto

/-- A response says what it was given exactly when its strings fit. -/
theorem buildCommandResponse_faithful_iff (now : ℕ) (id command status reason : Bytes)
    (data : List (Bytes × Bytes)) (arrayData : List (Bytes × Doc)) :
    FaithfulFrame
        (buildCommandResponse now id command status reason data
          (arrayData.map fun d => (d.1, d.2.text)))
        (responseValue now id command status reason data arrayData) ↔
      ResponseFits id command status reason data arrayData := by
  rw [buildCommandResponse_eq, ← responseDoc_value,
    faithfulFrame_frameDoc_iff plain_response.1.1 plain_response.1.2, responseDoc_sound_iff]

end Response

section Sample

/-- Writes the trees of one plugin with one pair. -/
def sampleJSON : Format where
  write
    | .node [] [(name, .node [] [(key, .node value [])])] =>
      some ([123, 34] ++ name ++ [34, 58, 123, 34] ++ key ++ [34, 58, 34]
        ++ value.flatMap (fun b => if b = 34 ∨ b = 92 then [92, b] else [b])
        ++ [34, 125, 125, 10])
    | _ => none
  read _ := none

/-- The state of a plugin `P` with one key `k`. -/
def samplePoll (value : Bytes) : PTree :=
  .node [] [([80], .node [] [([107], .node value [])])]

def sampleChanges (value : Bytes) : Changes :=
  OrderedMap.empty.insert [80] (.node [] [([107], .node value [])], .empty)

theorem pollChanges_samplePoll (value : Bytes) :
    pollChanges sampleJSON .initial (samplePoll value) = some (sampleChanges value) := rfl

theorem getTelemetry_samplePoll (value : Bytes) :
    ∃ t, getTelemetry sampleJSON .state .initial (some (samplePoll value)) = some t := ⟨_, rfl⟩

theorem changesFit_sampleChanges_iff (value : Bytes) :
    ChangesFit .state (sampleChanges value) ↔ Clean value := by
  have hentries : (sampleChanges value).entries =
      [([80], .node [] [([107], .node value [])], .empty)] := rfl
  have hpairs : UpdateFits .state [80] (.node [] [([107], .node value [])]) .empty =
      PairsFit [([107], value)] := rfl
  have hname : Plain [80] := by decide
  have hkey : Plain [107] := by decide
  simp [ChangesFit, hentries, hpairs, hname, PairsFit, hkey]

theorem responseNames_nodup : (responseNames [] []).Nodup := by
  rw [responseNames]
  repeat rw [cstr_ofList]
  decide +kernel

end Sample

end V2IHub.Command
