import V2IHub.Command.TelemetryPolls

/-! The frames of telemetry that a session is sent, and what its client makes of them. -/
namespace V2IHub.Command.TelemetrySync
open V2IHub.Foundation V2IHub.Foundation.DecimalText V2IHub.Foundation.JsonText V2IHub.Messages

section Building

/-- `BuildFullTelemetry` for the types that are sent as objects. -/
def buildFullTelemetry (dataType : DataType) (now : ℕ) (t : Telemetry) : Bytes :=
  if t.haveData then
    2 :: cstr "\x7b\"header\":\x7b\"type\":\"Telemetry\",\"subtype\":\"" ++ dataType.text
      ++ cstr "\",\"encoding\":\"jsonstring\",\"timestamp\":\"" ++ decimal now
      ++ cstr "\",\"flags\":\"0\"\x7d,\"payload\":"
      ++ (if t.json = [] then cstr "\x7b\x7d" else t.json) ++ cstr "\x7d" ++ [3]
  else []

/-- `find_first_of` -/
def findFirst (b : UInt8) (text : Bytes) : ℤ := if b ∈ text then text.idxOf b else -1

/-- `find_last_of` -/
def findLast (b : UInt8) (text : Bytes) : ℤ :=
  if b ∈ text then text.length - 1 - text.reverse.idxOf b else -1

/-- What is between the brackets of a plugin's text. -/
def insideBrackets (text : Bytes) : Option Bytes :=
  let firstBracket := findFirst 123 text
  let lastBracket := findLast 125 text
  if lastBracket - firstBracket > 1 then
    some ((text.drop (firstBracket + 1).toNat).take (lastBracket - firstBracket - 1).toNat)
  else none

def buildRemoveTelemetry (dataType : DataType) (now : ℕ) (t : Telemetry) : Bytes :=
  if t.haveData = true ∧ t.pluginsRemoveJSON.entries ≠ [] then
    2 :: cstr "\x7b\"header\":\x7b\"type\":\"Telemetry\",\"subtype\":\"" ++ cstr "Remove_"
      ++ dataType.text ++ cstr "\",\"encoding\":\"jsonstring\",\"timestamp\":\"" ++ decimal now
      ++ cstr "\",\"flags\":\"0\"\x7d,\"payload\":\x7b"
      ++ commas (t.pluginsRemoveJSON.entries.filterMap fun e => insideBrackets e.2)
      ++ cstr "\x7d\x7d" ++ [3]
  else []

end Building

section Client

/-- The messages in what a client is sent: it splits at the end bytes. -/
def messages (text : Bytes) : List Bytes :=
  (text.splitOn 3).filterMap fun piece =>
    match piece with
    | 2 :: content => some content
    | _ => none

def field : Value → Bytes → Option Value
  | .object members, key => member members key
  | _, _ => none

/-- The subtype and the payload of a message. -/
def readMessage (content : Bytes) : Option (Bytes × Value) := do
  let message ← read content
  let header ← field message (cstr "header")
  let payload ← field message (cstr "payload")
  match ← field header (cstr "subtype") with
  | .string subtype => some (subtype, payload)
  | _ => none

abbrev Views := DataType → View

/-- Telemetry is merged into the view of its type; a `Remove_List` takes plugins out of all. -/
def receiveMessage (views : Views) (content : Bytes) : Views :=
  match readMessage content with
  | none => views
  | some (subtype, payload) =>
    if subtype = cstr "Remove_List" then
      fun dataType => (views dataType).remove fun name => (field payload name).isSome
    else fun dataType =>
      if dataType.text = subtype then (views dataType).merge (valueView payload)
      else views dataType

def receive (views : Views) (text : Bytes) : Views := (messages text).foldl receiveMessage views

end Client

section Messages
variable {content rest type subtype : Bytes} {views : Views} {payload : Value}

theorem messages_frame (h : 3 ∉ content) (rest : Bytes) :
    messages (2 :: (content ++ [3]) ++ rest) = content :: messages rest := by
  have hpiece : (3 : UInt8) ∉ 2 :: content := by simpa using h
  have htext : 2 :: (content ++ [3]) ++ rest = (2 :: content) ++ 3 :: rest := by simp
  rw [htext, messages, List.splitOn_append_cons_self_of_not_mem hpiece]
  rfl

theorem receive_nil (views : Views) : receive views [] = views := rfl

theorem receive_frame (h : 3 ∉ content) (views : Views) (rest : Bytes) :
    receive views (2 :: (content ++ [3]) ++ rest) =
      receive (receiveMessage views content) rest := by
  rw [receive, messages_frame h]
  rfl

/-- The names that a client looks up. -/
theorem lookup_names : cstr "header" ≠ cstr "payload" ∧ cstr "type" ≠ cstr "subtype" := by
  repeat rw [cstr_ofList]
  decide +kernel

theorem readMessage_of_frame {now : ℕ}
    (h : read content = some (frameValue type subtype now payload)) :
    readMessage content = some (subtype, payload) := by
  obtain ⟨hpayload, hsubtype⟩ := lookup_names
  rw [readMessage, h]
  simp [frameValue, field, member, hpayload, hsubtype]

theorem text_injective {dataType dataType' : DataType} (h : dataType.text = dataType'.text) :
    dataType = dataType' := by
  revert h
  cases dataType <;> cases dataType' <;>
    simp only [DataType.text, reduceCtorEq, imp_false, imp_self]
  all_goals
    repeat rw [cstr_ofList]
    decide +kernel

theorem text_ne_remove (dataType : DataType) : dataType.text ≠ cstr "Remove_List" := by
  cases dataType <;> rw [DataType.text] <;> repeat rw [cstr_ofList]
  all_goals decide +kernel

theorem receiveMessage_telemetry {dataType : DataType} {now : ℕ}
    (h : read content = some (frameValue type dataType.text now payload)) :
    receiveMessage views content =
      Function.update views dataType ((views dataType).merge (valueView payload)) := by
  rw [receiveMessage, readMessage_of_frame h]
  funext dataType'
  by_cases heq : dataType' = dataType
  · subst heq
    simp [text_ne_remove]
  · have hne : dataType'.text ≠ dataType.text := fun htext => heq (text_injective htext)
    simp [text_ne_remove, heq, hne]

theorem receiveMessage_remove {now : ℕ}
    (h : read content = some (frameValue type (cstr "Remove_List") now payload)) :
    receiveMessage views content =
      fun dataType => (views dataType).remove fun name => (field payload name).isSome := by
  rw [receiveMessage, readMessage_of_frame h]
  exact if_pos rfl

end Messages

section Frames
variable {dataType : DataType} {now : ℕ} {subtype payload : Bytes} {v : Value}

/-- The text of a frame about its payload. -/
def frameText (subtype : Bytes) (now : ℕ) (payload : Bytes) : Bytes :=
  cstr "\x7b\"header\":\x7b\"type\":\"Telemetry\",\"subtype\":\"" ++ subtype
    ++ cstr "\",\"encoding\":\"jsonstring\",\"timestamp\":\"" ++ decimal now
    ++ cstr "\",\"flags\":\"0\"\x7d,\"payload\":" ++ payload ++ cstr "\x7d"

theorem frameText_eq (subtype : Bytes) (now : ℕ) (payload : Bytes) :
    frameText subtype now payload =
      123 :: ([44].intercalate
        [34 :: (cstr "header" ++ 34 :: 58 :: (headerDoc (cstr "Telemetry") subtype now).text),
          34 :: (cstr "payload" ++ 34 :: 58 :: payload)] ++ [125]) := by
  rw [frameText, headerDoc]
  repeat rw [cstr_ofList]
  simp [Doc.membersText, Doc.nameText, Doc.text]

theorem headerDoc_fits (hsubtype : Plain subtype) (now : ℕ) :
    (headerDoc (cstr "Telemetry") subtype now).Fits := by
  have htype := (plain_dataType .list).1
  have hempty : (Doc.object true []).Sound := Doc.sound_object_iff.mpr (by simp)
  have hframe := (frameDoc_sound_iff htype hsubtype now _).mpr hempty
  rw [frameDoc, Doc.sound_object_iff] at hframe
  exact (hframe.2 _ List.mem_cons_self).2.1

theorem read_frameText (hsubtype : Plain subtype) (h : ReadsValue payload v) :
    read (frameText subtype now payload) =
      some (frameValue (cstr "Telemetry") subtype now v) := by
  obtain ⟨⟨hheader, hpayload⟩, -⟩ := plain_frameTexts
  have hfields := (Doc.readsValue _ (headerDoc_fits hsubtype now)).member hheader
  have hobject := readsValue_object (.cons hfields (.cons (h.member hpayload) .nil))
  rw [frameText_eq, hobject.read]
  simp [headerDoc, frameValue, Doc.value, Doc.membersValue]

theorem not_mem_frameText (hsubtype : Plain subtype) (h : 3 ∉ payload) :
    3 ∉ frameText subtype now payload := by
  obtain ⟨⟨hheader, hpayload⟩, -⟩ := plain_frameTexts
  have hplain : ∀ {s : Bytes}, Printable s → 3 ∉ s := fun hs hmem => absurd (hs 3 hmem) (by decide)
  have hfields := hplain (Doc.printable_text _ (headerDoc_fits hsubtype now))
  rw [frameText_eq]
  simp [List.intercalate, hplain hheader.printable, hplain hpayload.printable, hfields, h]

/-- What a frame about a type of telemetry does to the views. -/
theorem receive_telemetry (h : ReadsValue payload v) (hend : 3 ∉ payload) (now : ℕ)
    (views : Views) (rest : Bytes) :
    receive views (2 :: (frameText dataType.text now payload ++ [3]) ++ rest) =
      receive (Function.update views dataType ((views dataType).merge (valueView v))) rest := by
  have hplain := (plain_dataType dataType).2
  rw [receive_frame (not_mem_frameText hplain hend),
    receiveMessage_telemetry (read_frameText hplain h)]

end Frames

section Full
variable {fmt : Format} {dataType : DataType} {t : Telemetry} {tree : PTree}

/-- The payload of full telemetry is the tree that was polled. -/
theorem readsValue_output {json : Bytes} (hfmt : JsonFormat fmt)
    (h : outputJSON fmt tree = some json) :
    ReadsValue (if json = [] then cstr "\x7b\x7d" else json) (rootValue tree) ∧
      3 ∉ (if json = [] then cstr "\x7b\x7d" else json) := by
  rw [outputJSON] at h
  split_ifs at h with hempty
  · obtain rfl := Option.some.inj h
    rw [if_pos rfl, cstr_ofList]
    refine ⟨?_, by decide⟩
    have hchildren : tree.children = [] := List.isEmpty_iff.mp hempty
    rw [rootValue, hchildren]
    exact readsValue_object .nil
  · obtain ⟨texts, rfl, hend, htexts⟩ := hfmt.writes _ _ h
    rw [if_neg (List.cons_ne_nil _ _)]
    refine ⟨?_, hend⟩
    have hmembers : List.Forall₂ ReadsMember texts (membersValue tree.children) := by
      rw [membersValue_eq, List.forall₂_map_right_iff]
      exact htexts
    have htext := (readsValue_object hmembers).append_blank (show blank 10 = true by decide)
    simpa [rootValue] using htext

theorem receive_full (hfmt : JsonFormat fmt) (hsnap : Snapshot dataType tree)
    (h : outputJSON fmt tree = some t.json) (now : ℕ) (views : Views) (rest : Bytes) :
    receive views (buildFullTelemetry dataType now t ++ rest) =
      receive (Function.update views dataType
        (if t.haveData then (views dataType).merge (snapshotView tree) else views dataType))
        rest := by
  rw [buildFullTelemetry]
  by_cases hdata : t.haveData = true
  · obtain ⟨hreads, hend⟩ := readsValue_output hfmt h
    rw [if_pos hdata, if_pos hdata, ← valueView_rootValue hsnap,
      ← receive_telemetry hreads hend now views rest]
    simp only [frameText, List.append_assoc, List.cons_append]
  · rw [if_neg hdata, if_neg hdata, Function.update_eq_self]
    rfl

end Full

section Update
variable {dataType : DataType} {t : Telemetry} {changes : Changes}

theorem View.merge_empty (view : View) : view.merge View.empty = view := rfl

theorem updatesView_nil (h : changes.entries = []) : updatesView dataType changes = View.empty := by
  funext path
  rw [updatesView, h]
  cases path <;> rfl

theorem receive_update (hshows : t.Shows dataType changes)
    (hfits : t.haveData = true → ChangesFit dataType changes) (now : ℕ) (views : Views)
    (rest : Bytes) :
    receive views (buildUpdateTelemetry dataType now t ++ rest) =
      receive (Function.update views dataType
        (if t.haveData then (views dataType).merge (updatesView dataType changes)
        else views dataType)) rest := by
  by_cases hdata : t.haveData = true
  · rw [if_pos hdata]
    by_cases hne : changes.entries = []
    · have hnothing : ¬ (t.haveData = true ∧ t.pluginsUpdatesJSON.entries ≠ []) := by
        rw [hshows, hne]
        simp
      rw [buildUpdateTelemetry, if_neg hnothing, updatesView_nil hne, View.merge_empty,
        Function.update_eq_self]
      rfl
    · have hframe := (buildUpdateTelemetry_faithful_iff now hdata hshows hne).mpr (hfits hdata)
      obtain ⟨content, heq, -, hend, hread, -⟩ := hframe
      rw [heq, receive_frame hend, receiveMessage_telemetry hread]
      rfl
  · rw [if_neg hdata, buildUpdateTelemetry, if_neg (fun h => hdata h.1), Function.update_eq_self]
    rfl

end Update

section Remove
variable {fmt : Format} {inner text name : Bytes} {plugin : PTree}

theorem insideBrackets_object (inner : Bytes) :
    insideBrackets (123 :: (inner ++ [125])) = if inner = [] then none else some inner := by
  have hfirst : findFirst 123 (123 :: (inner ++ [125])) = 0 := by simp [findFirst]
  have hlast : findLast 125 (123 :: (inner ++ [125])) = inner.length + 1 := by
    rw [findLast, if_pos (by simp)]
    simp
  simp only [insideBrackets, hfirst, hlast]
  by_cases hinner : inner = []
  · rw [if_pos hinner, if_neg (by simp [hinner])]
  · have hlength := List.length_pos_iff.mpr hinner
    rw [if_neg hinner, if_pos (by omega)]
    have hdrop : ((0 : ℤ) + 1).toNat = 1 := rfl
    have htake : ((inner.length : ℤ) + 1 - 0 - 1).toNat = inner.length := by omega
    rw [hdrop, htake, List.drop_one, List.tail_cons, List.take_left]

theorem trim_object (inner : Bytes) :
    trim (123 :: (inner ++ [125, 10])) = 123 :: (inner ++ [125]) := by
  have htext : 123 :: (inner ++ [125, 10]) = (123 :: (inner ++ [125])) ++ [10] := by simp
  have hspace : isSpace 10 = true := by decide
  have hbracket : ¬ isSpace 125 = true := by decide
  have hopen : ¬ isSpace 123 = true := by decide
  rw [trim, List.dropWhile_cons_of_neg hopen, htext, List.rdropWhile_concat_pos _ _ _ hspace,
    ← List.cons_append, List.rdropWhile_concat_neg _ _ _ hbracket]

/-- A name without dots is no path. -/
theorem pluginTree_children (hname : name ≠ [] ∧ 46 ∉ name) (h : plugin.children ≠ []) :
    (pluginTree name plugin).children = [(name, plugin)] := by
  have hfragments : fragments name = [name] := by
    rw [fragments, List.splitOn_eq_singleton hname.2]
    simp [hname.1]
  rw [pluginTree, if_neg (by simpa using h), hfragments]
  rfl

/-- What a remove carries of a plugin. -/
theorem insideBrackets_pluginJSON (hfmt : JsonFormat fmt) (hname : name ≠ [] ∧ 46 ∉ name)
    (h : plugin.children ≠ []) (htext : pluginJSON fmt name plugin = some text) :
    ∃ carried, insideBrackets text = some carried ∧ ReadsMember carried (name, treeValue plugin) ∧
      3 ∉ carried := by
  obtain ⟨written, hwrite, rfl⟩ := Option.map_eq_some_iff.mp htext
  obtain ⟨texts, rfl, hend, htexts⟩ := hfmt.writes _ _ hwrite
  rw [pluginTree_children hname h, List.forall₂_cons_right_iff] at htexts
  obtain ⟨carried, rest, hcarried, hrest, rfl⟩ := htexts
  obtain rfl := List.forall₂_nil_right_iff.mp hrest
  rw [List.intercalate_singleton] at hend ⊢
  have hne : carried ≠ [] := by
    rintro rfl
    obtain ⟨r, hread, -⟩ := hcarried 0 (Nat.le_refl _) []
    simp [readMember, expect, skip] at hread
  refine ⟨carried, ?_, hcarried, fun hmem => hend (by simp [hmem])⟩
  rw [trim_object, insideBrackets_object, if_neg hne]

/-- The members of a remove have the names of its entries. -/
theorem readsMember_entries {entries : List (Bytes × Bytes)}
    (h : ∀ e ∈ entries, ∃ carried v, insideBrackets e.2 = some carried ∧
      ReadsMember carried (e.1, v) ∧ 3 ∉ carried) :
    ∃ members, List.Forall₂ ReadsMember (entries.filterMap fun e => insideBrackets e.2) members ∧
      members.map Prod.fst = entries.map Prod.fst ∧
      3 ∉ commas (entries.filterMap fun e => insideBrackets e.2) := by
  induction entries with
  | nil => exact ⟨[], .nil, rfl, by simp [commas]⟩
  | cons e entries ih =>
    obtain ⟨⟨carried, v, hcarried, hreads, hend⟩, hentries⟩ := List.forall_mem_cons.mp h
    obtain ⟨members, hmembers, hnames, hends⟩ := ih hentries
    have hcons : (e :: entries).filterMap (fun e => insideBrackets e.2) =
        carried :: entries.filterMap fun e => insideBrackets e.2 := by
      simp [hcarried]
    rw [hcons]
    refine ⟨(e.1, v) :: members, .cons hreads hmembers, by simp [hnames], ?_⟩
    · generalize entries.filterMap (fun e => insideBrackets e.2) = texts at hends
      cases texts with
      | nil => simpa [commas] using hend
      | cons text texts =>
        rw [commas] at hends ⊢
        rw [List.intercalate_cons_cons]
        simp [hend, hends]

theorem plain_remove : Plain (cstr "Remove_List") ∧
    cstr "Remove_" ++ DataType.list.text = cstr "Remove_List" := by
  rw [DataType.text]
  repeat rw [cstr_ofList]
  decide +kernel

theorem View.remove_congr {view : View} {gone gone' : Bytes → Prop} [DecidablePred gone]
    [DecidablePred gone'] (h : ∀ name, gone name ↔ gone' name) :
    view.remove gone = view.remove gone' := by
  funext path
  cases path with
  | nil => rfl
  | cons name path => simp [View.remove, h]

theorem View.remove_nil (view : View) : view.remove (· ∈ ([] : List Bytes)) = view := by
  funext path
  cases path <;> simp [View.remove]

/-- The plugins that the removes of a poll take out. -/
def gone (c : Channel) : List Bytes := if c.telemetry.haveData then c.removed else []

theorem receive_remove {c : Channel} (hfmt : JsonFormat fmt) (hc : c.Followed fmt .list)
    (hnames : ∀ name ∈ gone c, 46 ∉ name) (now : ℕ) (views : Views) :
    receive views (buildRemoveTelemetry .list now c.telemetry) =
      fun dataType => (views dataType).remove (· ∈ gone c) := by
  by_cases hdata : c.telemetry.haveData = true
  · have hgone : gone c = c.removed := if_pos hdata
    rw [hgone] at hnames ⊢
    by_cases hne : c.telemetry.pluginsRemoveJSON.entries = []
    · have hnothing : c.removed = [] := by
        refine List.eq_nil_iff_forall_not_mem.mpr fun name hmem => ?_
        rw [← hc.removed, hne] at hmem
        simp at hmem
      rw [buildRemoveTelemetry, if_neg (fun h => h.2 hne), hnothing]
      simp only [View.remove_nil, receive_nil]
    · have hentries : ∀ e ∈ c.telemetry.pluginsRemoveJSON.entries, ∃ carried v,
          insideBrackets e.2 = some carried ∧ ReadsMember carried (e.1, v) ∧ 3 ∉ carried := by
        intro e he
        obtain ⟨plugin, htable, hname, htext⟩ := hc.removes e.1 e.2 he
        have hdots := hnames e.1 ((hc.removed e.1).mp (List.mem_map_of_mem he))
        obtain ⟨carried, hcarried⟩ := insideBrackets_pluginJSON hfmt ⟨hname, hdots⟩ htable.1 htext
        exact ⟨carried, treeValue plugin, hcarried⟩
      obtain ⟨members, hmembers, hnames', hend⟩ := readsMember_entries hentries
      set texts := c.telemetry.pluginsRemoveJSON.entries.filterMap fun e => insideBrackets e.2
        with htexts
      have hpayload := readsValue_object hmembers
      have hendPayload : (3 : UInt8) ∉ 123 :: ([44].intercalate texts ++ [125]) := by
        simpa [commas] using hend
      obtain ⟨hplain, hsubtype⟩ := plain_remove
      have htext : buildRemoveTelemetry .list now c.telemetry =
          2 :: (frameText (cstr "Remove_List") now (123 :: ([44].intercalate texts ++ [125]))
            ++ [3]) ++ [] := by
        rw [buildRemoveTelemetry, if_pos ⟨hdata, hne⟩, frameText, ← hsubtype, ← htexts, commas]
        repeat rw [cstr_ofList]
        simp
      rw [htext, receive_frame (not_mem_frameText hplain hendPayload), receive_nil,
        receiveMessage_remove (read_frameText hplain hpayload)]
      funext dataType
      refine View.remove_congr fun name => ?_
      rw [← hc.removed, ← hnames', field, Option.isSome_iff_ne_none, ne_eq, member,
        find_eq_none_iff, not_not]
  · have hgone : gone c = [] := if_neg hdata
    rw [hgone, buildRemoveTelemetry, if_neg (fun h => hdata h.1)]
    simp only [View.remove_nil, receive_nil]

end Remove

section Each
variable {build : DataType → Bytes} {f : DataType → View → View} {dataTypes : List DataType}

/-- Frames about different types. -/
theorem receive_each (hnodup : dataTypes.Nodup)
    (h : ∀ dataType ∈ dataTypes, ∀ views rest, receive views (build dataType ++ rest) =
      receive (Function.update views dataType (f dataType (views dataType))) rest)
    (views : Views) (rest : Bytes) :
    receive views (dataTypes.flatMap build ++ rest) =
      receive (fun dataType =>
        if dataType ∈ dataTypes then f dataType (views dataType) else views dataType) rest := by
  induction dataTypes generalizing views with
  | nil => rfl
  | cons dataType dataTypes ih =>
    obtain ⟨hout, hnodup⟩ := List.nodup_cons.mp hnodup
    obtain ⟨hfirst, hothers⟩ := List.forall_mem_cons.mp h
    rw [List.flatMap_cons, List.append_assoc, hfirst, ih hnodup hothers]
    congr 1
    funext dataType'
    by_cases heq : dataType' = dataType
    · subst heq
      simp [hout]
    · simp [heq]

end Each

end V2IHub.Command.TelemetrySync
