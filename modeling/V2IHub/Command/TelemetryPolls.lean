import V2IHub.Foundation.JsonSplice
import V2IHub.Command.TelemetryViews

/-! One kind of telemetry over its polls: what is kept of a snapshot, and what the updates and the
removes of a poll are about. -/
namespace V2IHub.Command
open V2IHub.Foundation V2IHub.Foundation.JsonText V2IHub.Messages

/-- What is known of `write_json` and `read_json`: a tree is written on one line as an object, with
no control byte in it, and comes back from it. -/
structure JsonFormat (fmt : Format) : Prop where
  writes : ∀ t text, fmt.write t = some text → ∃ texts,
    text = 123 :: ([44].intercalate texts ++ [125, 10]) ∧ 3 ∉ text ∧
      List.Forall₂ (fun text child => ReadsMember text (child.1, treeValue child.2)) texts
        t.children
  reads : ∀ t text, fmt.write t = some text → fmt.read (trim text) = some t

/-- The variables of one kind of telemetry, beside the last two snapshots that were polled and the
plugins that the last of them showed changed. -/
structure Channel where
  telemetry : Telemetry
  snapshot : PTree
  before : PTree
  changes : Changes

namespace Channel

def initial : Channel := ⟨.initial, .empty, .empty, .empty⟩

/-- `GetTelemetry`; a query that fails shows no snapshot. -/
def poll (fmt : Format) (dataType : DataType) (c : Channel) : Option PTree → Option Channel
  | none => (getTelemetry fmt dataType c.telemetry none).map fun t => { c with telemetry := t }
  | some tree => do
    let t ← getTelemetry fmt dataType c.telemetry (some tree)
    let changes ← pollChanges fmt c.telemetry tree
    some ⟨t, tree, c.snapshot, changes⟩

/-- The plugins that the last poll no longer found. -/
def removed (c : Channel) : List Bytes :=
  (c.before.children.map Prod.fst).filter fun name => (c.snapshot.find name).isNone

/-- How the variables, the snapshots and the changes belong together. -/
structure Followed (fmt : Format) (dataType : DataType) (c : Channel) : Prop where
  snapshot : Snapshot dataType c.snapshot
  known : ∀ plugin ∈ c.snapshot.children, ∃ text, pluginJSON fmt plugin.1 plugin.2 = some text ∧
    c.telemetry.pluginsJSON.find plugin.1 = some text
  unknown : ∀ name ∉ c.snapshot.children.map Prod.fst, c.telemetry.pluginsJSON.find name = none
  json : outputJSON fmt c.snapshot = some c.telemetry.json
  shows : c.telemetry.Shows dataType c.changes
  carried : ∀ path v, updatesView dataType c.changes path = some v →
    snapshotView c.snapshot path = some v
  carries : ∀ path v, snapshotView c.snapshot path = some v →
    snapshotView c.before path = some v ∨ updatesView dataType c.changes path = some v
  removes : ∀ name text, (name, text) ∈ c.telemetry.pluginsRemoveJSON.entries →
    ∃ plugin, Tabular dataType.depth plugin ∧ name ≠ [] ∧ pluginJSON fmt name plugin = some text
  removed : ∀ name, name ∈ c.telemetry.pluginsRemoveJSON.entries.map Prod.fst ↔ name ∈ c.removed

end Channel

section Fold
variable {fmt : Format} {s s' : OrderedMap Bytes Bytes × Changes} {plugin : Bytes × PTree}
  {name : Bytes} {known known' : OrderedMap Bytes Bytes} {changed : Option PTree}

theorem comparePlugin_eq (h : comparePlugin fmt known plugin = some (changed, known')) :
    ∃ pJSON, pluginJSON fmt plugin.1 plugin.2 = some pJSON ∧
      known' = known.insert plugin.1 pJSON ∧
      (known.find plugin.1 = none ∧ changed = some .empty ∨
        known.find plugin.1 = some pJSON ∧ changed = none ∨
        ∃ oldJSON old, known.find plugin.1 = some oldJSON ∧ fmt.read oldJSON = some old ∧
          changed = some old) := by
  unfold comparePlugin at h
  cases hjson : pluginJSON fmt plugin.1 plugin.2 with
  | none => simp [hjson] at h
  | some pJSON =>
    refine ⟨pJSON, rfl, ?_⟩
    cases hfind : known.find plugin.1 with
    | none =>
      simp only [hjson, hfind, Option.some.injEq, Prod.mk.injEq] at h
      exact ⟨h.2.symm, Or.inl ⟨rfl, h.1.symm⟩⟩
    | some oldJSON =>
      simp only [hjson, hfind] at h
      split_ifs at h with hne
      · obtain ⟨old, hread, hr⟩ := Option.map_eq_some_iff.mp h
        obtain ⟨rfl, rfl⟩ := Prod.mk.inj hr
        exact ⟨rfl, Or.inr (Or.inr ⟨oldJSON, old, rfl, hread, rfl⟩)⟩
      · obtain ⟨rfl, rfl⟩ := Prod.mk.inj (Option.some.inj h)
        rw [ne_eq, not_not] at hne
        exact ⟨rfl, Or.inr (Or.inl ⟨by rw [hne], rfl⟩)⟩

theorem noteChanges_unknown {plugins : List (Bytes × PTree)}
    (h : plugins.foldlM (noteChange fmt) s = some s') (hname : name ∉ plugins.map Prod.fst) :
    s'.1.find name = s.1.find name := by
  induction plugins generalizing s with
  | nil =>
    obtain rfl : s = s' := by simpa using h
    rfl
  | cons plugin plugins ih =>
    rw [List.foldlM_cons] at h
    obtain ⟨u, hstep, hrest⟩ := Option.bind_eq_some_iff.mp h
    rw [List.map_cons, List.mem_cons, not_or] at hname
    exact (ih hrest hname.2).trans (noteChange_other hstep hname.1).1

/-- The text of each plugin is kept. -/
theorem noteChanges_known {plugins : List (Bytes × PTree)}
    (hnodup : (plugins.map Prod.fst).Nodup) (h : plugins.foldlM (noteChange fmt) s = some s')
    (hmem : plugin ∈ plugins) :
    ∃ text, pluginJSON fmt plugin.1 plugin.2 = some text ∧ s'.1.find plugin.1 = some text := by
  induction plugins generalizing s with
  | nil => simp at hmem
  | cons plugin' plugins ih =>
    rw [List.foldlM_cons] at h
    obtain ⟨u, hstep, hrest⟩ := Option.bind_eq_some_iff.mp h
    rw [List.map_cons, List.nodup_cons] at hnodup
    rcases List.mem_cons.mp hmem with rfl | hmem
    · obtain ⟨⟨changed, known⟩, hcompare, rfl⟩ := Option.map_eq_some_iff.mp hstep
      obtain ⟨text, htext, rfl, -⟩ := comparePlugin_eq hcompare
      refine ⟨text, htext, ?_⟩
      rw [noteChanges_unknown hrest hnodup.1]
      exact (OrderedMap.find_insert _ _ _ _).trans (if_pos rfl)
    · exact ih hnodup.2 hrest hmem

theorem pollPlugins_json {dataType : DataType} {t t' : Telemetry} {plugins : List (Bytes × PTree)}
    (h : plugins.foldlM (pollPlugin fmt dataType) t = some t') : t'.json = t.json := by
  induction plugins generalizing t with
  | nil =>
    obtain rfl : t = t' := by simpa using h
    rfl
  | cons plugin plugins ih =>
    rw [List.foldlM_cons] at h
    obtain ⟨u, hstep, hrest⟩ := Option.bind_eq_some_iff.mp h
    obtain ⟨r, -, rfl⟩ := Option.map_eq_some_iff.mp hstep
    have hrest' := ih hrest
    exact hrest'

/-- What a poll keeps. -/
theorem getTelemetry_keeps {dataType : DataType} {t t' : Telemetry} {tree : PTree}
    (h : getTelemetry fmt dataType t (some tree) = some t') :
    ∃ s, tree.children.foldlM (noteChange fmt) (t.pluginsJSON, .empty) = some s ∧
      pollChanges fmt t tree = some s.2 ∧ t'.Shows dataType s.2 ∧ t'.haveData = true ∧
      outputJSON fmt tree = some t'.json ∧
      t'.pluginsJSON = s.1.filter (fun e => e.1 ∈ tree.children.map Prod.fst) ∧
      t'.pluginsRemoveJSON = s.1.filter (fun e => e.1 ∉ tree.children.map Prod.fst) := by
  rw [getTelemetry] at h
  obtain ⟨json, hjson, h⟩ := Option.bind_eq_some_iff.mp h
  obtain ⟨polled, hpoll, h⟩ := Option.bind_eq_some_iff.mp h
  obtain rfl := Option.some.inj h
  have hempty : Telemetry.Shows
      { t with haveData := true, json := json, pluginsUpdatesJSON := .empty } dataType .empty := rfl
  obtain ⟨changes, hnotes, hshows, hdata⟩ := pollPlugins_show hempty hpoll
  refine ⟨(polled.pluginsJSON, changes), hnotes, ?_, hshows, hdata, ?_, rfl, rfl⟩
  · rw [pollChanges, hnotes, Option.map_some]
  · have hkept := pollPlugins_json hpoll
    rw [hjson]
    exact congrArg some hkept.symm

end Fold

section Carrying
variable {fmt : Format} {dataType : DataType} {s : OrderedMap Bytes Bytes × Changes}
  {known : OrderedMap Bytes Bytes} {tree plugin old : PTree} {changes : Changes} {name v : Bytes}
  {path : Path}

theorem find_filter_iff {m : OrderedMap Bytes Bytes} {p : Bytes × Bytes → Bool} {text : Bytes} :
    (m.filter p).find name = some text ↔ m.find name = some text ∧ p (name, text) := by
  rw [← OrderedMap.mem_entries_iff, ← OrderedMap.mem_entries_iff]
  exact List.mem_filter

theorem updatesView_eq_some_iff : updatesView dataType changes path = some v ↔
    ∃ name rest, path = name :: rest ∧ ∃ plugin old, changes.find name = some (plugin, old) ∧
      valueView (updateValue dataType name plugin old) rest = some v := by
  have hnodup : ((changes.entries.map fun e =>
      (e.1, updateValue dataType e.1 e.2.1 e.2.2)).map Prod.fst).Nodup := by
    rw [List.map_map]
    exact changes.nodup_keys
  rw [updatesView, valueView_object]
  constructor
  · rintro ⟨name, rest, rfl, m, hm, hv⟩
    obtain ⟨⟨name', plugin, old⟩, hmem, heq⟩ :=
      List.mem_map.mp ((member_eq_some_iff hnodup).mp hm)
    obtain ⟨rfl, rfl⟩ := Prod.mk.inj heq
    exact ⟨name', rest, rfl, plugin, old, OrderedMap.mem_entries_iff.mp hmem, hv⟩
  · rintro ⟨name, rest, rfl, plugin, old, hfind, hv⟩
    refine ⟨name, rest, rfl, _, (member_eq_some_iff hnodup).mpr ?_, hv⟩
    exact List.mem_map.mpr ⟨(name, plugin, old), OrderedMap.mem_entries_iff.mpr hfind, rfl⟩

theorem snapshotView_eq_some_iff (h : (tree.children.map Prod.fst).Nodup) :
    snapshotView tree path = some v ↔ ∃ name rest, path = name :: rest ∧
      ∃ plugin, (name, plugin) ∈ tree.children ∧ leafAt plugin rest = some v := by
  cases path with
  | nil => simp [snapshotView]
  | cons name rest =>
    rw [snapshotView, Option.bind_eq_some_iff]
    constructor
    · rintro ⟨plugin, hfind, hleaf⟩
      exact ⟨name, rest, rfl, plugin, (tree_find_eq_some_iff h).mp hfind, hleaf⟩
    · rintro ⟨name, rest, hpath, plugin, hmem, hleaf⟩
      obtain ⟨rfl, rfl⟩ := List.cons.inj hpath
      exact ⟨plugin, (tree_find_eq_some_iff h).mpr hmem, hleaf⟩

/-- The changes of a poll are about its own plugins. -/
theorem mem_of_changes_find (hnodup : (tree.children.map Prod.fst).Nodup)
    (hnotes : tree.children.foldlM (noteChange fmt) (known, .empty) = some s)
    (hfind : s.2.find name = some (plugin, old)) : (name, plugin) ∈ tree.children := by
  by_cases hname : name ∈ tree.children.map Prod.fst
  · obtain ⟨⟨name, plugin'⟩, hmem, rfl⟩ := List.mem_map.mp hname
    obtain ⟨changed, -, hchanged⟩ := noteChanges_find hnodup hnotes hmem rfl
    rw [hfind] at hchanged
    obtain ⟨old', -, heq⟩ := Option.map_eq_some_iff.mp hchanged.symm
    rwa [← (Prod.mk.inj heq).1]
  · rw [noteChanges_other hnotes hname] at hfind
    simp [OrderedMap.find, OrderedMap.empty] at hfind

theorem carried_of_poll (htype : dataType ∈ viewTypes) (hsnap : Snapshot dataType tree)
    (hnotes : tree.children.foldlM (noteChange fmt) (known, .empty) = some s)
    (h : updatesView dataType s.2 path = some v) : snapshotView tree path = some v := by
  obtain ⟨name, rest, rfl, plugin, old, hfind, hv⟩ := updatesView_eq_some_iff.mp h
  have hmem := mem_of_changes_find hsnap.nodup hnotes hfind
  rw [updateValue_carry_iff htype (hsnap.named _ hmem) (hsnap.tabular _ hmem)] at hv
  exact (snapshotView_eq_some_iff hsnap.nodup).mpr ⟨name, rest, rfl, plugin, hmem, hv.1⟩

theorem read_pluginJSON {text : Bytes} (hfmt : JsonFormat fmt)
    (h : pluginJSON fmt name plugin = some text) :
    fmt.read text = some (pluginTree name plugin) := by
  obtain ⟨written, hwrite, rfl⟩ := Option.map_eq_some_iff.mp h
  exact hfmt.reads _ _ hwrite

theorem children_ne_nil (htype : dataType ∈ viewTypes) (h : Tabular dataType.depth plugin) :
    plugin.children ≠ [] := by
  cases dataType with
  | list => exact h.1
  | state => exact h.1
  | config => exact h.1
  | status => exact absurd htype (by decide)

/-- A value that is not carried was there before. -/
theorem carries_of_poll {prev : PTree} (hfmt : JsonFormat fmt) (htype : dataType ∈ viewTypes)
    (hprev : Snapshot dataType prev)
    (hknown : ∀ plugin ∈ prev.children, ∃ text, pluginJSON fmt plugin.1 plugin.2 = some text ∧
      known.find plugin.1 = some text)
    (hunknown : ∀ name ∉ prev.children.map Prod.fst, known.find name = none)
    (hsnap : Snapshot dataType tree)
    (hnotes : tree.children.foldlM (noteChange fmt) (known, .empty) = some s)
    (h : snapshotView tree path = some v) :
    snapshotView prev path = some v ∨ updatesView dataType s.2 path = some v := by
  obtain ⟨name, rest, rfl, plugin, hmem, hleaf⟩ := (snapshotView_eq_some_iff hsnap.nodup).mp h
  have hname : name ≠ [] ∧ 124 ∉ name := hsnap.named _ hmem
  have htable : Tabular dataType.depth plugin := hsnap.tabular _ hmem
  obtain ⟨changed, hchanged, hfind⟩ := noteChanges_find hsnap.nodup hnotes hmem rfl
  obtain ⟨⟨changed, known'⟩, hcompare, rfl⟩ := Option.map_eq_some_iff.mp hchanged
  obtain ⟨pJSON, hjson, -, hcase⟩ := comparePlugin_eq hcompare
  have hcarry : ∀ old, s.2.find name = some (plugin, old) → old.dataAt (name :: rest) ≠ some v →
      updatesView dataType s.2 (name :: rest) = some v := by
    intro old hold hnew
    refine updatesView_eq_some_iff.mpr ⟨name, rest, rfl, plugin, old, hold, ?_⟩
    exact (updateValue_carry_iff htype hname htable).mpr ⟨hleaf, hnew⟩
  have hbefore : ∀ text, known.find name = some text → ∃ old, (name, old) ∈ prev.children ∧
      pluginJSON fmt name old = some text := by
    intro text htext
    have hold : name ∈ prev.children.map Prod.fst := by
      by_contra hout
      rw [hunknown name hout] at htext
      simp at htext
    obtain ⟨⟨name, old⟩, holdmem, rfl⟩ := List.mem_map.mp hold
    obtain ⟨text', htext', hfind'⟩ := hknown _ holdmem
    obtain rfl := Option.some.inj (hfind'.symm.trans htext)
    exact ⟨old, holdmem, htext'⟩
  rcases hcase with ⟨-, rfl⟩ | ⟨hsame, rfl⟩ | ⟨oldJSON, oldTree, hold, hread, rfl⟩
  · exact Or.inr (hcarry _ hfind (by simp [PTree.dataAt, PTree.getChild_empty]))
  · -- the texts are the same, and so are the plugins
    obtain ⟨old, holdmem, holdjson⟩ := hbefore _ hsame
    have htrees := (read_pluginJSON hfmt holdjson).symm.trans (read_pluginJSON hfmt hjson)
    have hold : old.children ≠ [] := children_ne_nil htype (hprev.tabular _ holdmem)
    obtain rfl : old = plugin :=
      pluginTree_injective hold (children_ne_nil htype htable) (Option.some.inj htrees)
    exact Or.inl ((snapshotView_eq_some_iff hprev.nodup).mpr
      ⟨name, rest, rfl, old, holdmem, hleaf⟩)
  · obtain ⟨old, holdmem, holdjson⟩ := hbefore _ hold
    have htree := hread.symm.trans (read_pluginJSON hfmt holdjson)
    obtain rfl := Option.some.inj htree
    by_cases hdata : (pluginTree name old).dataAt (name :: rest) = some v
    · have holdtable : Tabular dataType.depth old := hprev.tabular _ holdmem
      have hvalue := dataAt_pluginTree (children_ne_nil htype holdtable) hname.1 hdata
      rw [dataAt_eq_leafAt holdtable (length_of_leafAt htable hleaf)] at hvalue
      exact Or.inl ((snapshotView_eq_some_iff hprev.nodup).mpr
        ⟨name, rest, rfl, old, holdmem, hvalue⟩)
    · exact Or.inr (hcarry _ hfind hdata)

end Carrying

section Poll
variable {fmt : Format} {dataType : DataType} {c c' : Channel}

theorem snapshot_empty : Snapshot dataType .empty := by
  constructor <;> simp [PTree.empty, PTree.children]

theorem Channel.followed_initial : Channel.Followed fmt dataType .initial where
  snapshot := snapshot_empty
  known := by simp [Channel.initial, PTree.empty, PTree.children]
  unknown _ _ := rfl
  json := rfl
  shows := rfl
  carried path v h := by
    obtain ⟨name, rest, -, plugin, old, hfind, -⟩ := updatesView_eq_some_iff.mp h
    simp [Channel.initial, OrderedMap.find, OrderedMap.empty] at hfind
  carries path v h := Or.inl h
  removes := by simp [Channel.initial, Telemetry.initial, OrderedMap.empty]
  removed := by
    simp [Channel.initial, Telemetry.initial, OrderedMap.empty, Channel.removed, PTree.empty,
      PTree.children]

theorem Channel.Followed.of_known (hc : c.Followed fmt dataType) {name text : Bytes}
    (h : c.telemetry.pluginsJSON.find name = some text) :
    ∃ plugin, (name, plugin) ∈ c.snapshot.children ∧ pluginJSON fmt name plugin = some text := by
  have hname : name ∈ c.snapshot.children.map Prod.fst := by
    by_contra hout
    rw [hc.unknown name hout] at h
    simp at h
  obtain ⟨⟨name, plugin⟩, hmem, rfl⟩ := List.mem_map.mp hname
  obtain ⟨text', htext', hfind⟩ := hc.known _ hmem
  obtain rfl := Option.some.inj (hfind.symm.trans h)
  exact ⟨plugin, hmem, htext'⟩

theorem Channel.Followed.isSome_known_iff (hc : c.Followed fmt dataType) {name : Bytes} :
    (c.telemetry.pluginsJSON.find name).isSome ↔ name ∈ c.snapshot.children.map Prod.fst := by
  constructor
  · intro h
    obtain ⟨text, htext⟩ := Option.isSome_iff_exists.mp h
    obtain ⟨plugin, hmem, -⟩ := hc.of_known htext
    exact List.mem_map_of_mem hmem
  · intro h
    obtain ⟨plugin, hmem, rfl⟩ := List.mem_map.mp h
    obtain ⟨text, -, hfind⟩ := hc.known plugin hmem
    rw [hfind]
    rfl

/-- A poll keeps up with its snapshot. -/
theorem Channel.Followed.poll (hfmt : JsonFormat fmt) (htype : dataType ∈ viewTypes)
    (hc : c.Followed fmt dataType) {polled : Option PTree}
    (hsnap : ∀ tree ∈ polled, Snapshot dataType tree) (h : c.poll fmt dataType polled = some c') :
    c'.Followed fmt dataType := by
  cases polled with
  | none =>
    rw [Channel.poll] at h
    obtain ⟨t, ht, rfl⟩ := Option.map_eq_some_iff.mp h
    rw [getTelemetry, Option.some.injEq] at ht
    subst ht
    exact { hc with }
  | some tree =>
    rw [Channel.poll] at h
    obtain ⟨t, ht, h⟩ := Option.bind_eq_some_iff.mp h
    obtain ⟨changes, hchanges, h⟩ := Option.bind_eq_some_iff.mp h
    obtain rfl := Option.some.inj h
    obtain ⟨s, hnotes, hpoll, hshows, -, hjson, hkept, hremoved⟩ := getTelemetry_keeps ht
    obtain rfl := Option.some.inj (hchanges.symm.trans hpoll)
    have htree := hsnap tree rfl
    exact {
      snapshot := htree
      known := by
        intro plugin hmem
        obtain ⟨text, htext, hfind⟩ := noteChanges_known htree.nodup hnotes hmem
        refine ⟨text, htext, ?_⟩
        rw [hkept, find_filter_iff]
        exact ⟨hfind, decide_eq_true (List.mem_map_of_mem hmem)⟩
      unknown := by
        intro name hname
        rw [hkept]
        by_contra hne
        obtain ⟨text, htext⟩ := Option.ne_none_iff_exists'.mp hne
        exact hname (of_decide_eq_true (find_filter_iff.mp htext).2)
      json := hjson
      shows := hshows
      carried := fun path v hv => carried_of_poll htype htree hnotes hv
      carries := fun path v hv =>
        carries_of_poll hfmt htype hc.snapshot hc.known hc.unknown htree hnotes hv
      removes := by
        intro name text hmem
        rw [OrderedMap.mem_entries_iff, hremoved, find_filter_iff] at hmem
        have hname : name ∉ tree.children.map Prod.fst := of_decide_eq_true hmem.2
        have hfind := (noteChanges_unknown hnotes hname).symm.trans hmem.1
        obtain ⟨plugin, hplugin, htext⟩ := hc.of_known hfind
        have hnamed : name ≠ [] := (hc.snapshot.named _ hplugin).1
        exact ⟨plugin, hc.snapshot.tabular _ hplugin, hnamed, htext⟩
      removed := by
        intro name
        rw [Channel.removed, List.mem_filter, Option.isNone_iff_eq_none, PTree.find,
          find_eq_none_iff, ← OrderedMap.isSome_find_iff, Option.isSome_iff_exists, hremoved]
        simp only [find_filter_iff, decide_eq_true_eq, exists_and_right]
        refine and_congr_left fun hname => ?_
        rw [noteChanges_unknown hnotes hname, ← Option.isSome_iff_exists]
        exact hc.isSome_known_iff }

end Poll

end V2IHub.Command
