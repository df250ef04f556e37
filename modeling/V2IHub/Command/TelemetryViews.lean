import V2IHub.Command.FaithfulFrames

/-! What a client of the telemetry sees: the values that stand at the paths of a snapshot, of a
JSON value, and of the updates of a poll. -/
namespace V2IHub.Command
open V2IHub.Foundation V2IHub.Foundation.JsonText V2IHub.Messages

/-- The values at the ends of the paths. -/
abbrev View := Path → Option Bytes

namespace View

def empty : View := fun _ => none

/-- An update overwrites the keys that it carries. -/
def merge (view update : View) : View := fun path => (update path).or (view path)

/-- Whole plugins go. -/
def remove (view : View) (gone : Bytes → Prop) [DecidablePred gone] : View := fun path =>
  if path.head?.any gone then none else view path

end View

section Definitions

/-- The value of the node at a path when there is nothing below it. -/
def leafAt : PTree → Path → Option Bytes
  | t, [] => if t.children = [] then some t.data else none
  | t, key :: path => (t.find key).bind fun child => leafAt child path

/-- A snapshot as a client is to see it. -/
def snapshotView (tree : PTree) : View
  | [] => none
  | name :: path => (tree.find name).bind fun plugin => leafAt plugin path

def member (members : List (Bytes × Value)) (key : Bytes) : Option Value :=
  (members.find? fun m => m.1 = key).map Prod.snd

/-- The strings in a JSON value. -/
def valueView : Value → View
  | .string s, [] => some s
  | .object members, key :: path => (member members key).bind fun v => valueView v path
  | _, _ => none

mutual

/-- What `write_json` makes of a node below the root: a string when it has no children, and an
array when none of them has a name. -/
def treeValue : PTree → Value
  | .node data children =>
    if children = [] then .string data
    else if ∀ c ∈ children.map Prod.fst, c = [] then .array ((membersValue children).map Prod.snd)
    else .object (membersValue children)

def membersValue : List (Bytes × PTree) → List (Bytes × Value)
  | [] => []
  | (key, child) :: children => (key, treeValue child) :: membersValue children

end

/-- The root is always written as an object. -/
def rootValue (t : PTree) : Value := .object (membersValue t.children)

/-- Every path goes through so many names, which are neither empty nor taken for a path of the
output. -/
def Tabular : ℕ → PTree → Prop
  | 0, t => t.children = []
  | depth + 1, t => t.children ≠ [] ∧ (t.children.map Prod.fst).Nodup ∧
    ∀ c ∈ t.children, (c.1 ≠ [] ∧ 124 ∉ c.1) ∧ Tabular depth c.2

/-- How deep the plugins of a snapshot are. -/
def DataType.depth : DataType → ℕ
  | .status => 0
  | .list | .state => 1
  | .config => 2

/-- A snapshot of the database, which may be empty. -/
structure Snapshot (dataType : DataType) (tree : PTree) : Prop where
  nodup : (tree.children.map Prod.fst).Nodup
  named : ∀ c ∈ tree.children, c.1 ≠ [] ∧ 124 ∉ c.1
  tabular : ∀ c ∈ tree.children, Tabular dataType.depth c.2

/-- What the updates of a poll carry. -/
def updatesView (dataType : DataType) (changes : Changes) : View :=
  valueView (.object (changes.entries.map fun e => (e.1, updateValue dataType e.1 e.2.1 e.2.2)))

end Definitions

section Finding
variable {α : Type} {entries : List (Bytes × α)} {key : Bytes} {a : α}

theorem find_eq_some_iff (h : (entries.map Prod.fst).Nodup) :
    (entries.find? fun e => e.1 = key).map Prod.snd = some a ↔ (key, a) ∈ entries := by
  induction entries with
  | nil => simp
  | cons e entries ih =>
    rw [List.map_cons, List.nodup_cons] at h
    by_cases hkey : e.1 = key
    · have hout : (key, a) ∉ entries := fun hmem => h.1 (hkey ▸ List.mem_map_of_mem hmem)
      simp [hkey, hout, Prod.ext_iff, eq_comm]
    · have hne : (key, a) ≠ e := fun heq => hkey (heq ▸ rfl)
      simp [hkey, hne, ih h.2]

theorem find_eq_none_iff :
    (entries.find? fun e => e.1 = key).map Prod.snd = none ↔ key ∉ entries.map Prod.fst := by
  simp only [Option.map_eq_none_iff, List.find?_eq_none, decide_eq_true_eq, List.mem_map,
    not_exists, not_and]

theorem tree_find_eq_some_iff {t child : PTree} (h : (t.children.map Prod.fst).Nodup) :
    t.find key = some child ↔ (key, child) ∈ t.children := find_eq_some_iff h

theorem member_eq_some_iff {members : List (Bytes × Value)} {v : Value}
    (h : (members.map Prod.fst).Nodup) : member members key = some v ↔ (key, v) ∈ members :=
  find_eq_some_iff h

theorem valueView_object {members : List (Bytes × Value)} {path : Path} {v : Bytes} :
    valueView (.object members) path = some v ↔
      ∃ key rest, path = key :: rest ∧
        ∃ m, member members key = some m ∧ valueView m rest = some v := by
  cases path with
  | nil => simp [valueView]
  | cons key rest => simp [valueView, Option.bind_eq_some_iff]

end Finding

section Written
variable {t : PTree} {path : Path} {depth : ℕ}

theorem membersValue_eq (children : List (Bytes × PTree)) :
    membersValue children = children.map fun c => (c.1, treeValue c.2) := by
  induction children with
  | nil => rfl
  | cons c children ih =>
    obtain ⟨key, child⟩ := c
    rw [membersValue, ih, List.map_cons]

theorem member_membersValue (t : PTree) (key : Bytes) :
    member (membersValue t.children) key = (t.find key).map treeValue := by
  rw [membersValue_eq, member, List.find?_map, Option.map_map, PTree.find, Option.map_map]
  rfl

/-- Nothing is lost of a table when it is written. -/
theorem valueView_treeValue (h : Tabular depth t) :
    valueView (treeValue t) path = leafAt t path := by
  induction depth generalizing t path with
  | zero =>
    obtain ⟨data, children⟩ := t
    obtain rfl : children = [] := h
    cases path with
    | nil => simp [treeValue, valueView, leafAt, PTree.children, PTree.data]
    | cons key path => simp [treeValue, valueView, leafAt, PTree.find, PTree.children]
  | succ depth ih =>
    obtain ⟨hne, hnodup, hchildren⟩ := h
    obtain ⟨data, children⟩ := t
    have hnamed : ¬ ∀ c ∈ children.map Prod.fst, c = [] := by
      intro hall
      obtain ⟨c, hc⟩ := List.exists_mem_of_ne_nil children hne
      exact (hchildren c hc).1.1 (hall c.1 (List.mem_map_of_mem hc))
    have hvalue : treeValue (.node data children) = .object (membersValue children) := by
      rw [treeValue, if_neg (show ¬ children = [] from hne), if_neg hnamed]
    rw [hvalue]
    cases path with
    | nil => simp [valueView, leafAt, hne]
    | cons key path =>
      rw [valueView, leafAt]
      have hmember := member_membersValue (.node data children) key
      simp only [PTree.children] at hmember
      rw [hmember]
      cases hfind : (PTree.node data children).find key with
      | none => rfl
      | some child => exact ih (hchildren _ ((tree_find_eq_some_iff hnodup).mp hfind)).2

theorem valueView_rootValue {dataType : DataType} (h : Snapshot dataType t) :
    valueView (rootValue t) = snapshotView t := by
  funext path
  cases path with
  | nil => rfl
  | cons name path =>
    rw [rootValue, valueView, snapshotView, member_membersValue]
    cases hfind : t.find name with
    | none => rfl
    | some plugin =>
      exact valueView_treeValue (h.tabular _ ((tree_find_eq_some_iff h.nodup).mp hfind))

end Written

section Updates
variable {plugin prev oldTree : PTree} {old : Option PTree} {name key v : Bytes} {path : Path}
  {dataType : DataType}

theorem attributePath_eq (h : name ≠ [] ∧ 124 ∉ name) : attributePath name = [name] := by
  rw [attributePath, List.splitOn_eq_singleton h.2]
  simp [h.1]

theorem mem_changedPairs_iff {entries : List (Bytes × PTree)} :
    (key, v) ∈ changedPairs old entries ↔
      ∃ child, (key, child) ∈ entries ∧ child.data = v ∧
        (old.bind fun tree => tree.dataAt (attributePath key)) ≠ some v := by
  simp only [changedPairs, List.mem_map, List.mem_filter, decide_eq_true_eq, Prod.mk.injEq,
    Prod.exists]
  constructor
  · rintro ⟨key', child, ⟨hmem, hnew⟩, rfl, rfl⟩
    exact ⟨child, hmem, rfl, hnew⟩
  · rintro ⟨child, hmem, rfl, hnew⟩
    exact ⟨key, child, ⟨hmem, hnew⟩, rfl, rfl⟩

theorem nodup_changedPairs {entries : List (Bytes × PTree)} (h : (entries.map Prod.fst).Nodup) :
    ((changedPairs old entries).map Prod.fst).Nodup := by
  rw [changedPairs, List.map_map]
  exact h.sublist (List.filter_sublist.map _)

theorem valueView_pairsValue {pairs : List (Bytes × Bytes)} (h : (pairs.map Prod.fst).Nodup) :
    valueView (pairsValue pairs) path = some v ↔ ∃ key, path = [key] ∧ (key, v) ∈ pairs := by
  have hnodup : ((pairs.map fun nvp => (nvp.1, Value.string nvp.2)).map Prod.fst).Nodup := by
    rwa [List.map_map]
  have hstring : ∀ (s : Bytes) (rest : Path),
      valueView (.string s) rest = some v ↔ rest = [] ∧ s = v := by
    intro s rest
    cases rest <;> simp [valueView]
  rw [pairsValue, valueView_object]
  constructor
  · rintro ⟨key, rest, rfl, m, hm, hv⟩
    obtain ⟨nvp, hmem, heq⟩ := List.mem_map.mp ((member_eq_some_iff hnodup).mp hm)
    obtain ⟨rfl, rfl⟩ := Prod.mk.inj heq
    obtain ⟨rfl, rfl⟩ := (hstring _ _).mp hv
    exact ⟨nvp.1, rfl, hmem⟩
  · rintro ⟨key, rfl, hmem⟩
    refine ⟨key, [], rfl, .string v, (member_eq_some_iff hnodup).mpr ?_, rfl⟩
    exact List.mem_map.mpr ⟨(key, v), hmem, rfl⟩

/-- The pairs of an update are those of the plugin that the old tree does not have. -/
theorem pairs_carry_iff (h : Tabular 1 plugin) :
    valueView (pairsValue (changedPairs old plugin.children)) path = some v ↔
      leafAt plugin path = some v ∧ (old.bind fun tree => tree.dataAt path) ≠ some v := by
  obtain ⟨hne, hnodup, hchildren⟩ := h
  rw [valueView_pairsValue (nodup_changedPairs hnodup)]
  constructor
  · rintro ⟨key, rfl, hmem⟩
    obtain ⟨child, hchild, rfl, hnew⟩ := mem_changedPairs_iff.mp hmem
    obtain ⟨hkey, hleaf⟩ := hchildren _ hchild
    rw [attributePath_eq hkey] at hnew
    refine ⟨?_, hnew⟩
    rw [leafAt, (tree_find_eq_some_iff hnodup).mpr hchild]
    exact if_pos hleaf
  · rintro ⟨hplugin, hnew⟩
    cases path with
    | nil => simp [leafAt, hne] at hplugin
    | cons key rest =>
      rw [leafAt, Option.bind_eq_some_iff] at hplugin
      obtain ⟨child, hfind, hleaf⟩ := hplugin
      have hchild := (tree_find_eq_some_iff hnodup).mp hfind
      have hkey := (hchildren _ hchild).1
      have hnothing : child.children = [] := (hchildren _ hchild).2
      cases rest with
      | nil =>
        rw [leafAt, if_pos hnothing] at hleaf
        refine ⟨key, rfl, mem_changedPairs_iff.mpr ⟨child, hchild, Option.some.inj hleaf, ?_⟩⟩
        rwa [attributePath_eq hkey]
      | cons key' rest => simp [leafAt, PTree.find, hnothing] at hleaf

theorem mem_changedConfigs_iff {entries : List (Bytes × PTree)} {pairs : List (Bytes × Bytes)} :
    (key, pairs) ∈ changedConfigs old entries ↔ pairs ≠ [] ∧ ∃ child, (key, child) ∈ entries ∧
      pairs = changedPairs (old.bind fun tree => tree.getChild (attributePath key))
        child.children := by
  simp only [changedConfigs, List.mem_filter, List.mem_map, decide_eq_true_eq, Prod.mk.injEq,
    Prod.exists]
  constructor
  · rintro ⟨⟨key', child, hmem, rfl, rfl⟩, hne⟩
    exact ⟨hne, child, hmem, rfl⟩
  · rintro ⟨hne, child, hmem, rfl⟩
    exact ⟨⟨key, child, hmem, rfl, rfl⟩, hne⟩

theorem configs_carry_iff (h : Tabular 2 plugin) :
    valueView (.object ((changedConfigs old plugin.children).map fun cfg =>
        (cfg.1, pairsValue cfg.2))) path = some v ↔
      leafAt plugin path = some v ∧ (old.bind fun tree => tree.dataAt path) ≠ some v := by
  obtain ⟨hne, hnodup, hchildren⟩ := h
  have hnames : (((changedConfigs old plugin.children).map fun cfg =>
      (cfg.1, pairsValue cfg.2)).map Prod.fst).Nodup := by
    rw [List.map_map, changedConfigs]
    refine hnodup.sublist ?_
    have hsub := (List.filter_sublist (p := fun cfg : Bytes × List (Bytes × Bytes) => cfg.2 ≠ [])
      (l := plugin.children.map fun cfg => (cfg.1, changedPairs
        (old.bind fun tree => tree.getChild (attributePath cfg.1)) cfg.2.children))).map Prod.fst
    rwa [List.map_map] at hsub
  have hold : ∀ cfg rest, ((old.bind fun tree => tree.getChild [cfg]).bind fun tree =>
      tree.dataAt rest) = old.bind fun tree => tree.dataAt (cfg :: rest) := by
    intro cfg rest
    cases old with
    | none => rfl
    | some tree =>
      simp only [Option.bind_some, PTree.dataAt, PTree.getChild_cons]
      cases tree.find cfg <;> rfl
  rw [valueView_object]
  constructor
  · rintro ⟨cfg, rest, rfl, m, hm, hv⟩
    obtain ⟨⟨cfg', pairs⟩, hmem, heq⟩ := List.mem_map.mp ((member_eq_some_iff hnames).mp hm)
    obtain ⟨rfl, rfl⟩ := Prod.mk.inj heq
    obtain ⟨-, child, hchild, rfl⟩ := mem_changedConfigs_iff.mp hmem
    obtain ⟨hcfg, htable⟩ := hchildren _ hchild
    rw [attributePath_eq hcfg, pairs_carry_iff htable, hold] at hv
    refine ⟨?_, hv.2⟩
    rw [leafAt, (tree_find_eq_some_iff hnodup).mpr hchild]
    exact hv.1
  · rintro ⟨hplugin, hnew⟩
    cases path with
    | nil => simp [leafAt, hne] at hplugin
    | cons cfg rest =>
      rw [leafAt, Option.bind_eq_some_iff] at hplugin
      obtain ⟨child, hfind, hleaf⟩ := hplugin
      have hchild := (tree_find_eq_some_iff hnodup).mp hfind
      obtain ⟨hcfg, htable⟩ := hchildren _ hchild
      obtain ⟨pairs, hpairs⟩ : ∃ pairs, pairs =
          changedPairs (old.bind fun tree => tree.getChild [cfg]) child.children := ⟨_, rfl⟩
      have hview : valueView (pairsValue pairs) rest = some v := by
        rw [hpairs]
        exact (pairs_carry_iff htable).mpr ⟨hleaf, by rwa [hold]⟩
      have hne : pairs ≠ [] := by
        rintro rfl
        obtain ⟨key, rest, rfl, m, hm, -⟩ := valueView_object.mp hview
        simp [member] at hm
      refine ⟨cfg, rest, rfl, pairsValue pairs, (member_eq_some_iff hnames).mpr ?_, hview⟩
      refine List.mem_map.mpr ⟨(cfg, pairs), ?_, rfl⟩
      refine mem_changedConfigs_iff.mpr ⟨hne, child, hchild, ?_⟩
      rwa [attributePath_eq hcfg]

/-- The types whose snapshots the views show, in the order of their polls. -/
def viewTypes : List DataType := [.list, .config, .state]

/-- An update carries the values of the plugin that are not in the old tree at the same place. -/
theorem updateValue_carry_iff (htype : dataType ∈ viewTypes) (hname : name ≠ [] ∧ 124 ∉ name)
    (h : Tabular dataType.depth plugin) :
    valueView (updateValue dataType name plugin oldTree) path = some v ↔
      leafAt plugin path = some v ∧ oldTree.dataAt (name :: path) ≠ some v := by
  have hold : ((oldTree.getChild [name]).bind fun tree => tree.dataAt path) =
      oldTree.dataAt (name :: path) := by
    simp only [PTree.dataAt, PTree.getChild_cons]
    cases oldTree.find name <;> rfl
  rw [← hold]
  cases dataType with
  | list => simpa only [updateValue, attributePath_eq hname] using pairs_carry_iff h
  | state => simpa only [updateValue, attributePath_eq hname] using pairs_carry_iff h
  | status => exact absurd htype (by decide)
  | config => simpa only [updateValue, attributePath_eq hname] using configs_carry_iff h

end Updates

section Lookup
variable {t plugin prev : PTree} {name v : Bytes} {path : Path} {depth : ℕ}

theorem length_of_leafAt (h : Tabular depth t) (hleaf : leafAt t path = some v) :
    path.length = depth := by
  induction depth generalizing t path with
  | zero =>
    have hnothing : t.children = [] := h
    cases path with
    | nil => rfl
    | cons key path => simp [leafAt, PTree.find, hnothing] at hleaf
  | succ depth ih =>
    obtain ⟨hne, hnodup, hchildren⟩ := h
    cases path with
    | nil => simp [leafAt, hne] at hleaf
    | cons key path =>
      rw [leafAt, Option.bind_eq_some_iff] at hleaf
      obtain ⟨child, hfind, hleaf⟩ := hleaf
      have hchild := (tree_find_eq_some_iff hnodup).mp hfind
      rw [List.length_cons, ih (hchildren _ hchild).2 hleaf]

theorem dataAt_eq_leafAt (h : Tabular depth t) (hpath : path.length = depth) :
    t.dataAt path = leafAt t path := by
  induction depth generalizing t path with
  | zero =>
    obtain rfl := List.length_eq_zero_iff.mp hpath
    exact (if_pos h).symm
  | succ depth ih =>
    obtain ⟨-, hnodup, hchildren⟩ := h
    obtain ⟨key, rest, rfl⟩ := List.exists_cons_of_length_eq_add_one hpath
    rw [PTree.dataAt, PTree.getChild_cons, leafAt]
    cases hfind : t.find key with
    | none => rfl
    | some child =>
      have hchild := (tree_find_eq_some_iff hnodup).mp hfind
      exact ih (hchildren _ hchild).2 (by simpa using hpath)

/-- The text of a plugin is written from a tree with the plugin at the fragments of its name. -/
theorem getChild_pluginTree (name : Bytes) (h : plugin.children ≠ []) :
    (pluginTree name plugin).getChild (fragments name) = some plugin := by
  rw [pluginTree, if_neg (by simpa using h), PTree.getChild_change_self]

theorem pluginTree_injective (h : plugin.children ≠ []) (hprev : prev.children ≠ [])
    (heq : pluginTree name plugin = pluginTree name prev) : plugin = prev := by
  have hplugin := getChild_pluginTree name h
  rw [heq, getChild_pluginTree name hprev] at hplugin
  exact (Option.some.inj hplugin).symm

theorem splitOn_of_head {parts : Path} (h : name.splitOn 46 = name :: parts) : parts = [] := by
  by_contra hne
  obtain ⟨part, rest, rfl⟩ := List.exists_cons_of_ne_nil hne
  have hjoined : [46].intercalate (name.splitOn 46) = name := List.intercalate_splitOn 46
  rw [h, List.intercalate_cons_cons] at hjoined
  have hlength := congrArg List.length hjoined
  simp only [List.length_append, List.length_cons] at hlength
  omega

/-- A name is its own first fragment only when it is the only one. -/
theorem fragments_of_head {rest : Path} (h : fragments name = name :: rest) : rest = [] := by
  unfold fragments at h
  simp only at h
  split_ifs at h with hlast
  · have hsplit := List.dropLast_append_getLast? [] hlast
    rw [h, List.cons_append] at hsplit
    have hnil := splitOn_of_head hsplit.symm
    simp at hnil
  · exact splitOn_of_head h

theorem fragments_ne_nil (hname : name ≠ []) : fragments name ≠ [] := by
  intro h
  have hjoined : [46].intercalate (name.splitOn 46) = name := List.intercalate_splitOn 46
  unfold fragments at h
  simp only at h
  split_ifs at h with hlast
  · have hsplit := List.dropLast_append_getLast? [] hlast
    rw [h] at hsplit
    rw [← hsplit] at hjoined
    exact hname (by simpa using hjoined.symm)
  · exact List.splitOn_ne_nil _ _ h

/-- Looked up by its name, the plugin is found there, or nothing is. -/
theorem dataAt_pluginTree (h : plugin.children ≠ []) (hname : name ≠ [])
    (hdata : (pluginTree name plugin).dataAt (name :: path) = some v) :
    plugin.dataAt path = some v := by
  obtain ⟨first, rest, hfragments⟩ := List.exists_cons_of_ne_nil (fragments_ne_nil hname)
  rw [pluginTree, if_neg (by simpa using h), hfragments, PTree.dataAt, PTree.getChild_cons,
    PTree.find_change] at hdata
  by_cases hfirst : first = name
  · subst hfirst
    obtain rfl := fragments_of_head hfragments
    simpa [PTree.change, PTree.dataAt] using hdata
  · rw [if_neg hfirst] at hdata
    simp [PTree.find, PTree.empty, PTree.children] at hdata

end Lookup

end V2IHub.Command
