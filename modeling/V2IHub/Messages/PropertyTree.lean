import V2IHub.Foundation.Bytes

/-! The property tree behind a message, and the container that counts its versions. -/
namespace V2IHub.Messages
open Foundation

/-- A `boost::property_tree::ptree`. -/
inductive PTree where
  | node (data : Bytes) (children : List (Bytes × PTree))

/-- The fragments of a path between its separators. -/
abbrev Path := List Bytes

namespace PTree

def empty : PTree := node [] []

def data : PTree → Bytes
  | node data _ => data

def children : PTree → List (Bytes × PTree)
  | node _ children => children

/-- The first child with that key. -/
def find (t : PTree) (key : Bytes) : Option PTree :=
  (t.children.find? fun c => c.1 = key).map Prod.snd

def pushBack (t : PTree) (key : Bytes) (child : PTree) : PTree :=
  node t.data (t.children ++ [(key, child)])

/-- `erase(key)`, which takes no path. -/
def erase (t : PTree) (key : Bytes) : PTree :=
  node t.data (t.children.filter fun c => c.1 ≠ key)

/-- `get_child_optional` -/
def getChild : PTree → Path → Option PTree
  | t, [] => some t
  | t, key :: path =>
    match t.find key with
    | none => none
    | some child => child.getChild path

/-- The first child with that key is changed. -/
def changeFirst (key : Bytes) (f : PTree → PTree) : List (Bytes × PTree) → List (Bytes × PTree)
  | [] => []
  | c :: children => if c.1 = key then (c.1, f c.2) :: children else c :: changeFirst key f children

/-- Goes down the path, adds what is missing of it, and changes the node at its end. -/
def change (f : PTree → PTree) : Path → PTree → PTree
  | [], t => f t
  | key :: path, t =>
    match t.find key with
    | none => t.pushBack key (change f path empty)
    | some _ => node t.data (changeFirst key (change f path) t.children)

def putValue (value : Bytes) (t : PTree) : PTree := node value t.children

def put (t : PTree) (path : Path) (value : Bytes) : PTree := change (putValue value) path t

/-- The value at a path. -/
def dataAt (t : PTree) (path : Path) : Option Bytes := (t.getChild path).map data

section Lemmas
variable {f : PTree → PTree} {t child : PTree} {key key' : Bytes} {path path' : Path}

theorem find_changeFirst (children : List (Bytes × PTree)) :
    ((changeFirst key f children).find? fun c => c.1 = key').map Prod.snd =
      ((children.find? fun c => c.1 = key').map Prod.snd).map fun c =>
        if key = key' then f c else c := by
  induction children with
  | nil => rfl
  | cons c children ih =>
    rw [changeFirst]
    by_cases hc : c.1 = key
    · rw [if_pos hc, List.find?_cons, List.find?_cons]
      by_cases hk : c.1 = key'
      · have hkey : key = key' := hc.symm.trans hk
        simp [hk, hkey]
      · have hne : ¬ key = key' := fun h => hk (hc.trans h)
        simp [hk, hne, Function.comp_def]
    · rw [if_neg hc, List.find?_cons, List.find?_cons]
      by_cases hk : c.1 = key'
      · have hne : ¬ key = key' := fun h => hc (hk.trans h.symm)
        simp [hk, hne]
      · simp only [hk, decide_false]
        exact ih

theorem find_pushBack (h : t.find key = none) :
    (t.pushBack key child).find key' = if key = key' then some child else t.find key' := by
  simp only [find, pushBack, children, List.find?_append, List.find?_singleton, decide_eq_true_eq]
  by_cases hk : key = key'
  · subst hk
    have hnone : t.children.find? (fun c => decide (c.1 = key)) = none := by
      simpa [find] using h
    simp only [children] at hnone
    simp [hnone]
  · simp [hk]

/-- What `find` sees of a changed tree. -/
theorem find_change (f : PTree → PTree) (key key' : Bytes) (path : Path) (t : PTree) :
    (change f (key :: path) t).find key' =
      if key = key' then some (change f path ((t.find key).getD empty)) else t.find key' := by
  rw [change]
  cases h : t.find key with
  | none => simpa using find_pushBack h
  | some child =>
    change ((changeFirst key (change f path) t.children).find? fun c => c.1 = key').map Prod.snd = _
    rw [find_changeFirst, ← find]
    split_ifs with hk
    · rw [← hk, h]
      rfl
    · simp [find, Function.comp_def]

theorem getChild_cons (t : PTree) (key : Bytes) (path : Path) :
    t.getChild (key :: path) = (t.find key).bind fun child => child.getChild path := by
  rw [getChild]
  cases t.find key <;> rfl

/-- The changed node is there. -/
theorem getChild_change_self (f : PTree → PTree) (path : Path) (t : PTree) :
    (change f path t).getChild path = some (f ((t.getChild path).getD empty)) := by
  induction path generalizing t with
  | nil => rfl
  | cons key path ih =>
    rw [getChild_cons, find_change, if_pos rfl, Option.bind_some, ih, getChild_cons]
    cases t.find key with
    | none =>
      cases path with
      | nil => rfl
      | cons key' path => rfl
    | some child => rfl

/-- A change at one path keeps the value of every other node. -/
theorem dataAt_change_of_some {value : Bytes} (hne : path ≠ path') (h : t.dataAt path' = some value)
    (hf : ∀ u, (f u).children = u.children) :
    (change f path t).dataAt path' = some value := by
  induction path generalizing t path' with
  | nil =>
    cases path' with
    | nil => exact absurd rfl hne
    | cons key' path' =>
      rw [dataAt, getChild_cons] at h ⊢
      rw [change, find, hf]
      exact h
  | cons key path ih =>
    cases path' with
    | nil =>
      rw [dataAt, getChild, Option.map_some] at h ⊢
      rw [change]
      cases t.find key <;> exact h
    | cons key' path' =>
      rw [dataAt, getChild_cons] at h ⊢
      rw [find_change]
      split_ifs with hk
      · subst hk
        cases hfind : t.find key with
        | none => simp [hfind] at h
        | some child =>
          rw [hfind] at h
          exact ih (fun hp => hne (hp ▸ rfl)) h
      · exact h

theorem getChild_empty (hpath : path ≠ []) : empty.getChild path = none := by
  cases path with
  | nil => exact absurd rfl hpath
  | cons key path => rfl

/-- A change at one path leaves every node alone that is neither above nor below it. -/
theorem getChild_change_of_not_prefix (h : ¬ path <+: path') (h' : ¬ path' <+: path) :
    (change f path t).getChild path' = t.getChild path' := by
  induction path generalizing t path' with
  | nil => exact absurd (List.nil_prefix) h
  | cons key path ih =>
    cases path' with
    | nil => exact absurd (List.nil_prefix) h'
    | cons key' path' =>
      rw [getChild_cons, getChild_cons, find_change]
      split_ifs with hk
      · subst hk
        rw [List.cons_prefix_cons, not_and] at h h'
        have hne : path' ≠ [] := fun hp => h' rfl (hp ▸ List.nil_prefix)
        rw [Option.bind_some, ih (h rfl) (h' rfl)]
        cases t.find key with
        | none => exact getChild_empty hne
        | some child => rfl
      · rfl

theorem dataAt_put_self (t : PTree) (path : Path) (value : Bytes) :
    (t.put path value).dataAt path = some value := by
  rw [dataAt, put, getChild_change_self]
  rfl

theorem dataAt_put_of_some {old value : Bytes} (hne : path ≠ path') (h : t.dataAt path' = some old) :
    (t.put path value).dataAt path' = some old :=
  dataAt_change_of_some hne h fun _ => rfl

end Lemmas
end PTree

/-- `basic_attribute_container` -/
structure Container where
  tree : PTree
  storage_version : ℤ
  version_pos : 0 < storage_version

namespace Container

def new : Container := ⟨.empty, 1, by decide⟩

def store (c : Container) (path : Path) (data : Bytes) : Container where
  tree := c.tree.put path data
  storage_version := c.storage_version + 1
  version_pos := by
    have h := c.version_pos
    omega

/-- The reference of `get_storage().get_tree()` is written through. -/
def setTree (c : Container) (tree : PTree) : Container := { c with tree := tree }

/-- A value that is missing is stored, and this does not count as a new version. -/
def retrieve (c : Container) (path : Path) (default_value : Bytes) : Bytes × Container :=
  match c.tree.dataAt path with
  | none => (default_value, c.setTree (c.tree.put path default_value))
  | some data => (data, c)

/-- `load`, with the tree that was read. -/
def loaded (c : Container) (tree : PTree) : Container where
  tree := tree
  storage_version := c.storage_version + 1
  version_pos := by
    have h := c.version_pos
    omega

/-- After `retrieve` the value is in the tree. -/
theorem retrieve_dataAt (c : Container) (path : Path) (default_value : Bytes) :
    (c.retrieve path default_value).2.tree.dataAt path =
      some (c.retrieve path default_value).1 := by
  cases h : c.tree.dataAt path with
  | none => simp [retrieve, h, setTree, PTree.dataAt_put_self]
  | some data => simp [retrieve, h]

/-- A value that is there stays, whatever is retrieved. -/
theorem retrieve_dataAt_of_some {c : Container} {path : Path} {value : Bytes}
    (h : c.tree.dataAt path = some value) (path' : Path) (default_value : Bytes) :
    (c.retrieve path' default_value).2.tree.dataAt path = some value := by
  cases h' : c.tree.dataAt path' with
  | none =>
    have hne : path' ≠ path := by
      rintro rfl
      simp [h] at h'
    simp [retrieve, h', setTree, PTree.dataAt_put_of_some hne h]
  | some data => simpa [retrieve, h'] using h

theorem retrieve_version (c : Container) (path : Path) (default_value : Bytes) :
    (c.retrieve path default_value).2.storage_version = c.storage_version := by
  unfold retrieve
  cases c.tree.dataAt path <;> rfl

end Container
end V2IHub.Messages
