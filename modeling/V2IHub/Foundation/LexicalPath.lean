import V2IHub.Foundation.Bytes

/-! Paths resolved by their text alone. -/
namespace V2IHub.Foundation.LexicalPath

def slash : UInt8 := 47

/-- The text between the slashes, with an empty component wherever two of them meet. -/
def components (path : Bytes) : List Bytes := path.splitOn slash

/-- One component followed from a directory, which is given by the components below the root. -/
def follow (directory : List Bytes) (c : Bytes) : List Bytes :=
  if c = [] ∨ c = cstr "." then directory
  else if c = cstr ".." then directory.dropLast
  else directory ++ [c]

def resolve (directory : List Bytes) (cs : List Bytes) : List Bytes := cs.foldl follow directory

def normalize (path : Bytes) : List Bytes := resolve [] (components path)

/-- How far below the start some components lead that begin at depth `k`; nothing when they leave
it on the way. -/
def descend (k : ℕ) : List Bytes → Option ℕ
  | [] => some k
  | c :: cs =>
    if c = [] ∨ c = cstr "." then descend k cs
    else if c = cstr ".." then if k = 0 then none else descend (k - 1) cs
    else descend (k + 1) cs

section Components
variable {c path : Bytes} {cs : List Bytes}

/-- A path made of components, each behind a slash. -/
theorem components_flatMap (c : Bytes) (hc : slash ∉ c) (hcs : ∀ d ∈ cs, slash ∉ d) :
    components (c ++ cs.flatMap (slash :: ·)) = c :: cs := by
  induction cs generalizing c with
  | nil => rw [List.flatMap_nil, List.append_nil, components, List.splitOn_eq_singleton hc]
  | cons d cs ih =>
    have htail := ih _ (hcs d (by simp)) fun e he => hcs e (by simp [he])
    rw [components] at htail
    rw [List.flatMap_cons, List.cons_append, components,
      List.splitOn_append_cons_self_of_not_mem hc, htail]

/-- No component has a slash. -/
theorem slash_notMem_components (h : c ∈ components path) : slash ∉ c := by
  induction path generalizing c with
  | nil =>
    obtain rfl : c = [] := by simpa [components] using h
    simp
  | cons b rest ih =>
    rw [components, List.splitOn_cons_eq_if_modifyHead] at h
    split_ifs at h with hb
    · rcases List.mem_cons.mp h with rfl | h
      · simp
      · exact ih h
    · obtain ⟨d, cs, hcs⟩ := List.exists_cons_of_ne_nil (List.splitOn_ne_nil slash rest)
      rw [components, hcs] at ih
      rw [hcs, List.modifyHead_cons] at h
      rcases List.mem_cons.mp h with rfl | h
      · have hne : b ≠ slash := by simpa using hb
        simpa [Ne.symm hne] using ih (by simp)
      · exact ih (by simp [h])

end Components

section Resolve
variable {directory base below cs ds : List Bytes} {c name : Bytes} {k n : ℕ}

theorem resolve_append (directory cs ds : List Bytes) :
    resolve directory (cs ++ ds) = resolve (resolve directory cs) ds := List.foldl_append

theorem follow_skip (h : c = [] ∨ c = cstr ".") : follow directory c = directory := if_pos h

/-- Components that lead nowhere may be left out. -/
theorem resolve_filter {p : Bytes → Bool} (h : ∀ c, p c = false → c = [] ∨ c = cstr ".")
    (directory cs : List Bytes) : resolve directory (cs.filter p) = resolve directory cs := by
  induction cs generalizing directory with
  | nil => rfl
  | cons c cs ih =>
    cases hp : p c with
    | true => rw [List.filter_cons_of_pos hp, resolve, List.foldl_cons]; exact ih _
    | false =>
      have hskip : resolve directory (c :: cs) = resolve (follow directory c) cs := rfl
      rw [List.filter_cons_of_neg (by simp [hp]), ih, hskip, follow_skip (h c hp)]

/-- Components that stay below a directory lead as far below it as they descend. -/
theorem resolve_of_descend (base below : List Bytes) (h : descend below.length cs = some n) :
    ∃ below', below'.length = n ∧ resolve (base ++ below) cs = base ++ below' := by
  induction cs generalizing below with
  | nil => exact ⟨below, Option.some.inj h, rfl⟩
  | cons c cs ih =>
    rw [descend] at h
    rw [resolve, List.foldl_cons, follow]
    split_ifs at h ⊢ with hskip hup hnil
    · exact ih _ h
    · rw [List.dropLast_append_of_ne_nil (mt List.length_eq_zero_iff.mpr hnil)]
      exact ih _ (by rwa [List.length_dropLast])
    · rw [List.append_assoc]
      exact ih _ (by rwa [List.length_append])

theorem notMem_resolve (hdir : name ∉ directory) (hcs : name ∉ cs) :
    name ∉ resolve directory cs := by
  induction cs generalizing directory with
  | nil => exact hdir
  | cons c cs ih =>
    simp only [List.mem_cons, not_or] at hcs
    refine @ih (follow directory c) ?_ hcs.2
    unfold follow
    split_ifs
    · exact hdir
    · exact fun h => hdir (List.mem_of_mem_dropLast h)
    · simp [hdir, hcs.1]

/-- Components that leave a directory do not come back to it, unless they name it. -/
theorem notMem_resolve_of_descend (below : List Bytes) (hdir : name ∉ below) (hcs : name ∉ cs)
    (h : descend below.length cs = none) : name ∉ resolve (name :: below) cs := by
  induction cs generalizing below with
  | nil => simp [descend] at h
  | cons c cs ih =>
    simp only [List.mem_cons, not_or] at hcs
    rw [descend] at h
    rw [resolve, List.foldl_cons, follow]
    split_ifs at h ⊢ with hskip hup hnil
    · exact ih _ hdir hcs.2 h
    · rw [List.length_eq_zero_iff.mp hnil]
      exact notMem_resolve (by simp) hcs.2
    · rw [List.dropLast_cons_of_ne_nil (mt List.length_eq_zero_iff.mpr hnil)]
      exact ih _ (fun hmem => hdir (List.mem_of_mem_dropLast hmem)) hcs.2
        (by rwa [List.length_dropLast])
    · exact ih (below ++ [c]) (by simp [hdir, hcs.1]) hcs.2 (by rwa [List.length_append])

end Resolve

end V2IHub.Foundation.LexicalPath
