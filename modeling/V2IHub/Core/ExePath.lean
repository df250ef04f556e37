import V2IHub.Core.Tokens
import V2IHub.Foundation.LexicalPath

/-! Where the executables lie that the plugin monitor starts. -/
namespace V2IHub.Core
open V2IHub.Foundation LexicalPath

namespace StringUtils

/-- The components that a name has beside the empty ones. -/
def nonempty (str : Bytes) : List Bytes := (components str).filter (· ≠ [])

section Tokens
variable {str token : Bytes}

/-- A token that was begun before the rest of the text. -/
theorem splitTokens_filter (token str : Bytes) :
    (splitTokens token str).filter (· ≠ []) =
      ((components str).modifyHead (token ++ ·)).filter (· ≠ []) := by
  induction str generalizing token with
  | nil =>
    rw [splitTokens, components, List.splitOn_nil]
    split_ifs with h <;> simp [h]
  | cons b rest ih =>
    have hslash : (b == slash) = decide (b = 47) := rfl
    obtain ⟨c, cs, hcs⟩ := List.exists_cons_of_ne_nil (List.splitOn_ne_nil slash rest)
    rw [splitTokens, components, List.splitOn_cons_eq_if_modifyHead, hslash]
    simp only [components, hcs] at ih
    by_cases hb : b = 47
    · have hrest := ih []
      simp only [List.modifyHead_cons, List.nil_append] at hrest
      rw [if_pos hb, if_pos (by simpa using hb), hcs, List.modifyHead_cons, List.append_nil,
        List.filter_cons, hrest, List.filter_cons (x := token)]
    · rw [if_neg hb, if_neg (by simpa using hb), ih, hcs]
      simp

theorem splitTokens_nonempty (str : Bytes) :
    (splitTokens [] str).filter (· ≠ []) = nonempty str := by
  rw [splitTokens_filter, nonempty]
  cases components str <;> simp

/-- Two empty tokens in front are two separators in front. -/
theorem splitTokens_take_two (str : Bytes) :
    (splitTokens [] str).take 2 = [[], []] ↔ str.take 2 = [slash, slash] := by
  rw [splitTokens_eq_pieces, take_two_pieces]
  constructor
  · rintro ⟨a, b, rest, rfl, rfl, rfl⟩
    rfl
  · intro h
    obtain ⟨a, b, rest, rfl⟩ : ∃ a b rest, str = a :: b :: rest := by
      cases str with
      | nil => simp at h
      | cons a rest =>
        cases rest with
        | nil => simp at h
        | cons b rest => exact ⟨a, b, rest, rfl⟩
    simp only [List.take_succ_cons, List.take_zero, List.cons.injEq, and_true] at h
    exact ⟨a, b, rest, rfl, h.1, h.2⟩

/-- The tokens are the nonempty components, and an empty one before them when the text begins
with two separators: the scan does not look at the first token after a removal. -/
theorem tokenize_eq (str : Bytes) :
    tokenize str = (if str.take 2 = [slash, slash] then [[]] else []) ++ nonempty str := by
  rw [tokenize_eq_erased, splitTokens_nonempty]
  simp only [splitTokens_take_two]

/-- Followed as components, the tokens lead where the text leads. -/
theorem resolve_tokenize (directory : List Bytes) (str : Bytes) :
    resolve directory (tokenize str) = resolve directory (nonempty str) := by
  rw [tokenize_eq, resolve_append]
  split_ifs
  · rfl
  · rfl

theorem resolve_nonempty (directory : List Bytes) (str : Bytes) :
    resolve directory (nonempty str) = resolve directory (components str) :=
  resolve_filter (fun c hc => .inl (by simpa using hc)) directory (components str)

theorem slash_notMem_nonempty (h : token ∈ nonempty str) : slash ∉ token :=
  slash_notMem_components (List.mem_of_mem_filter h)

theorem slash_notMem_tokenize (h : token ∈ tokenize str) : slash ∉ token := by
  rw [tokenize_eq] at h
  rcases List.mem_append.mp h with h | h
  · split_ifs at h
    · simp [List.mem_singleton.mp h]
    · simp at h
  · exact slash_notMem_nonempty h

end Tokens
end StringUtils

namespace PluginMonitor
open StringUtils

/-- The check that the tokens of an executable pass. -/
def Accepted (tokens : List Bytes) : Prop := ¬ ((exeDepth tokens).1 < 1 ∨ (exeDepth tokens).2 = true)

instance (tokens : List Bytes) : Decidable (Accepted tokens) :=
  inferInstanceAs (Decidable (¬ _))

section Depth
variable {tokens : List Bytes} {k n : ℕ}

/-- One token of the loop that counts the depth. -/
def countToken (d : ℤ × Bool) (token : Bytes) : ℤ × Bool :=
  let depth := if token = cstr "." then d.1 else if token = cstr ".." then d.1 - 1 else d.1 + 1
  (depth, d.2 || depth < 0)

theorem exeDepth_eq (tokens : List Bytes) : exeDepth tokens = tokens.foldl countToken (0, false) :=
  rfl

theorem countTokens_flag {d : ℤ × Bool} (h : d.2 = true) :
    (tokens.foldl countToken d).2 = true := by
  induction tokens generalizing d with
  | nil => exact h
  | cons t tokens ih => exact ih (by simp [countToken, h])

/-- Without an empty token, the count is the depth of the components. -/
theorem countTokens_eq (ht : ∀ t ∈ tokens, t ≠ []) (k : ℕ) :
    (∀ n, descend k tokens = some n → tokens.foldl countToken ((k : ℤ), false) = (↑n, false)) ∧
      (descend k tokens = none → (tokens.foldl countToken ((k : ℤ), false)).2 = true) := by
  induction tokens generalizing k with
  | nil => simp [descend]
  | cons t tokens ih =>
    have htail : ∀ t ∈ tokens, t ≠ [] := fun t' ht' => ht t' (by simp [ht'])
    have hne : t ≠ [] := ht t (by simp)
    rw [descend, List.foldl_cons, countToken]
    simp only [hne, false_or]
    have hflag : ∀ j : ℕ, (false || decide ((j : ℤ) < 0)) = false := fun j => by simp
    split_ifs with hdot hup hzero
    · rw [hflag]
      exact ih htail k
    · subst hzero
      exact ⟨fun n h => by simp at h, fun _ => countTokens_flag (by simp)⟩
    · have hcast : (k : ℤ) - 1 = ((k - 1 : ℕ) : ℤ) := by omega
      rw [hcast, hflag]
      exact ih htail (k - 1)
    · have hcast : (k : ℤ) + 1 = ((k + 1 : ℕ) : ℤ) := by omega
      rw [hcast, hflag]
      exact ih htail (k + 1)

theorem countTokens_passes (ht : ∀ t ∈ tokens, t ≠ []) (k : ℕ) :
    ¬ ((tokens.foldl countToken ((k : ℤ), false)).1 < 1 ∨
      (tokens.foldl countToken ((k : ℤ), false)).2 = true) ↔
      ∃ n, descend k tokens = some (n + 1) := by
  obtain ⟨hsome, hnone⟩ := countTokens_eq ht k
  cases h : descend k tokens with
  | none => simp [hnone h]
  | some n =>
    rw [hsome n h]
    cases n <;> simp

theorem accepted_iff (ht : ∀ t ∈ tokens, t ≠ []) :
    Accepted tokens ↔ ∃ n, descend 0 tokens = some (n + 1) := countTokens_passes ht 0

/-- An empty token in front counts as a directory. -/
theorem accepted_cons_iff (ht : ∀ t ∈ tokens, t ≠ []) :
    Accepted ([] :: tokens) ↔ ∃ n, descend 1 tokens = some (n + 1) := countTokens_passes ht 1

end Depth

section Containment
variable {entry : InstalledPluginEntry} {path : Bytes}

theorem not_accepted_nil : ¬ Accepted [] := by decide

/-- What the monitor executes, and when. -/
theorem fullpath_eq_some_iff (entry : InstalledPluginEntry) :
    fullpath entry = some path ↔
    Accepted (tokenize entry.exeName) ∧ path =
      (tokenize entry.path ++ (tokenize entry.exeName).filter (· ≠ cstr ".")).flatMap
        (slash :: ·) := by
  have hslash : slash = 47 := rfl
  rw [fullpath, hslash]
  by_cases hnil : tokenize entry.exeName = []
  · simp [hnil, not_accepted_nil]
  · dsimp only
    rw [if_neg hnil]
    by_cases haccepted : Accepted (tokenize entry.exeName)
    · rw [if_neg haccepted]
      simp [haccepted, eq_comm]
    · rw [if_pos (not_not.mp haccepted)]
      simp [haccepted]

/-- The path leads from the directory of the plugin along the components of the executable. -/
theorem normalize_fullpath (h : fullpath entry = some path) :
    normalize path = resolve (normalize entry.path) (nonempty entry.exeName) := by
  obtain ⟨-, rfl⟩ := (fullpath_eq_some_iff _).mp h
  have hslash : ∀ t ∈ tokenize entry.path ++ (tokenize entry.exeName).filter (· ≠ cstr "."),
      slash ∉ t := by
    intro t ht
    rcases List.mem_append.mp ht with ht | ht
    · exact slash_notMem_tokenize ht
    · exact slash_notMem_tokenize (List.mem_of_mem_filter ht)
  have hcomponents := components_flatMap [] (by simp) hslash
  rw [List.nil_append] at hcomponents
  rw [LexicalPath.normalize, hcomponents, ← List.singleton_append,
    resolve_append, resolve_append, resolve_tokenize, resolve_nonempty,
    resolve_filter (fun c hc => .inr (by simpa using hc)), resolve_tokenize]
  rfl

/-- The executable lies strictly inside the directory of its plugin. -/
def Inside (entry : InstalledPluginEntry) (path : Bytes) : Prop :=
  ∃ below, below ≠ [] ∧ normalize path = normalize entry.path ++ below

theorem inside_of_descend {n : ℕ} (h : fullpath entry = some path)
    (hdescend : descend 0 (nonempty entry.exeName) = some (n + 1)) : Inside entry path := by
  obtain ⟨below, hlen, hresolve⟩ := resolve_of_descend (normalize entry.path) []
    hdescend
  rw [List.append_nil] at hresolve
  refine ⟨below, ?_, (normalize_fullpath h).trans hresolve⟩
  rintro rfl
  simp at hlen

theorem nonempty_ne_nil {str t : Bytes} (h : t ∈ nonempty str) : t ≠ [] := by
  simpa using List.of_mem_filter h

/-- A directory whose name is none of these. -/
theorem exists_foreign_name (tokens : List Bytes) :
    ∃ name, name ∉ tokens ∧ normalize (slash :: name) = [name] := by
  let name := List.replicate (tokens.flatten.length + 3) (97 : UInt8)
  have hlen : name.length = tokens.flatten.length + 3 := List.length_replicate
  have hslash : slash ∉ name := fun h => absurd (List.eq_of_mem_replicate h) (by decide)
  have hplain : follow [] name = [name] := by
    rw [follow, if_neg, if_neg, List.nil_append]
    · exact fun h => by simp [h, cstr] at hlen
    · rintro (h | h) <;> simp [h, cstr] at hlen
  refine ⟨name, fun hmem => ?_, ?_⟩
  · have hle := (List.sublist_flatten_of_mem hmem).length_le
    omega
  · have hcomponents := @components_flatMap [name] [] (by simp) (by simpa using hslash)
    rw [List.nil_append, List.flatMap_cons, List.flatMap_nil, List.append_nil] at hcomponents
    rw [LexicalPath.normalize, hcomponents]
    exact hplain

/-- Every executable that is started lies inside the directory of its plugin, whatever that is,
if its name does not begin with two slashes, or its components alone pass the check as they do
behind an empty one. -/
theorem fullpath_inside_iff (exeName : Bytes) :
    (∀ entry path, entry.exeName = exeName → fullpath entry = some path → Inside entry path) ↔
      (exeName.take 2 = [slash, slash] → Accepted ([] :: nonempty exeName) →
        Accepted (nonempty exeName)) := by
  have ht : ∀ t ∈ nonempty exeName, t ≠ [] := fun t h => nonempty_ne_nil h
  constructor
  · intro hinside hslashes haccepted
    obtain ⟨name, hname, hplain⟩ := exists_foreign_name (nonempty exeName)
    have hpasses : Accepted (tokenize exeName) := by rwa [tokenize_eq, if_pos hslashes]
    have hpath := (fullpath_eq_some_iff ⟨0, slash :: name, exeName, 0⟩).mpr ⟨hpasses, rfl⟩
    obtain ⟨below, hbelow, hresolve⟩ := hinside _ _ rfl hpath
    rw [normalize_fullpath hpath, hplain] at hresolve
    rw [accepted_iff ht]
    cases hdescend : descend 0 (nonempty exeName) with
    | none =>
      have hleft := notMem_resolve_of_descend [] (by simp) hname hdescend
      exact absurd (hresolve ▸ by simp) hleft
    | some n =>
      obtain ⟨below', hlen, hresolve'⟩ := resolve_of_descend [name] [] hdescend
      rw [List.append_nil, hresolve] at hresolve'
      obtain rfl := List.append_cancel_left hresolve'
      exact ⟨n - 1, congrArg some (by have := List.length_pos_iff.mpr hbelow; omega)⟩
  · rintro haccepted entry path rfl hpath
    have hpasses := ((fullpath_eq_some_iff _).mp hpath).1
    rw [tokenize_eq] at hpasses
    have halone : Accepted (nonempty entry.exeName) := by
      split_ifs at hpasses with hslashes
      · exact haccepted hslashes hpasses
      · exact hpasses
    obtain ⟨n, hn⟩ := (accepted_iff ht).mp halone
    exact inside_of_descend hpath hn

/-- The name of another plugin's executable behind two slashes. -/
def sampleEntry : InstalledPluginEntry :=
  ⟨1, cstr "/var/www/plugins/CSW", cstr "//../DMS/bin/DMS", 0⟩

theorem fullpath_sampleEntry_outside :
    fullpath sampleEntry = some (cstr "/var/www/plugins/CSW//../DMS/bin/DMS") ∧
      ¬ Inside sampleEntry (cstr "/var/www/plugins/CSW//../DMS/bin/DMS") := by
  constructor
  · decide +kernel
  · rintro ⟨below, -, hbelow⟩
    have hprefix : LexicalPath.normalize sampleEntry.path <+:
        LexicalPath.normalize (cstr "/var/www/plugins/CSW//../DMS/bin/DMS") := ⟨below, hbelow.symm⟩
    revert hprefix
    decide +kernel

end Containment
end PluginMonitor
end V2IHub.Core
