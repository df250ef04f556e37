import V2IHub.Core.PluginMonitor
import V2IHub.Foundation.Runs

/-! The tokens of a text for any separators, and what is left of them when the empty ones are
erased from the vector that the loop goes over. -/
namespace V2IHub.Core.StringUtils
open V2IHub.Foundation

def substr (str : Bytes) (pos count : BitVec 32) : Bytes := (str.drop pos.toNat).take count.toNat

/-- The loop of `tokenize`, whose positions are `unsigned int`s; nothing where it takes more
rounds than the fuel. -/
def tokenizeFrom (str sep : Bytes) : ℕ → BitVec 32 → BitVec 32 → Option (List Bytes)
  | 0, _, _ => none
  | fuel + 1, i, startPosition =>
    match str[i.toNat]? with
    | some c =>
      if c ∈ sep then
        (tokenizeFrom str sep fuel (i + 1) (i + 1)).map
          (substr str startPosition (i - startPosition) :: ·)
      else tokenizeFrom str sep fuel (i + 1) startPosition
    | none =>
      some (if i ≠ startPosition then [substr str startPosition (i - startPosition)] else [])

/-- The loop that erases: behind `begin()`, to which the iterator is set back, it goes on at the
second token, which is behind the end when there is one token or none. -/
def eraseEmpty : ℕ → ℕ → List Bytes → Option (List Bytes)
  | 0, _, _ => none
  | fuel + 1, itr, results =>
    match results[itr]? with
    | none => some results
    | some [] => eraseEmpty fuel 1 (results.eraseIdx itr)
    | some _ => eraseEmpty fuel (itr + 1) results

/-- `StringUtils::tokenize(str, sep, removeEmpty)` -/
def tokenizeAny (fuel : ℕ) (str sep : Bytes) (removeEmpty : Bool) : Option (List Bytes) := do
  let results ← tokenizeFrom str sep fuel 0 0
  if removeEmpty then eraseEmpty fuel 0 results else some results

section Split
variable {str sep : Bytes} {i startPosition : BitVec 32} {fuel : ℕ}

theorem substr_eq (h : startPosition.toNat ≤ i.toNat) :
    substr str startPosition (i - startPosition) =
      (str.drop startPosition.toNat).take (i.toNat - startPosition.toNat) := by
  rw [substr, BitVec.toNat_sub_of_le (BitVec.le_def.mpr h)]

/-- From a position on the loop cuts what is left, with the token that was begun before it. -/
theorem tokenizeFrom_of_some {results : List Bytes} (hlen : str.length < 2 ^ 32)
    (hstart : startPosition.toNat ≤ i.toNat) (hi : i.toNat ≤ str.length)
    (h : tokenizeFrom str sep fuel i startPosition = some results) :
    results = pieces (· ∈ sep)
      ((str.drop startPosition.toNat).take (i.toNat - startPosition.toNat))
      (str.drop i.toNat) := by
  induction fuel generalizing i startPosition results with
  | zero => simp [tokenizeFrom] at h
  | succ fuel ih =>
    rw [tokenizeFrom] at h
    rcases hi.lt_or_eq with hlt | heq
    · have hnext := toNat_next hlen hlt
      rw [List.getElem?_eq_getElem hlt] at h
      rw [List.drop_eq_getElem_cons hlt, pieces]
      by_cases hsep : str[i.toNat] ∈ sep
      · rw [if_pos hsep]
        simp only [hsep, if_true] at h
        obtain ⟨rest, hrest, rfl⟩ := Option.map_eq_some_iff.mp h
        rw [ih le_rfl (by omega) hrest, substr_eq hstart, hnext, Nat.sub_self, List.take_zero]
      · rw [if_neg hsep]
        simp only [hsep, if_false] at h
        rw [ih (by omega) (by omega) h, hnext, Nat.sub_add_comm hstart, List.take_add_one,
          List.getElem?_drop, Nat.add_sub_cancel' hstart, List.getElem?_eq_getElem hlt]
        rfl
    · rw [heq, List.getElem?_eq_none le_rfl] at h
      obtain rfl := Option.some.inj h
      rw [List.drop_of_length_le heq.ge, pieces, substr_eq hstart]
      by_cases hend : i = startPosition
      · rw [if_neg (not_not.mpr hend), if_pos (by rw [hend, Nat.sub_self, List.take_zero])]
      · have hne := mt BitVec.eq_of_toNat_eq hend
        have hpos : 0 < ((str.drop startPosition.toNat).take
            (i.toNat - startPosition.toNat)).length := by
          rw [List.length_take, List.length_drop]
          omega
        rw [if_pos hend, if_neg (List.ne_nil_of_length_pos hpos)]

theorem tokenizeFrom_isSome (hlen : str.length < 2 ^ 32) (hi : i.toNat ≤ str.length)
    (hfuel : str.length < i.toNat + fuel) :
    (tokenizeFrom str sep fuel i startPosition).isSome := by
  induction fuel generalizing i startPosition with
  | zero => omega
  | succ fuel ih =>
    rw [tokenizeFrom]
    rcases hi.lt_or_eq with hlt | heq
    · have hnext := toNat_next hlen hlt
      rw [List.getElem?_eq_getElem hlt]
      by_cases hsep : str[i.toNat] ∈ sep
      · simpa [hsep] using @ih (i + 1) (i + 1) (by omega) (by omega)
      · simpa [hsep] using @ih (i + 1) startPosition (by omega) (by omega)
    · simp [heq]

/-- The position never reaches a length that it cannot hold. -/
theorem tokenizeFrom_diverges (hlen : 2 ^ 32 ≤ str.length) :
    tokenizeFrom str sep fuel i startPosition = none := by
  induction fuel generalizing i startPosition with
  | zero => rfl
  | succ fuel ih =>
    have hlt : i.toNat < str.length := i.isLt.trans_le hlen
    rw [tokenizeFrom, List.getElem?_eq_getElem hlt]
    simp [ih]

end Split

section Erase
variable {results left : List Bytes} {fuel itr : ℕ}

theorem filter_eraseIdx (h : results[itr]? = some []) :
    (results.eraseIdx itr).filter (· ≠ []) = results.filter (· ≠ []) := by
  obtain ⟨hlt, hget⟩ := List.getElem?_eq_some_iff.mp h
  conv_rhs => rw [← List.take_append_drop itr results, List.drop_eq_getElem_cons hlt, hget]
  rw [List.eraseIdx_eq_take_drop_succ, List.filter_append, List.filter_append]
  simp

/-- The loop behind the first token leaves it, and no empty one after it. -/
theorem eraseEmpty_of_some (hitr : 1 ≤ itr) (hseen : ∀ t ∈ (results.take itr).drop 1, t ≠ [])
    (h : eraseEmpty fuel itr results = some left) :
    left = results.take 1 ++ (results.drop 1).filter (· ≠ []) := by
  induction fuel generalizing itr results with
  | zero => simp [eraseEmpty] at h
  | succ fuel ih =>
    rw [eraseEmpty] at h
    cases hget : results[itr]? with
    | none =>
      have hlen := List.getElem?_eq_none_iff.mp hget
      rw [hget] at h
      obtain rfl := Option.some.inj h
      rw [List.take_of_length_le hlen] at hseen
      rw [List.filter_eq_self.mpr (by simpa using hseen), List.take_append_drop]
    | some t =>
      obtain ⟨hlt, -⟩ := List.getElem?_eq_some_iff.mp hget
      rw [hget] at h
      cases t with
      | nil =>
        obtain ⟨first, rest, rfl⟩ := List.exists_cons_of_length_pos (by omega : 0 < results.length)
        obtain ⟨j, rfl⟩ : ∃ j, itr = j + 1 := ⟨itr - 1, by omega⟩
        have hj : rest[j]? = some [] := by simpa using hget
        have hleft := ih le_rfl (by simp) h
        rw [List.eraseIdx_cons_succ, List.take_succ_cons, List.drop_succ_cons, List.take_zero,
          List.drop_zero, filter_eraseIdx hj] at hleft
        exact hleft
      | cons b t =>
        refine ih (by omega) (fun t' ht' => ?_) h
        rw [List.take_add_one, hget, List.drop_append_of_le_length (by
          rw [List.length_take]; omega)] at ht'
        rcases List.mem_append.mp ht' with ht' | ht'
        · exact hseen t' ht'
        · simp [List.mem_singleton.mp ht']

/-- A pass between two removals takes at most as many rounds as there are tokens. -/
theorem eraseEmpty_isSome (hpos : 0 < fuel)
    (hfuel : results.length * (results.length + 1) + (results.length + 1 - itr) ≤ fuel) :
    (eraseEmpty fuel itr results).isSome := by
  induction fuel generalizing itr results with
  | zero => omega
  | succ fuel ih =>
    rw [eraseEmpty]
    cases hget : results[itr]? with
    | none => rfl
    | some t =>
      obtain ⟨hlt, -⟩ := List.getElem?_eq_some_iff.mp hget
      obtain ⟨n, hn⟩ : ∃ n, results.length = n + 1 := ⟨results.length - 1, by omega⟩
      have hsq : (n + 1) * (n + 1 + 1) = n * (n + 1) + 2 * (n + 1) := by ring
      rw [hn] at hfuel
      cases t with
      | nil =>
        refine ih (by omega) ?_
        rw [List.length_eraseIdx_of_lt hlt, hn, Nat.add_sub_cancel]
        omega
      | cons b t => exact ih (by omega) (by rw [hn]; omega)

/-- The first of two empty tokens in front stays: when it is the first token, the scan is
already behind it. -/
theorem eraseEmpty_zero_of_some (h : eraseEmpty fuel 0 results = some left) :
    left = (if results.take 2 = [[], []] then [[]] else []) ++ results.filter (· ≠ []) := by
  cases fuel with
  | zero => simp [eraseEmpty] at h
  | succ fuel =>
    rw [eraseEmpty] at h
    cases results with
    | nil => simpa using (Option.some.inj h).symm
    | cons t rest =>
      cases t with
      | nil =>
        rw [eraseEmpty_of_some le_rfl (by cases rest <;> simp) h]
        cases rest with
        | nil => simp
        | cons t rest => by_cases ht : t = [] <;> simp [ht]
      | cons b t =>
        rw [eraseEmpty_of_some le_rfl (by simp) h]
        simp

end Erase

section Tokenize
variable {str sep : Bytes} {fuel : ℕ} {tokens : List Bytes}

theorem tokenizeFrom_zero_of_some (h : tokenizeFrom str sep fuel 0 0 = some tokens) :
    str.length < 2 ^ 32 ∧ tokens = pieces (· ∈ sep) [] str := by
  have hlen : str.length < 2 ^ 32 := by
    by_contra hlong
    rw [tokenizeFrom_diverges (not_lt.mp hlong)] at h
    simp at h
  exact ⟨hlen, tokenizeFrom_of_some hlen le_rfl (Nat.zero_le _) h⟩

/-- The runs of the text, behind an empty token when it begins with two separators. -/
theorem tokenizeAny_of_some (h : tokenizeAny fuel str sep true = some tokens) :
    str.length < 2 ^ 32 ∧ ∃ runs, Runs (· ∈ sep) str runs ∧
      tokens = (if (pieces (· ∈ sep) [] str).take 2 = [[], []] then [[]] else []) ++ runs := by
  obtain ⟨results, hresults, hleft⟩ := Option.bind_eq_some_iff.mp h
  obtain ⟨hlen, rfl⟩ := tokenizeFrom_zero_of_some hresults
  rw [if_pos rfl] at hleft
  exact ⟨hlen, _, runs_iff.mpr rfl, eraseEmpty_zero_of_some hleft⟩

theorem exists_tokenizeAny (hlen : str.length < 2 ^ 32) :
    ∃ fuel tokens, tokenizeAny fuel str sep true = some tokens := by
  let count := (pieces (· ∈ sep) [] str).length
  let fuel := count * (count + 1) + count + 2 + str.length
  obtain ⟨results, hresults⟩ := Option.isSome_iff_exists.mp
    (@tokenizeFrom_isSome str sep 0 0 fuel hlen (Nat.zero_le _) (by simp [fuel]))
  have hpieces := (tokenizeFrom_zero_of_some hresults).2
  obtain ⟨tokens, htokens⟩ := Option.isSome_iff_exists.mp
    (@eraseEmpty_isSome results fuel 0 (by omega) (by simp only [hpieces, fuel, count]; omega))
  refine ⟨fuel, tokens, Option.bind_eq_some_iff.mpr ⟨results, hresults, ?_⟩⟩
  rw [if_pos rfl]
  exact htokens

/-- The tokens without the empty ones are the runs of the text exactly when an `unsigned int`
holds its length and it does not begin with two separators. -/
theorem tokenize_runs_iff (str sep : Bytes) :
    (∃ fuel tokens, tokenizeAny fuel str sep true = some tokens ∧ Runs (· ∈ sep) str tokens) ↔
      str.length < 2 ^ 32 ∧ ¬ BeginsTwice (· ∈ sep) str := by
  constructor
  · rintro ⟨fuel, tokens, htokens, hruns⟩
    obtain ⟨hlen, runs, -, rfl⟩ := tokenizeAny_of_some htokens
    refine ⟨hlen, fun htwice => hruns.ne_nil (r := []) ?_ rfl⟩
    rw [if_pos (take_two_pieces.mpr htwice)]
    exact List.mem_append_left _ List.mem_cons_self
  · rintro ⟨hlen, htwice⟩
    obtain ⟨fuel, tokens, htokens⟩ := @exists_tokenizeAny str sep hlen
    obtain ⟨-, runs, hruns, heq⟩ := tokenizeAny_of_some htokens
    rw [if_neg (mt take_two_pieces.mp htwice), List.nil_append] at heq
    exact ⟨fuel, tokens, htokens, heq ▸ hruns⟩

/-- One empty token is left of two separators. -/
theorem tokenize_two_slashes :
    tokenizeAny 9 [47, 47] [47] true = some [[]] ∧ ¬ Runs (· ∈ ([47] : Bytes)) [47, 47] [[]] :=
  ⟨by decide, fun h => h.ne_nil List.mem_cons_self rfl⟩

end Tokenize

section Slash

/-- The tokens of a name for the separator of the plugin monitor. -/
theorem splitTokens_eq_pieces (token str : Bytes) :
    splitTokens token str = pieces (· = 47) token str := by
  induction str generalizing token with
  | nil => rfl
  | cons b rest ih => rw [splitTokens, pieces, ih, ih]

theorem dropEmpty_eq_of_some {results left : List Bytes} {fuel itr : ℕ}
    (h : eraseEmpty fuel itr results = some left) : dropEmpty fuel itr results = left := by
  induction fuel generalizing itr results with
  | zero => simp [eraseEmpty] at h
  | succ fuel ih =>
    rw [eraseEmpty] at h
    rw [dropEmpty]
    cases hget : results[itr]? with
    | none =>
      rw [hget] at h
      exact Option.some.inj h
    | some t =>
      rw [hget] at h
      cases t with
      | nil => exact ih h
      | cons b t => exact ih h

/-- The rounds that the removal of the plugin monitor has are enough. -/
theorem tokenize_eq_erased (str : Bytes) :
    tokenize str =
      (if (splitTokens [] str).take 2 = [[], []] then [[]] else []) ++
        (splitTokens [] str).filter (· ≠ []) := by
  obtain ⟨left, hleft⟩ := Option.isSome_iff_exists.mp
    (@eraseEmpty_isSome (splitTokens [] str)
      (((splitTokens [] str).length + 1) * ((splitTokens [] str).length + 1)) 0
      (by positivity) (by rw [Nat.sub_zero, ← Nat.succ_mul]))
  rw [← eraseEmpty_zero_of_some hleft]
  exact dropEmpty_eq_of_some hleft

end Slash

end V2IHub.Core.StringUtils
