import Mathlib.Data.List.FinRange
import Mathlib.Tactic

/-! Arrays whose used slots come first. -/
namespace V2IHub.Foundation
variable {n : ℕ} {used : Fin n → Prop}

/-- No slot before a used one is free. -/
def Leading (used : Fin n → Prop) : Prop := ∀ i j, i ≤ j → used j → used i

instance decidableLeading [DecidablePred used] : Decidable (Leading used) :=
  inferInstanceAs (Decidable (∀ i j, i ≤ j → used j → used i))

theorem Leading.exists_count (h : Leading used) : ∃ k ≤ n, ∀ i : Fin n, used i ↔ i.val < k := by
  classical
  by_cases hfree : ∃ k, ∃ hk : k < n, ¬ used ⟨k, hk⟩
  · obtain ⟨hk, hnot⟩ := Nat.find_spec hfree
    refine ⟨Nat.find hfree, hk.le, fun i => ⟨fun hi => ?_, fun hi => ?_⟩⟩
    · by_contra hle
      exact hnot (h _ i (Fin.mk_le_of_le_val (not_lt.mp hle)) hi)
    · by_contra hi'
      exact Nat.find_min hfree hi ⟨i.isLt, hi'⟩
  · refine ⟨n, le_rfl, fun i => ⟨fun _ => i.isLt, fun _ => ?_⟩⟩
    by_contra hi
    exact hfree ⟨i, i.isLt, hi⟩

/-- A search for a free slot finds the one after the `k` used ones. -/
theorem find?_free [DecidablePred used] {k : ℕ} (hk : ∀ i : Fin n, used i ↔ i.val < k)
    (hlt : k < n) : (List.finRange n).find? (fun i => ¬ used i) = some ⟨k, hlt⟩ := by
  induction n generalizing k with
  | zero => omega
  | succ n ih =>
    rw [List.finRange_succ, List.find?_cons]
    cases k with
    | zero => simp [hk]
    | succ k =>
      have hfirst : used 0 := (hk 0).mpr (by simp)
      have hrest := ih (fun i : Fin n => show used i.succ ↔ i.val < k by rw [hk]; simp) (by omega)
      simp only [hfirst, not_true_eq_false, decide_false, List.find?_map, Function.comp_def,
        hrest, Option.map_some, Fin.succ_mk]

/-- A loop that writes only for the used slots. -/
theorem flatMap_used {α : Type*} [DecidablePred used] {k : ℕ}
    (hk : ∀ i : Fin n, used i ↔ i.val < k) (f : Fin n → List α) :
    ((List.finRange n).flatMap fun i => if used i then f i else []) =
      ((List.finRange n).take k).flatMap f := by
  induction n generalizing k with
  | zero => simp
  | succ n ih =>
    rw [List.finRange_succ, List.flatMap_cons, List.flatMap_map]
    cases k with
    | zero => simp [hk]
    | succ k =>
      have hfirst : used 0 := (hk 0).mpr (by simp)
      have hrest := ih (fun i : Fin n => show used i.succ ↔ i.val < k by rw [hk]; simp)
        fun i => f i.succ
      rw [if_pos hfirst, hrest, List.take_succ_cons, List.flatMap_cons, ← List.map_take,
        List.flatMap_map]

theorem mem_take_finRange {k : ℕ} {i : Fin n} : i ∈ (List.finRange n).take k ↔ i.val < k := by
  induction n generalizing k with
  | zero => exact i.elim0
  | succ n ih =>
    rw [List.finRange_succ]
    cases k with
    | zero => simp
    | succ k =>
      rw [List.take_succ_cons, ← List.map_take]
      refine Fin.cases (by simp) (fun i => ?_) i
      rw [List.mem_cons, List.mem_map]
      simp only [Fin.succ_ne_zero, false_or, Fin.succ_inj, exists_eq_right, ih, Fin.val_succ,
        Nat.succ_lt_succ_iff]

/-- The used slots before slot `k`. -/
def usedBefore (used : Fin n → Prop) [DecidablePred used] (k : ℕ) : List (Fin n) :=
  ((List.finRange n).take k).filter used

section
variable [DecidablePred used]

@[simp] theorem usedBefore_zero : usedBefore used 0 = [] := rfl

theorem usedBefore_succ (i : Fin n) :
    usedBefore used (i + 1) = usedBefore used i ++ if used i then [i] else [] := by
  have hlen : i.val < (List.finRange n).length := by simp
  rw [usedBefore, List.take_succ_eq_append_getElem hlen, List.filter_append, usedBefore,
    List.getElem_finRange, List.filter_singleton]
  by_cases h : used i <;> simp [h]

theorem Leading.usedBefore_length (h : Leading used) {i : Fin n} (hi : used i) :
    (usedBefore used i).length = i := by
  have hall : ∀ j ∈ (List.finRange n).take i, decide (used j) = true := by
    intro j hj
    rw [decide_eq_true_eq]
    exact h j i (mem_take_finRange.mp hj).le hi
  rw [usedBefore, List.filter_eq_self.mpr hall, List.length_take, List.length_finRange]
  omega

end

section Filled
variable [DecidablePred used] {α : Type*} {f base : Fin n → α} {i : Fin n}

/-- An array whose used slots before slot `k` are filled from `f`. -/
def filled (used : Fin n → Prop) [DecidablePred used] (f base : Fin n → α) (k : ℕ) : Fin n → α :=
  fun i => if i.val < k ∧ used i then f i else base i

@[simp] theorem filled_zero : filled used f base 0 = base := by
  funext i
  simp [filled]

theorem filled_all : filled used f base n = fun i => if used i then f i else base i := by
  funext i
  simp [filled]

theorem filled_self (used : Fin n → Prop) [DecidablePred used] (f base : Fin n → α) (i : Fin n) :
    filled used f base i i = base i := by
  simp [filled]

theorem filled_used (h : used i) :
    filled used f base (i + 1) = Function.update (filled used f base i) i (f i) := by
  funext j
  by_cases hj : j = i
  · subst hj
    simp [filled, h]
  · have hne : j.val ≠ i.val := fun heq => hj (Fin.ext heq)
    have hlt : j.val < i.val + 1 ↔ j.val < i.val := by omega
    simp [filled, hj, hlt]

theorem filled_unused (h : ¬ used i) : filled used f base (i + 1) = filled used f base i := by
  funext j
  by_cases hj : j = i
  · subst hj
    simp [filled, h]
  · have hne : j.val ≠ i.val := fun heq => hj (Fin.ext heq)
    have hlt : j.val < i.val + 1 ↔ j.val < i.val := by omega
    simp [filled, hlt]

/-- The next slot to be filled is the first free one. -/
theorem find?_filled {q : α → Prop} [DecidablePred q] (hleading : Leading used)
    (hf : ∀ j, used j → q (f j)) (hbase : ∀ j, ¬ q (base j)) (h : used i) :
    (List.finRange n).find? (fun j => ¬ q (filled used f base i j)) = some i := by
  apply find?_free _ i.isLt
  intro j
  by_cases hj : j.val < i.val
  · have hused : used j := hleading j i hj.le h
    simpa [filled, hj, hused] using hf j hused
  · simpa [filled, hj] using hbase j

end Filled

section Break
variable {α σ β : Type*} (used : α → Prop) [DecidablePred used]

/-- A loop over slots that breaks at the first free one. -/
def loopUsed (body : σ → α → σ) : σ → List α → σ
  | s, [] => s
  | s, a :: slots => if used a then loopUsed body (body s a) slots else s

theorem loopUsed_eq_foldl (body : σ → α → σ) (s : σ) (slots : List α) :
    loopUsed used body s slots = (slots.takeWhile used).foldl body s := by
  induction slots generalizing s with
  | nil => rfl
  | cons a slots ih =>
    by_cases ha : used a
    · simp [loopUsed, ha, ih]
    · simp [loopUsed, ha]

theorem loopUsed_append (f : α → β) (s : List β) (slots : List α) :
    loopUsed used (fun s a => s ++ [f a]) s slots = s ++ (slots.takeWhile used).map f := by
  rw [loopUsed_eq_foldl, List.foldl_append_eq_append, ← List.flatMap_def, ← List.map_eq_flatMap]

/-- What the slots before the first free one hold. -/
def leadingSlots (f : Fin n → α) : List α :=
  ((List.finRange n).takeWhile fun i => used (f i)).map f

end Break
end V2IHub.Foundation
