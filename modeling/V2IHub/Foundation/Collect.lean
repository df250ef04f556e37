import Mathlib.Data.List.Flatten
import Mathlib.Tactic

/-! Lists that a loop gathers from the items of another list, where one step may fail. -/
namespace V2IHub.Foundation
variable {α β γ : Type*} {f : α → Option (List β)} {l : List α} {r : List β}

/-- The results in order, or nothing if one of them fails. -/
def collect (f : α → Option (List β)) : List α → Option (List β)
  | [] => some []
  | a :: l => (f a).bind fun first => (collect f l).map fun rest => first ++ rest

theorem collect_cons_eq_some {a : α} :
    collect f (a :: l) = some r ↔
      ∃ first rest, f a = some first ∧ collect f l = some rest ∧ r = first ++ rest := by
  rw [collect, Option.bind_eq_some_iff]
  constructor
  · rintro ⟨first, hfirst, h⟩
    obtain ⟨rest, hrest, rfl⟩ := Option.map_eq_some_iff.mp h
    exact ⟨first, rest, hfirst, hrest, rfl⟩
  · rintro ⟨first, rest, hfirst, hrest, rfl⟩
    exact ⟨first, hfirst, by rw [hrest, Option.map_some]⟩

/-- Every step succeeded, and its results are there. -/
theorem collect_subset (h : collect f l = some r) {a : α} (ha : a ∈ l) :
    ∃ part, f a = some part ∧ part ⊆ r := by
  induction l generalizing r with
  | nil => exact absurd ha (List.not_mem_nil)
  | cons b l ih =>
    rw [collect_cons_eq_some] at h
    obtain ⟨first, rest, hfirst, hrest, rfl⟩ := h
    rcases List.mem_cons.mp ha with rfl | hmem
    · exact ⟨first, hfirst, List.subset_append_left _ _⟩
    · obtain ⟨part, hpart, hsub⟩ := ih hrest hmem
      exact ⟨part, hpart, List.subset_append_of_subset_right _ hsub⟩

/-- Every result comes from a step. -/
theorem mem_collect (h : collect f l = some r) {b : β} (hb : b ∈ r) :
    ∃ a ∈ l, ∃ part, f a = some part ∧ b ∈ part := by
  induction l generalizing r with
  | nil =>
    cases h
    exact absurd hb List.not_mem_nil
  | cons a l ih =>
    rw [collect_cons_eq_some] at h
    obtain ⟨first, rest, hfirst, hrest, rfl⟩ := h
    rcases List.mem_append.mp hb with hmem | hmem
    · exact ⟨a, List.mem_cons_self, first, hfirst, hmem⟩
    · obtain ⟨a', ha', hpart⟩ := ih hrest hmem
      exact ⟨a', List.mem_cons_of_mem _ ha', hpart⟩

theorem exists_collect (h : ∀ a ∈ l, ∃ part, f a = some part) : ∃ r, collect f l = some r := by
  induction l with
  | nil => exact ⟨[], rfl⟩
  | cons a l ih =>
    obtain ⟨first, hfirst⟩ := h a List.mem_cons_self
    obtain ⟨rest, hrest⟩ := ih fun b hb => h b (List.mem_cons_of_mem _ hb)
    exact ⟨first ++ rest, Iff.mpr collect_cons_eq_some ⟨first, rest, hfirst, hrest, rfl⟩⟩

/-- What can be said of the results of each step without knowing whether it fails. -/
theorem map_collect (g : β → γ) (k : α → List γ)
    (hstep : ∀ a ∈ l, ∀ part, f a = some part → part.map g = k a) (h : collect f l = some r) :
    r.map g = l.flatMap k := by
  induction l generalizing r with
  | nil =>
    cases h
    rfl
  | cons a l ih =>
    rw [collect_cons_eq_some] at h
    obtain ⟨first, rest, hfirst, hrest, rfl⟩ := h
    rw [List.map_append, List.flatMap_cons, hstep a List.mem_cons_self first hfirst,
      ih (fun b hb => hstep b (List.mem_cons_of_mem _ hb)) hrest]

end V2IHub.Foundation
