import Mathlib.Tactic

/-! Taking the oldest rows out of a table, where it is left open which of equally old ones. -/
namespace V2IHub.Foundation
variable {α β : Type*} [LinearOrder β] {key : α → β}

/-- Of `rows`, `n` ones with the least keys are taken out, or all if there are fewer. -/
structure Evicts (key : α → β) (n : ℕ) (rows removed rest : List α) : Prop where
  perm : (removed ++ rest).Perm rows
  length : removed.length = min n rows.length
  oldest : ∀ x ∈ removed, ∀ y ∈ rest, key x ≤ key y

instance decidableEvicts [DecidableEq α] (key : α → β) (n : ℕ) (rows removed rest : List α) :
    Decidable (Evicts key n rows removed rest) :=
  decidable_of_iff ((removed ++ rest).Perm rows ∧ removed.length = min n rows.length ∧
      ∀ x ∈ removed, ∀ y ∈ rest, key x ≤ key y)
    ⟨fun h => ⟨h.1, h.2.1, h.2.2⟩, fun h => ⟨h.perm, h.length, h.oldest⟩⟩

/-- How many of the rows are not older than `x`. -/
def notOlder (key : α → β) (x : α) (rows : List α) : ℕ := rows.countP fun y => key x ≤ key y

namespace Evicts
variable {n K : ℕ} {rows removed rest : List α} {x : α}

theorem rest_length (h : Evicts key n rows removed rest) : rest.length = rows.length - n := by
  have hlength := h.perm.length_eq
  rw [List.length_append, h.length] at hlength
  omega

/-- All that is left is not older than a row that was not newer than one that went. -/
theorem notOlder_rest (h : Evicts key n rows removed rest) {y : α} (hy : y ∈ removed)
    (hxy : key x ≤ key y) : notOlder key x rest = rest.length := by
  rw [notOlder, List.countP_eq_length]
  intro z hz
  exact decide_eq_true (hxy.trans (h.oldest y hy z hz))

/-- Among so many rows that are left, none loses its rank: neither one that went just now, nor one
that had it before. -/
theorem keeps_notOlder (h : Evicts key n rows removed rest) (hroom : n + K ≤ rows.length)
    (hx : x ∈ removed ∨ K ≤ notOlder key x rows) : K ≤ notOlder key x rest := by
  have hrest := h.rest_length
  by_cases hgone : ∃ y ∈ removed, key x ≤ key y
  · obtain ⟨y, hy, hxy⟩ := hgone
    rw [h.notOlder_rest hy hxy]
    omega
  · have hstays : notOlder key x removed = 0 := by
      rw [notOlder, List.countP_eq_zero]
      intro y hy hxy
      exact hgone ⟨y, hy, of_decide_eq_true hxy⟩
    have hsame : notOlder key x rows = notOlder key x removed + notOlder key x rest := by
      unfold notOlder
      rw [← h.perm.countP_eq, List.countP_append]
    rcases hx with hx | hx
    · exact absurd ⟨x, hx, le_rfl⟩ hgone
    · omega

end Evicts
end V2IHub.Foundation
