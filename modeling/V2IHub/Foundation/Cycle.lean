import Mathlib.Data.List.Rotate
import Mathlib.Data.List.Zip

/-! The consecutive pairs of a list that is read as a cycle. -/
namespace V2IHub.Foundation

variable {α : Type} {l : List α}

/-- Each item with the next one, and the last with the first. -/
def cyclicPairs (l : List α) : List (α × α) := l.zip (l.rotate 1)

theorem cyclicPairs_rotate (l : List α) (n : ℕ) :
    cyclicPairs (l.rotate n) = (cyclicPairs l).rotate n := by
  have hswap : (l.rotate n).rotate 1 = (l.rotate 1).rotate n := by
    rw [List.rotate_rotate, List.rotate_rotate, Nat.add_comm]
  unfold cyclicPairs List.zip
  rw [hswap, List.zipWith_rotate_distrib _ _ _ _ (List.length_rotate l 1).symm]

/-- Each item with the one before it. -/
theorem zip_rotate_pred_perm (l : List α) :
    (l.zip (l.rotate (l.length - 1))).Perm ((cyclicPairs l).map Prod.swap) := by
  cases l with
  | nil => rfl
  | cons x l =>
    have hfull : ((x :: l).rotate ((x :: l).length - 1)).rotate 1 = x :: l := by
      rw [List.rotate_rotate, Nat.sub_add_cancel (by simp), List.rotate_length]
    have hpairs : ((x :: l).zip ((x :: l).rotate ((x :: l).length - 1))).rotate 1 =
        (cyclicPairs (x :: l)).map Prod.swap := by
      rw [List.zip, List.zipWith_rotate_distrib _ _ _ _ (List.length_rotate _ _).symm, hfull,
        cyclicPairs, List.zip_swap]
      rfl
    rw [← hpairs]
    exact (List.rotate_perm _ 1).symm

theorem cyclicPairs_reverse_perm (l : List α) :
    (cyclicPairs l.reverse).Perm ((cyclicPairs l).map Prod.swap) := by
  have hpairs : cyclicPairs l.reverse = (l.zip (l.rotate (l.length - 1))).reverse := by
    cases l with
    | nil => rfl
    | cons x l =>
      have hone : 1 % (x :: l).length = 1 ∨ l = [] := by
        cases l with
        | nil => exact .inr rfl
        | cons y l => exact .inl (Nat.mod_eq_of_lt (by simp))
      rcases hone with hone | rfl
      · unfold cyclicPairs List.zip
        rw [List.reverse_zipWith (List.length_rotate _ _).symm, List.rotate_reverse, hone]
      · simp [cyclicPairs]
  rw [hpairs]
  exact (List.reverse_perm _).trans (zip_rotate_pred_perm l)

/-- Walked from its last item, a cycle meets each pair once. -/
theorem cyclicPairs_perm_of_getLast {last : α} (h : l.getLast? = some last) :
    (cyclicPairs l).Perm ((last :: l).zip l) := by
  obtain ⟨init, rfl⟩ := List.getLast?_eq_some_iff.mp h
  have hrotated : (init ++ [last]).rotate init.length = last :: init := by
    rw [List.rotate_append_length_eq, List.singleton_append]
  have hpairs : cyclicPairs (last :: init) = (last :: (init ++ [last])).zip (init ++ [last]) := by
    have happend : ((last :: init) ++ [last]).zip ((init ++ [last]) ++ []) =
        (last :: init).zip (init ++ [last]) ++ [last].zip [] := List.zip_append (by simp)
    rw [List.append_nil, List.zip_nil_right, List.append_nil] at happend
    rw [cyclicPairs, List.rotate_cons_succ, List.rotate_zero, ← happend, List.cons_append]
  rw [← hpairs, ← hrotated, cyclicPairs_rotate]
  exact (List.rotate_perm _ _).symm

end V2IHub.Foundation
