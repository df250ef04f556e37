import Mathlib.Data.List.Basic
import Mathlib.Tactic

/-! The maximal runs of a list between separators, and the pieces that one pass over the list
cuts it into. -/
namespace V2IHub.Foundation

section Runs
variable {α : Type*}

/-- The maximal nonempty runs without a separator, in order: each begins at the front of the
list or behind a separator, and ends before one or at the end. -/
inductive Runs (p : α → Prop) : List α → List (List α) → Prop where
  | nil : Runs p [] []
  | separator {a : α} {l : List α} {runs : List (List α)} (ha : p a) (h : Runs p l runs) :
      Runs p (a :: l) runs
  | last {r : List α} (hne : r ≠ []) (hr : ∀ a ∈ r, ¬ p a) : Runs p r [r]
  | run {r : List α} {a : α} {l : List α} {runs : List (List α)} (hne : r ≠ [])
      (hr : ∀ a ∈ r, ¬ p a) (ha : p a) (h : Runs p l runs) : Runs p (r ++ a :: l) (r :: runs)

/-- The pieces of a list with a first one that was begun before; a last one that is empty is
left out. -/
def pieces (p : α → Prop) [DecidablePred p] (piece : List α) : List α → List (List α)
  | [] => if piece = [] then [] else [piece]
  | a :: rest => if p a then piece :: pieces p [] rest else pieces p (piece ++ [a]) rest

variable {p : α → Prop} [DecidablePred p] {piece l : List α} {runs : List (List α)}

theorem pieces_append (h : ∀ a ∈ l, ¬ p a) (piece rest : List α) :
    pieces p piece (l ++ rest) = pieces p (piece ++ l) rest := by
  induction l generalizing piece with
  | nil => simp
  | cons a l ih =>
    rw [List.cons_append, pieces, if_neg (h a List.mem_cons_self),
      ih fun b hb => h b (List.mem_cons_of_mem a hb), List.append_assoc, List.singleton_append]

/-- What is not empty among the pieces are the runs. -/
theorem runs_pieces (h : ∀ a ∈ piece, ¬ p a) (l : List α) :
    Runs p (piece ++ l) ((pieces p piece l).filter (· ≠ [])) := by
  induction l generalizing piece with
  | nil =>
    rw [List.append_nil, pieces]
    by_cases hpiece : piece = []
    · simpa [hpiece] using Runs.nil
    · simpa [hpiece] using Runs.last hpiece h
  | cons a l ih =>
    rw [pieces]
    by_cases ha : p a
    · have hrest := @ih [] (by simp)
      rw [if_pos ha]
      by_cases hpiece : piece = []
      · simpa [hpiece] using hrest.separator ha
      · simpa [hpiece] using Runs.run hpiece h ha hrest
    · have hpiece : ∀ b ∈ piece ++ [a], ¬ p b := by
        simpa [or_imp, forall_and] using ⟨h, ha⟩
      simpa [ha] using ih hpiece

/-- A list has one sequence of runs. -/
theorem runs_iff : Runs p l runs ↔ runs = (pieces p [] l).filter (· ≠ []) := by
  constructor
  · intro h
    induction h with
    | nil => simp [pieces]
    | separator ha h ih => simpa [pieces, ha] using ih
    | @last r hne hr =>
      have hall := pieces_append hr [] []
      rw [List.append_nil, List.nil_append] at hall
      simp [hall, pieces, hne]
    | @run r a l runs hne hr ha h ih =>
      rw [pieces_append hr, List.nil_append, pieces, if_pos ha, List.filter_cons_of_pos (by simpa),
        ih]
  · rintro rfl
    exact @runs_pieces _ p _ [] (by simp) l

theorem Runs.ne_nil {r : List α} (h : Runs p l runs) (hr : r ∈ runs) : r ≠ [] := by
  rw [runs_iff] at h
  rw [h] at hr
  simpa using (List.mem_filter.mp hr).2

theorem head_pieces (h : piece ≠ []) (l : List α) : (pieces p piece l).head? ≠ some [] := by
  induction l generalizing piece with
  | nil => simp [pieces, h]
  | cons a rest ih =>
    rw [pieces]
    split_ifs
    · simpa using h
    · exact ih (by simp)

/-- The list begins with two separators. -/
def BeginsTwice (p : α → Prop) (l : List α) : Prop := ∃ a b rest, l = a :: b :: rest ∧ p a ∧ p b

/-- Two empty pieces in front are two separators in front. -/
theorem take_two_pieces : (pieces p [] l).take 2 = [[], []] ↔ BeginsTwice p l := by
  have hbegun : ∀ (a : α) (rest : List α) (n : ℕ) (more : List (List α)),
      (pieces p [a] rest).take (n + 1) ≠ [] :: more := by
    intro a rest n more h
    have hhead := congrArg List.head? h
    rw [List.head?_take, if_neg n.succ_ne_zero, List.head?_cons] at hhead
    exact head_pieces (List.cons_ne_nil a []) rest hhead
  constructor
  · intro h
    cases l with
    | nil => simp [pieces] at h
    | cons a rest =>
      by_cases ha : p a
      · rw [pieces, if_pos ha, List.take_succ_cons, List.cons.injEq] at h
        cases rest with
        | nil => simp [pieces] at h
        | cons b rest =>
          by_cases hb : p b
          · exact ⟨a, b, rest, rfl, ha, hb⟩
          · rw [pieces, if_neg hb] at h
            exact absurd h.2 (hbegun b rest 0 [])
      · rw [pieces, if_neg ha] at h
        exact absurd h (hbegun a rest 1 [[]])
  · rintro ⟨a, b, rest, rfl, ha, hb⟩
    simp [pieces, ha, hb]

end Runs

end V2IHub.Foundation
