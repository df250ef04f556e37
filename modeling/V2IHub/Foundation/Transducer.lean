import Mathlib.Data.List.Basic

/-! Machines that read a text and write one, symbol by symbol. -/
namespace V2IHub.Foundation

structure Transducer (σ α β : Type) where
  step : σ → α → σ × List β

namespace Transducer
variable {σ τ α β γ : Type}

/-- The state behind a text, and what was written on the way. -/
def run (t : Transducer σ α β) (s : σ) : List α → σ × List β
  | [] => (s, [])
  | a :: text =>
    let r := t.step s a
    let rest := run t r.1 text
    (rest.1, r.2 ++ rest.2)

/-- The second machine reads what the first writes. -/
def comp (t : Transducer σ α β) (u : Transducer τ β γ) : Transducer (σ × τ) α γ where
  step s a :=
    let r := t.step s.1 a
    let w := u.run s.2 r.2
    ((r.1, w.1), w.2)

variable {t : Transducer σ α β} {s s' : σ} {a b : List α} {out out' : List β}

theorem run_append (t : Transducer σ α β) (s : σ) (a b : List α) :
    t.run s (a ++ b) =
      ((t.run (t.run s a).1 b).1, (t.run s a).2 ++ (t.run (t.run s a).1 b).2) := by
  induction a generalizing s with
  | nil => rfl
  | cons x a ih =>
    rw [List.cons_append, run, ih, run]
    simp [List.append_assoc]

/-- Runs with known ends, one behind the other. -/
theorem run_append_eq {s'' : σ} (ha : t.run s a = (s', out)) (hb : t.run s' b = (s'', out')) :
    t.run s (a ++ b) = (s'', out ++ out') := by
  rw [run_append, ha, hb]

/-- A text that leads back to its state may be repeated. -/
theorem run_repeat (h : t.run s a = (s, out)) (n : ℕ) :
    t.run s (List.replicate n a).flatten = (s, (List.replicate n out).flatten) := by
  induction n with
  | zero => rfl
  | succ n ih =>
    rw [List.replicate_succ, List.flatten_cons, run_append_eq h ih, List.replicate_succ,
      List.flatten_cons]

end Transducer
end V2IHub.Foundation
