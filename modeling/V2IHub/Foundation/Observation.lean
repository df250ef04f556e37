import V2IHub.Foundation.Machine

/-! What is observed of a machine at the steps of a run. -/
namespace V2IHub.Foundation
namespace Machine
variable {State Act Event : Type*} (M : Machine State Act) (event : State → Act → Option Event)

/-- The events of a run, up to the first action that is not enabled. -/
def events : State → List Act → List Event
  | _, [] => []
  | s, a :: as =>
    match M.step s a with
    | some t => (event s a).toList ++ events t as
    | none => []

variable {M event}

theorem events_cons {s t : State} {a : Act} {as : List Act} (h : M.step s a = some t) :
    M.events event s (a :: as) = (event s a).toList ++ M.events event t as := by
  simp only [events, h]

/-- What holds of the events so far and the state, and is preserved by every allowed step, holds of
the events of an obedient run and the state it reaches. -/
theorem events_invariant {guard : State → Act → Prop} {Inv : List Event → State → Prop}
    (hstep : ∀ tr s a t, Inv tr s → guard s a → M.step s a = some t →
      Inv (tr ++ (event s a).toList) t)
    {tr : List Event} {s t : State} {as : List Act} (hs : Inv tr s) (ho : M.Obeys guard s as)
    (hr : M.run s as = some t) : Inv (tr ++ M.events event s as) t := by
  induction as generalizing tr s with
  | nil =>
    obtain rfl : s = t := by simpa using hr
    simpa [events] using hs
  | cons a as ih =>
    obtain ⟨u, hu, hr⟩ := run_cons_eq_some.mp hr
    obtain ⟨hg, ho⟩ := (obeys_cons hu).mp ho
    rw [events_cons hu, ← List.append_assoc]
    exact ih (hstep tr s a u hs hg hu) ho hr

end Machine
end V2IHub.Foundation
