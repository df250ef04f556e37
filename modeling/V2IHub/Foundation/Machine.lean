import Mathlib.Tactic

/-! Finite runs of a machine. An action carries every choice that a scheduler, a peer
or a library makes at that step, so that `step` is a function and runs can be evaluated. -/
namespace V2IHub.Foundation

structure Machine (State Act : Type*) where
  step : State → Act → Option State

namespace Machine
variable {State Act : Type*} (M : Machine State Act)

/-- `none` when some action of the list is not enabled where it is taken. -/
def run : State → List Act → Option State
  | s, [] => some s
  | s, a :: as =>
    match M.step s a with
    | some t => run t as
    | none => none

/-- Every action is taken in a state where `guard` allows it. -/
def Obeys (guard : State → Act → Prop) : State → List Act → Prop
  | _, [] => True
  | s, a :: as => guard s a ∧
    match M.step s a with
    | some t => Obeys guard t as
    | none => True

instance decidableObeys {guard : State → Act → Prop} [∀ s a, Decidable (guard s a)] :
    (s : State) → (as : List Act) → Decidable (M.Obeys guard s as)
  | _, [] => inferInstanceAs (Decidable True)
  | s, a :: as =>
    have : Decidable (match M.step s a with
        | some t => M.Obeys guard t as
        | none => True) :=
      match M.step s a with
      | some t => decidableObeys t as
      | none => inferInstanceAs (Decidable True)
    inferInstanceAs (Decidable (_ ∧ _))

variable {M}

@[simp] theorem run_nil (s : State) : M.run s [] = some s := rfl

theorem run_cons_eq_some {s t : State} {a : Act} {as : List Act} :
    M.run s (a :: as) = some t ↔ ∃ u, M.step s a = some u ∧ M.run u as = some t := by
  simp only [run]
  cases hs : M.step s a with
  | none => simp
  | some u => simp

theorem run_append_of {s t : State} {as : List Act} (has : M.run s as = some t) (bs : List Act) :
    M.run s (as ++ bs) = M.run t bs := by
  induction as generalizing s with
  | nil => rw [List.nil_append, ← Option.some.inj has]
  | cons a as ih =>
    rw [run_cons_eq_some] at has
    obtain ⟨u, hu, has⟩ := has
    rw [List.cons_append, run, hu]
    exact ih has

theorem run_append {s t u : State} {as bs : List Act} (has : M.run s as = some t)
    (hbs : M.run t bs = some u) : M.run s (as ++ bs) = some u :=
  (run_append_of has bs).trans hbs

theorem run_append_eq_some {s u : State} {as bs : List Act} :
    M.run s (as ++ bs) = some u ↔ ∃ t, M.run s as = some t ∧ M.run t bs = some u := by
  induction as generalizing s with
  | nil => simp
  | cons a as ih =>
    rw [List.cons_append, run_cons_eq_some]
    simp only [ih, run_cons_eq_some]
    constructor
    · rintro ⟨v, hv, t, has, hbs⟩
      exact ⟨t, ⟨v, hv, has⟩, hbs⟩
    · rintro ⟨t, ⟨v, hv, has⟩, hbs⟩
      exact ⟨v, hv, t, has, hbs⟩

theorem obeys_cons {guard : State → Act → Prop} {s u : State} {a : Act} {as : List Act}
    (hu : M.step s a = some u) :
    M.Obeys guard s (a :: as) ↔ guard s a ∧ M.Obeys guard u as := by
  simp only [Obeys, hu]

theorem obeys_of_append {guard : State → Act → Prop} {s : State} {as bs : List Act}
    (h : M.Obeys guard s (as ++ bs)) : M.Obeys guard s as := by
  induction as generalizing s with
  | nil => trivial
  | cons a as ih =>
    refine ⟨h.1, ?_⟩
    have hrest := h.2
    cases hu : M.step s a with
    | none => trivial
    | some u =>
      simp only [hu] at hrest
      exact ih hrest

theorem obeys_append {guard : State → Act → Prop} {s t : State} {as bs : List Act}
    (h : M.Obeys guard s (as ++ bs)) (has : M.run s as = some t) : M.Obeys guard t bs := by
  induction as generalizing s with
  | nil =>
    obtain rfl : s = t := by simpa using has
    exact h
  | cons a as ih =>
    rw [run_cons_eq_some] at has
    obtain ⟨u, hu, has⟩ := has
    exact ih ((obeys_cons hu).mp h).2 has

theorem obeys_of_prefixes {guard : State → Act → Prop} {s : State} {as : List Act}
    (h : ∀ before a after t, as = before ++ a :: after → M.run s before = some t → guard t a) :
    M.Obeys guard s as := by
  induction as generalizing s with
  | nil => trivial
  | cons a as ih =>
    refine ⟨h [] a as s rfl rfl, ?_⟩
    cases hu : M.step s a with
    | none => trivial
    | some u =>
      apply ih
      intro before b after t has hrun
      exact h (a :: before) b after t (by rw [has, List.cons_append])
        (Iff.mpr run_cons_eq_some ⟨u, hu, hrun⟩)

/-- A condition on the actions alone strengthens the guard. -/
theorem obeys_and_mem {guard : State → Act → Prop} {P : Act → Prop} {s : State} {as : List Act}
    (h : M.Obeys guard s as) (hP : ∀ a ∈ as, P a) :
    M.Obeys (fun s a => guard s a ∧ P a) s as := by
  induction as generalizing s with
  | nil => trivial
  | cons a as ih =>
    refine ⟨⟨h.1, hP a (by simp)⟩, ?_⟩
    have hrest := h.2
    cases hu : M.step s a with
    | none => trivial
    | some u =>
      simp only [hu] at hrest
      exact ih hrest fun b hb => hP b (by simp [hb])

/-- What every allowed step preserves holds in every state an obedient run reaches. -/
theorem obeys_invariant {guard : State → Act → Prop} {Inv : State → Prop}
    (hstep : ∀ s a t, Inv s → guard s a → M.step s a = some t → Inv t)
    {s t : State} {as : List Act} (hs : Inv s) (ho : M.Obeys guard s as)
    (hr : M.run s as = some t) : Inv t := by
  induction as generalizing s with
  | nil =>
    obtain rfl : s = t := by simpa using hr
    exact hs
  | cons a as ih =>
    rw [run_cons_eq_some] at hr
    obtain ⟨u, hu, hr⟩ := hr
    obtain ⟨hg, ho⟩ := (obeys_cons hu).mp ho
    exact ih (hstep s a u hs hg hu) ho hr

/-- What holds after every action of a run, as a guard of each of them. -/
theorem obeys_iff_after {P : State → Prop} {s : State} {as : List Act} :
    M.Obeys (fun s a => ∀ t, M.step s a = some t → P t) s as ↔
      ∀ before a after t, as = before ++ a :: after → M.run s (before ++ [a]) = some t → P t := by
  constructor
  · rintro h before a after t rfl hrun
    rw [run_append_eq_some] at hrun
    obtain ⟨u, hbefore, hlast⟩ := hrun
    rw [run_cons_eq_some] at hlast
    obtain ⟨v, hv, ht⟩ := hlast
    obtain rfl : v = t := by simpa using ht
    exact (obeys_append h hbefore).1 v hv
  · intro h
    apply obeys_of_prefixes
    intro before a after t has hbefore u hu
    exact h before a after u has (run_append hbefore (Iff.mpr run_cons_eq_some ⟨u, hu, rfl⟩))

/-- The same for actions that must be possible, and for what holds after each of them. -/
theorem obeys_iff_exists_after {P : Act → State → Prop} {s : State} {as : List Act} :
    M.Obeys (fun s a => ∃ t, M.step s a = some t ∧ P a t) s as ↔
      ∀ before a after, as = before ++ a :: after → ∃ t, M.run s (before ++ [a]) = some t ∧ P a t := by
  constructor
  · intro h before a after has
    induction before generalizing s as with
    | nil =>
      obtain ⟨t, ht, hP⟩ := (has ▸ h : M.Obeys _ s (a :: after)).1
      exact ⟨t, Iff.mpr run_cons_eq_some ⟨t, ht, rfl⟩, hP⟩
    | cons b before ih =>
      subst has
      obtain ⟨u, hu, -⟩ := h.1
      obtain ⟨t, ht, hP⟩ := ih ((obeys_cons hu).mp h).2 rfl
      exact ⟨t, Iff.mpr run_cons_eq_some ⟨u, hu, ht⟩, hP⟩
  · intro h
    apply obeys_of_prefixes
    intro before a after t has hbefore
    obtain ⟨u, hu, hP⟩ := h before a after has
    rw [run_append_eq_some] at hu
    obtain ⟨t', ht', hlast⟩ := hu
    obtain rfl : t = t' := Option.some.inj (hbefore.symm.trans ht')
    rw [run_cons_eq_some] at hlast
    obtain ⟨v, hv, hvu⟩ := hlast
    obtain rfl : v = u := by simpa using hvu
    exact ⟨v, hv, hP⟩

theorem obeys_congr {guard guard' : State → Act → Prop} (h : ∀ s a, guard s a ↔ guard' s a)
    (s : State) (as : List Act) : M.Obeys guard s as ↔ M.Obeys guard' s as := by
  rw [show guard = guard' from funext fun s => funext fun a => propext (h s a)]

/-- Two guards that agree where an invariant holds that the first one keeps. -/
theorem obeys_congr_of_invariant {guard guard' : State → Act → Prop} {Inv : State → Prop}
    (h : ∀ s a, Inv s → (guard s a ↔ guard' s a))
    (hstep : ∀ s a t, Inv s → guard s a → M.step s a = some t → Inv t)
    {s : State} (hs : Inv s) (as : List Act) : M.Obeys guard s as ↔ M.Obeys guard' s as := by
  induction as generalizing s with
  | nil => exact Iff.rfl
  | cons a as ih =>
    simp only [Obeys, h s a hs]
    refine and_congr_right fun hguard => ?_
    cases hu : M.step s a with
    | none => exact Iff.rfl
    | some u => exact ih (hstep s a u hs ((h s a hs).mpr hguard) hu)

theorem obeys_of_forall {guard : State → Act → Prop} (h : ∀ s a, guard s a)
    (s : State) (as : List Act) : M.Obeys guard s as := by
  induction as generalizing s with
  | nil => trivial
  | cons a as ih =>
    refine ⟨h s a, ?_⟩
    cases M.step s a with
    | none => trivial
    | some u => exact ih u

/-- The unguarded form: what every step preserves holds in every state of every run. -/
theorem run_invariant {Inv : State → Prop}
    (hstep : ∀ s a t, Inv s → M.step s a = some t → Inv t)
    {s t : State} {as : List Act} (hs : Inv s) (hr : M.run s as = some t) : Inv t :=
  obeys_invariant (fun s a t hs (_ : True) h => hstep s a t hs h) hs
    (obeys_of_forall (fun _ _ => trivial) s as) hr

end Machine
end V2IHub.Foundation
