import Mathlib.Tactic

/-! Stateful programs with exceptions. The state reached so far survives an exception; a crash
stands for a failed assertion or a null dereference, which ends the process. -/
namespace V2IHub.Foundation

inductive Outcome (ε α : Type) where
  | ok (a : α)
  | throws (e : ε)
  | crash

/-- The value, if the program ended with one. -/
def Outcome.value {ε α : Type} : Outcome ε α → Option α
  | .ok a => some a
  | _ => none

def Program (σ ε α : Type) := σ → Outcome ε α × σ

namespace Program
variable {σ ε α β : Type}

protected def pure (a : α) : Program σ ε α := fun s => (.ok a, s)

protected def bind (p : Program σ ε α) (f : α → Program σ ε β) : Program σ ε β := fun s =>
  match p s with
  | (.ok a, t) => f a t
  | (.throws e, t) => (.throws e, t)
  | (.crash, t) => (.crash, t)

instance : Monad (Program σ ε) where
  pure := Program.pure
  bind := Program.bind

def throw (e : ε) : Program σ ε α := fun s => (.throws e, s)

def crash : Program σ ε α := fun s => (.crash, s)

def get : Program σ ε σ := fun s => (.ok s, s)

def modify (f : σ → σ) : Program σ ε Unit := fun s => (.ok (), f s)

/-- `assert(b);` -/
def assert (b : Bool) : Program σ ε Unit := if b then pure () else crash

/-- A pointer that is dereferenced. -/
def deref (o : Option α) : Program σ ε α :=
  match o with
  | some a => pure a
  | none => crash

/-- `try { p } catch (e) { handler }` for the exceptions that `catches` accepts. -/
def tryCatch (p : Program σ ε α) (catches : ε → Bool) (handler : ε → Program σ ε α) :
    Program σ ε α := fun s =>
  match p s with
  | (.throws e, t) => if catches e then handler e t else (.throws e, t)
  | r => r

/-- A loop over a list. -/
def forEach (xs : List α) (body : α → Program σ ε Unit) : Program σ ε Unit :=
  match xs with
  | [] => pure ()
  | x :: xs => do
    body x
    forEach xs body

section Equations

@[simp] theorem pure_run (a : α) (s : σ) : (Pure.pure a : Program σ ε α) s = (.ok a, s) := rfl

@[simp] theorem throw_run (e : ε) (s : σ) : (throw e : Program σ ε α) s = (.throws e, s) := rfl

@[simp] theorem crash_run (s : σ) : (crash : Program σ ε α) s = (.crash, s) := rfl

@[simp] theorem get_run (s : σ) : (get : Program σ ε σ) s = (.ok s, s) := rfl

@[simp] theorem modify_run (f : σ → σ) (s : σ) :
    (modify f : Program σ ε Unit) s = (.ok (), f s) := rfl

theorem bind_run (p : Program σ ε α) (f : α → Program σ ε β) (s : σ) :
    (p >>= f) s = match p s with
      | (.ok a, t) => f a t
      | (.throws e, t) => (.throws e, t)
      | (.crash, t) => (.crash, t) := rfl

@[simp] theorem deref_some_bind (a : α) (f : α → Program σ ε β) :
    (deref (some a) >>= f) = f a := rfl

@[simp] theorem deref_none_bind (f : α → Program σ ε β) : (deref none >>= f) = crash := rfl

@[simp] theorem assert_true_bind (f : Unit → Program σ ε β) : (assert true >>= f) = f () := rfl

theorem bind_ok {p : Program σ ε α} {f : α → Program σ ε β} {s t : σ} {a : α}
    (h : p s = (.ok a, t)) : (p >>= f) s = f a t := by
  rw [bind_run, h]

theorem bind_throws {p : Program σ ε α} {f : α → Program σ ε β} {s t : σ} {e : ε}
    (h : p s = (.throws e, t)) : (p >>= f) s = (.throws e, t) := by
  rw [bind_run, h]

theorem bind_crash {p : Program σ ε α} {f : α → Program σ ε β} {s t : σ}
    (h : p s = (.crash, t)) : (p >>= f) s = (.crash, t) := by
  rw [bind_run, h]

end Equations

/-- From `P`, the program ends in `Q`, or throws into `E`, or crashes. -/
def Triple (P : σ → Prop) (p : Program σ ε α) (Q : α → σ → Prop) (E : ε → σ → Prop) : Prop :=
  ∀ s, P s → match p s with
    | (.ok a, t) => Q a t
    | (.throws e, t) => E e t
    | (.crash, _) => True

/-- How a program ends that does not crash. -/
theorem Triple.ends {P : σ → Prop} {Q : α → σ → Prop} {E : ε → σ → Prop} {p : Program σ ε α}
    (h : Triple P p Q E) {s t : σ} {o : Outcome ε α} (hs : P s) (ho : p s = (o, t))
    (hcrash : o ≠ .crash) : (∃ a, o = .ok a ∧ Q a t) ∨ ∃ e, o = .throws e ∧ E e t := by
  have hp := h s hs
  rw [ho] at hp
  cases o with
  | ok a => exact .inl ⟨a, rfl, hp⟩
  | throws e => exact .inr ⟨e, rfl, hp⟩
  | crash => exact absurd rfl hcrash

section Rules
variable {P : σ → Prop} {Q : α → σ → Prop} {R : β → σ → Prop} {E : ε → σ → Prop}

theorem triple_pure {a : α} (h : ∀ s, P s → Q a s) :
    Triple P (Pure.pure a : Program σ ε α) Q E := h

theorem triple_throw {e : ε} (h : ∀ s, P s → E e s) : Triple P (throw e : Program σ ε α) Q E := h

theorem triple_get {Q : σ → σ → Prop} (h : ∀ s, P s → Q s s) :
    Triple P (get : Program σ ε σ) Q E := h

theorem triple_modify {f : σ → σ} {Q : Unit → σ → Prop} (h : ∀ s, P s → Q () (f s)) :
    Triple P (modify f : Program σ ε Unit) Q E := h

theorem triple_bind {p : Program σ ε α} {f : α → Program σ ε β} (hp : Triple P p Q E)
    (hf : ∀ a, Triple (Q a) (f a) R E) : Triple P (p >>= f) R E := by
  intro s hs
  have h := hp s hs
  rw [bind_run]
  rcases hr : p s with ⟨a | e | _, t⟩ <;> rw [hr] at h
  · exact hf a t h
  · exact h
  · trivial

/-- A condition that does not depend on the state. -/
theorem triple_of_imp {p : Program σ ε α} {C : Prop} (h : C → Triple P p Q E) :
    Triple (fun s => C ∧ P s) p Q E := fun s hs => h hs.1 s hs.2

/-- The value that goes on is known. -/
theorem triple_bind_eq {p : Program σ ε α} {f : α → Program σ ε β} {a : α} {P' : σ → Prop}
    (hp : Triple P p (fun b s => b = a ∧ P' s) E) (hf : Triple P' (f a) R E) :
    Triple P (p >>= f) R E :=
  triple_bind hp fun _ => triple_of_imp fun h => h ▸ hf

/-- What follows a program that never ends with a value. -/
theorem triple_bind_never {p : Program σ ε α} {f : α → Program σ ε β}
    (hp : Triple P p (fun _ _ => False) E) : Triple P (p >>= f) R E :=
  triple_bind hp fun _ _ h => h.elim

theorem triple_deref {o : Option α} (h : ∀ s a, P s → o = some a → Q a s) :
    Triple P (deref o : Program σ ε α) Q E := by
  intro s hs
  cases o with
  | some a => exact h s a hs rfl
  | none => trivial

theorem triple_tryCatch {p : Program σ ε α} {catches : ε → Bool} {handler : ε → Program σ ε α}
    {E' : ε → σ → Prop} (hp : Triple P p Q E)
    (hh : ∀ e, catches e = true → Triple (E e) (handler e) Q E')
    (hout : ∀ e s, catches e = false → E e s → E' e s) :
    Triple P (tryCatch p catches handler) Q E' := by
  intro s hs
  have h := hp s hs
  unfold tryCatch
  rcases hr : p s with ⟨a | e | _, t⟩ <;> rw [hr] at h
  · exact h
  · cases hc : catches e with
    | true => simpa [hc] using hh e hc t h
    | false => simpa [hc] using hout e t hc h
  · trivial

theorem triple_forEach {I : σ → Prop} {xs : List α} {body : α → Program σ ε Unit}
    (h : ∀ x ∈ xs, Triple I (body x) (fun _ => I) E) :
    Triple I (forEach xs body) (fun _ => I) E := by
  induction xs with
  | nil => exact fun _ hs => hs
  | cons x xs ih =>
    exact triple_bind (h x (by simp)) fun _ => ih fun y hy => h y (by simp [hy])

/-- What does not depend on the state holds on. -/
theorem triple_const {p : Program σ ε α} {C : Prop} :
    Triple (fun _ => C) p (fun _ _ => C) fun _ _ => True := by
  intro s h
  rcases p s with ⟨a | e | _, t⟩
  · exact h
  · trivial
  · trivial

theorem triple_mono {p : Program σ ε α} {P' : σ → Prop} {Q' : α → σ → Prop} {E' : ε → σ → Prop}
    (h : Triple P p Q E) (hP : ∀ s, P' s → P s) (hQ : ∀ a s, Q a s → Q' a s)
    (hE : ∀ e s, E e s → E' e s) : Triple P' p Q' E' := by
  intro s hs
  have hp := h s (hP s hs)
  rcases hr : p s with ⟨a | e | _, t⟩ <;> rw [hr] at hp
  · exact hQ a t hp
  · exact hE e t hp
  · trivial

end Rules

theorem triple_and {P P' : σ → Prop} {Q Q' : α → σ → Prop} {E E' : ε → σ → Prop}
    {p : Program σ ε α} (h : Triple P p Q E) (h' : Triple P' p Q' E') :
    Triple (fun s => P s ∧ P' s) p (fun a s => Q a s ∧ Q' a s) fun e s => E e s ∧ E' e s := by
  intro s hs
  have hp := h s hs.1
  have hp' := h' s hs.2
  rcases hr : p s with ⟨a | e | _, t⟩ <;> rw [hr] at hp hp'
  · exact ⟨hp, hp'⟩
  · exact ⟨hp, hp'⟩
  · trivial

/-- However the program ends, `g` of the state is what it was. -/
def Preserves {γ : Type} (g : σ → γ) (p : Program σ ε α) : Prop := ∀ s, g (p s).2 = g s

section Preserves
variable {γ : Type} {g : σ → γ}

theorem preserves_pure (a : α) : Preserves g (Pure.pure a : Program σ ε α) := fun _ => rfl

theorem preserves_throw (e : ε) : Preserves g (throw e : Program σ ε α) := fun _ => rfl

theorem preserves_get : Preserves g (get : Program σ ε σ) := fun _ => rfl

theorem preserves_modify {f : σ → σ} (h : ∀ s, g (f s) = g s) :
    Preserves g (modify f : Program σ ε Unit) := h

theorem preserves_deref (o : Option α) : Preserves g (deref o : Program σ ε α) := by
  cases o <;> exact fun _ => rfl

theorem Preserves.bind {p : Program σ ε α} {f : α → Program σ ε β} (hp : Preserves g p)
    (hf : ∀ a, Preserves g (f a)) : Preserves g (p >>= f) := by
  intro s
  have h := hp s
  rw [bind_run]
  rcases hr : p s with ⟨a | e | _, t⟩ <;> rw [hr] at h
  · exact (hf a t).trans h
  · exact h
  · exact h

theorem Preserves.triple {p : Program σ ε α} (hp : Preserves g p) (P : γ → Prop) :
    Triple (fun s => P (g s)) p (fun _ s => P (g s)) fun _ s => P (g s) := by
  intro s hs
  rw [← hp s] at hs
  rcases hr : p s with ⟨a | e | _, t⟩ <;> rw [hr] at hs
  · exact hs
  · exact hs
  · trivial

theorem Preserves.tryCatch {p : Program σ ε α} {catches : ε → Bool} {handler : ε → Program σ ε α}
    (hp : Preserves g p) (hh : ∀ e, Preserves g (handler e)) :
    Preserves g (tryCatch p catches handler) := by
  intro s
  have h := hp s
  unfold Program.tryCatch
  rcases hr : p s with ⟨a | e | _, t⟩ <;> rw [hr] at h
  · exact h
  · cases hc : catches e with
    | true => simpa [hc] using (hh e t).trans h
    | false => simpa [hc] using h
  · exact h

end Preserves

/-- Every exception that leaves the program is one of `E`. -/
def ThrowsOnly (p : Program σ ε α) (E : ε → Prop) : Prop :=
  Triple (fun _ => True) p (fun _ _ => True) fun e _ => E e

section ThrowsOnly
variable {E E' : ε → Prop}

theorem throwsOnly_pure (a : α) : ThrowsOnly (Pure.pure a : Program σ ε α) E := fun _ _ => trivial

theorem throwsOnly_throw {e : ε} (h : E e) : ThrowsOnly (throw e : Program σ ε α) E := fun _ _ => h

theorem throwsOnly_get : ThrowsOnly (get : Program σ ε σ) E := fun _ _ => trivial

theorem throwsOnly_modify (f : σ → σ) : ThrowsOnly (modify f : Program σ ε Unit) E :=
  fun _ _ => trivial

theorem throwsOnly_deref (o : Option α) : ThrowsOnly (deref o : Program σ ε α) E :=
  triple_deref fun _ _ _ _ => trivial

theorem ThrowsOnly.bind {p : Program σ ε α} {f : α → Program σ ε β} (hp : ThrowsOnly p E)
    (hf : ∀ a, ThrowsOnly (f a) E) : ThrowsOnly (p >>= f) E := triple_bind hp hf

theorem ThrowsOnly.mono {p : Program σ ε α} (hp : ThrowsOnly p E) (h : ∀ e, E e → E' e) :
    ThrowsOnly p E' := triple_mono hp (fun _ => id) (fun _ _ => id) fun e _ => h e

/-- What is caught on the way is only rethrown by the handler. -/
theorem ThrowsOnly.tryCatch {p : Program σ ε α} {catches : ε → Bool}
    {handler : ε → Program σ ε α} (hp : ThrowsOnly p fun e => catches e = true)
    (hh : ∀ e, ThrowsOnly (handler e) E) : ThrowsOnly (tryCatch p catches handler) E :=
  triple_tryCatch hp (fun e _ => triple_mono (hh e) (fun _ _ => trivial) (fun _ _ => id)
    fun _ _ => id) fun e _ hc he => absurd he (by simp [hc])

theorem throwsOnly_forEach {xs : List α} {body : α → Program σ ε Unit}
    (h : ∀ x ∈ xs, ThrowsOnly (body x) E) : ThrowsOnly (forEach xs body) E := triple_forEach h

end ThrowsOnly

/-- An exception leaves the program when it starts in `s`. -/
def Throws (p : Program σ ε α) (s : σ) : Prop := ∃ e t, p s = (.throws e, t)

theorem ThrowsOnly.not_throws {p : Program σ ε α} (hp : ThrowsOnly p fun _ => False) (s : σ) :
    ¬ Throws p s := by
  rintro ⟨e, t, h⟩
  simpa [h] using hp s trivial

theorem throws_bind_pure {p : Program σ ε α} {f : α → β} {s : σ} :
    Throws (p >>= fun a => Pure.pure (f a)) s ↔ Throws p s := by
  rw [Throws, bind_run, Throws]
  rcases p s with ⟨a | e | _, t⟩ <;> simp

end Program
end V2IHub.Foundation
