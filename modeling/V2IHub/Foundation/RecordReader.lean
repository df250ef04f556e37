import V2IHub.Foundation.Bytes
import Mathlib.Logic.Relation

/-! Loops that read a byte string record by record. -/
namespace V2IHub.Foundation
variable {σ : Type*}

/-- The state of a reader and the bytes it has not read: `more` decides whether a record follows,
`step` reads it, or fails. -/
structure RecordReader (σ : Type*) where
  more : Bytes → Bool
  step : σ → Bytes → Option (σ × Bytes)

namespace RecordReader
variable (reader : RecordReader σ)

def run : ℕ → σ → Bytes → Option σ
  | 0, s, bytes => if reader.more bytes then none else some s
  | fuel + 1, s, bytes =>
    if reader.more bytes then (reader.step s bytes).bind fun r => run fuel r.1 r.2 else some s

/-- Every record takes at least one byte. -/
def Advances : Prop := ∀ s bytes r, reader.step s bytes = some r → r.2.length < bytes.length

def Goes (c d : σ × Bytes) : Prop := reader.more c.2 = true ∧ reader.step c.1 c.2 = some d

/-- Over `front` the reader gets from `s` to `t`, whatever follows, if that is long enough. -/
def Reads (tail : ℕ) (s : σ) (front : Bytes) (t : σ) : Prop :=
  ∀ rest : Bytes, tail ≤ rest.length →
    Relation.ReflTransGen reader.Goes (s, front ++ rest) (t, rest)

variable {reader} {tail : ℕ} {s t u : σ} {front back : Bytes}

theorem Reads.refl : reader.Reads tail s [] s := fun _ _ => .refl

theorem Reads.trans (h : reader.Reads tail s front t) (k : reader.Reads tail t back u) :
    reader.Reads tail s (front ++ back) u := by
  intro rest hrest
  rw [List.append_assoc]
  exact (h (back ++ rest) (by simp; omega)).trans (k rest hrest)

/-- One record, of which a step may leave the end unread. -/
theorem Reads.record (hmore : ∀ rest : Bytes, tail ≤ rest.length → reader.more (front ++ rest))
    (hstep : ∀ rest, ∃ unread, reader.step s (front ++ rest) = some (t, unread ++ rest) ∧
      reader.Reads tail t unread u) : reader.Reads tail s front u := by
  intro rest hrest
  obtain ⟨unread, hgo, hreads⟩ := hstep rest
  exact .head ⟨hmore rest hrest, hgo⟩ (hreads rest hrest)

/-- A loop that writes a record, or several, for every index. -/
theorem Reads.loop {n : ℕ} {f : Fin n → Bytes} {P : ℕ → σ → Prop}
    (hstep : ∀ (i : Fin n) s, P i s → ∃ t, reader.Reads tail s (f i) t ∧ P (i + 1) t)
    (h : P 0 s) : ∃ t, reader.Reads tail s ((List.finRange n).flatMap f) t ∧ P n t := by
  induction n generalizing s P with
  | zero => exact ⟨s, Reads.refl, h⟩
  | succ n ih =>
    obtain ⟨t, hfirst, ht⟩ := hstep 0 s h
    obtain ⟨u, hrest, hu⟩ := ih (f := f ∘ Fin.succ) (P := fun i => P (i + 1))
      (fun i s hs => hstep i.succ s hs) ht
    refine ⟨u, ?_, hu⟩
    rw [List.finRange_succ, List.flatMap_cons, List.flatMap_map]
    exact hfirst.trans hrest

theorem run_of_goes {c d : σ × Bytes} (hadv : reader.Advances)
    (h : Relation.ReflTransGen reader.Goes c d) (hstop : reader.more d.2 = false) {fuel : ℕ}
    (hfuel : c.2.length ≤ fuel) : reader.run fuel c.1 c.2 = some d.1 := by
  induction h using Relation.ReflTransGen.head_induction_on generalizing fuel with
  | refl => cases fuel <;> simp [run, hstop]
  | head hgo _ ih =>
    obtain ⟨hmore, hstep⟩ := hgo
    have hlt := hadv _ _ _ hstep
    obtain ⟨fuel, rfl⟩ : ∃ k, fuel = k + 1 := ⟨fuel - 1, by omega⟩
    simp only [run, hmore, if_true, hstep, Option.bind_some]
    exact ih (by omega)

/-- What the loop returns once its reader is known to get through the bytes. -/
theorem Reads.run_eq (h : reader.Reads tail s front t) (hadv : reader.Advances) {rest : Bytes}
    (hrest : tail ≤ rest.length) (hstop : reader.more rest = false) {fuel : ℕ}
    (hfuel : (front ++ rest).length ≤ fuel) : reader.run fuel s (front ++ rest) = some t :=
  run_of_goes hadv (h rest hrest) hstop hfuel

/-- What every record keeps, the loop keeps. -/
theorem run_invariant {I : σ → Prop}
    (hstep : ∀ s bytes r, reader.step s bytes = some r → I s → I r.1) {fuel : ℕ} {bytes : Bytes}
    (hs : I s) (hrun : reader.run fuel s bytes = some t) : I t := by
  induction fuel generalizing s bytes with
  | zero =>
    rw [run] at hrun
    split at hrun <;> cases hrun
    exact hs
  | succ fuel ih =>
    rw [run] at hrun
    split at hrun
    · obtain ⟨r, hr, hrest⟩ := Option.bind_eq_some_iff.mp hrun
      exact ih (hstep s bytes r hr hs) hrest
    · cases hrun
      exact hs

theorem eq_of_not_more {c d : σ × Bytes} (h : Relation.ReflTransGen reader.Goes c d)
    (hstop : ¬ reader.more c.2 = true) : d = c := by
  rcases Relation.ReflTransGen.cases_head h with rfl | ⟨e, hgo, -⟩
  · rfl
  · exact absurd hgo.1 hstop

/-- The loop ends in a state exactly when no record that it comes to fails. -/
theorem run_isSome_iff (hadv : reader.Advances) {fuel : ℕ} {bytes : Bytes}
    (hfuel : bytes.length ≤ fuel) :
    (reader.run fuel s bytes).isSome ↔ ∀ c, Relation.ReflTransGen reader.Goes (s, bytes) c →
      reader.more c.2 = true → (reader.step c.1 c.2).isSome := by
  induction fuel generalizing s bytes with
  | zero =>
    rw [run]
    by_cases hmore : reader.more bytes = true
    · rw [if_pos hmore]
      refine iff_of_false (by simp) fun h => ?_
      obtain ⟨r, hr⟩ := Option.isSome_iff_exists.mp (h _ .refl hmore)
      have hlt := hadv _ _ _ hr
      simp only at hlt
      omega
    · rw [if_neg hmore]
      refine iff_of_true rfl fun c hc hc' => ?_
      obtain rfl := eq_of_not_more hc hmore
      exact absurd hc' hmore
  | succ fuel ih =>
    rw [run]
    by_cases hmore : reader.more bytes = true
    · rw [if_pos hmore]
      cases hr : reader.step s bytes with
      | none =>
        refine iff_of_false (by simp) fun h => ?_
        have hsome := h _ .refl hmore
        rw [hr] at hsome
        cases hsome
      | some r =>
        have hlt := hadv _ _ _ hr
        rw [Option.bind_some, ih (by omega)]
        constructor
        · intro h c hc hc'
          rcases Relation.ReflTransGen.cases_head hc with rfl | ⟨d, hgo, hd⟩
          · exact Option.isSome_iff_exists.mpr ⟨r, hr⟩
          · obtain rfl : r = d := Option.some.inj (hr.symm.trans hgo.2)
            exact h c hd hc'
        · exact fun h c hc => h c (.head ⟨hmore, hr⟩ hc)
    · rw [if_neg hmore]
      refine iff_of_true rfl fun c hc hc' => ?_
      obtain rfl := eq_of_not_more hc hmore
      exact absurd hc' hmore

end RecordReader

theorem reader_pure {τ α : Type} (x : α) (s : τ) :
    (pure x : StateT τ Option α) s = some (x, s) := rfl

section Ensures
variable {τ α β : Type} {P : β → Prop}

/-- What a reader returns, if it returns, satisfies `P`. -/
def Ensures (P : α → Prop) (f : StateT τ Option α) : Prop := ∀ s r, f s = some r → P r.1

theorem Ensures.pure {x : β} (h : P x) : Ensures P (Pure.pure x : StateT τ Option β) := by
  intro s r hr
  cases hr
  exact h

theorem Ensures.bind {f : StateT τ Option α} {k : α → StateT τ Option β}
    (hk : ∀ x, Ensures P (k x)) : Ensures P (f >>= k) := by
  intro s r h
  obtain ⟨⟨x, t⟩, -, hr⟩ := Option.bind_eq_some_iff.mp h
  exact hk x t r hr

/-- A first part whose result matters. -/
theorem Ensures.bind_of {Q : α → Prop} {f : StateT τ Option α} {k : α → StateT τ Option β}
    (hf : Ensures Q f) (hk : ∀ x, Q x → Ensures P (k x)) : Ensures P (f >>= k) := by
  intro s r h
  obtain ⟨⟨x, t⟩, hx, hr⟩ := Option.bind_eq_some_iff.mp h
  exact hk x (hf s (x, t) hx) t r hr

theorem Ensures.map {f : StateT τ Option α} (g : α → β) (h : Ensures (fun x => P (g x)) f) :
    Ensures P (g <$> f) := by
  intro s r hr
  obtain ⟨⟨x, t⟩, hx, hr⟩ := Option.bind_eq_some_iff.mp hr
  cases hr
  exact h s (x, t) hx

end Ensures

section Shrinks
variable {τ α β : Type} {size : τ → ℕ}

/-- A reader that never gives back what it has read. -/
def Shrinks (size : τ → ℕ) (f : StateT τ Option α) : Prop :=
  ∀ s r, f s = some r → size r.2 ≤ size s

theorem Shrinks.pure (x : α) : Shrinks size (Pure.pure x) := by
  intro s r h
  cases h
  exact le_rfl

theorem Shrinks.bind {f : StateT τ Option α} {k : α → StateT τ Option β} (hf : Shrinks size f)
    (hk : ∀ x, Shrinks size (k x)) : Shrinks size (f >>= k) := by
  intro s r h
  obtain ⟨⟨x, t⟩, hx, hr⟩ := Option.bind_eq_some_iff.mp h
  exact (hk x t r hr).trans (hf s (x, t) hx)

theorem Shrinks.map {f : StateT τ Option α} (g : α → β) (hf : Shrinks size f) :
    Shrinks size (g <$> f) := by
  intro s r h
  obtain ⟨⟨x, t⟩, hx, hr⟩ := Option.bind_eq_some_iff.mp h
  cases hr
  exact hf s (x, t) hx

end Shrinks

section Takes
variable {τ α β : Type} {m n : ℕ} {f : StateT (List τ) Option α} {k : α → StateT (List τ) Option β}

/-- A reader of so many tokens. -/
def Takes (n : ℕ) (f : StateT (List τ) Option α) : Prop :=
  ∀ s, (f s).map Prod.snd = if n ≤ s.length then some (s.drop n) else none

/-- A reader that fails only where so many tokens are missing. -/
def Needs (n : ℕ) (f : StateT (List τ) Option α) : Prop := ∀ s, (f s).isSome ↔ n ≤ s.length

theorem Takes.needs (h : Takes n f) : Needs n f := by
  intro s
  rw [← Option.isSome_map (f := Prod.snd), h s]
  split_ifs with hn <;> simp [hn]

theorem Takes.pure (x : α) : Takes (τ := τ) 0 (Pure.pure x) := by
  intro s
  simp [reader_pure]

theorem Takes.eq_none (h : Takes n f) {s : List τ} (hn : s.length < n) : f s = none := by
  have hs := h s
  rw [if_neg (not_le.mpr hn)] at hs
  simpa using hs

theorem Takes.exists_eq (h : Takes n f) {s : List τ} (hn : n ≤ s.length) :
    ∃ x, f s = some (x, s.drop n) := by
  have hs := h s
  rw [if_pos hn, Option.map_eq_some_iff] at hs
  obtain ⟨⟨x, t⟩, hf, rfl⟩ := hs
  exact ⟨x, hf⟩

theorem Takes.bind (hf : Takes m f) (hk : ∀ x, Takes n (k x)) : Takes (m + n) (f >>= k) := by
  intro s
  change ((f s).bind fun r => k r.1 r.2).map Prod.snd = _
  by_cases hm : m ≤ s.length
  · obtain ⟨x, hx⟩ := hf.exists_eq hm
    have hiff : n ≤ s.length - m ↔ m + n ≤ s.length := by omega
    rw [hx, Option.bind_some, hk x, List.length_drop, List.drop_drop]
    simp only [hiff]
  · have hmn : ¬ m + n ≤ s.length := by omega
    rw [hf.eq_none (not_le.mp hm), if_neg hmn]
    rfl

theorem Takes.map (g : α → β) (hf : Takes n f) : Takes n (g <$> f) :=
  hf.bind fun x => .pure (g x)

theorem Takes.bind_needs (hf : Takes m f) (hk : ∀ x, Needs n (k x)) : Needs (m + n) (f >>= k) := by
  intro s
  change ((f s).bind fun r => k r.1 r.2).isSome ↔ _
  by_cases hm : m ≤ s.length
  · obtain ⟨x, hx⟩ := hf.exists_eq hm
    rw [hx, Option.bind_some, hk x, List.length_drop]
    omega
  · rw [hf.eq_none (not_le.mp hm)]
    exact iff_of_false (by simp) (by omega)

theorem isSome_bind_pure (f : StateT (List τ) Option α) (g : α → β) (s : List τ) :
    ((f >>= fun x => Pure.pure (g x)) s).isSome = (f s).isSome := by
  change ((f s).bind fun r => some (g r.1, r.2)).isSome = _
  cases f s <;> rfl

theorem Needs.bind_pure (hf : Needs n f) (g : α → β) :
    Needs n (f >>= fun x => Pure.pure (g x)) := by
  intro s
  rw [isSome_bind_pure]
  exact hf s

end Takes
end V2IHub.Foundation
