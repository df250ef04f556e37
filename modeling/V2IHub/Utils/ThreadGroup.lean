import V2IHub.Foundation.Machine

/-! Assignment of message sources to worker threads: `ThreadGroupAssignment` with every
operation on one of its atomics as a step of its own. -/
namespace V2IHub.Utils
open Foundation

inductive Strategy where
  | RoundRobin
  | Random
  | ShortestQueue
  | END
deriving DecidableEq

/-- The next step of a thread that calls `assign` or `unassign`. -/
inductive CallerPc (K : Type*) where
  | idle
  | increment (k : K)
  | load (k : K)
  | choose (k : K)
  | incrementNext (k : K) (tId : ℕ)
  | resetNext (k : K) (tId : ℕ)
  | store (k : K) (tId : ℕ)
  | return (k : K) (tId : ℤ)
  | decrement (k : K) (tId : ℤ)
  | reset (k : K)
deriving DecidableEq

/-- The assignment table, the state of its callers, and for each source the threads of the
messages that were assigned and not yet unassigned. -/
structure ThreadGroupAssignment (C K : Type*) where
  count : K → BitVec 64
  threadId : K → ℤ
  next : ℕ
  size : ℕ
  strategy : Strategy
  pc : C → CallerPc K
  outstanding : K → List ℤ

/-- What `rand()` and the queue sizes of the workers give at a step: `shorter i` is the
outcome of the comparison for worker `i`. -/
structure Environment where
  rand : ℕ
  shorter : ℕ → Bool

inductive AssignmentAct (C K : Type*) where
  | assign (c : C) (k : K)
  | unassign (c : C) (k : K) (tId : ℤ)
  | step (c : C) (env : Environment)
  | pushBack
  | setStrategy (strategy : Strategy)

section Steps
variable {C G I : Type*}

/-- The loop of the shortest-queue strategy. -/
def shortestQueue (shorter : ℕ → Bool) (size : ℕ) : ℕ :=
  (List.range size).foldl (fun tId i => if 0 < i ∧ shorter i then i else tId) 0

namespace ThreadGroupAssignment

def moveTo [DecidableEq C] (s : ThreadGroupAssignment C (G × I)) (c : C) (pc : CallerPc (G × I)) :
    ThreadGroupAssignment C (G × I) := { s with pc := Function.update s.pc c pc }

section Moves
variable [DecidableEq C] (s : ThreadGroupAssignment C (G × I)) (c : C) (pc : CallerPc (G × I))

@[simp] theorem moveTo_pc : (s.moveTo c pc).pc = Function.update s.pc c pc := rfl

@[simp] theorem moveTo_threadId : (s.moveTo c pc).threadId = s.threadId := rfl

@[simp] theorem moveTo_outstanding : (s.moveTo c pc).outstanding = s.outstanding := rfl

end Moves

section Setters
variable [DecidableEq G] [DecidableEq I] (s : ThreadGroupAssignment C (G × I)) (k : G × I)

def setCount (n : BitVec 64) : ThreadGroupAssignment C (G × I) :=
  { s with count := Function.update s.count k n }

def setThreadId (tId : ℤ) : ThreadGroupAssignment C (G × I) :=
  { s with threadId := Function.update s.threadId k tId }

def setOutstanding (ts : List ℤ) : ThreadGroupAssignment C (G × I) :=
  { s with outstanding := Function.update s.outstanding k ts }

@[simp] theorem setCount_pc (n : BitVec 64) : (s.setCount k n).pc = s.pc := rfl

@[simp] theorem setCount_threadId (n : BitVec 64) : (s.setCount k n).threadId = s.threadId := rfl

@[simp] theorem setCount_outstanding (n : BitVec 64) :
    (s.setCount k n).outstanding = s.outstanding := rfl

@[simp] theorem setThreadId_pc (tId : ℤ) : (s.setThreadId k tId).pc = s.pc := rfl

@[simp] theorem setThreadId_threadId (tId : ℤ) :
    (s.setThreadId k tId).threadId = Function.update s.threadId k tId := rfl

@[simp] theorem setThreadId_outstanding (tId : ℤ) :
    (s.setThreadId k tId).outstanding = s.outstanding := rfl

@[simp] theorem setOutstanding_pc (ts : List ℤ) : (s.setOutstanding k ts).pc = s.pc := rfl

@[simp] theorem setOutstanding_threadId (ts : List ℤ) :
    (s.setOutstanding k ts).threadId = s.threadId := rfl

@[simp] theorem setOutstanding_outstanding (ts : List ℤ) :
    (s.setOutstanding k ts).outstanding = Function.update s.outstanding k ts := rfl

end Setters

/-- The `switch` of `assign`; the round-robin case takes up to three steps on `next`. -/
def chooseThread (s : ThreadGroupAssignment C (G × I)) (k : G × I) (env : Environment) :
    CallerPc (G × I) :=
  match s.strategy with
  | .RoundRobin => .incrementNext k s.next
  | .Random => .store k (env.rand % s.size)
  | .ShortestQueue => .store k (shortestQueue env.shorter s.size)
  | .END => .store k 0

variable [DecidableEq C] [DecidableEq G] [DecidableEq I]

/-- One atomic step of caller `c`. -/
def stepCaller [Zero G] [Zero I] (s : ThreadGroupAssignment C (G × I)) (c : C) (env : Environment) :
    Option (ThreadGroupAssignment C (G × I)) :=
  match s.pc c with
  | .idle => none
  | .increment k => some ((s.setCount k (s.count k + 1)).moveTo c (.load k))
  | .load k =>
    -- if (tId < 0 || (group == 0 && id == 0))
    if s.threadId k < 0 ∨ k = (0, 0) then some (s.moveTo c (.choose k))
    else some (s.moveTo c (.return k (s.threadId k)))
  | .choose k => some (s.moveTo c (s.chooseThread k env))
  | .incrementNext k tId => some ({ s with next := s.next + 1 }.moveTo c
      (if s.size ≤ s.next + 1 then .resetNext k tId else .store k tId))
  | .resetNext k tId => some ({ s with next := 0 }.moveTo c (.store k tId))
  | .store k tId => some ((s.setThreadId k tId).moveTo c (.return k tId))
  | .return k tId =>
    some ((s.setOutstanding k (s.outstanding k ++ [tId])).moveTo c .idle)
  | .decrement k tId =>
    -- if (!(--assignments[group][id].count))
    let s' := (s.setCount k (s.count k - 1)).setOutstanding k ((s.outstanding k).erase tId)
    some (s'.moveTo c (if s.count k - 1 = 0 then .reset k else .idle))
  | .reset k => some ((s.setThreadId k (-1)).moveTo c .idle)

def machine [Zero G] [Zero I] : Machine (ThreadGroupAssignment C (G × I)) (AssignmentAct C (G × I)) where
  step s
    | .assign c k =>
      -- if (_threads.size() == 0) return -1;
      if s.pc c = .idle then some (if s.size = 0 then s else s.moveTo c (.increment k)) else none
    | .unassign c k tId => if s.pc c = .idle then some (s.moveTo c (.decrement k tId)) else none
    | .step c env => s.stepCaller c env
    | .pushBack => some { s with size := s.size + 1 }
    | .setStrategy strategy => some { s with strategy := strategy }

/-- The constructor's initial values. -/
def start (size : ℕ) : ThreadGroupAssignment C (G × I) where
  count := fun _ => 0
  threadId := fun _ => -1
  next := 0
  size := size
  strategy := .RoundRobin
  pc := fun _ => .idle
  outstanding := fun _ => []

/-- The outstanding messages of a source are all with one thread. -/
def Pinned [Zero G] [Zero I] (s : ThreadGroupAssignment C (G × I)) : Prop :=
  ∀ k ≠ (0, 0), ∀ t ∈ s.outstanding k, ∀ t' ∈ s.outstanding k, t = t'

end ThreadGroupAssignment

theorem chooseThread_eq (s : ThreadGroupAssignment C (G × I)) (k : G × I) (env : Environment) :
    ∃ tId, s.chooseThread k env = .incrementNext k tId ∨ s.chooseThread k env = .store k tId := by
  unfold ThreadGroupAssignment.chooseThread
  split
  · exact ⟨_, Or.inl rfl⟩
  all_goals exact ⟨_, Or.inr rfl⟩

end Steps

section Pinning
variable {C G I : Type*}

/-- Between the load of a negative thread id and the store of a new one. -/
def CallerPc.choosing {K : Type*} [DecidableEq K] (k : K) : CallerPc K → Bool
  | choose k' | incrementNext k' _ | resetNext k' _ | store k' _ => k' = k
  | _ => false

/-- An `assign` that has its thread and is about to return it. -/
def CallerPc.returning {K : Type*} [DecidableEq K] (k : K) : CallerPc K → Bool
  | .return k' _ => k' = k
  | _ => false

/-- No `unassign` drops the thread of a source while a message of the source is outstanding or
an `assign` is about to return that thread, and no two calls of `assign` choose a thread for one
source at the same time. -/
def NoRace [DecidableEq G] [DecidableEq I] (s : ThreadGroupAssignment C (G × I)) :
    AssignmentAct C (G × I) → Prop
  | .step c _ =>
    match s.pc c with
    | .load k => s.threadId k < 0 → ∀ c', (s.pc c').choosing k = false
    | .reset k => s.outstanding k = [] ∧ ∀ c', (s.pc c').returning k = false
    | _ => True
  | _ => True

variable [DecidableEq G] [DecidableEq I]

instance [Fintype C] (s : ThreadGroupAssignment C (G × I)) (a : AssignmentAct C (G × I)) :
    Decidable (NoRace s a) := by
  unfold NoRace
  repeat' split
  all_goals infer_instance

/-- The thread id of a source is that of its outstanding messages and of the calls about to
return; it is negative while a thread is being chosen. -/
structure SourceInv (s : ThreadGroupAssignment C (G × I)) (k : G × I) : Prop where
  outstanding : ∀ t ∈ s.outstanding k, s.threadId k = t ∧ 0 ≤ t
  returning : ∀ c t, s.pc c = .return k t → s.threadId k = t ∧ 0 ≤ t
  choosing : ∀ c, (s.pc c).choosing k = true → s.threadId k < 0
  alone : ∀ c c', (s.pc c).choosing k = true → (s.pc c').choosing k = true → c = c'

namespace SourceInv
variable {s s' : ThreadGroupAssignment C (G × I)} {k : G × I}

/-- The source reads the same in both states. -/
theorem congr {u : ThreadGroupAssignment C (G × I)} (hi : SourceInv s k)
    (ht : u.threadId k = s.threadId k) (ho : u.outstanding k = s.outstanding k)
    (hp : u.pc = s.pc) : SourceInv u k := by
  obtain ⟨hout, hret, hchoose, halone⟩ := hi
  constructor <;> simp only [ht, ho, hp] <;> assumption

theorem unassigned (hi : SourceInv s k) (tId : ℤ) :
    SourceInv (s.setOutstanding k ((s.outstanding k).erase tId)) k := by
  refine ⟨?_, hi.returning, hi.choosing, hi.alone⟩
  intro t ht
  exact hi.outstanding t (List.mem_of_mem_erase
    (by simpa using ht))

variable [DecidableEq C] {c : C}

theorem choosing_update {pc : CallerPc (G × I)}
    (hc : pc.choosing k = true → (s.pc c).choosing k = true) {c' : C}
    (h : (Function.update s.pc c pc c').choosing k = true) : (s.pc c').choosing k = true := by
  by_cases hcc : c' = c
  · subst hcc
    exact hc (by simpa using h)
  · rwa [Function.update_of_ne hcc] at h

/-- A caller moves on without touching the source. -/
theorem moveTo (hi : SourceInv s k) {pc : CallerPc (G × I)}
    (hr : ∀ t, pc = .return k t → s.threadId k = t ∧ 0 ≤ t)
    (hc : pc.choosing k = true → (s.pc c).choosing k = true) : SourceInv (s.moveTo c pc) k := by
  constructor
  · exact hi.outstanding
  · intro c' t h
    by_cases hcc : c' = c
    · subst hcc
      exact hr t (by simpa using h)
    · exact hi.returning c' t (by simpa [hcc] using h)
  · intro c' h
    exact hi.choosing c' (choosing_update hc h)
  · intro c₁ c₂ h₁ h₂
    exact hi.alone c₁ c₂ (choosing_update hc h₁) (choosing_update hc h₂)

/-- A caller starts to choose a thread, alone. -/
theorem choose (hi : SourceInv s k) (hneg : s.threadId k < 0)
    (hnone : ∀ c', (s.pc c').choosing k = false) : SourceInv (s.moveTo c (.choose k)) k := by
  have hself : ∀ c', (Function.update s.pc c (.choose k) c').choosing k = true → c' = c := by
    intro c' h
    by_contra hcc
    rw [Function.update_of_ne hcc, hnone] at h
    simp at h
  constructor
  · exact hi.outstanding
  · intro c' t h
    by_cases hcc : c' = c
    · subst hcc
      simp at h
    · exact hi.returning c' t (by simpa [hcc] using h)
  · exact fun _ _ => hneg
  · exact fun c₁ c₂ h₁ h₂ => (hself c₁ h₁).trans (hself c₂ h₂).symm

/-- The chosen thread is stored: no message was outstanding, and nobody else was choosing. -/
theorem store (hi : SourceInv s k) {tId : ℕ} (hpc : s.pc c = .store k tId) :
    SourceInv ((s.setThreadId k tId).moveTo c (.return k tId)) k := by
  have hmine : (s.pc c).choosing k = true := by simp [hpc, CallerPc.choosing]
  have hneg := hi.choosing c hmine
  have hself : ∀ c', (Function.update s.pc c (.return k tId) c').choosing k = false := by
    intro c'
    by_contra h
    by_cases hcc : c' = c
    · subst hcc
      simp [CallerPc.choosing] at h
    · rw [Function.update_of_ne hcc] at h
      exact hcc (hi.alone c' c (by simpa using h) hmine)
  constructor
  · intro t ht
    have := hi.outstanding t ht
    omega
  · intro c' t h
    by_cases hcc : c' = c
    · subst hcc
      have ht : (tId : ℤ) = t := by simpa using h
      simp [← ht]
    · have := hi.returning c' t (by simpa [hcc] using h)
      omega
  · intro c' h
    simp [hself c'] at h
  · intro c' _ h
    simp [hself c'] at h

/-- The thread of a source without outstanding messages is dropped. -/
theorem reset (hi : SourceInv s k) (hout : s.outstanding k = [])
    (hret : ∀ c', (s.pc c').returning k = false) :
    SourceInv ((s.setThreadId k (-1)).moveTo c .idle) k := by
  have hset : SourceInv (s.setThreadId k (-1)) k := by
    refine ⟨?_, ?_, ?_, hi.alone⟩
    · simp [hout]
    · intro c' t h
      have hnot := hret c'
      rw [show s.pc c' = .return k t from h] at hnot
      simp [CallerPc.returning] at hnot
    · simp
  exact hset.moveTo (by simp) (by simp [CallerPc.choosing])

theorem returned (hi : SourceInv s k) {tId : ℤ} (hpc : s.pc c = .return k tId) :
    SourceInv ((s.setOutstanding k (s.outstanding k ++ [tId])).moveTo c .idle) k := by
  have hset : SourceInv (s.setOutstanding k (s.outstanding k ++ [tId])) k := by
    refine ⟨?_, hi.returning, hi.choosing, hi.alone⟩
    intro t ht
    have hmem : t ∈ s.outstanding k ∨ t = tId := by simpa using ht
    rcases hmem with ht | rfl
    · exact hi.outstanding t ht
    · exact hi.returning c t hpc
  exact hset.moveTo (by simp) (by simp [CallerPc.choosing])

/-- A step for another source. -/
theorem elsewhere (hi : SourceInv s k) {pc : CallerPc (G × I)}
    (ht : s'.threadId k = s.threadId k)
    (ho : s'.outstanding k = s.outstanding k) (hp : s'.pc = s.pc)
    (hr : ∀ t, pc ≠ .return k t) (hc : pc.choosing k = false) : SourceInv (s'.moveTo c pc) k :=
  (hi.congr ht ho hp).moveTo (fun t h => absurd h (hr t)) (by simp [hc])

end SourceInv

open ThreadGroupAssignment

theorem sourceInv_start (size : ℕ) (k : G × I) :
    SourceInv (start size : ThreadGroupAssignment C (G × I)) k := by
  constructor <;> simp [start, CallerPc.choosing]

variable [DecidableEq C] [Zero G] [Zero I]

theorem sourceInv_step {s s' : ThreadGroupAssignment C (G × I)} {c : C} {env : Environment}
    {k : G × I} (hk : k ≠ (0, 0)) (hi : SourceInv s k) (hg : NoRace s (.step c env))
    (h : s.stepCaller c env = some s') : SourceInv s' k := by
  unfold stepCaller at h
  cases hpc : s.pc c with
  | idle => simp [hpc] at h
  | increment k₀ =>
    simp only [hpc] at h
    obtain rfl := Option.some.inj h
    exact hi.elsewhere rfl rfl rfl (by simp) rfl
  | load k₀ =>
    simp only [hpc] at h
    simp only [NoRace, hpc] at hg
    by_cases hk₀ : k₀ = k
    · subst hk₀
      split at h
      · next hneg =>
        obtain rfl := Option.some.inj h
        have hneg : s.threadId k₀ < 0 := hneg.resolve_right hk
        exact hi.choose hneg (hg hneg)
      · next hnn =>
        obtain rfl := Option.some.inj h
        have hnn : 0 ≤ s.threadId k₀ := by
          by_contra hlt
          exact hnn (Or.inl (by omega))
        refine hi.moveTo ?_ (by simp [CallerPc.choosing])
        rintro t ht
        obtain rfl : s.threadId k₀ = t := by simpa using ht
        exact ⟨rfl, hnn⟩
    · split at h <;> obtain rfl := Option.some.inj h
      · exact hi.elsewhere rfl rfl rfl (by simp) (by simp [CallerPc.choosing, hk₀])
      · exact hi.elsewhere rfl rfl rfl (by simp [hk₀]) (by simp [CallerPc.choosing])
  | choose k₀ =>
    simp only [hpc] at h
    obtain rfl := Option.some.inj h
    obtain ⟨tId, hch | hch⟩ := chooseThread_eq s k₀ env <;>
      exact hi.moveTo (by simp [hch]) (by simp [hch, hpc, CallerPc.choosing])
  | incrementNext k₀ tId =>
    simp only [hpc] at h
    obtain rfl := Option.some.inj h
    refine (hi.congr (u := { s with next := s.next + 1 }) rfl rfl rfl).moveTo ?_ ?_
    · intro t
      split <;> simp
    · split <;> simp [hpc, CallerPc.choosing]
  | resetNext k₀ tId =>
    simp only [hpc] at h
    obtain rfl := Option.some.inj h
    exact (hi.congr (u := { s with next := 0 }) rfl rfl rfl).moveTo (by simp)
      (by simp [hpc, CallerPc.choosing])
  | store k₀ tId =>
    simp only [hpc] at h
    obtain rfl := Option.some.inj h
    by_cases hk₀ : k₀ = k
    · subst hk₀
      exact hi.store hpc
    · exact hi.elsewhere (by simp [Function.update_of_ne (Ne.symm hk₀)]) rfl rfl (by simp [hk₀])
        (by simp [CallerPc.choosing])
  | «return» k₀ tId =>
    simp only [hpc] at h
    obtain rfl := Option.some.inj h
    by_cases hk₀ : k₀ = k
    · subst hk₀
      exact hi.returned hpc
    · exact hi.elsewhere rfl (by simp [Function.update_of_ne (Ne.symm hk₀)]) rfl (by simp)
        (by simp [CallerPc.choosing])
  | decrement k₀ tId =>
    simp only [hpc] at h
    obtain rfl := Option.some.inj h
    have hnext : ∀ t, (if s.count k₀ - 1 = 0 then .reset k₀ else .idle) ≠
        CallerPc.return k t := by
      intro t
      split <;> simp
    have hnot : (if s.count k₀ - 1 = 0 then CallerPc.reset k₀ else .idle).choosing k = false := by
      split <;> rfl
    by_cases hk₀ : k₀ = k
    · subst hk₀
      have hcount := hi.congr (u := s.setCount k₀ (s.count k₀ - 1)) rfl rfl rfl
      exact (hcount.unassigned tId).moveTo (fun t ht => absurd ht (hnext t))
        (fun hc => by rw [hnot] at hc; simp at hc)
    · exact hi.elsewhere rfl (by simp [Function.update_of_ne (Ne.symm hk₀)]) rfl hnext hnot
  | reset k₀ =>
    simp only [hpc] at h
    simp only [NoRace, hpc] at hg
    obtain rfl := Option.some.inj h
    by_cases hk₀ : k₀ = k
    · subst hk₀
      exact hi.reset hg.1 hg.2
    · exact hi.elsewhere (by simp [Function.update_of_ne (Ne.symm hk₀)]) rfl rfl (by simp) rfl

theorem sourceInv_machine {s s' : ThreadGroupAssignment C (G × I)} {a : AssignmentAct C (G × I)}
    {k : G × I} (hk : k ≠ (0, 0)) (hi : SourceInv s k) (hg : NoRace s a)
    (h : machine.step s a = some s') : SourceInv s' k := by
  cases a with
  | assign c k₀ =>
    simp only [machine] at h
    split at h
    · obtain rfl := Option.some.inj h
      split
      · exact hi
      · exact hi.elsewhere rfl rfl rfl (by simp) rfl
    · simp at h
  | unassign c k₀ tId =>
    simp only [machine] at h
    split at h
    · obtain rfl := Option.some.inj h
      exact hi.elsewhere rfl rfl rfl (by simp) rfl
    · simp at h
  | step c env => exact sourceInv_step hk hi hg h
  | pushBack | setStrategy strategy =>
    obtain rfl := Option.some.inj h
    exact hi.congr rfl rfl rfl

/-- Without the two races every source stays with one thread. -/
theorem pinned_of_noRace (size : ℕ) (acts : List (AssignmentAct C (G × I)))
    {s : ThreadGroupAssignment C (G × I)} (hg : machine.Obeys NoRace (start size) acts)
    (hr : machine.run (start size) acts = some s) : s.Pinned := by
  intro k hk
  have hi : SourceInv s k :=
    Machine.obeys_invariant (fun s a t hi hg h => sourceInv_machine hk hi hg h)
      (sourceInv_start size k) hg hr
  intro t ht t' ht'
  rw [← (hi.outstanding t ht).1, ← (hi.outstanding t' ht').1]

/-- One worker gets a message, and so does the next while the first is outstanding. -/
def calmRun : List (AssignmentAct (Fin 3) (ℕ × ℕ)) :=
  let env : Environment := ⟨0, fun _ => false⟩
  AssignmentAct.assign 0 (1, 1) :: List.replicate 6 (AssignmentAct.step 0 env) ++
    AssignmentAct.assign 1 (1, 1) :: List.replicate 3 (AssignmentAct.step 1 env) ++
    AssignmentAct.unassign 0 (1, 1) 0 :: [AssignmentAct.step 0 env]

/-- The last `unassign` of a source is overtaken by an `assign` before it drops the thread. -/
def raceRun : List (AssignmentAct (Fin 3) (ℕ × ℕ)) :=
  let env : Environment := ⟨0, fun _ => false⟩
  AssignmentAct.assign 0 (1, 1) :: List.replicate 6 (AssignmentAct.step 0 env) ++
    AssignmentAct.unassign 0 (1, 1) 0 :: AssignmentAct.step 0 env ::
    AssignmentAct.assign 1 (1, 1) :: List.replicate 3 (AssignmentAct.step 1 env) ++
    AssignmentAct.step 0 env :: AssignmentAct.assign 2 (1, 1) :: List.replicate 7 (AssignmentAct.step 2 env)

def finalState (acts : List (AssignmentAct (Fin 3) (ℕ × ℕ))) :
    ThreadGroupAssignment (Fin 3) (ℕ × ℕ) := (machine.run (start 2) acts).getD (start 2)

theorem pinned_of_noRace_calm : (finalState calmRun).outstanding (1, 1) = [0] ∧
    (finalState calmRun).Pinned := by
  exact ⟨by decide, pinned_of_noRace 2 calmRun (by decide) rfl⟩

theorem race_not_pinned :
    ¬ ∀ (size : ℕ) (acts : List (AssignmentAct (Fin 3) (ℕ × ℕ)))
      (s : ThreadGroupAssignment (Fin 3) (ℕ × ℕ)),
      machine.run (start size) acts = some s → s.Pinned := by
  intro hall
  have hp := hall 2 raceRun (finalState raceRun) rfl (1, 1) (by decide) 0 (by decide) 1 (by decide)
  simp at hp

end Pinning

end V2IHub.Utils
