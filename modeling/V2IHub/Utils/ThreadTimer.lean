import V2IHub.Foundation.Machine
import Mathlib.Data.List.TakeWhile

/-! `ThreadTimer`: one run of `DoWork` against the calls of other threads. A step is a
section under the lock or an invocation of a tick with the clock reading before it. -/
namespace V2IHub.Utils.ThreadTimer
open V2IHub.Foundation

/-- Frequency and delay are milliseconds, time points are nanoseconds of the clock. -/
structure PeriodicTickData where
  Frequency : ℤ
  StartDelay : ℤ
  LastTickTime : ℤ
deriving DecidableEq

def nanoseconds (ms : ℤ) : ℤ := ms * 1000000

/-- `duration_cast<milliseconds>`, which truncates toward zero. -/
def milliseconds (ns : ℤ) : ℤ := ns.tdiv 1000000

/-- Where `DoWork` stands: `called` is between an invocation and its write-back. -/
inductive Worker where
  | idle
  | started (startTime : ℤ)
  | atLoop
  | atCopy (index : ℕ)
  | copied (index : ℕ) (tick : PeriodicTickData)
  | called (index : ℕ) (now : ℤ)
  | stopped
deriving DecidableEq

structure Timer where
  periodicTicks : List PeriodicTickData
  worker : Worker
  clock : ℤ
deriving DecidableEq

/-- A call of another thread or a step of `DoWork`, with the clock at that step. `copy` and
`endPass` are the two outcomes of one section, `invoke` and `skip` those of the check. -/
inductive Act where
  | addPeriodicTick (frequency startDelay now : ℤ)
  | changeFrequency (id : ℕ) (frequency : ℤ)
  | triggerNow (id : ℕ) (now : ℤ)
  | start (now : ℤ)
  | init
  | loop (running : Bool)
  | copy
  | endPass
  | invoke (index : ℕ) (now : ℤ)
  | skip (index : ℕ) (now : ℤ)
  | writeBack
deriving DecidableEq

def PeriodicTickData.due (tick : PeriodicTickData) (now : ℤ) : Bool :=
  tick.Frequency > 0 ∧ milliseconds (now - tick.LastTickTime) ≥ tick.Frequency

/-- A tick before its first write: the default time point is the epoch of the clock. -/
def PeriodicTickData.added (frequency startDelay : ℤ) : PeriodicTickData :=
  ⟨frequency, startDelay, 0⟩

def PeriodicTickData.changeFrequency (frequency : ℤ) (tick : PeriodicTickData) :
    PeriodicTickData :=
  { tick with Frequency := frequency }

def PeriodicTickData.triggerNow (now : ℤ) (tick : PeriodicTickData) : PeriodicTickData :=
  { tick with LastTickTime := now - nanoseconds tick.Frequency }

def PeriodicTickData.init (startTime : ℤ) (tick : PeriodicTickData) : PeriodicTickData :=
  { tick with
    LastTickTime := startTime - nanoseconds tick.Frequency + nanoseconds tick.StartDelay }

def PeriodicTickData.writeBack (now : ℤ) (tick : PeriodicTickData) : PeriodicTickData :=
  { tick with LastTickTime := now }

/-- An id out of range makes the two calls throw, so `modify` leaves the ticks alone. -/
def step (s : Timer) : Act → Option Timer
  | .addPeriodicTick frequency startDelay now =>
    if s.clock ≤ now then
      some { s with
        periodicTicks := s.periodicTicks ++ [.added frequency startDelay]
        clock := now }
    else none
  | .changeFrequency id frequency =>
    some { s with periodicTicks := s.periodicTicks.modify id (.changeFrequency frequency) }
  | .triggerNow id now =>
    if s.clock ≤ now then
      some { s with periodicTicks := s.periodicTicks.modify id (.triggerNow now), clock := now }
    else none
  | .start now =>
    if s.worker = .idle ∧ s.clock ≤ now then some { s with worker := .started now, clock := now }
    else none
  | .init =>
    match s.worker with
    | .started startTime =>
      some { s with periodicTicks := s.periodicTicks.map (.init startTime), worker := .atLoop }
    | _ => none
  | .loop running =>
    if s.worker = .atLoop then
      some { s with worker := if running then .atCopy 0 else .stopped }
    else none
  | .copy =>
    match s.worker with
    | .atCopy index =>
      match s.periodicTicks[index]? with
      | some tick => some { s with worker := .copied index tick }
      | none => none
    | _ => none
  | .endPass =>
    match s.worker with
    | .atCopy index =>
      if index ≥ s.periodicTicks.length then some { s with worker := .atLoop } else none
    | _ => none
  | .invoke index now =>
    match s.worker with
    | .copied i tick =>
      if i = index ∧ s.clock ≤ now ∧ tick.due now then
        some { s with worker := .called index now, clock := now }
      else none
    | _ => none
  | .skip index now =>
    match s.worker with
    | .copied i tick =>
      if i = index ∧ s.clock ≤ now ∧ ¬ tick.due now then
        some { s with worker := .atCopy (index + 1), clock := now }
      else none
    | _ => none
  | .writeBack =>
    match s.worker with
    | .called index now =>
      some { s with
        periodicTicks := s.periodicTicks.modify index (.writeBack now)
        worker := .atCopy (index + 1) }
    | _ => none

/-- One run of a timer. -/
def timer : Machine Timer Act := ⟨step⟩

def initial : Timer := ⟨[], .idle, 0⟩

/-- The step of the worker, as a relation that says all a worker step can do. -/
inductive WorkerStep : Timer → Act → Timer → Prop where
  | start {ticks clock now} : clock ≤ now →
      WorkerStep ⟨ticks, .idle, clock⟩ (.start now) ⟨ticks, .started now, now⟩
  | init {ticks clock startTime} :
      WorkerStep ⟨ticks, .started startTime, clock⟩ .init
        ⟨ticks.map (.init startTime), .atLoop, clock⟩
  | loop {ticks clock} : WorkerStep ⟨ticks, .atLoop, clock⟩ (.loop true) ⟨ticks, .atCopy 0, clock⟩
  | stop {ticks clock} : WorkerStep ⟨ticks, .atLoop, clock⟩ (.loop false) ⟨ticks, .stopped, clock⟩
  | copy {ticks clock index tick} : ticks[index]? = some tick →
      WorkerStep ⟨ticks, .atCopy index, clock⟩ .copy ⟨ticks, .copied index tick, clock⟩
  | endPass {ticks clock index} : ticks.length ≤ index →
      WorkerStep ⟨ticks, .atCopy index, clock⟩ .endPass ⟨ticks, .atLoop, clock⟩
  | invoke {ticks clock index tick now} : clock ≤ now → tick.due now = true →
      WorkerStep ⟨ticks, .copied index tick, clock⟩ (.invoke index now)
        ⟨ticks, .called index now, now⟩
  | skip {ticks clock index tick now} : clock ≤ now → tick.due now = false →
      WorkerStep ⟨ticks, .copied index tick, clock⟩ (.skip index now)
        ⟨ticks, .atCopy (index + 1), now⟩
  | writeBack {ticks clock index now} :
      WorkerStep ⟨ticks, .called index now, clock⟩ .writeBack
        ⟨ticks.modify index (.writeBack now), .atCopy (index + 1), clock⟩

/-- The call of another thread: the worker stays where it is. -/
inductive CallStep : Timer → Act → Timer → Prop where
  | add {ticks worker clock frequency startDelay now} : clock ≤ now →
      CallStep ⟨ticks, worker, clock⟩ (.addPeriodicTick frequency startDelay now)
        ⟨ticks ++ [.added frequency startDelay], worker, now⟩
  | change {ticks worker clock id frequency} :
      CallStep ⟨ticks, worker, clock⟩ (.changeFrequency id frequency)
        ⟨ticks.modify id (.changeFrequency frequency), worker, clock⟩
  | trigger {ticks worker clock id now} : clock ≤ now →
      CallStep ⟨ticks, worker, clock⟩ (.triggerNow id now)
        ⟨ticks.modify id (.triggerNow now), worker, now⟩

theorem step_cases {s t : Timer} {act : Act} (h : timer.step s act = some t) :
    CallStep s act t ∨ WorkerStep s act t := by
  change step s act = some t at h
  obtain ⟨ticks, worker, clock⟩ := s
  cases act with
  | addPeriodicTick frequency startDelay now =>
    simp only [step] at h
    split_ifs at h with hclock
    cases h
    exact Or.inl (.add hclock)
  | changeFrequency id frequency =>
    cases h
    exact Or.inl .change
  | triggerNow id now =>
    simp only [step] at h
    split_ifs at h with hclock
    cases h
    exact Or.inl (.trigger hclock)
  | start now =>
    simp only [step] at h
    split_ifs at h with hstart
    obtain ⟨rfl, hclock⟩ := hstart
    cases h
    exact Or.inr (.start hclock)
  | init =>
    cases worker <;> simp only [step, reduceCtorEq] at h
    cases h
    exact Or.inr .init
  | loop running =>
    simp only [step] at h
    obtain rfl : worker = .atLoop := by
      by_contra hloop
      simp [hloop] at h
    cases running with
    | true =>
      cases h
      exact Or.inr .loop
    | false =>
      cases h
      exact Or.inr .stop
  | copy =>
    cases worker <;> simp only [step, reduceCtorEq] at h
    split at h
    · next tick htick =>
      cases h
      exact Or.inr (.copy htick)
    · cases h
  | endPass =>
    cases worker <;> simp only [step, reduceCtorEq] at h
    split_ifs at h with hlength
    cases h
    exact Or.inr (.endPass hlength)
  | invoke index now =>
    cases worker <;> simp only [step, reduceCtorEq] at h
    split_ifs at h with hdue
    obtain ⟨rfl, hclock, hdue⟩ := hdue
    cases h
    exact Or.inr (.invoke hclock hdue)
  | skip index now =>
    cases worker <;> simp only [step, reduceCtorEq] at h
    split_ifs at h with hdue
    obtain ⟨rfl, hclock, hdue⟩ := hdue
    cases h
    exact Or.inr (.skip hclock (by simpa using hdue))
  | writeBack =>
    cases worker <;> simp only [step, reduceCtorEq] at h
    cases h
    exact Or.inr .writeBack

theorem due_iff (tick : PeriodicTickData) (now : ℤ) :
    tick.due now = true ↔
      0 < tick.Frequency ∧ tick.LastTickTime + nanoseconds tick.Frequency ≤ now := by
  unfold PeriodicTickData.due milliseconds nanoseconds
  simp only [decide_eq_true_eq, gt_iff_lt, ge_iff_le, and_congr_right_iff]
  intro hpos
  rcases le_or_gt 0 (now - tick.LastTickTime) with hnow | hnow
  · rw [Int.tdiv_eq_ediv_of_nonneg hnow, Int.le_ediv_iff_mul_le (by norm_num)]
    omega
  · have hswap : (now - tick.LastTickTime).tdiv 1000000 =
        -(tick.LastTickTime - now).tdiv 1000000 := by
      rw [← Int.neg_tdiv, neg_sub]
    have hpast : 0 ≤ (tick.LastTickTime - now).tdiv 1000000 :=
      Int.tdiv_nonneg (by omega) (by norm_num)
    omega

section Triggers
variable {s t : Timer} {id : ℕ} {act : Act}

/-- The tick would be due under this frequency. -/
def Timer.staysDue (s : Timer) (id : ℕ) (frequency : ℤ) : Prop :=
  ∀ tick, s.periodicTicks[id]? = some tick →
    0 < frequency ∧ tick.LastTickTime + nanoseconds frequency ≤ s.clock

/-- A change of the frequency of this tick leaves it due. -/
def keepsDue (id : ℕ) (s : Timer) (act : Act) : Prop :=
  ∀ frequency, act = .changeFrequency id frequency → s.staysDue id frequency

/-- The tick will be found due: it is so now, or the section that is about to initialise it
makes it so. -/
structure Owed (id : ℕ) (s : Timer) (tick : PeriodicTickData) : Prop where
  found : s.periodicTicks[id]? = some tick
  positive : 0 < tick.Frequency
  due : (∃ startTime, s.worker = .started startTime ∧ startTime ≤ s.clock ∧
      tick.StartDelay ≤ 0) ∨
    (∀ startTime, s.worker ≠ .started startTime) ∧
      tick.LastTickTime + nanoseconds tick.Frequency ≤ s.clock
  running : s.worker ≠ .idle
  notCalled : ∀ now, s.worker ≠ .called id now

/-- The pass has not gone beyond the tick, and a copy of it is due. -/
def Reaches (id : ℕ) (s : Timer) : Prop :=
  match s.worker with
  | .atCopy index => index ≤ id
  | .copied index tick => index < id ∨ index = id ∧ tick.due s.clock = true
  | .called index _ => index < id
  | _ => False

theorem PeriodicTickData.due_mono {tick : PeriodicTickData} {now later : ℤ}
    (h : tick.due now = true) (hle : now ≤ later) : tick.due later = true := by
  rw [due_iff] at h ⊢
  exact ⟨h.1, h.2.trans hle⟩

theorem getElem?_modify_self {ticks : List PeriodicTickData} {tick : PeriodicTickData} {id : ℕ}
    (h : ticks[id]? = some tick) (f : PeriodicTickData → PeriodicTickData) :
    (ticks.modify id f)[id]? = some (f tick) := by
  simp [h]

theorem getElem?_modify_ne {ticks : List PeriodicTickData} {i id : ℕ} (h : i ≠ id)
    (f : PeriodicTickData → PeriodicTickData) : (ticks.modify i f)[id]? = ticks[id]? := by
  simp [h]

/-- The clock goes on and the worker moves to a place that is not the start of a run. -/
theorem Owed.move {ticks ticks' : List PeriodicTickData} {worker worker' : Worker}
    {clock clock' : ℤ} {tick : PeriodicTickData} (h : Owed id ⟨ticks, worker, clock⟩ tick)
    (hworker : ∀ startTime, worker ≠ .started startTime)
    (hworker' : ∀ startTime, worker' ≠ .started startTime) (hidle : worker' ≠ .idle)
    (hcalled : ∀ now, worker' ≠ .called id now) (hclock : clock ≤ clock')
    (hticks : ticks'[id]? = ticks[id]?) : Owed id ⟨ticks', worker', clock'⟩ tick where
  found := hticks.trans h.found
  positive := h.positive
  due := by
    rcases h.due with ⟨startTime, hstarted, -⟩ | ⟨-, hdue⟩
    · exact absurd hstarted (hworker startTime)
    · exact Or.inr ⟨hworker', hdue.trans hclock⟩
  running := hidle
  notCalled := hcalled

theorem Owed.call {tick : PeriodicTickData} (h : Owed id s tick) (hstep : CallStep s act t)
    (hchange : keepsDue id s act) : ∃ tick', Owed id t tick' := by
  cases hstep with
  | @add ticks worker clock frequency startDelay now hclock =>
    have hlength : id < ticks.length := (List.getElem?_eq_some_iff.mp h.found).1
    refine ⟨tick, ?_, h.positive, ?_, h.running, h.notCalled⟩
    · rw [List.getElem?_append_left hlength]
      exact h.found
    · rcases h.due with ⟨startTime, hstarted, hle, hdelay⟩ | ⟨hworker, hdue⟩
      · exact Or.inl ⟨startTime, hstarted, hle.trans hclock, hdelay⟩
      · exact Or.inr ⟨hworker, hdue.trans hclock⟩
  | @change ticks worker clock id' frequency =>
    by_cases hid : id' = id
    · subst hid
      obtain ⟨hpos, hdue⟩ := hchange frequency rfl tick h.found
      refine ⟨tick.changeFrequency frequency, getElem?_modify_self h.found _, hpos, ?_,
        h.running, h.notCalled⟩
      rcases h.due with ⟨startTime, hstarted, hle, hdelay⟩ | ⟨hworker, -⟩
      · exact Or.inl ⟨startTime, hstarted, hle, hdelay⟩
      · exact Or.inr ⟨hworker, hdue⟩
    · exact ⟨tick, (getElem?_modify_ne hid _).trans h.found, h.positive, h.due, h.running,
        h.notCalled⟩
  | @trigger ticks worker clock id' now hclock =>
    have hnotStarted : (∃ startTime, worker = .started startTime ∧ startTime ≤ now ∧
        tick.StartDelay ≤ 0) ∨ ∀ startTime, worker ≠ .started startTime := by
      rcases h.due with ⟨startTime, hstarted, hle, hdelay⟩ | ⟨hworker, -⟩
      · exact Or.inl ⟨startTime, hstarted, hle.trans hclock, hdelay⟩
      · exact Or.inr hworker
    by_cases hid : id' = id
    · subst hid
      refine ⟨tick.triggerNow now, getElem?_modify_self h.found _, h.positive, ?_, h.running,
        h.notCalled⟩
      apply hnotStarted.imp_right
      intro hworker
      exact ⟨hworker, (sub_add_cancel now (nanoseconds tick.Frequency)).le⟩
    · refine ⟨tick, (getElem?_modify_ne hid _).trans h.found, h.positive, ?_, h.running,
        h.notCalled⟩
      rcases h.due with ⟨startTime, hstarted, hle, hdelay⟩ | ⟨hworker, hdue⟩
      · exact Or.inl ⟨startTime, hstarted, hle.trans hclock, hdelay⟩
      · exact Or.inr ⟨hworker, hdue.trans hclock⟩

theorem Owed.work {tick : PeriodicTickData} (h : Owed id s tick) (hstep : WorkerStep s act t)
    (hinvoke : ∀ now, act ≠ .invoke id now) : ∃ tick', Owed id t tick' := by
  cases hstep with
  | start hclock => exact absurd rfl h.running
  | @init ticks clock startTime =>
    rcases h.due with ⟨startTime', hstarted, hle, hdelay⟩ | ⟨hworker, -⟩
    · obtain rfl : startTime = startTime' := by simpa using hstarted
      refine ⟨tick.init startTime, ?_, h.positive, Or.inr ⟨by simp, ?_⟩, by simp, by simp⟩
      · simp only [List.getElem?_map, h.found, Option.map_some]
      · simp only [PeriodicTickData.init, nanoseconds] at hle ⊢
        omega
    · exact absurd rfl (hworker startTime)
  | loop => exact ⟨tick, h.move (by simp) (by simp) (by simp) (by simp) le_rfl rfl⟩
  | stop => exact ⟨tick, h.move (by simp) (by simp) (by simp) (by simp) le_rfl rfl⟩
  | copy htick => exact ⟨tick, h.move (by simp) (by simp) (by simp) (by simp) le_rfl rfl⟩
  | endPass hlength => exact ⟨tick, h.move (by simp) (by simp) (by simp) (by simp) le_rfl rfl⟩
  | @invoke ticks clock index copy now hclock hdue =>
    have hindex : index ≠ id := by
      rintro rfl
      exact hinvoke now rfl
    exact ⟨tick, h.move (by simp) (by simp) (by simp) (by simp [hindex]) hclock rfl⟩
  | skip hclock hdue => exact ⟨tick, h.move (by simp) (by simp) (by simp) (by simp) hclock rfl⟩
  | @writeBack ticks clock index now =>
    have hindex : index ≠ id := by
      rintro rfl
      exact h.notCalled now rfl
    exact ⟨tick, h.move (by simp) (by simp) (by simp) (by simp) le_rfl
      (getElem?_modify_ne hindex _)⟩

theorem Owed.step {tick : PeriodicTickData} (h : Owed id s tick)
    (hstep : timer.step s act = some t) (hchange : keepsDue id s act)
    (hinvoke : ∀ now, act ≠ .invoke id now) : ∃ tick', Owed id t tick' := by
  rcases step_cases hstep with hcall | hwork
  · exact h.call hcall hchange
  · exact h.work hwork hinvoke

theorem Owed.due_of_notStarted {tick : PeriodicTickData} (h : Owed id s tick)
    (hworker : ∀ startTime, s.worker ≠ .started startTime) : tick.due s.clock = true := by
  rw [due_iff]
  rcases h.due with ⟨startTime, hstarted, -⟩ | ⟨-, hdue⟩
  · exact absurd hstarted (hworker startTime)
  · exact ⟨h.positive, hdue⟩

theorem Reaches.call (h : Reaches id s) (hstep : CallStep s act t) : Reaches id t := by
  have hlater : ∀ {ticks ticks' : List PeriodicTickData} {worker : Worker} {clock clock' : ℤ},
      clock ≤ clock' → Reaches id ⟨ticks, worker, clock⟩ →
      Reaches id ⟨ticks', worker, clock'⟩ := by
    intro ticks ticks' worker clock clock' hclock h
    cases worker with
    | copied index tick =>
      rcases h with hindex | ⟨hindex, hdue⟩
      · exact Or.inl hindex
      · exact Or.inr ⟨hindex, PeriodicTickData.due_mono hdue hclock⟩
    | _ => exact h
  cases hstep with
  | add hclock => exact hlater hclock h
  | change => exact hlater le_rfl h
  | trigger hclock => exact hlater hclock h

/-- A pass that has not reached an owed tick goes on to it: it cannot end before, and it
cannot pass over the tick without the invocation. -/
theorem Reaches.work {tick : PeriodicTickData} (h : Reaches id s) (howed : Owed id s tick)
    (hstep : WorkerStep s act t) (hinvoke : ∀ now, act ≠ .invoke id now) : Reaches id t := by
  cases hstep with
  | start _ => exact h.elim
  | init => exact h.elim
  | loop => exact h.elim
  | stop => exact h.elim
  | @copy ticks clock index copy htick =>
    have hle : index ≤ id := h
    rcases hle.lt_or_eq with hlt | rfl
    · exact Or.inl hlt
    · obtain rfl : copy = tick := Option.some.inj (htick.symm.trans howed.found)
      exact Or.inr ⟨rfl, howed.due_of_notStarted (by simp)⟩
  | @endPass ticks clock index hlength =>
    have hle : index ≤ id := h
    have hlt : id < ticks.length := (List.getElem?_eq_some_iff.mp howed.found).1
    omega
  | @invoke ticks clock index copy now hclock hdue =>
    rcases h with hlt | ⟨rfl, -⟩
    · exact hlt
    · exact absurd rfl (hinvoke now)
  | @skip ticks clock index copy now hclock hdue =>
    rcases h with hlt | ⟨rfl, hcopy⟩
    · exact Nat.succ_le_of_lt hlt
    · have hnow := PeriodicTickData.due_mono hcopy hclock
      rw [hdue] at hnow
      cases hnow
  | @writeBack ticks clock index now =>
    have hlt : index < id := h
    exact Nat.succ_le_of_lt hlt

def Act.invokes (id : ℕ) : Act → Bool
  | .invoke index _ => index = id
  | _ => false

/-- What holds of an owed tick until it is invoked. -/
theorem run_owed {acts : List Act} {tick : PeriodicTickData} (h : Owed id s tick)
    (hobeys : timer.Obeys (keepsDue id) s acts) (hacts : ∀ act ∈ acts, act.invokes id = false)
    (hrun : timer.run s acts = some t) : ∃ tick', Owed id t tick' := by
  have hinv : ∀ u act v, (∃ tick, Owed id u tick) →
      (keepsDue id u act ∧ act.invokes id = false) → timer.step u act = some v →
      ∃ tick, Owed id v tick := by
    rintro u act v ⟨tick, howed⟩ ⟨hchange, hinvoke⟩ hstep
    apply howed.step hstep hchange
    rintro now rfl
    simp [Act.invokes] at hinvoke
  exact Machine.obeys_invariant hinv ⟨tick, h⟩ (Machine.obeys_and_mem hobeys hacts) hrun

/-- From the beginning of a pass on. -/
theorem run_reaches {acts : List Act} {tick : PeriodicTickData} (h : Owed id s tick)
    (hreaches : Reaches id s) (hobeys : timer.Obeys (keepsDue id) s acts)
    (hacts : ∀ act ∈ acts, act.invokes id = false) (hrun : timer.run s acts = some t) :
    (∃ tick', Owed id t tick') ∧ Reaches id t := by
  have hinv : ∀ u act v, (∃ tick, Owed id u tick) ∧ Reaches id u →
      (keepsDue id u act ∧ act.invokes id = false) → timer.step u act = some v →
      (∃ tick, Owed id v tick) ∧ Reaches id v := by
    rintro u act v ⟨⟨tick, howed⟩, hreaches⟩ ⟨hchange, hinvoke⟩ hstep
    have hnot : ∀ now, act ≠ .invoke id now := by
      rintro now rfl
      simp [Act.invokes] at hinvoke
    refine ⟨howed.step hstep hchange hnot, ?_⟩
    rcases step_cases hstep with hcall | hwork
    · exact hreaches.call hcall
    · exact hreaches.work howed hwork hnot
  exact Machine.obeys_invariant hinv ⟨⟨tick, h⟩, hreaches⟩
    (Machine.obeys_and_mem hobeys hacts) hrun

/-- Each `TriggerNow` of a tick with a positive frequency that a running timer gets is
followed by an invocation of the tick before the end of a pass that begins after it. -/
def TriggersAnswered (acts : List Act) : Prop :=
  ∀ pre id now a b c s tick,
    acts = pre ++ Act.triggerNow id now :: (a ++ Act.loop true :: (b ++ Act.endPass :: c)) →
    timer.run initial pre = some s → s.worker ≠ .idle →
    s.periodicTicks[id]? = some tick → 0 < tick.Frequency →
    ∃ act ∈ a ++ b, act.invokes id = true

/-- No trigger comes between an invocation of its tick and the write-back, nor before the
initialisation of a delayed tick, and until the tick is invoked each change of its
frequency leaves it due. -/
def KeepsTriggers (acts : List Act) : Prop :=
  ∀ pre id now post s t tick, acts = pre ++ .triggerNow id now :: post →
    timer.run initial pre = some s → timer.step s (.triggerNow id now) = some t →
    s.worker ≠ .idle → s.periodicTicks[id]? = some tick → 0 < tick.Frequency →
    (∀ time, s.worker ≠ .called id time) ∧
      (∀ startTime, s.worker = .started startTime → tick.StartDelay ≤ 0) ∧
      timer.Obeys (keepsDue id) t (post.takeWhile fun act => !act.invokes id)

theorem run_started {acts : List Act} (hrun : timer.run initial acts = some s) {startTime : ℤ}
    (h : s.worker = .started startTime) : startTime ≤ s.clock := by
  have hinv : ∀ u act v, (∀ startTime, u.worker = .started startTime → startTime ≤ u.clock) →
      timer.step u act = some v →
      ∀ startTime, v.worker = .started startTime → startTime ≤ v.clock := by
    intro u act v hu hstep startTime hworker
    rcases step_cases hstep with hcall | hwork
    · cases hcall with
      | add hclock => exact (hu startTime hworker).trans hclock
      | change => exact hu startTime hworker
      | trigger hclock => exact (hu startTime hworker).trans hclock
    · cases hwork <;> cases hworker
      exact le_rfl
  exact Machine.run_invariant hinv (by simp [initial]) hrun startTime h

theorem triggerNow_owed {acts : List Act} {now : ℤ} {tick : PeriodicTickData}
    (hrun : timer.run initial acts = some s) (hstep : timer.step s (.triggerNow id now) = some t)
    (hidle : s.worker ≠ .idle) (htick : s.periodicTicks[id]? = some tick)
    (hpos : 0 < tick.Frequency) (hcalled : ∀ time, s.worker ≠ .called id time)
    (hdelay : ∀ startTime, s.worker = .started startTime → tick.StartDelay ≤ 0) :
    Owed id t (tick.triggerNow now) := by
  simp only [timer, step] at hstep
  split_ifs at hstep with hclock
  cases hstep
  refine ⟨getElem?_modify_self htick _, hpos, ?_, hidle, hcalled⟩
  by_cases hworker : ∃ startTime, s.worker = .started startTime
  · obtain ⟨startTime, hworker⟩ := hworker
    exact Or.inl ⟨startTime, hworker, (run_started hrun hworker).trans hclock,
      hdelay startTime hworker⟩
  · refine Or.inr ⟨fun startTime h => hworker ⟨startTime, h⟩, ?_⟩
    simp [PeriodicTickData.triggerNow]

theorem run_triggersAnswered {acts : List Act} (hrun : timer.run initial acts = some s)
    (hkeeps : KeepsTriggers acts) : TriggersAnswered acts := by
  rintro pre id now a b c s₀ tick rfl hpre hidle htick hpos
  by_contra hnone
  have hnot : ∀ act ∈ a ++ b, act.invokes id = false := by
    intro act hact
    by_contra hinvokes
    exact hnone ⟨act, hact, by simpa using hinvokes⟩
  obtain ⟨s₀', hpre', hrest⟩ := Machine.run_append_eq_some.mp hrun
  obtain rfl : s₀ = s₀' := Option.some.inj (hpre.symm.trans hpre')
  obtain ⟨s₁, htrigger, hrest⟩ := Machine.run_cons_eq_some.mp hrest
  obtain ⟨s₂, ha, hrest⟩ := Machine.run_append_eq_some.mp hrest
  obtain ⟨s₃, hloop, hrest⟩ := Machine.run_cons_eq_some.mp hrest
  obtain ⟨s₄, hb, hrest⟩ := Machine.run_append_eq_some.mp hrest
  obtain ⟨s₅, hend, -⟩ := Machine.run_cons_eq_some.mp hrest
  obtain ⟨hcalled, hdelay, hobeys⟩ :=
    hkeeps pre id now _ s₀ s₁ tick rfl hpre htrigger hidle htick hpos
  have howed := triggerNow_owed hpre htrigger hidle htick hpos hcalled hdelay
  have hbefore : ∀ act ∈ a, (!act.invokes id) = true := by
    intro act hact
    simp [hnot act (List.mem_append_left b hact)]
  have hpass : ∀ act ∈ b, (!act.invokes id) = true := by
    intro act hact
    simp [hnot act (List.mem_append_right a hact)]
  rw [List.takeWhile_append_of_pos hbefore, List.takeWhile_cons_of_pos (by rfl),
    List.takeWhile_append_of_pos hpass] at hobeys
  have hobeys₂ := Machine.obeys_append hobeys ha
  obtain ⟨tick₂, howed₂⟩ := run_owed howed (Machine.obeys_of_append hobeys)
    (fun act hact => hnot act (List.mem_append_left b hact)) ha
  obtain ⟨hkeep, hobeys₃⟩ := (Machine.obeys_cons hloop).mp hobeys₂
  obtain ⟨tick₃, howed₃⟩ := howed₂.step hloop hkeep (by simp)
  have hreaches₃ : Reaches id s₃ := by
    rcases step_cases hloop with hcall | hwork
    · cases hcall
    · cases hwork
      exact Nat.zero_le id
  obtain ⟨⟨tick₄, howed₄⟩, hreaches₄⟩ := run_reaches howed₃ hreaches₃
    (Machine.obeys_of_append hobeys₃) (fun act hact => hnot act (List.mem_append_right a hact)) hb
  rcases step_cases hend with hcall | hwork
  · cases hcall
  · have hreaches₅ := hreaches₄.work howed₄ hwork (by simp)
    cases hwork
    exact hreaches₅

theorem split_at {acts pre post : List Act} {act : Act} (h : acts = pre ++ act :: post) :
    pre = acts.take pre.length ∧ acts[pre.length]? = some act ∧
      post = acts.drop (pre.length + 1) := by
  subst h
  simp

/-- A trigger between two passes. -/
def sampleTrigger : List Act :=
  [.addPeriodicTick 100 0 0, .start 0, .init, .loop true, .copy, .invoke 0 0, .writeBack,
    .endPass, .triggerNow 0 5, .loop true, .copy, .invoke 0 10, .writeBack, .endPass]

theorem sampleTrigger_keepsTriggers : KeepsTriggers sampleTrigger := by
  intro pre id now post s t tick hacts hrun hstep hidle htick hpos
  obtain ⟨hpre, hat, hpost⟩ := split_at hacts
  have hlength : pre.length < 14 := (List.getElem?_eq_some_iff.mp hat).1
  generalize pre.length = n at hpre hat hpost hlength
  interval_cases n
  all_goals cases hat
  subst hpre hpost
  obtain rfl := Option.some.inj hrun
  obtain rfl := Option.some.inj hstep
  refine ⟨by simp, by simp, ?_⟩
  refine ⟨?_, ?_, trivial⟩ <;> exact fun frequency h => by cases h

theorem run_triggersAnswered_sample :
    (timer.run initial sampleTrigger).isSome = true ∧ TriggersAnswered sampleTrigger :=
  ⟨rfl, run_triggersAnswered rfl sampleTrigger_keepsTriggers⟩

/-- A tick of 100 ms is invoked, triggered before the write-back, and not due in the next
pass. -/
def lostTrigger : List Act :=
  [.addPeriodicTick 100 0 0, .start 0, .init, .loop true, .copy, .invoke 0 0, .triggerNow 0 5,
    .writeBack, .endPass, .loop true, .copy, .skip 0 1000000, .endPass]

/-- A tick is triggered and its frequency raised before the worker looks at it. -/
def raisedFrequency : List Act :=
  [.addPeriodicTick 100 0 0, .start 0, .init, .loop true, .copy, .invoke 0 0, .writeBack,
    .endPass, .triggerNow 0 5, .changeFrequency 0 500, .loop true, .copy, .skip 0 1000000,
    .endPass]

theorem run_triggersAnswered_fails :
    ((timer.run initial lostTrigger).isSome = true ∧ ¬ TriggersAnswered lostTrigger) ∧
      (timer.run initial raisedFrequency).isSome = true ∧ ¬ TriggersAnswered raisedFrequency := by
  refine ⟨⟨by decide +kernel, ?_⟩, by decide +kernel, ?_⟩
  · intro h
    obtain ⟨act, hact, hinvokes⟩ := h
      [.addPeriodicTick 100 0 0, .start 0, .init, .loop true, .copy, .invoke 0 0] 0 5
      [.writeBack, .endPass] [.copy, .skip 0 1000000] [] _ _ rfl rfl (by decide) rfl (by decide)
    revert act
    decide
  · intro h
    obtain ⟨act, hact, hinvokes⟩ := h
      [.addPeriodicTick 100 0 0, .start 0, .init, .loop true, .copy, .invoke 0 0, .writeBack,
        .endPass] 0 5
      [.changeFrequency 0 500] [.copy, .skip 0 1000000] [] _ _ rfl rfl (by decide) rfl (by decide)
    revert act
    decide

end Triggers

end V2IHub.Utils.ThreadTimer
